import AutoTrade.Orders.OrderPersistence

/-! # Fills under status updates

What a sequence of `update_order_status` calls makes of the fills an order
holds, the broker's reports being cumulative. Both quantities are optional
arguments with the default 0, and an accepted update writes them over what is
stored, so one that only tells a new status takes the fills away.
-/

namespace AutoTrade.Orders

open AutoTrade.Library

/-! ## One update -/

/-- A call of `update_order_status`; the two quantities may be left out. -/
structure UpdateCall where
  now : Time
  brokerOrderId : String
  newStatus : OrderStatus
  filledQty : Option Int := none
  avgPrice : Option ℚ := none

/-- The order after an accepted update. -/
def OrderState.updatedBy (o : OrderState) (call : UpdateCall) : OrderState :=
  { o with status := call.newStatus, filledQty := call.filledQty.getD 0
           avgPrice := call.avgPrice.getD 0, updatedAt := call.now }

namespace OrderManager

def update (mgr : OrderManager) (call : UpdateCall) : OrderManager :=
  mgr.updateOrderStatus call.now call.brokerOrderId call.newStatus (call.filledQty.getD 0)
    (call.avgPrice.getD 0)

/-- The order an update for this broker order id finds. -/
def updatedOrder (mgr : OrderManager) (brokerOrderId : String) : Option OrderState :=
  (mgr.brokerMap.get? brokerOrderId).bind fun intentId =>
    if intentId = "" then none else mgr.orders.get? intentId

/-- The update finds no order, or one that must not go to the new status. -/
def Refused (mgr : OrderManager) (call : UpdateCall) : Prop :=
  ∀ o ∈ mgr.updatedOrder call.brokerOrderId, call.newStatus ∉ validTransitions o.status

/-- Every order stands under its own intent id. -/
def Keyed (mgr : OrderManager) : Prop :=
  ∀ id o, mgr.orders.get? id = some o → o.intentId = id

theorem update_eq (mgr : OrderManager) (call : UpdateCall) :
    mgr.update call =
      match mgr.updatedOrder call.brokerOrderId with
      | none => mgr
      | some o =>
          if call.newStatus ∈ validTransitions o.status then mgr.writeOrder (o.updatedBy call)
          else mgr := by
  unfold update updateOrderStatus updatedOrder
  cases mgr.brokerMap.get? call.brokerOrderId with
  | none => rfl
  | some intentId => rfl

theorem update_of_refused {mgr : OrderManager} {call : UpdateCall} (refused : mgr.Refused call) :
    mgr.update call = mgr := by
  rw [update_eq]
  cases hfound : mgr.updatedOrder call.brokerOrderId with
  | none => rfl
  | some o => exact if_neg (refused o hfound)

theorem Keyed.updatedOrder {mgr : OrderManager} (keyed : mgr.Keyed) {brokerOrderId : String}
    {o : OrderState} (found : mgr.updatedOrder brokerOrderId = some o) :
    mgr.brokerMap.get? brokerOrderId = some o.intentId ∧ mgr.orders.get? o.intentId = some o := by
  obtain ⟨intentId, hmap, hheld⟩ := Option.bind_eq_some_iff.mp found
  split at hheld
  · cases hheld
  · cases keyed intentId o hheld
    exact ⟨hmap, hheld⟩

/-- An update is refused, or it writes the order it finds. -/
theorem Keyed.update_cases {mgr : OrderManager} (keyed : mgr.Keyed) (call : UpdateCall) :
    (mgr.Refused call ∧ mgr.update call = mgr) ∨
      ∃ o, mgr.updatedOrder call.brokerOrderId = some o ∧
        call.newStatus ∈ validTransitions o.status ∧
        mgr.brokerMap.get? call.brokerOrderId = some o.intentId ∧
        mgr.orders.get? o.intentId = some o ∧
        mgr.update call = mgr.writeOrder (o.updatedBy call) := by
  by_cases hrefused : mgr.Refused call
  · exact .inl ⟨hrefused, update_of_refused hrefused⟩
  · unfold Refused at hrefused
    push Not at hrefused
    obtain ⟨o, hfound, hvalid⟩ := hrefused
    obtain ⟨hmap, hheld⟩ := keyed.updatedOrder hfound
    refine .inr ⟨o, hfound, hvalid, hmap, hheld, ?_⟩
    rw [update_eq, Option.mem_def.mp hfound]
    exact if_pos hvalid

/-! ## Orders under their own intents -/

theorem Keyed.set {mgr : OrderManager} (keyed : mgr.Keyed) (o : OrderState) {next : OrderManager}
    (written : next.orders = mgr.orders.set o.intentId o) : next.Keyed := by
  intro id x hx
  rw [written, Dict.get?_set] at hx
  split at hx
  · rename_i hid
    cases hx
    exact hid.symm
  · exact keyed id x hx

theorem keyed_of_openOn {uuid : String} {t : OrdersTable} {mgr : OrderManager}
    (opened : openOn uuid t = .ok mgr) : mgr.Keyed :=
  openOn_invariant (I := Keyed) (fun _ _ h => by cases h) (fun _ _ o _ keyed => keyed.set o rfl)
    opened

theorem orders_conclude (mgr : OrderManager) (call : IntentCall) (response : OrderResponse) :
    (mgr.conclude call response).orders =
      mgr.orders.set (concludedOrder call response).intentId (concludedOrder call response) := by
  unfold conclude
  split
  · rfl
  · simp [writeOrder, persistOrder]

theorem Keyed.executeIntent {mgr : OrderManager} (keyed : mgr.Keyed) (call : IntentCall) :
    (mgr.executeIntent call).1.Keyed := by
  cases hget : mgr.orders.get? call.intentId with
  | some o =>
      rw [executeIntent_of_known hget]
      exact keyed
  | none =>
      have hpre : (mgr.preSubmit (newOrder call)).Keyed := keyed.set (newOrder call) rfl
      rw [executeIntent_of_new hget]
      cases call.gateway.placeOrder call.request with
      | error e => exact hpre
      | ok response =>
          exact hpre.set (concludedOrder call response) (orders_conclude _ call response)

theorem Keyed.updateOrderStatus {mgr : OrderManager} (keyed : mgr.Keyed) (now : Time)
    (brokerOrderId : String) (newStatus : OrderStatus) (filledQty : Int) (avgPrice : ℚ) :
    (mgr.updateOrderStatus now brokerOrderId newStatus filledQty avgPrice).Keyed := by
  rcases updateOrderStatus_cases mgr now brokerOrderId newStatus filledQty avgPrice with
    hsame | ⟨intentId, o, -, hwrite⟩
  · rw [hsame]
    exact keyed
  · rw [hwrite]
    exact keyed.set { o with status := newStatus, filledQty, avgPrice, updatedAt := now } rfl

theorem Keyed.step {h : OrderHistory} (op : ManagerCall) (keyed : h.manager.Keyed) :
    (h.step op).manager.Keyed := by
  cases op with
  | executeIntent call => exact keyed.executeIntent call
  | updateOrderStatus now brokerOrderId newStatus filledQty avgPrice =>
      exact keyed.updateOrderStatus now brokerOrderId newStatus filledQty avgPrice

/-! ## Cumulative reports -/

/-- The fills the calls report for the order of this intent. -/
def reports (mgr : OrderManager) (intentId : String) (calls : List UpdateCall) : List Int :=
  calls.filterMap fun call =>
    if mgr.brokerMap.get? call.brokerOrderId = some intentId then call.filledQty else none

/-- The fills reported for an order are never below those reported before, the fills it holds among
them. -/
def CumulativeReports (mgr : OrderManager) (calls : List UpdateCall) : Prop :=
  ∀ id o, mgr.orders.get? id = some o →
    (o.filledQty :: mgr.reports id calls).Pairwise (· ≤ ·) ∧ ∀ q ∈ mgr.reports id calls, 0 ≤ q

theorem reports_update (mgr : OrderManager) (call : UpdateCall) (intentId : String)
    (calls : List UpdateCall) :
    (mgr.update call).reports intentId calls = mgr.reports intentId calls := by
  have hmap : (mgr.update call).brokerMap = mgr.brokerMap := by
    rw [update_eq]
    split
    · rfl
    · split <;> rfl
  unfold reports
  rw [hmap]

theorem reports_cons_of_mapped {mgr : OrderManager} {call : UpdateCall} {intentId : String}
    (mapped : mgr.brokerMap.get? call.brokerOrderId = some intentId) (calls : List UpdateCall) :
    mgr.reports intentId (call :: calls) = call.filledQty.toList ++ mgr.reports intentId calls := by
  unfold reports
  cases hqty : call.filledQty <;> simp [mapped, hqty]

theorem reports_cons_sublist (mgr : OrderManager) (call : UpdateCall) (intentId : String)
    (calls : List UpdateCall) :
    (mgr.reports intentId calls).Sublist (mgr.reports intentId (call :: calls)) :=
  (List.sublist_cons_self call calls).filterMap _

/-- A report made now lies between the fills held and all later reports; without one, later reports
are still not negative. -/
theorem CumulativeReports.reported {mgr : OrderManager} {call : UpdateCall} {o : OrderState}
    {calls : List UpdateCall} (cumulative : mgr.CumulativeReports (call :: calls))
    (mapped : mgr.brokerMap.get? call.brokerOrderId = some o.intentId)
    (held : mgr.orders.get? o.intentId = some o) :
    (∀ q ∈ call.filledQty, o.filledQty ≤ q) ∧
      (call.filledQty.getD 0 :: mgr.reports o.intentId calls).Pairwise (· ≤ ·) := by
  obtain ⟨hsorted, hnonneg⟩ := cumulative o.intentId o held
  rw [reports_cons_of_mapped mapped] at hsorted hnonneg
  cases hqty : call.filledQty with
  | none =>
      rw [hqty] at hsorted hnonneg
      refine ⟨fun q hq => (by cases hq), List.pairwise_cons.mpr ⟨hnonneg, ?_⟩⟩
      exact (List.pairwise_cons.mp hsorted).2
  | some q =>
      rw [hqty] at hsorted
      obtain ⟨hheld, hlater⟩ := List.pairwise_cons.mp hsorted
      refine ⟨?_, hlater⟩
      intro r hr
      cases hr
      exact hheld q List.mem_cons_self

/-- What an update leaves under an intent: the order as it was, or the update of the one found. -/
theorem Keyed.get?_update {mgr : OrderManager} (keyed : mgr.Keyed) (call : UpdateCall) {id : String}
    {o : OrderState} (held : mgr.orders.get? id = some o) :
    (mgr.update call).orders.get? id = some o ∨
      (mgr.updatedOrder call.brokerOrderId = some o ∧ call.newStatus ∈ validTransitions o.status ∧
        mgr.brokerMap.get? call.brokerOrderId = some o.intentId ∧
        (mgr.update call).orders.get? id = some (o.updatedBy call)) := by
  rcases keyed.update_cases call with ⟨-, hsame⟩ | ⟨x, hfound, hvalid, hmap, hheld, hwrite⟩
  · rw [hsame]
    exact .inl held
  · rw [hwrite]
    by_cases hid : id = x.intentId
    · subst hid
      cases hheld.symm.trans held
      exact .inr ⟨hfound, hvalid, hmap, Dict.get?_set_self _ _ _⟩
    · exact .inl ((Dict.get?_set_of_ne _ _ hid).trans held)

theorem CumulativeReports.step {mgr : OrderManager} {call : UpdateCall} {calls : List UpdateCall}
    (cumulative : mgr.CumulativeReports (call :: calls)) (keyed : mgr.Keyed) :
    (mgr.update call).CumulativeReports calls := by
  intro id o' hafter
  rw [reports_update]
  have hknown : ∃ o, mgr.orders.get? id = some o := by
    rcases keyed.update_cases call with ⟨-, hsame⟩ | ⟨x, -, -, -, hheld, hwrite⟩
    · exact ⟨o', hsame ▸ hafter⟩
    · rw [hwrite] at hafter
      by_cases hid : id = x.intentId
      · exact ⟨x, hid ▸ hheld⟩
      · exact ⟨o', (Dict.get?_set_of_ne _ _ hid).symm.trans hafter⟩
  obtain ⟨o, hheld⟩ := hknown
  obtain ⟨hsorted, hnonneg⟩ := cumulative id o hheld
  have hsub := mgr.reports_cons_sublist call id calls
  refine ⟨?_, fun q hq => hnonneg q (hsub.mem hq)⟩
  rcases keyed.get?_update call hheld with hsame | ⟨-, -, hmap, hwritten⟩
  · cases hsame.symm.trans hafter
    exact hsorted.sublist (hsub.cons_cons _)
  · cases hwritten.symm.trans hafter
    cases keyed id o hheld
    exact (cumulative.reported hmap hheld).2

/-! ## What an update keeps -/

/-- An order either stays as it is or, found by the update, goes to an allowed status, and in
neither case loses fills; a refused update leaves the manager and its table alone, and an accepted
one is in the table as it is in memory. -/
structure KeepsFills (mgr : OrderManager) (call : UpdateCall) : Prop where
  follows : ∀ id o, mgr.orders.get? id = some o →
    ∃ o', (mgr.update call).orders.get? id = some o' ∧ o.filledQty ≤ o'.filledQty ∧
      (o' = o ∨ mgr.updatedOrder call.brokerOrderId = some o ∧ o'.status = call.newStatus ∧
        call.newStatus ∈ validTransitions o.status)
  refused : mgr.Refused call → mgr.update call = mgr
  persisted : ∀ o ∈ mgr.updatedOrder call.brokerOrderId,
    call.newStatus ∈ validTransitions o.status →
      ∃ o', (mgr.update call).orders.get? o.intentId = some o' ∧ o'.status = call.newStatus ∧
        (mgr.update call).table.find? o.intentId = some o'.row

/-- An accepted update without a quantity finds an order without fills. -/
def ReportsHeldFills (mgr : OrderManager) (call : UpdateCall) : Prop :=
  ∀ o ∈ mgr.updatedOrder call.brokerOrderId, call.newStatus ∈ validTransitions o.status →
    call.filledQty = none → o.filledQty ≤ 0

instance (mgr : OrderManager) (call : UpdateCall) : Decidable (mgr.ReportsHeldFills call) :=
  inferInstanceAs (Decidable (∀ o ∈ mgr.updatedOrder call.brokerOrderId, _ → _ → _))

theorem find?_update {mgr : OrderManager} {call : UpdateCall} {o : OrderState}
    (found : mgr.updatedOrder call.brokerOrderId = some o)
    (valid : call.newStatus ∈ validTransitions o.status) :
    ∃ o', (mgr.update call).orders.get? o.intentId = some o' ∧ o'.status = call.newStatus ∧
      (mgr.update call).table.find? o.intentId = some o'.row := by
  have hwrite : mgr.update call = mgr.writeOrder (o.updatedBy call) := by
    rw [update_eq, found]
    exact if_pos valid
  rw [hwrite]
  refine ⟨o.updatedBy call, Dict.get?_set_self _ _ _, rfl, ?_⟩
  exact (OrdersTable.find?_insertOrReplace _ _ _).trans (if_pos rfl)

theorem keepsFills_iff {mgr : OrderManager} {call : UpdateCall} {calls : List UpdateCall}
    (keyed : mgr.Keyed) (cumulative : mgr.CumulativeReports (call :: calls)) :
    mgr.KeepsFills call ↔ mgr.ReportsHeldFills call := by
  constructor
  · intro keeps o hfound hvalid homitted
    obtain ⟨-, hheld⟩ := keyed.updatedOrder hfound
    obtain ⟨o', hafter, hle, -⟩ := keeps.follows o.intentId o hheld
    have hwrite : mgr.update call = mgr.writeOrder (o.updatedBy call) := by
      rw [update_eq, Option.mem_def.mp hfound]
      exact if_pos hvalid
    rw [hwrite] at hafter
    cases (Dict.get?_set_self _ _ _).symm.trans hafter
    simpa [OrderState.updatedBy, homitted] using hle
  · intro held
    refine ⟨?_, update_of_refused, fun o hfound hvalid => find?_update hfound hvalid⟩
    intro id o hheld
    rcases keyed.get?_update call hheld with hsame | ⟨hfound, hvalid, hmap, hwritten⟩
    · exact ⟨o, hsame, le_rfl, .inl rfl⟩
    · refine ⟨o.updatedBy call, hwritten, ?_, .inr ⟨hfound, rfl, hvalid⟩⟩
      cases keyed id o hheld
      cases hqty : call.filledQty with
      | none => simpa [OrderState.updatedBy, hqty] using held o hfound hvalid hqty
      | some q =>
          simpa [OrderState.updatedBy, hqty] using
            (cumulative.reported hmap hheld).1 q hqty

/-! ## Sequences of updates -/

/-- From every manager that can be reached, a sequence of updates keeps the fills throughout
exactly when each accepted one that leaves out the quantity finds an order without fills. -/
theorem updates_keep_fills_iff {uuid : String} {t : OrdersTable} {opened : OrderManager}
    (hopened : openOn uuid t = .ok opened) (earlier : List ManagerCall) (calls : List UpdateCall)
    (cumulative :
      (run OrderHistory.step (.opened opened) earlier).manager.CumulativeReports calls) :
    StepsMeet update KeepsFills (run OrderHistory.step (.opened opened) earlier).manager calls ↔
      StepsMeet update ReportsHeldFills (run OrderHistory.step (.opened opened) earlier).manager
        calls := by
  have hkeyed : (run OrderHistory.step (.opened opened) earlier).manager.Keyed :=
    run_invariant (I := fun h : OrderHistory => h.manager.Keyed)
      (fun _ op keyed => Keyed.step op keyed) (keyed_of_openOn hopened) earlier
  generalize (run OrderHistory.step (.opened opened) earlier).manager = mgr at cumulative hkeyed ⊢
  induction calls generalizing mgr with
  | nil => exact Iff.rfl
  | cons call rest ih =>
      have hnext : (mgr.update call).Keyed := hkeyed.updateOrderStatus _ _ _ _ _
      exact and_congr (keepsFills_iff hkeyed cumulative) (ih _ (cumulative.step hkeyed) hnext)

/-- A market order acknowledged by the broker as `B-1`. -/
def acknowledgedHistory : OrderHistory :=
  run OrderHistory.step (.opened { table := .empty })
    [.executeIntent (sampleCall "I-1" "MARKET" "B-1")]

def fillReport (newStatus : OrderStatus) (filledQty : Option Int) : UpdateCall :=
  { now := second, brokerOrderId := "B-1", newStatus, filledQty
    avgPrice := filledQty.map fun _ => 150 }

theorem cumulativeReports_of_reports {calls : List UpdateCall}
    (h : (0 :: acknowledgedHistory.manager.reports "I-1" calls).Pairwise (· ≤ ·)) :
    acknowledgedHistory.manager.CumulativeReports calls := by
  intro id o hheld
  have hrow : (id, o) ∈ acknowledgedHistory.manager.orders.rows :=
    (Dict.get?_eq_some_iff _ _ _).mp hheld
  have hsole : acknowledgedHistory.manager.orders.rows =
      [("I-1", (concludedOrder (sampleCall "I-1" "MARKET" "B-1")
        { orderId := "B-1", status := .acknowledged }))] := rfl
  rw [hsole] at hrow
  cases List.mem_singleton.mp hrow
  exact ⟨h, (List.pairwise_cons.mp h).1⟩

theorem reported_fills_kept :
    StepsMeet update KeepsFills acknowledgedHistory.manager
      [fillReport .partialFill (some 25), fillReport .acknowledged none,
        fillReport .filled (some 75)] := by
  have hopened : openOn "U" .empty = .ok { table := .empty } := rfl
  refine (updates_keep_fills_iff hopened _ _ (cumulativeReports_of_reports ?_)).mpr ?_
  · decide
  · decide +kernel

/-- A partial fill of 25, and then the cancellation is pending: the fills are gone. -/
theorem cancel_pending_loses_fills :
    openOn "U" .empty = .ok { table := .empty } ∧
      acknowledgedHistory.manager.CumulativeReports
        [fillReport .partialFill (some 25), fillReport .cancelPending none] ∧
      ¬ StepsMeet update KeepsFills acknowledgedHistory.manager
        [fillReport .partialFill (some 25), fillReport .cancelPending none] := by
  refine ⟨rfl, cumulativeReports_of_reports (by decide), fun h => ?_⟩
  let filled := acknowledgedHistory.manager.update (fillReport .partialFill (some 25))
  have hfilled : filled.orders.get? "I-1" = some ((concludedOrder (sampleCall "I-1" "MARKET" "B-1")
        { orderId := "B-1", status := .acknowledged }).updatedBy
          (fillReport .partialFill (some 25))) := rfl
  obtain ⟨o', hafter, hle, -⟩ := h.2.1.follows "I-1" _ hfilled
  cases hafter
  exact absurd hle (by decide)

end OrderManager

end AutoTrade.Orders
