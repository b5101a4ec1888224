import AutoTrade.Reconciliation.Service

/-! # What the detectors find

Each detector is characterised by the rows and broker orders it reports, and a
run by the issues it finds and repairs. A run that cannot read a number reports
nothing else.
-/

namespace AutoTrade.Reconciliation

open AutoTrade.Library ReconciliationService

/-! ## Rows and broker orders -/

theorem OrdersDb.mem_getAllOrders (db : OrdersDb) (r : OrderRow) :
    r ∈ db.getAllOrders ↔ r ∈ db.table.rows :=
  List.mem_insertionSort _

/-- The broker order id is that of a row. -/
def Known (orders : List OrderRow) (bid : String) : Prop :=
  bid ≠ "" ∧ ∃ r ∈ orders, r.brokerOrderId = some bid

theorem contains_indexRow (d : Dict String OrderRow) (r : OrderRow) (bid : String) :
    (indexRow d r).contains bid = true ↔
      d.contains bid = true ∨ (bid ≠ "" ∧ r.brokerOrderId = some bid) := by
  unfold indexRow
  cases hr : r.brokerOrderId with
  | none => simp
  | some own =>
      simp only [Option.some.injEq]
      by_cases hempty : own = ""
      · rw [if_neg (by simpa using hempty)]
        constructor
        · intro h
          exact .inl h
        · intro h
          refine h.resolve_right fun hown => ?_
          exact hown.1 (hown.2 ▸ hempty)
      · rw [if_pos hempty, Dict.contains_iff_get?, Dict.get?_set, Dict.contains_iff_get?]
        by_cases hown : bid = own
        · simp [hown, hempty]
        · simp [hown, Ne.symm hown]

theorem contains_internalByBrokerId (orders : List OrderRow) (bid : String) :
    (internalByBrokerId orders).contains bid = true ↔ Known orders bid := by
  -- the fold adds to the ids it starts from
  have hfold : ∀ (orders : List OrderRow) (d : Dict String OrderRow),
      (orders.foldl indexRow d).contains bid = true ↔ d.contains bid = true ∨ Known orders bid := by
    intro orders
    induction orders with
    | nil => intro d; simp [Known]
    | cons r rest ih =>
        intro d
        rw [List.foldl_cons, ih, contains_indexRow]
        simp only [Known, List.mem_cons, exists_eq_or_imp]
        tauto
  rw [internalByBrokerId, hfold]
  simp [Table.contains]

/-- A pending row whose broker order the broker does not list. -/
def Stale (brokerOrders : List BrokerOrder) (r : OrderRow) : Prop :=
  r.status ∉ OrdersDb.terminalStates ∧
    ∃ bid, r.brokerOrderId = some bid ∧ bid ≠ "" ∧ bid ∉ brokerOrders.map BrokerOrder.orderId

/-- A filled broker order that no row knows. -/
def Unrecorded (orders : List OrderRow) (o : BrokerOrder) : Prop :=
  o.filled = true ∧ ¬ Known orders o.orderId

theorem mem_detectStaleOrders (db : OrdersDb) (brokerOrders : List BrokerOrder)
    (i : ReconciliationIssue) :
    i ∈ detectStaleOrders db.getPendingOrders brokerOrders ↔
      ∃ r ∈ db.table.rows, Stale brokerOrders r ∧ ∃ bid, i = staleIssue r bid ∧
        r.brokerOrderId = some bid := by
  simp only [detectStaleOrders, List.mem_filterMap, OrdersDb.getPendingOrders, List.mem_filter,
    OrdersDb.mem_getAllOrders, decide_eq_true_eq]
  constructor
  · intro h
    obtain ⟨r, ⟨hr, hpending⟩, hissue⟩ := h
    cases hbid : r.brokerOrderId with
    | none => rw [hbid] at hissue; cases hissue
    | some bid =>
        simp only [hbid] at hissue
        by_cases hmissing : bid ≠ "" ∧ bid ∉ brokerOrders.map BrokerOrder.orderId
        · rw [if_pos hmissing] at hissue
          exact ⟨r, hr, ⟨hpending, bid, hbid, hmissing⟩, bid, (Option.some.inj hissue).symm, hbid⟩
        · rw [if_neg hmissing] at hissue
          cases hissue
  · intro h
    obtain ⟨r, hr, ⟨hpending, bid, hbid, hmissing⟩, own, rfl, hown⟩ := h
    refine ⟨r, ⟨hr, hpending⟩, ?_⟩
    obtain rfl : bid = own := Option.some.inj (hbid.symm.trans hown)
    simp only [hbid]
    rw [if_pos hmissing]

theorem mem_detectUnrecordedFills (orders : List OrderRow) (brokerOrders : List BrokerOrder)
    (i : ReconciliationIssue) :
    i ∈ detectUnrecordedFills brokerOrders orders ↔
      ∃ o ∈ brokerOrders, Unrecorded orders o ∧ i = fillIssue o := by
  simp only [detectUnrecordedFills, List.mem_map, List.mem_filter, Bool.and_eq_true,
    Bool.not_eq_true', Unrecorded, ← contains_internalByBrokerId, Bool.not_eq_true]
  constructor
  · intro h
    obtain ⟨o, ⟨ho, hfill⟩, rfl⟩ := h
    exact ⟨o, ho, hfill, rfl⟩
  · intro h
    obtain ⟨o, ho, hfill, rfl⟩ := h
    exact ⟨o, ⟨ho, hfill⟩, rfl⟩

theorem detectOrphanPositions_type {positions : List BrokerPosition} {orders : List OrderRow}
    {i : ReconciliationIssue} (h : i ∈ detectOrphanPositions positions orders) :
    i.issueType = .orphanPosition := by
  obtain ⟨p, _, rfl⟩ := List.mem_map.mp h
  rfl

/-! ## Numbers that cannot be read -/

def BrokerOrder.QuantityReadable (o : BrokerOrder) : Prop := ∃ qty, o.filledShares.toInt = .ok qty

def BrokerOrder.FillReadable (o : BrokerOrder) : Prop :=
  o.QuantityReadable ∧ ∃ price, o.averagePrice.toFloat = .ok price

/-- Every known order's quantity can be read. -/
def QuantitiesReadable (orders : List OrderRow) (brokerOrders : List BrokerOrder) : Prop :=
  ∀ o ∈ brokerOrders, Known orders o.orderId → o.QuantityReadable

theorem detectQuantityMismatches_ok {orders : List OrderRow} {brokerOrders : List BrokerOrder}
    (h : QuantitiesReadable orders brokerOrders) :
    ∃ issues, detectQuantityMismatches brokerOrders orders = .ok issues ∧
      ∀ i ∈ issues, i.issueType = .quantityMismatch := by
  induction brokerOrders with
  | nil => exact ⟨[], rfl, by simp⟩
  | cons o rest ih =>
      obtain ⟨issues, hrest, htypes⟩ := ih fun p hp => h p (List.mem_cons_of_mem o hp)
      unfold detectQuantityMismatches
      cases hget : (internalByBrokerId orders).get? o.orderId with
      | none => exact ⟨issues, hrest, htypes⟩
      | some internal =>
          have hknown : Known orders o.orderId := by
            rw [← contains_internalByBrokerId, Dict.contains_iff_get?, hget]
            rfl
          obtain ⟨qty, hqty⟩ := h o List.mem_cons_self hknown
          simp only [hqty, hrest]
          by_cases hdiffer : qty ≠ internal.filledQuantity
          · rw [if_pos hdiffer]
            refine ⟨_, rfl, ?_⟩
            intro i hi
            cases hi with
            | head => rfl
            | tail _ hold => exact htypes i hold
          · rw [if_neg hdiffer]
            exact ⟨issues, rfl, htypes⟩

theorem detectQuantityMismatches_error {orders : List OrderRow} {brokerOrders : List BrokerOrder}
    (h : ¬ QuantitiesReadable orders brokerOrders) :
    ∃ e, detectQuantityMismatches brokerOrders orders = .error e := by
  induction brokerOrders with
  | nil => exact absurd (fun o ho => by cases ho) h
  | cons o rest ih =>
      have hrest : ¬ o.QuantityReadable ∧ Known orders o.orderId ∨
          ¬ QuantitiesReadable orders rest := by
        by_contra hnot
        rw [not_or, not_not, not_and] at hnot
        apply h
        intro p hp hknown
        cases hp with
        | head => by_contra hunread; exact hnot.1 hunread hknown
        | tail _ hp => exact hnot.2 p hp hknown
      unfold detectQuantityMismatches
      cases hget : (internalByBrokerId orders).get? o.orderId with
      | none =>
          refine ih (hrest.resolve_left fun hbad => ?_)
          have hcontains := (contains_internalByBrokerId orders o.orderId).mpr hbad.2
          rw [Dict.contains_iff_get?, hget] at hcontains
          cases hcontains
      | some internal =>
          dsimp only
          cases hqty : o.filledShares.toInt with
          | error e => exact ⟨e, rfl⟩
          | ok qty =>
              obtain ⟨e, he⟩ := ih (hrest.resolve_left fun hbad => hbad.1 ⟨qty, hqty⟩)
              simp only [he]
              exact ⟨e, rfl⟩

end AutoTrade.Reconciliation
