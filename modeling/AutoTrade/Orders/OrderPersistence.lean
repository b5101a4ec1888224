import AutoTrade.Orders.OrderManager

/-! # Orders across a restart

What the table holds against what the manager holds. While no two intents share
a broker order id, every order in memory is the reading of its own row and every
open row is in memory, so a manager opened on the table takes over exactly the
open orders. An answer that repeats a broker order id, as all TWAP orders do,
deletes the other intent's row; and a row that cannot be read ends the loading.
-/

namespace AutoTrade.Orders

open AutoTrade.Library

namespace OrderManager

/-! ## Reading rows back -/

theorem readOrder_row {o : OrderState} (named : o.intentId ≠ "") (uuid : String) :
    readOrder uuid o.row = .ok o := by
  have hid : (if o.row.intentId = "" then uuid else o.row.intentId) = o.intentId := if_neg named
  unfold readOrder
  rw [hid]
  rfl

/-- What reading keeps of a row, whatever its other columns hold. -/
theorem readOrder_fields {uuid : String} {row : OrderRow} {o : OrderState}
    (h : readOrder uuid row = .ok o) :
    o.intentId = (if row.intentId = "" then uuid else row.intentId) ∧
      o.brokerOrderId = row.brokerOrderId ∧ o.status = row.status.getD .unknown := by
  unfold readOrder at h
  cases hreq : row.request with
  | error e => rw [hreq] at h; cases h
  | ok request =>
      cases hqty : row.filledQty with
      | error e => rw [hreq, hqty] at h; cases h
      | ok qty =>
          cases hprice : row.avgPrice with
          | error e => rw [hreq, hqty, hprice] at h; cases h
          | ok price =>
              rw [hreq, hqty, hprice] at h
              cases h
              exact ⟨rfl, rfl, rfl⟩

theorem readOrder_isOpen {uuid : String} {row : OrderRow} {o : OrderState}
    (h : readOrder uuid row = .ok o) : o.status.isOpen = row.isOpen := by
  rw [(readOrder_fields h).2.2]
  unfold OrderRow.isOpen
  cases row.status <;> rfl

/-! ## Loading -/

/-- The row has an intent id and its columns convert. -/
def Readable (uuid : String) (row : OrderRow) : Prop :=
  row.intentId ≠ "" ∧ ∃ o, readOrder uuid row = .ok o

theorem Readable.intentId {uuid : String} {row : OrderRow} {o : OrderState}
    (readable : Readable uuid row) (h : readOrder uuid row = .ok o) :
    o.intentId = row.intentId := by
  rw [(readOrder_fields h).1, if_neg readable.1]

/-- The manager's orders are the readings of these rows, over those it had before. -/
structure Loaded (uuid : String) (before : OrderManager) (rows : List OrderRow)
    (after : OrderManager) : Prop where
  table : after.table = before.table
  held : ∀ row ∈ rows, ∀ o, readOrder uuid row = .ok o → after.orders.get? row.intentId = some o
  only : ∀ id, (∀ row ∈ rows, row.intentId ≠ id) → after.orders.get? id = before.orders.get? id

theorem loaded_cons {uuid : String} {before after : OrderManager} {row : OrderRow}
    {rest : List OrderRow} {o : OrderState} (read : readOrder uuid row = .ok o)
    (id : o.intentId = row.intentId) (fresh : ∀ r ∈ rest, r.intentId ≠ row.intentId)
    (loaded : Loaded uuid (before.loadOrder o) rest after) :
    Loaded uuid before (row :: rest) after where
  table := loaded.table
  held := by
    intro r hr x hx
    cases hr with
    | head =>
        cases read.symm.trans hx
        rw [loaded.only row.intentId fresh, ← id]
        exact Dict.get?_set_self _ _ _
    | tail _ hrest => exact loaded.held r hrest x hx
  only := by
    intro j hj
    rw [loaded.only j fun r hr => hj r (List.mem_cons_of_mem row hr)]
    have hne : j ≠ o.intentId := by
      rw [id]
      exact (hj row List.mem_cons_self).symm
    exact Dict.get?_set_of_ne _ _ hne

theorem loop_loadRow {uuid : String} {rows : List OrderRow}
    (readable : ∀ row ∈ rows, Readable uuid row)
    (nodup : (rows.map OrderRow.intentId).Nodup) (before : OrderManager) :
    ∃ after, loop (loadRow uuid) before rows = (after, none) ∧
      Loaded uuid before rows after := by
  induction rows generalizing before with
  | nil => exact ⟨before, rfl, rfl, (fun _ h => by cases h), fun _ _ => rfl⟩
  | cons row rest ih =>
      obtain ⟨hnamed, o, hread⟩ := readable row List.mem_cons_self
      have hid := (readable row List.mem_cons_self).intentId hread
      have hnodup := List.nodup_cons.mp nodup
      obtain ⟨after, hloop, hloaded⟩ :=
        ih (fun r hr => readable r (List.mem_cons_of_mem row hr)) hnodup.2 (before.loadOrder o)
      have hfresh : ∀ r ∈ rest, r.intentId ≠ row.intentId := by
        intro r hr heq
        exact hnodup.1 (List.mem_map.mpr ⟨r, hr, heq⟩)
      have hbody : loadRow uuid before row = (before.loadOrder o, none) := by
        unfold loadRow
        rw [hread]
      refine ⟨after, ?_, loaded_cons hread hid hfresh hloaded⟩
      unfold loop
      rw [hbody]
      exact hloop

theorem openOn_of_readable {uuid : String} {t : OrdersTable}
    (readable : ∀ row ∈ openRows t, Readable uuid row) :
    ∃ mgr, openOn uuid t = .ok mgr ∧ Loaded uuid { table := t } (openRows t) mgr := by
  have hnodup : ((openRows t).map OrderRow.intentId).Nodup :=
    t.rows.nodup.sublist (List.filter_sublist.map _)
  obtain ⟨mgr, hloop, hloaded⟩ := loop_loadRow readable hnodup { table := t }
  refine ⟨mgr, ?_, hloaded⟩
  unfold openOn
  rw [hloop]

/-- What loading an order keeps holds of a manager opened on a table, however far the loading went. -/
theorem openOn_invariant {I : OrderManager → Prop} {uuid : String} {t : OrdersTable}
    {mgr : OrderManager} (initial : I { table := t })
    (preserved : ∀ mgr row o, readOrder uuid row = .ok o → I mgr → I (mgr.loadOrder o))
    (opened : openOn uuid t = .ok mgr) : I mgr := by
  have hloop : I (loop (loadRow uuid) { table := t } (openRows t)).1 := by
    refine loop_invariant (fun before row _ h => ?_) initial
    unfold loadRow
    cases hread : readOrder uuid row with
    | error e => exact h
    | ok o => exact preserved before row o hread h
  unfold openOn at opened
  split at opened
  · rename_i after heq
    cases opened
    rw [heq] at hloop
    exact hloop
  · rename_i after e heq
    rw [heq] at hloop
    split at opened
    · cases opened
      exact hloop
    · cases opened

theorem mem_openRows {t : OrdersTable} {row : OrderRow} :
    row ∈ openRows t ↔ t.find? row.intentId = some row ∧ row.isOpen = true := by
  unfold openRows OrdersTable.find?
  rw [List.mem_filter, Table.find?_eq_some_iff]
  exact ⟨fun h => ⟨⟨h.1, rfl⟩, h.2⟩, fun h => ⟨h.1.1, h.2⟩⟩

/-! ## Memory and table -/

/-- Every order in memory is the reading of its row, and every open row is in memory. -/
structure Mirrors (uuid : String) (mgr : OrderManager) : Prop where
  held : ∀ id o, mgr.orders.get? id = some o →
    o.intentId = id ∧ id ≠ "" ∧ ∃ row, mgr.table.find? id = some row ∧ readOrder uuid row = .ok o
  openRow : ∀ id row, mgr.table.find? id = some row → row.isOpen = true →
    ∃ o, mgr.orders.get? id = some o

theorem Mirrors.readable {uuid : String} {mgr : OrderManager} (mirrors : Mirrors uuid mgr) :
    ∀ row ∈ openRows mgr.table, Readable uuid row := by
  intro row hrow
  obtain ⟨hfind, hopen⟩ := mem_openRows.mp hrow
  obtain ⟨o, ho⟩ := mirrors.openRow row.intentId row hfind hopen
  obtain ⟨-, hnamed, row', hfind', hread⟩ := mirrors.held row.intentId o ho
  cases hfind.symm.trans hfind'
  exact ⟨hnamed, o, hread⟩

theorem mirrors_of_loaded {uuid : String} {t : OrdersTable} {mgr : OrderManager}
    (readable : ∀ row ∈ openRows t, Readable uuid row)
    (loaded : Loaded uuid { table := t } (openRows t) mgr) : Mirrors uuid mgr where
  held := by
    intro id o ho
    by_cases hin : ∃ row ∈ openRows t, row.intentId = id
    · obtain ⟨row, hrow, rfl⟩ := hin
      obtain ⟨hnamed, x, hread⟩ := readable row hrow
      have hx := loaded.held row hrow x hread
      cases hx.symm.trans ho
      refine ⟨(readable row hrow).intentId hread, hnamed, row, ?_, hread⟩
      rw [loaded.table]
      exact (mem_openRows.mp hrow).1
    · have hnone := loaded.only id fun row hrow hid => hin ⟨row, hrow, hid⟩
      rw [hnone] at ho
      cases ho
  openRow := by
    intro id row hfind hopen
    rw [loaded.table] at hfind
    have hid : row.intentId = id := Table.find?_key hfind
    subst hid
    have hrow : row ∈ openRows t := mem_openRows.mpr ⟨hfind, hopen⟩
    obtain ⟨-, o, hread⟩ := readable row hrow
    exact ⟨o, loaded.held row hrow o hread⟩

/-! ## Writing an order -/

/-- The row's broker order id stands in no other intent's row. -/
def Apart (t : OrdersTable) (row : OrderRow) : Prop :=
  ∀ id other, id ≠ row.intentId → t.find? id = some other → row.sharesBrokerId other = false

theorem find?_insertOrReplace_of_apart {t : OrdersTable} {row : OrderRow} (apart : Apart t row)
    (id : String) :
    (t.insertOrReplace row).find? id = if id = row.intentId then some row else t.find? id := by
  rw [OrdersTable.find?_insertOrReplace]
  by_cases hid : id = row.intentId
  · rw [if_pos hid, if_pos hid]
  · rw [if_neg hid, if_neg hid]
    cases hfind : t.find? id with
    | none => rfl
    | some other => simp [apart id other hid hfind]

theorem Mirrors.writeOrder {uuid : String} {mgr : OrderManager} {o : OrderState}
    (mirrors : Mirrors uuid mgr) (named : o.intentId ≠ "") (apart : Apart mgr.table o.row) :
    Mirrors uuid (mgr.writeOrder o) where
  held := by
    intro id x hx
    have hfind := find?_insertOrReplace_of_apart apart id
    by_cases hid : id = o.intentId
    · subst hid
      have hset : (mgr.orders.set o.intentId o).get? o.intentId = some o :=
        Dict.get?_set_self _ _ _
      cases hset.symm.trans hx
      exact ⟨rfl, named, o.row, hfind.trans (if_pos rfl), readOrder_row named uuid⟩
    · have hold : mgr.orders.get? id = some x := (Dict.get?_set_of_ne _ _ hid).symm.trans hx
      obtain ⟨hx, hne, row, hrow, hread⟩ := mirrors.held id x hold
      exact ⟨hx, hne, row, (hfind.trans (if_neg hid)).trans hrow, hread⟩
  openRow := by
    intro id row hrow hopen
    by_cases hid : id = o.intentId
    · subst hid
      exact ⟨o, Dict.get?_set_self _ _ _⟩
    · have hfind := (find?_insertOrReplace_of_apart apart id).trans (if_neg hid)
      obtain ⟨x, hx⟩ := mirrors.openRow id row (hfind.symm.trans hrow) hopen
      exact ⟨x, (Dict.get?_set_of_ne _ _ hid).trans hx⟩

/-- No row is lost by writing an order apart from the others. -/
theorem find?_writeOrder_isSome {mgr : OrderManager} {o : OrderState}
    (apart : Apart mgr.table o.row) {id : String} (h : (mgr.table.find? id).isSome) :
    ((mgr.writeOrder o).table.find? id).isSome := by
  have hfind := find?_insertOrReplace_of_apart apart id
  unfold writeOrder persistOrder
  rw [hfind]
  split
  · rfl
  · exact h

/-- An order that keeps the broker order id of its row stays apart: the column is unique. -/
theorem apart_of_same_broker {t : OrdersTable} {row old : OrderRow}
    (found : t.find? row.intentId = some old) (same : old.brokerOrderId = row.brokerOrderId) :
    Apart t row := by
  intro id other hid hother
  by_contra hshare
  have hmem := (Table.find?_eq_some_iff _ _ _).mp found
  have hmem' := (Table.find?_eq_some_iff _ _ _).mp hother
  have hold : old.sharesBrokerId other = true := by
    rw [Bool.not_eq_false] at hshare
    unfold OrderRow.sharesBrokerId at hshare ⊢
    rw [same]
    exact hshare
  have heq := t.unique old hmem.1 other hmem'.1 hold
  subst heq
  exact hid (hmem'.2.symm.trans hmem.2)

/-! ## Runs of calls -/

inductive ManagerCall
  | executeIntent (call : IntentCall)
  | updateOrderStatus (now : Time) (brokerOrderId : String) (newStatus : OrderStatus)
      (filledQty : Int) (avgPrice : ℚ)

/-- A manager and the intents executed so far, those of earlier sessions included. -/
structure OrderHistory where
  manager : OrderManager
  executed : List String

def OrderHistory.opened (mgr : OrderManager) : OrderHistory :=
  ⟨mgr, mgr.table.rows.rows.map OrderRow.intentId⟩

def OrderHistory.step (h : OrderHistory) : ManagerCall → OrderHistory
  | .executeIntent call => ⟨(h.manager.executeIntent call).1, h.executed ++ [call.intentId]⟩
  | .updateOrderStatus now brokerOrderId newStatus filledQty avgPrice =>
      { h with manager :=
          h.manager.updateOrderStatus now brokerOrderId newStatus filledQty avgPrice }

/-- Every executed intent has its row, and a manager opened on the table holds exactly the open
orders: those of the manager in memory, and any open row that can be read. -/
structure ReloadsExactly (uuid : String) (h : OrderHistory) : Prop where
  row : ∀ id ∈ h.executed, (h.manager.table.find? id).isSome
  reload : ∃ mgr, openOn uuid h.manager.table = .ok mgr ∧
    (∀ id, mgr.orders.get? id = (h.manager.orders.get? id).filter (·.status.isOpen)) ∧
    ∀ row ∈ openRows h.manager.table, ∀ o, readOrder uuid row = .ok o →
      mgr.orders.get? o.intentId = some o

/-- An executed intent has an id, and if it is new, no other intent's row has the broker order id
it is answered with. -/
def KeepsApart (h : OrderHistory) : ManagerCall → Prop
  | .executeIntent call => call.intentId ≠ "" ∧
      (h.manager.orders.get? call.intentId = none →
        ∀ response ∈ (call.gateway.placeOrder call.request).toOption,
          response.status ≠ .failed → ∀ row ∈ h.manager.table.rows.rows,
            row.intentId ≠ call.intentId → row.brokerOrderId ≠ some response.orderId)
  | .updateOrderStatus .. => True

instance (h : OrderHistory) : (op : ManagerCall) → Decidable (KeepsApart h op)
  | .executeIntent _ => inferInstanceAs (Decidable (_ ∧ (_ → _)))
  | .updateOrderStatus .. => inferInstanceAs (Decidable True)

structure Kept (uuid : String) (h : OrderHistory) : Prop where
  mirrors : Mirrors uuid h.manager
  row : ∀ id ∈ h.executed, (h.manager.table.find? id).isSome

theorem Kept.reloadsExactly {uuid : String} {h : OrderHistory} (kept : Kept uuid h) :
    ReloadsExactly uuid h := by
  have hreadable := kept.mirrors.readable
  obtain ⟨mgr, hopen, hloaded⟩ := openOn_of_readable hreadable
  refine ⟨kept.row, mgr, hopen, ?_, ?_⟩
  · intro id
    cases hget : h.manager.orders.get? id with
    | none =>
        refine hloaded.only id fun row hrow hid => ?_
        obtain ⟨hfind, hrowOpen⟩ := mem_openRows.mp hrow
        obtain ⟨o, ho⟩ := kept.mirrors.openRow row.intentId row hfind hrowOpen
        rw [hid, hget] at ho
        cases ho
    | some o =>
        obtain ⟨hid, -, row, hfind, hread⟩ := kept.mirrors.held id o hget
        have hrowId : row.intentId = id := Table.find?_key hfind
        subst hrowId
        have hstatus := readOrder_isOpen hread
        rw [Option.filter_some, hstatus]
        by_cases hopenRow : row.isOpen = true
        · have hrow : row ∈ openRows h.manager.table := mem_openRows.mpr ⟨hfind, hopenRow⟩
          rw [hloaded.held row hrow o hread, if_pos hopenRow]
        · have hnone := hloaded.only row.intentId fun r hr hrid => by
            obtain ⟨hfind', hopen'⟩ := mem_openRows.mp hr
            rw [hrid] at hfind'
            cases hfind.symm.trans hfind'
            exact hopenRow hopen'
          rw [hnone, if_neg hopenRow]
          rfl
  · intro row hrow o hread
    rw [(hreadable row hrow).intentId hread]
    exact hloaded.held row hrow o hread

/-! ### One call -/

theorem Kept.writeOrder {uuid : String} {mgr : OrderManager} {executed : List String}
    {o : OrderState} (kept : Kept uuid ⟨mgr, executed⟩) (named : o.intentId ≠ "")
    (apart : Apart mgr.table o.row) :
    Kept uuid ⟨mgr.writeOrder o, executed ++ [o.intentId]⟩ where
  mirrors := kept.mirrors.writeOrder named apart
  row := by
    intro id hid
    cases List.mem_append.mp hid with
    | inl hold => exact find?_writeOrder_isSome apart (kept.row id hold)
    | inr hnew =>
        cases List.mem_singleton.mp hnew
        have hfind := find?_insertOrReplace_of_apart apart o.intentId
        exact Option.isSome_iff_exists.mpr ⟨o.row, hfind.trans (if_pos rfl)⟩

theorem Kept.forget {uuid : String} {mgr : OrderManager} {executed : List String} {id : String}
    (kept : Kept uuid ⟨mgr, executed ++ [id]⟩) : Kept uuid ⟨mgr, executed⟩ :=
  ⟨kept.mirrors, fun j hj => kept.row j (List.mem_append_left [id] hj)⟩

theorem concludedOrder_intentId (call : IntentCall) (response : OrderResponse) :
    (concludedOrder call response).intentId = call.intentId := by
  unfold concludedOrder
  split <;> rfl

/-- An order without a broker order id shares none. -/
theorem apart_of_no_broker (t : OrdersTable) {row : OrderRow} (h : row.brokerOrderId = none) :
    Apart t row := by
  intro id other _ _
  unfold OrderRow.sharesBrokerId
  rw [h]
  rfl

theorem Kept.preSubmit {uuid : String} {h : OrderHistory} {call : IntentCall}
    (kept : Kept uuid h) (named : call.intentId ≠ "") :
    Kept uuid ⟨h.manager.preSubmit (newOrder call), h.executed ++ [call.intentId]⟩ := by
  have hkept : Kept uuid
      ⟨{ h.manager with intentMap := h.manager.intentMap.set call.intentId "" }, h.executed⟩ :=
    ⟨⟨kept.mirrors.held, kept.mirrors.openRow⟩, kept.row⟩
  exact hkept.writeOrder (o := newOrder call) named (apart_of_no_broker _ rfl)

theorem apart_concluded {mgr : OrderManager} {call : IntentCall} {response : OrderResponse}
    (free : response.status ≠ .failed → ∀ row ∈ mgr.table.rows.rows,
      row.intentId ≠ call.intentId → row.brokerOrderId ≠ some response.orderId) :
    Apart (mgr.preSubmit (newOrder call)).table (concludedOrder call response).row := by
  unfold concludedOrder
  split
  · exact apart_of_no_broker _ rfl
  · rename_i hok
    intro id other hid hother
    have hapart : Apart mgr.table (newOrder call).row := apart_of_no_broker _ rfl
    have hfind : mgr.table.find? id = some other := by
      rw [← hother]
      exact ((find?_insertOrReplace_of_apart hapart id).trans (if_neg hid)).symm
    obtain ⟨hmem, hkey⟩ := (Table.find?_eq_some_iff _ _ _).mp hfind
    have hne := free hok other hmem (hkey ▸ hid)
    have hshare : decide (some response.orderId = other.brokerOrderId) = false :=
      decide_eq_false hne.symm
    exact Bool.and_eq_false_iff.mpr (.inr hshare)

theorem Kept.conclude {uuid : String} {mgr : OrderManager} {executed : List String}
    {call : IntentCall} {response : OrderResponse} (kept : Kept uuid ⟨mgr, executed⟩)
    (named : call.intentId ≠ "") (apart : Apart mgr.table (concludedOrder call response).row) :
    Kept uuid ⟨mgr.conclude call response, executed⟩ := by
  have hid := concludedOrder_intentId call response
  have hdone := (kept.writeOrder (o := concludedOrder call response) (hid ▸ named) apart).forget
  unfold OrderManager.conclude
  split
  · exact hdone
  · -- the maps between intents and broker order ids are no part of what is kept
    unfold mapBrokerOrder
    split
    · exact hdone
    · exact ⟨⟨hdone.mirrors.held, hdone.mirrors.openRow⟩, hdone.row⟩

theorem Kept.executeIntent {uuid : String} {h : OrderHistory} {call : IntentCall}
    (kept : Kept uuid h) (apart : KeepsApart h (.executeIntent call)) :
    Kept uuid (h.step (.executeIntent call)) := by
  unfold OrderHistory.step
  cases hget : h.manager.orders.get? call.intentId with
  | some o =>
      simp only [executeIntent_of_known hget]
      refine ⟨kept.mirrors, ?_⟩
      intro id hid
      cases List.mem_append.mp hid with
      | inl hold => exact kept.row id hold
      | inr hnew =>
          cases List.mem_singleton.mp hnew
          obtain ⟨-, -, row, hrow, -⟩ := kept.mirrors.held call.intentId o hget
          exact Option.isSome_iff_exists.mpr ⟨row, hrow⟩
  | none =>
      have hpre : Kept uuid
          ⟨h.manager.preSubmit (newOrder call), h.executed ++ [call.intentId]⟩ :=
        kept.preSubmit apart.1
      simp only [executeIntent_of_new hget]
      cases hplace : call.gateway.placeOrder call.request with
      | error e => exact hpre
      | ok response =>
          have hfree := apart.2 hget response (by rw [hplace]; rfl)
          exact hpre.conclude apart.1 (apart_concluded hfree)

theorem Kept.updateOrderStatus {uuid : String} {h : OrderHistory} (kept : Kept uuid h)
    (now : Time) (brokerOrderId : String) (newStatus : OrderStatus) (filledQty : Int)
    (avgPrice : ℚ) :
    Kept uuid
      (h.step (.updateOrderStatus now brokerOrderId newStatus filledQty avgPrice)) := by
  unfold OrderHistory.step
  cases updateOrderStatus_cases h.manager now brokerOrderId newStatus filledQty avgPrice with
  | inl hsame =>
      simp only [hsame]
      exact kept
  | inr hwrite =>
      obtain ⟨intentId, o, hget, hwrite⟩ := hwrite
      simp only [hwrite]
      obtain ⟨hid, hnamed, row, hrow, hread⟩ := kept.mirrors.held intentId o hget
      subst hid
      have hbroker := (readOrder_fields hread).2.1
      let next : OrderState := { o with status := newStatus, filledQty, avgPrice, updatedAt := now }
      have hapart : Apart h.manager.table next.row := apart_of_same_broker hrow hbroker.symm
      exact (Kept.writeOrder (o := next) kept hnamed hapart).forget

theorem Kept.step {uuid : String} {h : OrderHistory} {op : ManagerCall} (kept : Kept uuid h)
    (apart : KeepsApart h op) : Kept uuid (h.step op) := by
  cases op with
  | executeIntent call => exact kept.executeIntent apart
  | updateOrderStatus now brokerOrderId newStatus filledQty avgPrice =>
      exact kept.updateOrderStatus now brokerOrderId newStatus filledQty avgPrice

/-! ### Whole runs -/

theorem kept_opened {uuid : String} {t : OrdersTable} {mgr : OrderManager}
    (readable : ∀ row ∈ openRows t, Readable uuid row) (opened : openOn uuid t = .ok mgr) :
    Kept uuid (.opened mgr) := by
  obtain ⟨mgr', hopen, hloaded⟩ := openOn_of_readable readable
  cases hopen.symm.trans opened
  refine ⟨mirrors_of_loaded readable hloaded, ?_⟩
  intro id hid
  obtain ⟨row, hrow, rfl⟩ := List.mem_map.mp hid
  exact Option.isSome_iff_exists.mpr
    ⟨row, (Table.find?_eq_some_iff _ _ _).mpr ⟨hrow, rfl⟩⟩

/-- While intents keep apart, every state of a run reloads exactly. -/
theorem reloads_exactly_along_run {uuid : String} {t : OrdersTable} {mgr : OrderManager}
    (readable : ∀ row ∈ openRows t, Readable uuid row) (opened : openOn uuid t = .ok mgr)
    (ops : List ManagerCall)
    (apart : StepsMeet OrderHistory.step KeepsApart (.opened mgr) ops) :
    Always OrderHistory.step (ReloadsExactly uuid) (.opened mgr) ops := by
  have halways := always_of_stepsMeet (fun h op _ kept hop => Kept.step kept hop)
    (kept_opened readable opened) apart
  exact halways.mono fun h kept => kept.reloadsExactly

/-! ### Samples -/

def sampleRequest (orderType : String) : OrderRequest :=
  { symbol := "NIFTY", qty := 75, price := 0, orderType, direction := "BUY", product := "MIS"
    variety := "REGULAR" }

/-- A call the adapter answers with this order id, unless the request is for TWAP. -/
def sampleCall (intentId orderType orderId : String) : IntentCall :=
  { intentId, request := sampleRequest orderType
    gateway := { adapter := .ok { orderId, status := .acknowledged } }
    now := 0, later := second }

theorem distinct_ids_reload :
    ReloadsExactly "U" (run OrderHistory.step (.opened { table := .empty })
      [.executeIntent (sampleCall "I-1" "TWAP" "B-1"),
        .executeIntent (sampleCall "I-2" "MARKET" "B-2"),
        .updateOrderStatus second "B-2" .filled 75 101]) := by
  refine (reloads_exactly_along_run (t := .empty) ?_ rfl _ ?_).final
  · intro row hrow
    cases hrow
  · decide +kernel

def sampleOrder (intentId : String) : OrderState :=
  { intentId, request := sampleRequest "MARKET", status := .acknowledged
    brokerOrderId := some ("B-" ++ intentId), createdAt := 0, updatedAt := 0 }

/-- The first of two open rows has a `filled_qty` that is no number. -/
def damagedTable : OrdersTable :=
  (OrdersTable.empty.insertOrReplace
    { (sampleOrder "I-1").row with
      filledQty := .error ⟨.valueError, "invalid literal for int() with base 10: 'n/a'"⟩ })
    |>.insertOrReplace (sampleOrder "I-2").row

/-- The second TWAP order deletes the first one's row; and behind a row that cannot be read, no row
is loaded. -/
theorem shared_id_and_damaged_row_lose_orders :
    (∃ mgr, openOn "U" .empty = .ok mgr ∧
      ¬ ReloadsExactly "U" (run OrderHistory.step (.opened mgr)
        [.executeIntent (sampleCall "I-1" "TWAP" "B-1"),
          .executeIntent (sampleCall "I-2" "TWAP" "B-2")])) ∧
    ∃ mgr, openOn "U" damagedTable = .ok mgr ∧ ¬ ReloadsExactly "U" (.opened mgr) := by
  constructor
  · refine ⟨{ table := .empty }, rfl, fun h => ?_⟩
    exact absurd (h.row "I-1" (by decide)) (by decide)
  · refine ⟨{ table := damagedTable }, rfl, fun h => ?_⟩
    obtain ⟨mgr, hopen, -, hheld⟩ := h.reload
    have hrow : (sampleOrder "I-2").row ∈ openRows damagedTable := List.mem_cons_of_mem _ (.head _)
    have hnone : openOn "U" damagedTable = .ok { table := damagedTable } := rfl
    cases hnone.symm.trans hopen
    cases hheld _ hrow _ (readOrder_row (by decide) "U")

end OrderManager

end AutoTrade.Orders
