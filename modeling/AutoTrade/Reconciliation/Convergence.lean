import AutoTrade.Reconciliation.Detection

/-! # Whether repairs converge

Repairs write a status and a fill, never a broker order id, and the status of a
stale order is not one of the terminal states. So what a run repairs, the next
run against the same broker data finds again.
-/

namespace AutoTrade.Reconciliation

open AutoTrade.Library ReconciliationService

/-! ## The repair loop -/

def ReconciliationIssue.repairable (i : ReconciliationIssue) : Bool :=
  decide (i.issueType = .staleOrder) || decide (i.issueType = .unrecordedFill)

/-- The error that repairing the issue raises; it does not depend on the table. -/
def repairError (i : ReconciliationIssue) : Option ReadError :=
  match i.issueType with
  | .unrecordedFill =>
      if truthy i.orderId then
        match i.brokerValue with
        | .fill filledQty price =>
            match filledQty.toInt, price.toFloat with
            | .error e, _ => some e
            | .ok _, .error e => some e
            | .ok _, .ok _ => none
        | _ => none
      else none
  | _ => none

theorem repairIssue_error (now : String) (done : OrdersDb × List ReconciliationIssue)
    (i : ReconciliationIssue) : (repairIssue now done i).2 = repairError i := by
  unfold repairIssue repairError
  cases i.issueType with
  | unrecordedFill =>
      unfold recordUnrecordedFill
      dsimp only
      by_cases hid : truthy i.orderId = true
      · rw [if_pos hid, if_pos hid]
        cases i.brokerValue with
        | fill filledQty price =>
            dsimp only
            cases filledQty.toInt with
            | error e => rfl
            | ok qty =>
                cases price.toFloat with
                | error e => rfl
                | ok paid => rfl
        | nothing => rfl
        | notFound => rfl
        | quantity qty => rfl
      · rw [if_neg hid, if_neg hid]
  | clean => rfl
  | orphanPosition => rfl
  | staleOrder => rfl
  | quantityMismatch => rfl
  | ambiguous => rfl

/-- What repairing one issue does where it raises nothing. -/
def repairStep (now : String) (done : OrdersDb × List ReconciliationIssue)
    (i : ReconciliationIssue) : OrdersDb × List ReconciliationIssue := (repairIssue now done i).1

theorem repairStep_repaired (now : String) (done : OrdersDb × List ReconciliationIssue)
    {i : ReconciliationIssue} (h : repairError i = none) :
    (repairStep now done i).2 = done.2 ++ [i].filter ReconciliationIssue.repairable := by
  rw [← repairIssue_error now done] at h
  unfold repairStep
  unfold repairIssue at h ⊢
  cases htype : i.issueType with
  | staleOrder => simp [ReconciliationIssue.repairable, htype]
  | unrecordedFill =>
      simp only [htype] at h ⊢
      cases hrecord : recordUnrecordedFill now i done.1 with
      | ok db => simp [ReconciliationIssue.repairable, htype]
      | error e => rw [hrecord] at h; cases h
  | clean => simp [ReconciliationIssue.repairable, htype]
  | orphanPosition => simp [ReconciliationIssue.repairable, htype]
  | quantityMismatch => simp [ReconciliationIssue.repairable, htype]
  | ambiguous => simp [ReconciliationIssue.repairable, htype]

theorem foldl_repairStep_repaired (now : String) {issues : List ReconciliationIssue}
    (h : ∀ i ∈ issues, repairError i = none) (done : OrdersDb × List ReconciliationIssue) :
    (issues.foldl (repairStep now) done).2 =
      done.2 ++ issues.filter ReconciliationIssue.repairable := by
  induction issues generalizing done with
  | nil => simp
  | cons i rest ih =>
      rw [List.foldl_cons, ih fun j hj => h j (List.mem_cons_of_mem i hj),
        repairStep_repaired now done (h i List.mem_cons_self), List.append_assoc,
        ← List.filter_append]
      rfl

/-! ## What the loop leaves of a row -/

/-- The rows at each key are related by `P`. -/
def RowsKept (P : OrderRow → OrderRow → Prop) (db db' : OrdersDb) : Prop :=
  ∀ id, Option.Rel P (db.table.find? id) (db'.table.find? id)

section RowsKept

variable {P : OrderRow → OrderRow → Prop}

theorem RowsKept.refl (hrefl : ∀ r, P r r) (db : OrdersDb) : RowsKept P db db :=
  Table.Kept.refl hrefl db.table

theorem RowsKept.trans (htrans : ∀ a b c, P a b → P b c → P a c) {db₁ db₂ db₃ : OrdersDb}
    (h₁ : RowsKept P db₁ db₂) (h₂ : RowsKept P db₂ db₃) : RowsKept P db₁ db₃ :=
  Table.Kept.trans htrans h₁ h₂

theorem RowsKept.row_after {db db' : OrdersDb} (h : RowsKept P db db') {r : OrderRow}
    (hr : r ∈ db.table.rows) : ∃ r' ∈ db'.table.rows, P r r' ∧ r'.orderId = r.orderId :=
  Table.Kept.row_after h hr

theorem RowsKept.row_before {db db' : OrdersDb} (h : RowsKept P db db') {r' : OrderRow}
    (hr' : r' ∈ db'.table.rows) : ∃ r ∈ db.table.rows, P r r' := by
  obtain ⟨r, hr, hP, -⟩ := Table.Kept.row_before h hr'
  exact ⟨r, hr, hP⟩

theorem rowsKept_update (hrefl : ∀ r, P r r) (db : OrdersDb) (id : String) {f : OrderRow → OrderRow}
    (hkey : ∀ r, (f r).orderId = r.orderId) (hf : ∀ r, P r (f r)) :
    RowsKept P db (db.update id f hkey) :=
  Table.kept_update hrefl db.table id hkey fun r _ => hf r

theorem rowsKept_foldl (hrefl : ∀ r, P r r) (htrans : ∀ a b c, P a b → P b c → P a c)
    {now : String} {issues : List ReconciliationIssue}
    (hstep : ∀ i ∈ issues, ∀ done, RowsKept P done.1 (repairStep now done i).1)
    (done : OrdersDb × List ReconciliationIssue) :
    RowsKept P done.1 (issues.foldl (repairStep now) done).1 := by
  induction issues generalizing done with
  | nil => exact .refl hrefl done.1
  | cons i rest ih =>
      rw [List.foldl_cons]
      exact (hstep i List.mem_cons_self done).trans htrans
        (ih (fun j hj => hstep j (List.mem_cons_of_mem i hj)) _)

end RowsKept

/-- The two writes of the loop: a stale order's status, and a fill. -/
theorem rowsKept_repairStep {P : OrderRow → OrderRow → Prop} (hrefl : ∀ r, P r r) (now : String)
    (i : ReconciliationIssue)
    (hstale : i.issueType = .staleOrder →
      ∀ r, P r (OrdersDb.terminalRow now "UNKNOWN_STALE" r))
    (hfill : i.issueType = .unrecordedFill →
      ∀ qty paid r, P r (OrdersDb.filledRow now qty paid "FILLED" r))
    (done : OrdersDb × List ReconciliationIssue) :
    RowsKept P done.1 (repairStep now done i).1 := by
  unfold repairStep repairIssue
  cases htype : i.issueType with
  | staleOrder => exact rowsKept_update hrefl _ _ _ (hstale htype)
  | unrecordedFill =>
      dsimp only
      have hwrite := fun qty paid =>
        rowsKept_update hrefl done.1 (i.orderId.getD "")
          (OrdersDb.filledRow_orderId now qty paid "FILLED") (hfill htype qty paid)
      cases hrecord : recordUnrecordedFill now i done.1 with
      | error e => exact .refl hrefl _
      | ok db =>
          dsimp only
          unfold recordUnrecordedFill at hrecord
          split at hrecord
          · cases hvalue : i.brokerValue with
            | fill filledQty price =>
                rw [hvalue] at hrecord
                dsimp only at hrecord
                cases hqty : filledQty.toInt with
                | error e => rw [hqty] at hrecord; cases hrecord
                | ok qty =>
                    cases hpaid : price.toFloat with
                    | error e => rw [hqty, hpaid] at hrecord; cases hrecord
                    | ok paid =>
                        rw [hqty, hpaid] at hrecord
                        cases hrecord
                        exact hwrite qty paid
            | notFound => rw [hvalue] at hrecord; cases hrecord; exact hwrite 0 0
            | quantity qty => rw [hvalue] at hrecord; cases hrecord; exact hwrite 0 0
            | nothing => rw [hvalue] at hrecord; cases hrecord; exact .refl hrefl _
          · cases hrecord
            exact .refl hrefl _
  | clean => exact .refl hrefl _
  | orphanPosition => exact .refl hrefl _
  | quantityMismatch => exact .refl hrefl _
  | ambiguous => exact .refl hrefl _

/-! ## One run -/

/-- Every fill that the run would record can be read. -/
def FillsReadable (orders : List OrderRow) (brokerOrders : List BrokerOrder) : Prop :=
  ∀ o ∈ brokerOrders, Unrecorded orders o → o.orderId ≠ "" → o.FillReadable

/-- The issues of a survey, by what they are about. -/
structure Finds (db : OrdersDb) (brokerOrders : List BrokerOrder) (survey : Survey) : Prop where
  stale : ∀ r ∈ db.table.rows, Stale brokerOrders r →
    ∃ i ∈ survey.issues, i.issueType = .staleOrder ∧ i.orderId = some r.orderId
  fill : ∀ o ∈ brokerOrders, Unrecorded db.getAllOrders o → fillIssue o ∈ survey.issues
  only : ∀ i ∈ survey.issues, i.issueType = .orphanPosition ∨ i.issueType = .quantityMismatch ∨
    (i.issueType = .staleOrder ∧ ∃ r ∈ db.table.rows, Stale brokerOrders r) ∨
    ∃ o ∈ brokerOrders, Unrecorded db.getAllOrders o ∧ i = fillIssue o

theorem detect_finds {db : OrdersDb} {brokerOrders : List BrokerOrder}
    (readable : QuantitiesReadable db.getAllOrders brokerOrders)
    (positions : List BrokerPosition) :
    ∃ survey, detect db brokerOrders positions = .ok survey ∧ Finds db brokerOrders survey := by
  obtain ⟨mismatches, hmismatches, htypes⟩ := detectQuantityMismatches_ok readable
  unfold detect
  rw [hmismatches]
  refine ⟨_, rfl, ?_, ?_, ?_⟩
  · intro r hr hstale
    obtain ⟨_, bid, hbid, _⟩ := id hstale
    refine ⟨staleIssue r bid, ?_, rfl, rfl⟩
    simp only [List.mem_append]
    exact .inl (.inl (.inl ((mem_detectStaleOrders db brokerOrders _).mpr
      ⟨r, hr, hstale, bid, rfl, hbid⟩)))
  · intro o ho hfill
    exact List.mem_append_right _ ((mem_detectUnrecordedFills _ _ _).mpr ⟨o, ho, hfill, rfl⟩)
  · intro i hi
    simp only [List.mem_append] at hi
    obtain ((hstale | horphan) | hmismatch) | hfill := hi
    · obtain ⟨r, hr, hrow, bid, rfl, _⟩ := (mem_detectStaleOrders db brokerOrders i).mp hstale
      exact .inr (.inr (.inl ⟨rfl, r, hr, hrow⟩))
    · exact .inl (detectOrphanPositions_type horphan)
    · exact .inr (.inl (htypes i hmismatch))
    · exact .inr (.inr (.inr ((mem_detectUnrecordedFills _ _ _).mp hfill)))

theorem repairError_fillIssue (o : BrokerOrder) :
    repairError (fillIssue o) = none ↔ o.orderId = "" ∨ o.FillReadable := by
  by_cases hid : o.orderId = ""
  · simp [repairError, fillIssue, truthy, hid]
  · have htruthy : truthy (some o.orderId) = true := truthy_some hid
    unfold BrokerOrder.FillReadable BrokerOrder.QuantityReadable
    simp only [repairError, fillIssue, htruthy, if_true]
    cases o.filledShares.toInt with
    | error e => simp [hid]
    | ok qty =>
        cases o.averagePrice.toFloat with
        | error e => simp [hid]
        | ok paid => simp

theorem repairError_of_type {i : ReconciliationIssue} (h : i.issueType ≠ .unrecordedFill) :
    repairError i = none := by
  unfold repairError
  split
  · rename_i htype
    exact absurd htype h
  · rfl

theorem Finds.repairError_none {db : OrdersDb} {brokerOrders : List BrokerOrder} {survey : Survey}
    (finds : Finds db brokerOrders survey) (readable : FillsReadable db.getAllOrders brokerOrders) :
    ∀ i ∈ survey.issues, repairError i = none := by
  intro i hi
  obtain htype | htype | ⟨htype, _⟩ | ⟨o, ho, hfill, rfl⟩ := finds.only i hi
  · exact repairError_of_type (by rw [htype]; decide)
  · exact repairError_of_type (by rw [htype]; decide)
  · exact repairError_of_type (by rw [htype]; decide)
  · rw [repairError_fillIssue]
    by_cases hid : o.orderId = ""
    · exact .inl hid
    · exact .inr (readable o ho hfill hid)

/-- A run with auto-repair on data it can read reports its issues and has repaired all it could. -/
theorem reconcile_readable {s : ReconciliationService} (auto : s.enableAutoRepair = true)
    {brokerOrders : List BrokerOrder}
    (quantities : QuantitiesReadable s.db.getAllOrders brokerOrders)
    (fills : FillsReadable s.db.getAllOrders brokerOrders) (positions : List BrokerPosition)
    (now : String) :
    ∃ survey r, Finds s.db brokerOrders survey ∧
      (reconcile now ⟨.ok brokerOrders, .ok positions⟩ s).2 = .ok r ∧
      r.issues = survey.issues ∧
      r.repaired = survey.issues.filter ReconciliationIssue.repairable ∧
      (reconcile now ⟨.ok brokerOrders, .ok positions⟩ s).1.db =
        (survey.issues.foldl (repairStep now) (s.db, [])).1 ∧
      (reconcile now ⟨.ok brokerOrders, .ok positions⟩ s).1.enableAutoRepair = true := by
  obtain ⟨survey, hdetect, hfinds⟩ := detect_finds quantities positions
  have herrors := hfinds.repairError_none fills
  have hrepair : autoRepair now survey.issues s.db =
      (survey.issues.foldl (repairStep now) (s.db, []), none) :=
    loop_eq_foldl (repairIssue_error now) herrors (s.db, [])
  have hrun : reconcile now ⟨.ok brokerOrders, .ok positions⟩ s =
      ((settle now survey s).1, .ok {
        isClean := survey.issues.isEmpty
        issues := survey.issues
        freezeReason := if survey.issues.isEmpty then none else (settle now survey s).1.freezeReason
        brokerPositionsCount := survey.brokerPositionsCount
        internalOrdersCount := survey.internalOrdersCount
        repaired := (survey.issues.foldl (repairStep now) (s.db, [])).2 }) := by
    simp only [reconcile, fetch, hdetect, settleOrHandle, settle, auto, if_true, hrepair]
  refine ⟨survey, _, hfinds, by rw [hrun], rfl, ?_, ?_, ?_⟩
  · rw [foldl_repairStep_repaired now herrors, List.nil_append]
  · rw [hrun]
    simp only [settle, auto, if_true, hrepair]
    split <;> rfl
  · rw [hrun]
    simp only [settle, auto, if_true, hrepair]
    split <;> rfl

/-- Where a number cannot be read, the run has no repair to report. -/
theorem reconcile_unreadable {s : ReconciliationService} {brokerOrders : List BrokerOrder}
    (unreadable : ¬ (QuantitiesReadable s.db.getAllOrders brokerOrders ∧
      FillsReadable s.db.getAllOrders brokerOrders))
    (auto : s.enableAutoRepair = true) (positions : List BrokerPosition) (now : String)
    {r : ReconciliationResult}
    (hr : (reconcile now ⟨.ok brokerOrders, .ok positions⟩ s).2 = .ok r) : r.repaired = [] := by
  have hhandle : ∀ (e : PyExc) (t : ReconciliationService), (handle e t).2 = .ok r →
      r.repaired = [] := by
    intro e t h
    unfold handle at h
    split at h
    · cases h
      rfl
    · cases h
  by_cases hquantities : QuantitiesReadable s.db.getAllOrders brokerOrders
  · obtain ⟨survey, hdetect, hfinds⟩ := detect_finds hquantities positions
    -- some fill raises in the repair loop
    have hraises : ∃ e, (autoRepair now survey.issues s.db).2 = some e := by
      have hfill : ¬ FillsReadable s.db.getAllOrders brokerOrders :=
        fun h => unreadable ⟨hquantities, h⟩
      unfold FillsReadable at hfill
      push Not at hfill
      obtain ⟨o, ho, hunrecorded, hid, hbad⟩ := hfill
      cases herror : repairError (fillIssue o) with
      | none =>
          rw [repairError_fillIssue] at herror
          exact absurd herror (not_or.mpr ⟨hid, hbad⟩)
      | some e =>
          exact loop_raises (repairIssue_error now) (hfinds.fill o ho hunrecorded) herror (s.db, [])
    obtain ⟨e, he⟩ := hraises
    simp only [reconcile, fetch, hdetect, settleOrHandle, settle, auto, if_true, he] at hr
    exact hhandle _ _ hr
  · obtain ⟨e, he⟩ := detectQuantityMismatches_error hquantities
    simp only [reconcile, fetch, detect, he] at hr
    exact hhandle _ _ hr

/-! ## Two runs -/

def SameBrokerOrder (r r' : OrderRow) : Prop := r'.brokerOrderId = r.brokerOrderId

/-- The broker order id of a row, by which orders are found again, is never rewritten. -/
theorem known_foldl_repairStep (now : String) (issues : List ReconciliationIssue) (db : OrdersDb)
    (bid : String) :
    Known (issues.foldl (repairStep now) (db, [])).1.getAllOrders bid ↔
      Known db.getAllOrders bid := by
  have hrefl : ∀ r, SameBrokerOrder r r := fun r => Eq.refl r.brokerOrderId
  have htrans : ∀ a b c, SameBrokerOrder a b → SameBrokerOrder b c → SameBrokerOrder a c :=
    fun a b c hab hbc => Eq.trans hbc hab
  have hkept : RowsKept SameBrokerOrder db (issues.foldl (repairStep now) (db, [])).1 := by
    refine rowsKept_foldl hrefl htrans (fun i _ => ?_) (db, [])
    exact rowsKept_repairStep hrefl now i (fun _ r => hrefl r) (fun _ _ _ r => hrefl r)
  unfold Known
  apply and_congr_right
  intro _
  simp only [OrdersDb.mem_getAllOrders]
  constructor
  · intro h
    obtain ⟨r', hr', hbid⟩ := h
    obtain ⟨r, hr, hsame⟩ := hkept.row_before hr'
    exact ⟨r, hr, hsame.symm.trans hbid⟩
  · intro h
    obtain ⟨r, hr, hbid⟩ := h
    obtain ⟨r', hr', hsame, -⟩ := hkept.row_after hr
    exact ⟨r', hr', hsame.trans hbid⟩

/-- A stale order is still one after the loop, unless a fill was recorded under its id. -/
theorem stale_foldl_repairStep (now : String) {issues : List ReconciliationIssue} {db : OrdersDb}
    (noFill : ∀ i ∈ issues, i.issueType ≠ .unrecordedFill) {brokerOrders : List BrokerOrder}
    {r : OrderRow} (hr : r ∈ db.table.rows) (stale : Stale brokerOrders r) :
    ∃ r' ∈ (issues.foldl (repairStep now) (db, [])).1.table.rows,
      Stale brokerOrders r' ∧ r'.orderId = r.orderId := by
  have hkept : RowsKept (fun r r' => r'.brokerOrderId = r.brokerOrderId ∧
        (r.status ∉ OrdersDb.terminalStates → r'.status ∉ OrdersDb.terminalStates)) db
      (issues.foldl (repairStep now) (db, [])).1 := by
    refine rowsKept_foldl (fun _ => ⟨rfl, id⟩)
      (fun _ _ _ hab hbc => ⟨hbc.1.trans hab.1, hbc.2 ∘ hab.2⟩) (fun i hi => ?_) (db, [])
    refine rowsKept_repairStep (fun _ => ⟨rfl, id⟩) now i ?_ ?_
    · intro _ r
      refine ⟨rfl, fun _ => ?_⟩
      show "UNKNOWN_STALE" ∉ OrdersDb.terminalStates
      decide
    · intro htype
      exact absurd htype (noFill i hi)
  obtain ⟨r', hr', hsame, hid⟩ := hkept.row_after hr
  obtain ⟨hpending, bid, hbid, hmissing⟩ := stale
  exact ⟨r', hr', ⟨hsame.2 hpending, bid, hsame.1.trans hbid, hmissing⟩, hid⟩

/-- No issue that the first run counts as repaired is reported by the second. -/
def RepairsConverge (s : ReconciliationService) (brokerOrders : List BrokerOrder)
    (positions : List BrokerPosition) (now later : String) : Prop :=
  ∀ r₁ r₂, (reconcile now ⟨.ok brokerOrders, .ok positions⟩ s).2 = .ok r₁ →
    (reconcile later ⟨.ok brokerOrders, .ok positions⟩
      (reconcile now ⟨.ok brokerOrders, .ok positions⟩ s).1).2 = .ok r₂ →
    ∀ i ∈ r₁.repaired, ∀ j ∈ r₂.issues, ¬ (j.issueType = i.issueType ∧ j.orderId = i.orderId)

/-- No pending order is missing at the broker and no filled broker order is unknown. -/
def NothingToRepair (db : OrdersDb) (brokerOrders : List BrokerOrder) : Prop :=
  (∀ r ∈ db.table.rows, ¬ Stale brokerOrders r) ∧
    ∀ o ∈ brokerOrders, ¬ Unrecorded db.getAllOrders o

theorem not_repairsConverge {s : ReconciliationService} (auto : s.enableAutoRepair = true)
    {brokerOrders : List BrokerOrder}
    (quantities : QuantitiesReadable s.db.getAllOrders brokerOrders)
    (fills : FillsReadable s.db.getAllOrders brokerOrders)
    (something : ¬ NothingToRepair s.db brokerOrders) (positions : List BrokerPosition)
    (now later : String) : ¬ RepairsConverge s brokerOrders positions now later := by
  intro hconverge
  obtain ⟨survey, r₁, hfinds, hr₁, _, hrepaired, hdb, hauto⟩ :=
    reconcile_readable auto quantities fills positions now
  have hknown : ∀ bid, Known (reconcile now ⟨.ok brokerOrders, .ok positions⟩ s).1.db.getAllOrders
      bid ↔ Known s.db.getAllOrders bid := by
    intro bid
    rw [hdb]
    exact known_foldl_repairStep now survey.issues s.db bid
  have hunrecorded : ∀ o, Unrecorded
      (reconcile now ⟨.ok brokerOrders, .ok positions⟩ s).1.db.getAllOrders o ↔
      Unrecorded s.db.getAllOrders o := fun o => and_congr_right fun _ => not_congr (hknown _)
  -- the second run can read what the first could
  obtain ⟨survey', r₂, hfinds', hr₂, hissues', _⟩ :=
    reconcile_readable hauto (fun o ho hk => quantities o ho ((hknown _).mp hk))
      (fun o ho hu hid => fills o ho ((hunrecorded o).mp hu) hid) positions later
  have hreported := hconverge r₁ r₂ hr₁ hr₂
  rw [hrepaired, hissues'] at hreported
  by_cases hfill : ∃ o ∈ brokerOrders, Unrecorded s.db.getAllOrders o
  · obtain ⟨o, ho, hunknown⟩ := hfill
    have hfirst : fillIssue o ∈ survey.issues.filter ReconciliationIssue.repairable :=
      List.mem_filter.mpr ⟨hfinds.fill o ho hunknown, rfl⟩
    have hsecond := hfinds'.fill o ho ((hunrecorded o).mpr hunknown)
    exact hreported _ hfirst _ hsecond ⟨rfl, rfl⟩
  · have hstale : ∃ r ∈ s.db.table.rows, Stale brokerOrders r := by
      by_contra hnone
      exact something ⟨fun r hr hst => hnone ⟨r, hr, hst⟩, fun o ho hu => hfill ⟨o, ho, hu⟩⟩
    obtain ⟨r, hr, hrow⟩ := hstale
    have hnoFill : ∀ i ∈ survey.issues, i.issueType ≠ .unrecordedFill := by
      intro i hi htype
      obtain h | h | ⟨h, _⟩ | ⟨o, ho, hu, rfl⟩ := hfinds.only i hi
      · rw [htype] at h; cases h
      · rw [htype] at h; cases h
      · rw [htype] at h; cases h
      · exact hfill ⟨o, ho, hu⟩
    obtain ⟨r', hr', hrow', hid⟩ := stale_foldl_repairStep now hnoFill hr hrow
    rw [← hdb] at hr'
    obtain ⟨i, hi, hitype, hiid⟩ := hfinds.stale r hr hrow
    obtain ⟨j, hj, hjtype, hjid⟩ := hfinds'.stale r' hr' hrow'
    have hfirst : i ∈ survey.issues.filter ReconciliationIssue.repairable :=
      List.mem_filter.mpr ⟨hi, by simp [ReconciliationIssue.repairable, hitype]⟩
    exact hreported i hfirst j hj ⟨hjtype.trans hitype.symm, by rw [hjid, hiid, hid]⟩

/-- Repairs converge exactly when there was nothing to repair, or when the run could not read a
quantity or a fill and so repaired nothing that it reports. -/
theorem repairs_converge_iff (s : ReconciliationService) (auto : s.enableAutoRepair = true)
    (brokerOrders : List BrokerOrder) (positions : List BrokerPosition) (now later : String) :
    RepairsConverge s brokerOrders positions now later ↔
      NothingToRepair s.db brokerOrders ∨ ¬ QuantitiesReadable s.db.getAllOrders brokerOrders ∨
        ¬ FillsReadable s.db.getAllOrders brokerOrders := by
  by_cases hreadable : QuantitiesReadable s.db.getAllOrders brokerOrders ∧
      FillsReadable s.db.getAllOrders brokerOrders
  · constructor
    · intro hconverge
      by_contra hnot
      exact not_repairsConverge auto hreadable.1 hreadable.2 (not_or.mp hnot).1 positions now later
        hconverge
    · intro hcase
      have hnothing : NothingToRepair s.db brokerOrders := by
        obtain h | h | h := hcase
        · exact h
        · exact absurd hreadable.1 h
        · exact absurd hreadable.2 h
      intro r₁ r₂ hr₁ _ i hi
      obtain ⟨survey, r, hfinds, hr, _, hrepaired, _⟩ :=
        reconcile_readable auto hreadable.1 hreadable.2 positions now
      obtain rfl : r = r₁ := Except.ok.inj (hr.symm.trans hr₁)
      rw [hrepaired] at hi
      obtain ⟨hmem, hrepairable⟩ := List.mem_filter.mp hi
      obtain h | h | ⟨_, row, hrow, hstale⟩ | ⟨o, ho, hu, rfl⟩ := hfinds.only i hmem
      · simp [ReconciliationIssue.repairable, h] at hrepairable
      · simp [ReconciliationIssue.repairable, h] at hrepairable
      · exact absurd hstale (hnothing.1 row hrow)
      · exact absurd hu (hnothing.2 o ho)
  · refine iff_of_true ?_ (.inr (not_and_or.mp hreadable))
    intro r₁ r₂ hr₁ _ i hi
    rw [reconcile_unreadable hreadable auto positions now hr₁] at hi
    cases hi

/-- An order that was sent to the broker as `B1`. -/
def sentOrder : OrderRow where
  orderId := "O1"
  intentId := none
  symbol := "NIFTY"
  direction := "BUY"
  quantity := 50
  status := "SUBMITTED"
  brokerOrderId := some "B1"
  createdAt := "2026-01-05T09:20:00"
  updatedAt := "2026-01-05T09:20:00"

def oneSentOrder : ReconciliationService where
  db := { table := ⟨[sentOrder], List.nodup_singleton _⟩ }

/-- The broker still works on `B1`. -/
def openAtBroker : BrokerOrder where
  orderId := "B1"
  status := "OPEN"
  filledShares := ⟨"0", .ok 0, .ok 0⟩
  averagePrice := ⟨"0", .ok 0, .ok 0⟩

theorem repairs_converge_with_open_order :
    RepairsConverge oneSentOrder [openAtBroker] [] "2026-01-05T09:30:00" "2026-01-05T09:40:00" := by
  apply (repairs_converge_iff oneSentOrder rfl [openAtBroker] [] _ _).mpr
  refine .inl ⟨?_, ?_⟩
  · intro r hr hstale
    obtain rfl := List.mem_singleton.mp hr
    obtain ⟨_, bid, hbid, _, hmissing⟩ := hstale
    obtain rfl : "B1" = bid := Option.some.inj hbid
    exact hmissing (by decide)
  · intro o ho hfill
    obtain rfl := List.mem_singleton.mp ho
    exact absurd hfill.1 (by decide)

/-- The broker does not list the order: it is repaired and found stale again. -/
theorem stale_repair_found_again :
    ¬ RepairsConverge oneSentOrder [] [] "2026-01-05T09:30:00" "2026-01-05T09:40:00" := by
  have hstale : Stale [] sentOrder := ⟨by decide, "B1", rfl, by decide, by decide⟩
  have hsomething : ¬ NothingToRepair oneSentOrder.db [] :=
    fun h => h.1 sentOrder List.mem_cons_self hstale
  exact not_repairsConverge rfl (fun o ho => by cases ho) (fun o ho => by cases ho) hsomething [] _ _

end AutoTrade.Reconciliation
