import AutoTrade.Reconciliation.Convergence

/-! # What a broker outage does to the orders table

A fetch that fails leaves an empty list, and the run goes on as if the broker
had no orders or no positions: pending orders are repaired as stale, and with
nothing to report the run is clean.
-/

namespace AutoTrade.Reconciliation

open AutoTrade.Library ReconciliationService

/-! ## The rows that repairs rewrite -/

theorem OrdersDb.update_of_absent {db : OrdersDb} {id : String} {f : OrderRow → OrderRow}
    {hf : ∀ r, (f r).orderId = r.orderId} (absent : db.table.find? id = none) :
    db.update id f hf = db := by
  have hrows : db.table.update id f hf = db.table := by
    have hmap : (db.table.rows.map fun r => if r.orderId = id then f r else r) = db.table.rows := by
      refine (List.map_congr_left fun r hr => ?_).trans (List.map_id _)
      exact if_neg ((db.table.find?_eq_none_iff id).mp absent r hr)
    exact (Table.mk.injEq ..).mpr hmap
  have hcontains : db.table.contains id = false := by
    rw [Table.contains, absent]
    rfl
  unfold OrdersDb.update
  rw [hrows, hcontains]
  rfl

theorem OrdersDb.touched_update_of_present {db : OrdersDb} {id : String} {f : OrderRow → OrderRow}
    {hf : ∀ r, (f r).orderId = r.orderId} (present : db.table.find? id ≠ none) :
    (db.update id f hf).touched = db.touched ++ [id] := by
  have hcontains : db.table.contains id = true := Option.isSome_iff_ne_none.mpr present
  unfold OrdersDb.update
  rw [hcontains]
  rfl

theorem OrdersDb.touched_update_length (db : OrdersDb) (id : String) (f : OrderRow → OrderRow)
    (hf : ∀ r, (f r).orderId = r.orderId) :
    db.touched.length ≤ (db.update id f hf).touched.length := by
  by_cases h : db.table.find? id = none
  · rw [update_of_absent h]
  · rw [touched_update_of_present h, List.length_append]
    exact Nat.le_add_right _ _

/-- The order id whose row the repair of an issue rewrites. -/
def writesTo (i : ReconciliationIssue) : Option String :=
  match i.issueType, i.brokerValue with
  | .staleOrder, _ => some (i.orderId.getD "")
  | .unrecordedFill, .nothing => none
  | .unrecordedFill, _ => if truthy i.orderId then some (i.orderId.getD "") else none
  | _, _ => none

/-- The order ids that the loop writes to before a number that cannot be read ends it. -/
def plannedWrites (issues : List ReconciliationIssue) : List String :=
  (issues.takeWhile fun i => (repairError i).isNone).filterMap writesTo

theorem repairStep_db (now : String) (done : OrdersDb × List ReconciliationIssue)
    {i : ReconciliationIssue} (readable : repairError i = none) :
    match writesTo i with
    | none => (repairStep now done i).1 = done.1
    | some id => ∃ f hf, (repairStep now done i).1 = done.1.update id f hf := by
  have hfill : ∀ qty paid, ∃ f hf, done.1.updateOrderFill now (i.orderId.getD "") qty paid "FILLED" =
      done.1.update (i.orderId.getD "") f hf := fun qty paid => ⟨_, _, rfl⟩
  unfold writesTo repairStep repairIssue
  cases htype : i.issueType with
  | staleOrder => exact ⟨_, _, rfl⟩
  | unrecordedFill =>
      unfold repairError at readable
      unfold recordUnrecordedFill
      rw [htype] at readable
      by_cases hid : truthy i.orderId = true
      · cases hvalue : i.brokerValue with
        | nothing => simp only [if_pos hid]
        | notFound =>
            simp only [if_pos hid]
            exact hfill 0 0
        | quantity qty =>
            simp only [if_pos hid]
            exact hfill 0 0
        | fill filledQty price =>
            simp only [hvalue, if_pos hid] at readable ⊢
            cases hqty : filledQty.toInt with
            | error e => rw [hqty] at readable; cases readable
            | ok qty =>
                cases hpaid : price.toFloat with
                | error e => rw [hqty, hpaid] at readable; cases readable
                | ok paid => exact hfill qty paid
      · cases i.brokerValue <;> simp only [if_neg hid]
  | clean => rfl
  | orphanPosition => rfl
  | quantityMismatch => rfl
  | ambiguous => rfl

theorem repairStep_touched_length (now : String) (done : OrdersDb × List ReconciliationIssue)
    {i : ReconciliationIssue} (readable : repairError i = none) :
    done.1.touched.length ≤ (repairStep now done i).1.touched.length := by
  have hdb := repairStep_db now done readable
  cases hwrites : writesTo i with
  | none =>
      rw [hwrites] at hdb
      exact (congrArg (fun db => db.touched.length) hdb).ge
  | some id =>
      rw [hwrites] at hdb
      obtain ⟨f, hf, heq⟩ := hdb
      rw [heq]
      exact done.1.touched_update_length id f hf

theorem loop_cons_readable (now : String) (done : OrdersDb × List ReconciliationIssue)
    {i : ReconciliationIssue} (rest : List ReconciliationIssue) (readable : repairError i = none) :
    loop (repairIssue now) done (i :: rest) = loop (repairIssue now) (repairStep now done i) rest := by
  have hbody : repairIssue now done i = (repairStep now done i, none) :=
    Prod.ext rfl ((repairIssue_error now done i).trans readable)
  rw [loop, hbody]

theorem loop_cons_unreadable (now : String) (done : OrdersDb × List ReconciliationIssue)
    {i : ReconciliationIssue} (rest : List ReconciliationIssue) {e : ReadError}
    (unreadable : repairError i = some e) :
    loop (repairIssue now) done (i :: rest) = (done, some e) := by
  have hsecond := (repairIssue_error now done i).trans unreadable
  have hfirst : (repairIssue now done i).1 = done := by
    unfold repairIssue at hsecond ⊢
    cases htype : i.issueType with
    | unrecordedFill =>
        rw [htype] at hsecond
        cases hrecord : recordUnrecordedFill now i done.1 with
        | ok db => rw [hrecord] at hsecond; cases hsecond
        | error e => rfl
    | staleOrder => rw [htype] at hsecond; cases hsecond
    | clean => rfl
    | orphanPosition => rfl
    | quantityMismatch => rfl
    | ambiguous => rfl
  have hbody : repairIssue now done i = (done, some e) := Prod.ext hfirst hsecond
  rw [loop, hbody]

theorem loop_touched_length (now : String) (issues : List ReconciliationIssue)
    (done : OrdersDb × List ReconciliationIssue) :
    done.1.touched.length ≤ (loop (repairIssue now) done issues).1.1.touched.length := by
  induction issues generalizing done with
  | nil => exact le_refl _
  | cons i rest ih =>
      cases herror : repairError i with
      | none =>
          rw [loop_cons_readable now done rest herror]
          exact (repairStep_touched_length now done herror).trans (ih _)
      | some e => rw [loop_cons_unreadable now done rest herror]

theorem loop_error (now : String) (issues : List ReconciliationIssue)
    (done : OrdersDb × List ReconciliationIssue) :
    (loop (repairIssue now) done issues).2 = issues.findSome? repairError := by
  induction issues generalizing done with
  | nil => rfl
  | cons i rest ih =>
      cases herror : repairError i with
      | none => rw [loop_cons_readable now done rest herror, ih, List.findSome?_cons, herror]
      | some e => rw [loop_cons_unreadable now done rest herror, List.findSome?_cons, herror]

/-- The loop leaves the table alone exactly when it writes to no row. -/
theorem loop_db_eq_iff (now : String) (issues : List ReconciliationIssue) (db : OrdersDb)
    (repaired : List ReconciliationIssue) :
    (loop (repairIssue now) (db, repaired) issues).1.1 = db ↔
      ∀ id ∈ plannedWrites issues, db.table.find? id = none := by
  induction issues generalizing repaired with
  | nil => simp [loop, plannedWrites]
  | cons i rest ih =>
      cases herror : repairError i with
      | some e => simp [loop_cons_unreadable now _ rest herror, plannedWrites, herror]
      | none =>
          rw [loop_cons_readable now _ rest herror]
          have hdb := repairStep_db now (db, repaired) herror
          have hplanned : plannedWrites (i :: rest) =
              (writesTo i).toList ++ plannedWrites rest := by
            cases hwrites : writesTo i <;> simp [plannedWrites, herror, hwrites]
          -- nothing was written so far, so the rest starts from the same table
          have hsame : (repairStep now (db, repaired) i).1 = db →
              ((loop (repairIssue now) (repairStep now (db, repaired) i) rest).1.1 = db ↔
                ∀ id ∈ plannedWrites rest, db.table.find? id = none) := by
            intro heq
            have hpair : repairStep now (db, repaired) i =
                (db, (repairStep now (db, repaired) i).2) := Prod.ext heq rfl
            rw [hpair]
            exact ih _
          rw [hplanned]
          cases hwrites : writesTo i with
          | none =>
              rw [hwrites] at hdb
              simpa using hsame hdb
          | some id =>
              rw [hwrites] at hdb
              obtain ⟨f, hf, heq⟩ := hdb
              by_cases habsent : db.table.find? id = none
              · rw [hsame (heq.trans (OrdersDb.update_of_absent habsent))]
                simp [habsent]
              · refine iff_of_false ?_ ?_
                · intro hfinal
                  have hgrown := loop_touched_length now rest (repairStep now (db, repaired) i)
                  rw [hfinal, heq, OrdersDb.touched_update_of_present habsent] at hgrown
                  simp at hgrown
                · intro hall
                  exact habsent (hall id (by simp))

/-! ## A run by what it finds -/

/-- What the run finds in the answers, an empty list where a fetch failed. -/
def surveyed (answers : BrokerAnswers) (db : OrdersDb) : Except PyExc Survey :=
  match fetch answers.orderBook, fetch answers.positions with
  | .error e, _ => .error e
  | .ok _, .error e => .error e
  | .ok brokerOrders, .ok positions =>
      match detect db brokerOrders positions with
      | .error e => .error e.toPyExc
      | .ok survey => .ok survey

/-- What the run does with what it finds. -/
def conclude (now : String) (s : ReconciliationService) :
    Except PyExc Survey → ReconciliationService × Except PyExc ReconciliationResult
  | .error e => handle e s
  | .ok survey => settleOrHandle now survey s

theorem reconcile_eq (now : String) (answers : BrokerAnswers) (s : ReconciliationService) :
    reconcile now answers s = conclude now s (surveyed answers s.db) := by
  unfold reconcile surveyed
  cases hbook : fetch answers.orderBook with
  | error e => rfl
  | ok brokerOrders =>
      cases hpositions : fetch answers.positions with
      | error e => rfl
      | ok positions =>
          cases hdetect : detect s.db brokerOrders positions with
          | error e => simp only [hdetect, conclude]
          | ok survey => simp only [hdetect, conclude]

/-- One of the errors after which a run freezes trading. -/
def Handled (e : PyExc) : Prop :=
  e.caughtBy [.persistenceError, .osError, .valueError, .keyError] = true

/-- The table is untouched, the run is not reported clean and trading is frozen. -/
structure Unharmed (now : String) (answers : BrokerAnswers) (s : ReconciliationService) : Prop where
  untouched : (reconcile now answers s).1.db = s.db
  reported : ∀ r, (reconcile now answers s).2 = .ok r → r.isClean = false
  frozen : (reconcile now answers s).1.isFrozen = true

/-- The error that ends the repairs of a run, if one does. -/
def endsRepairs (s : ReconciliationService) (survey : Survey) : Option ReadError :=
  if s.enableAutoRepair then survey.issues.findSome? repairError else none

/-- A run that writes to no row, and either is ended by a handled error, or finds issues; where it
does not freeze trading itself, trading is frozen already. -/
def SafeRun (answers : BrokerAnswers) (s : ReconciliationService) : Prop :=
  match surveyed answers s.db with
  | .error e => s.isFrozen = true ∨ Handled e
  | .ok survey =>
      (s.enableAutoRepair = true →
        ∀ id ∈ plannedWrites survey.issues, s.db.table.find? id = none) ∧
      match endsRepairs s survey with
      | some e => s.isFrozen = true ∨ Handled e.toPyExc
      | none => survey.issues ≠ [] ∧ (s.isFrozen = true ∨ detectAmbiguity survey.issues = true)

theorem unharmed_reported_iff {now : String} {answers : BrokerAnswers}
    {s t : ReconciliationService} {r : ReconciliationResult}
    (hrun : reconcile now answers s = (t, .ok r)) :
    Unharmed now answers s ↔ t.db = s.db ∧ r.isClean = false ∧ t.isFrozen = true := by
  constructor
  · intro h
    obtain ⟨huntouched, hreported, hfrozen⟩ := h
    rw [hrun] at huntouched hreported hfrozen
    exact ⟨huntouched, hreported r rfl, hfrozen⟩
  · intro h
    refine ⟨by rw [hrun]; exact h.1, ?_, by rw [hrun]; exact h.2.2⟩
    intro r' hr'
    rw [hrun] at hr'
    obtain rfl := Except.ok.inj hr'
    exact h.2.1

theorem unharmed_handle_iff {now : String} {answers : BrokerAnswers} {s t : ReconciliationService}
    {e : PyExc} (hrun : reconcile now answers s = handle e t) (hfrozen : t.isFrozen = s.isFrozen) :
    Unharmed now answers s ↔ t.db = s.db ∧ (s.isFrozen = true ∨ Handled e) := by
  unfold handle at hrun
  by_cases h : e.caughtBy [.persistenceError, .osError, .valueError, .keyError] = true
  · rw [if_pos h] at hrun
    rw [unharmed_reported_iff hrun]
    simp [freezeTrading, failedResult, Handled, h]
  · rw [if_neg h] at hrun
    have hnot : ¬ Handled e := h
    constructor
    · intro hsafe
      obtain ⟨huntouched, _, hafter⟩ := hsafe
      rw [hrun] at huntouched hafter
      exact ⟨huntouched, .inl (hfrozen ▸ hafter)⟩
    · intro hsafe
      refine ⟨by rw [hrun]; exact hsafe.1, ?_, ?_⟩
      · intro r hr
        rw [hrun] at hr
        cases hr
      · rw [hrun]
        exact hfrozen.trans (hsafe.2.resolve_right hnot)

/-- The repairs of a run: its table, and the error that ends them. -/
theorem settle_repair (now : String) (survey : Survey) (s : ReconciliationService) :
    ∃ repair : (OrdersDb × List ReconciliationIssue) × Option ReadError,
      (if s.enableAutoRepair then autoRepair now survey.issues s.db else ((s.db, []), none)) =
        repair ∧
      repair.2 = endsRepairs s survey ∧
      (repair.1.1 = s.db ↔ (s.enableAutoRepair = true →
        ∀ id ∈ plannedWrites survey.issues, s.db.table.find? id = none)) := by
  unfold endsRepairs
  cases s.enableAutoRepair with
  | true =>
      refine ⟨_, rfl, ?_, ?_⟩
      · exact loop_error now survey.issues (s.db, [])
      · unfold autoRepair
        simpa using loop_db_eq_iff now survey.issues s.db []
  | false => exact ⟨_, rfl, rfl, by simp⟩

/-- A run that no error ends reports what it found, and freezes trading where that is ambiguous. -/
theorem settle_reports {now : String} {survey : Survey} {s : ReconciliationService}
    {repair : (OrdersDb × List ReconciliationIssue) × Option ReadError}
    (hrepair : (if s.enableAutoRepair then autoRepair now survey.issues s.db
      else ((s.db, []), none)) = repair) (hnone : repair.2 = none) :
    ∃ t r, settle now survey s = (t, .ok r) ∧ t.db = repair.1.1 ∧
      r.isClean = survey.issues.isEmpty ∧ (t.isFrozen = true ↔ s.isFrozen = true ∨
        (survey.issues ≠ [] ∧ detectAmbiguity survey.issues = true)) := by
  have hempty : survey.issues.isEmpty = false ↔ survey.issues ≠ [] := by simp
  simp only [settle, hrepair, hnone]
  refine ⟨_, _, rfl, ?_, rfl, ?_⟩
  · split <;> rfl
  · cases hclean : survey.issues.isEmpty with
    | true =>
        have hno : ¬ survey.issues ≠ [] := by rw [← hempty, hclean]; decide
        simp [hno]
    | false =>
        have hsome := hempty.mp hclean
        cases hambiguous : detectAmbiguity survey.issues with
        | true => simp [hsome, freezeTrading]
        | false => simp

theorem unharmed_iff_safeRun (now : String) (answers : BrokerAnswers) (s : ReconciliationService) :
    Unharmed now answers s ↔ SafeRun answers s := by
  have hrun := reconcile_eq now answers s
  unfold SafeRun
  cases hsurvey : surveyed answers s.db with
  | error e =>
      rw [hsurvey, conclude] at hrun
      rw [unharmed_handle_iff hrun rfl]
      simp
  | ok survey =>
      rw [hsurvey, conclude] at hrun
      obtain ⟨repair, hrepair, herror, hdb⟩ := settle_repair now survey s
      unfold settleOrHandle at hrun
      dsimp only at hrun ⊢
      rw [← herror, ← hdb]
      cases hraised : repair.2 with
      | some e =>
          simp only [settle, hrepair, hraised] at hrun
          exact unharmed_handle_iff hrun rfl
      | none =>
          obtain ⟨t, r, hsettle, htdb, hclean, hfrozen⟩ := settle_reports hrepair hraised
          rw [hsettle] at hrun
          rw [unharmed_reported_iff hrun, htdb, hclean, hfrozen]
          simp only [List.isEmpty_eq_false_iff]
          tauto

/-! ## Outages -/

/-- Fetching the order book or the positions fails with one of the errors a fetch handles. -/
def BrokerAnswers.Outage (answers : BrokerAnswers) : Prop :=
  (∃ e, answers.orderBook = .error e ∧ e.caughtBy [.osError, .valueError] = true) ∨
    ∃ e, answers.positions = .error e ∧ e.caughtBy [.osError, .valueError] = true

def brokerDown : BrokerAnswers where
  orderBook := .error ⟨.osError, "Broker down"⟩
  positions := .error ⟨.osError, "Broker down"⟩

end AutoTrade.Reconciliation
