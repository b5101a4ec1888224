import AutoTrade.Execution.Manager
import AutoTrade.Execution.FillAccounting

/-! # Repeated broker queries

Polling repeats the same cumulative report while `record_fill` adds what it is
given. The exact condition under which the second application of a report
changes nothing, and under which a fill report is taken over, is read off one
machine at a time; the other machines of the manager are never touched.
-/

namespace AutoTrade.Execution.ExecutionStateMachineManager

open AutoTrade.Library ExecutionStateMachine

variable {σ : Type} (hooks : Hooks σ) (ts ts' : Time) (query : BrokerQuery)

/-- A machine without the instants its operations note down. -/
def untimed (m : ExecutionStateMachine) : ExecutionStateMachine :=
  { m with
    createdAt := 0, updatedAt := 0, submittedAt := none, acknowledgedAt := none, filledAt := none }

/-- Applying the report at `ts` and again at `ts'` leaves every machine as applying it once. -/
def QueryIdempotent (mgr : ExecutionStateMachineManager) (s : σ) : Prop :=
  let once := recordBrokerQueryResult hooks ts query mgr s
  let twice := recordBrokerQueryResult hooks ts' query once.1 once.2.1
  ∀ id, (twice.1.getMachine id).map untimed = (once.1.getMachine id).map untimed

/-- A `FILLED` report for a live order leaves its machine `FILLED` with the reported quantity. -/
def FillReportTakenOver (mgr : ExecutionStateMachineManager) (s : σ) : Prop :=
  query.status = "FILLED" → ∀ m, mgr.getMachine query.clientOrderId = some m → m.isSubmitted →
    ∃ m', (recordBrokerQueryResult hooks ts query mgr s).1.getMachine query.clientOrderId =
        some m' ∧ m'.state = .filled ∧ m'.filledQuantity = query.filledQty

/-- The callback raises one of the exceptions that revert the move. -/
def callbackRefuses (new : ExecutionState) (m : ExecutionStateMachine) (s : σ) : Bool :=
  match (persistOutcome hooks new m s).1 with
  | .ok _ => false
  | .error e => e.caughtBy persistenceErrors

/-- The machine `record_acknowledgment` hands to the transition. -/
def noteAcknowledgment (ts : Time) (m : ExecutionStateMachine) : ExecutionStateMachine :=
  { m with acknowledgedAt := some ts }

/-- The reports that settle on their first application: no fill is booked (and none was due on a live
order), and an acknowledgment the callback refuses is refused again. -/
def QuerySettles (mgr : ExecutionStateMachineManager) (s : σ) : Prop :=
  ∀ m, mgr.getMachine query.clientOrderId = some m →
    (query.status = "FILLED" → query.filledQty = 0 ∧
      (m.isSubmitted → m.state ≠ .submitted ∧ m.quantity ≤ 0 ∧ m.filledQuantity = 0 ∧
        callbackRefuses hooks .filled
          (addFill ts 0 query.avgPrice (adoptBrokerOrderId query.brokerOrderId m)) s = false)) ∧
    (query.status ∉ ["FILLED", "REJECTED", "CANCELLED"] → m.state = .submitted →
      let acked := noteAcknowledgment ts (adoptBrokerOrderId query.brokerOrderId m)
      callbackRefuses hooks .acknowledged acked s = true →
        callbackRefuses hooks .acknowledged (noteAcknowledgment ts' acked)
          (persistOutcome hooks .acknowledged acked s).2 = true)

variable {hooks ts ts' query}

/-! ## Single operations -/

theorem untimed_eq_iff (m m' : ExecutionStateMachine) :
    untimed m = untimed m' → m.state = m'.state ∧ m.filledQuantity = m'.filledQuantity := by
  intro h
  simp only [untimed, ExecutionStateMachine.mk.injEq] at h
  exact ⟨h.2.2.2.2.2.2.1, h.2.2.2.2.2.2.2.2.1⟩

theorem recordFill_filledQuantity (q : Int) (p : ℚ) (m : ExecutionStateMachine) (s : σ) :
    (recordFill hooks ts q p m s).machine.filledQuantity = m.filledQuantity + q := by
  by_cases hack : m.state = .acknowledged
  · rw [recordFill_acknowledged hack]
    exact (tryTransitionTo_totals _ _ _ _ _).1
  · by_cases hpart : m.state = .partialFill
    · rw [recordFill_partialFill hpart]
      split
      · exact (tryTransitionTo_totals _ _ _ _ _).1
      · rfl
    · rw [recordFill_refused hack hpart]
      rfl

/-- Booking an empty fill a second time changes nothing but the time. -/
theorem untimed_addFill_zero (ts ts' : Time) (p : ℚ) (m : ExecutionStateMachine) :
    untimed (addFill ts' 0 p (addFill ts 0 p m)) = untimed (addFill ts 0 p m) := by
  by_cases h : m.filledQuantity > 0
  · have hne : (m.filledQuantity : ℚ) ≠ 0 := by exact_mod_cast (ne_of_gt h)
    simp [untimed, addFill, h, hne]
  · simp [untimed, addFill, h]

theorem tryTransitionTo_state_of_callback {new : ExecutionState} {m : ExecutionStateMachine} {s : σ}
    (h : m.Allows new) :
    (tryTransitionTo hooks ts new m s).machine.state =
      if callbackRefuses hooks new m s then m.state else new := by
  rcases tryTransitionTo_cases hooks ts new m s with
    ⟨hno, _⟩ | ⟨e, s', _, hp, he, hstep⟩ | ⟨e, s', _, hp, he, hstep⟩ | ⟨s', _, hp, hstep⟩
  · exact (hno h).elim
  · simp [hstep, callbackRefuses, hp, he]
  · simp [hstep, callbackRefuses, hp, he]
  · simp [hstep, callbackRefuses, hp]

theorem tryTransitionTo_of_refuses {new : ExecutionState} {m : ExecutionStateMachine} {s : σ}
    (h : m.Allows new) (hr : callbackRefuses hooks new m s = true) :
    tryTransitionTo hooks ts new m s = ⟨m, (persistOutcome hooks new m s).2, .ok false⟩ := by
  rcases tryTransitionTo_cases hooks ts new m s with
    ⟨hno, _⟩ | ⟨e, s', _, hp, he, hstep⟩ | ⟨e, s', _, hp, he, hstep⟩ | ⟨s', _, hp, hstep⟩
  · exact (hno h).elim
  · rw [hstep, hp]
  · simp [callbackRefuses, hp, he] at hr
  · simp [callbackRefuses, hp] at hr

theorem applyBrokerStatus_brokerOrderId (m : ExecutionStateMachine) (s : σ) :
    (applyBrokerStatus hooks ts query m s).machine.brokerOrderId = m.brokerOrderId := by
  have htry : ∀ new (m : ExecutionStateMachine),
      (tryTransitionTo hooks ts new m s).machine.brokerOrderId = m.brokerOrderId := by
    intro new m
    obtain ⟨_, _, h, _⟩ := tryTransitionTo_frame hooks ts new m s
    rw [h]
  unfold applyBrokerStatus recordFill recordRejection recordAcknowledgment
  dsimp only
  split_ifs <;> first | rfl | rw [htry] <;> rfl

/-- A machine that took over the reported id has nothing left to adopt. -/
theorem adoptBrokerOrderId_of_adopted {m m' : ExecutionStateMachine} {id : Option String}
    (h : m'.brokerOrderId = (adoptBrokerOrderId id m).brokerOrderId) :
    adoptBrokerOrderId id m' = m' := by
  unfold adoptBrokerOrderId at h ⊢
  rw [if_neg]
  rintro ⟨hid, hnone⟩
  rw [h] at hnone
  split at hnone
  · exact hnone hid
  · rename_i hm
    exact hm ⟨hid, hnone⟩

theorem adoptBrokerOrderId_frame (id : Option String) (m : ExecutionStateMachine) :
    (adoptBrokerOrderId id m).state = m.state ∧
      (adoptBrokerOrderId id m).quantity = m.quantity ∧
      (adoptBrokerOrderId id m).filledQuantity = m.filledQuantity := by
  unfold adoptBrokerOrderId
  split <;> exact ⟨rfl, rfl, rfl⟩

/-! ## One machine -/

/-- The machine and the world after one application to a known machine. -/
def applied (hooks : Hooks σ) (ts : Time) (query : BrokerQuery) (m : ExecutionStateMachine) (s : σ) :
    Step σ Bool :=
  applyBrokerStatus hooks ts query (adoptBrokerOrderId query.brokerOrderId m) s

theorem recordBrokerQueryResult_known (hooks : Hooks σ) (ts : Time) (query : BrokerQuery)
    {mgr : ExecutionStateMachineManager} {m : ExecutionStateMachine} (s : σ)
    (h : mgr.getMachine query.clientOrderId = some m) :
    recordBrokerQueryResult hooks ts query mgr s =
      (mgr.put query.clientOrderId (applied hooks ts query m s).machine,
        (applied hooks ts query m s).world, (applied hooks ts query m s).value) := by
  unfold recordBrokerQueryResult
  rw [h]
  rfl

/-- The second application starts from the machine the first one left. -/
theorem applied_twice (m : ExecutionStateMachine) (s : σ) :
    applied hooks ts' query (applied hooks ts query m s).machine (applied hooks ts query m s).world =
      applyBrokerStatus hooks ts' query (applied hooks ts query m s).machine
        (applied hooks ts query m s).world := by
  rw [applied]
  congr 1
  exact adoptBrokerOrderId_of_adopted (applyBrokerStatus_brokerOrderId _ _)

theorem queryIdempotent_iff_machine {mgr : ExecutionStateMachineManager}
    {m : ExecutionStateMachine} {s : σ} (h : mgr.getMachine query.clientOrderId = some m) :
    QueryIdempotent hooks ts ts' query mgr s ↔
      untimed (applyBrokerStatus hooks ts' query (applied hooks ts query m s).machine
        (applied hooks ts query m s).world).machine =
        untimed (applied hooks ts query m s).machine := by
  have honce := recordBrokerQueryResult_known hooks ts query s h
  have htwice := recordBrokerQueryResult_known hooks ts' query
    (applied hooks ts query m s).world
    (mgr.getMachine_put query.clientOrderId (applied hooks ts query m s).machine)
  unfold QueryIdempotent
  simp only [honce, htwice, applied_twice]
  constructor
  · intro hall
    simpa using hall query.clientOrderId
  · intro heq id
    by_cases hid : id = query.clientOrderId
    · subst hid
      simpa using heq
    · rw [getMachine_put_of_ne _ _ hid]

/-! ## The statuses -/

theorem applyBrokerStatus_filled (h : query.status = "FILLED") (m : ExecutionStateMachine) (s : σ) :
    applyBrokerStatus hooks ts query m s =
      recordFill hooks ts query.filledQty query.avgPrice m s :=
  if_pos h

theorem applyBrokerStatus_rejected (h : query.status = "REJECTED") (m : ExecutionStateMachine)
    (s : σ) :
    applyBrokerStatus hooks ts query m s = recordRejection hooks ts "Broker rejected" m s := by
  have hne : query.status ≠ "FILLED" := by rw [h]; decide
  rw [applyBrokerStatus, if_neg hne, if_pos h]

theorem applyBrokerStatus_cancelled (h : query.status = "CANCELLED") (m : ExecutionStateMachine)
    (s : σ) : applyBrokerStatus hooks ts query m s = tryTransitionTo hooks ts .cancelled m s := by
  have hfilled : query.status ≠ "FILLED" := by rw [h]; decide
  have hrejected : query.status ≠ "REJECTED" := by rw [h]; decide
  rw [applyBrokerStatus, if_neg hfilled, if_neg hrejected, if_pos h]

theorem applyBrokerStatus_other (h : query.status ∉ ["FILLED", "REJECTED", "CANCELLED"])
    (m : ExecutionStateMachine) (s : σ) :
    applyBrokerStatus hooks ts query m s =
      if m.state = .submitted then
        tryTransitionTo hooks ts .acknowledged (noteAcknowledgment ts m) s
      else ⟨m, s, .ok false⟩ := by
  simp only [List.mem_cons, List.not_mem_nil, or_false, not_or] at h
  rw [applyBrokerStatus, if_neg h.1, if_neg h.2.1, if_neg h.2.2]
  split
  · rename_i hs
    rw [recordAcknowledgment, if_pos hs, noteAcknowledgment]
  · rfl

theorem untimed_rejected_twice (h : query.status = "REJECTED") (m : ExecutionStateMachine) (s : σ) :
    untimed (applyBrokerStatus hooks ts' query (applyBrokerStatus hooks ts query m s).machine
      (applyBrokerStatus hooks ts query m s).world).machine =
        untimed (applyBrokerStatus hooks ts query m s).machine := by
  simp only [applyBrokerStatus_rejected h]
  by_cases hs : m.state = .submitted
  · have hallow : ({ m with errorMessage := some "Broker rejected" } :
        ExecutionStateMachine).Allows .rejected := by
      simp [Allows, hs, validTransitions]
    have hstep : tryTransitionTo hooks ts .rejected
        { m with errorMessage := some "Broker rejected" } s = _ :=
      tryTransitionTo_unpersisted hallow (by decide)
    simp only [recordRejection, hs, if_true]
    rw [hs] at hstep
    rw [hstep]
    rfl
  · simp [recordRejection, hs]

theorem untimed_cancelled_twice (h : query.status = "CANCELLED") (m : ExecutionStateMachine)
    (s : σ) :
    untimed (applyBrokerStatus hooks ts' query (applyBrokerStatus hooks ts query m s).machine
      (applyBrokerStatus hooks ts query m s).world).machine =
        untimed (applyBrokerStatus hooks ts query m s).machine := by
  simp only [applyBrokerStatus_cancelled h]
  by_cases hallow : m.Allows .cancelled
  · rw [tryTransitionTo_unpersisted hallow (by decide)]
    rw [tryTransitionTo_of_terminal (by simp [terminalStates])]
  · rw [tryTransitionTo_refused hallow, tryTransitionTo_refused hallow]

/-- Any other report acknowledges a submitted machine; only a refused acknowledgment is tried again. -/
theorem untimed_other_twice_iff (h : query.status ∉ ["FILLED", "REJECTED", "CANCELLED"])
    (m : ExecutionStateMachine) (s : σ) :
    untimed (applyBrokerStatus hooks ts' query (applyBrokerStatus hooks ts query m s).machine
      (applyBrokerStatus hooks ts query m s).world).machine =
        untimed (applyBrokerStatus hooks ts query m s).machine ↔
      (m.state = .submitted →
        callbackRefuses hooks .acknowledged (noteAcknowledgment ts m) s = true →
          callbackRefuses hooks .acknowledged (noteAcknowledgment ts' (noteAcknowledgment ts m))
            (persistOutcome hooks .acknowledged (noteAcknowledgment ts m) s).2 = true) := by
  simp only [applyBrokerStatus_other h]
  by_cases hs : m.state = .submitted
  · have hallow : (noteAcknowledgment ts m).Allows .acknowledged := by
      simp [Allows, noteAcknowledgment, hs, validTransitions]
    have hallow' : (noteAcknowledgment ts' (noteAcknowledgment ts m)).Allows .acknowledged := by
      simp [Allows, noteAcknowledgment, hs, validTransitions]
    have hstate : (noteAcknowledgment ts m).state = .submitted := hs
    rw [if_pos hs]
    cases hr : callbackRefuses hooks .acknowledged (noteAcknowledgment ts m) s with
    | false =>
        have hmoved : (tryTransitionTo hooks ts .acknowledged
            (noteAcknowledgment ts m) s).machine.state = _ :=
          tryTransitionTo_state_of_callback hallow
        rw [hr] at hmoved
        simp [hmoved]
    | true =>
        rw [tryTransitionTo_of_refuses hallow hr]
        simp only [hstate, if_true, hs, true_implies]
        constructor
        · intro heq
          have hsame := (untimed_eq_iff _ _ heq).1
          rw [tryTransitionTo_state_of_callback hallow'] at hsame
          by_contra hno
          rw [if_neg hno, hstate] at hsame
          cases hsame
        · intro hagain
          rw [tryTransitionTo_of_refuses hallow' hagain]
          rfl
  · simp [hs]

/-! ## Fill reports -/

/-- An empty fill report repeats without effect unless the first one moved a live machine. -/
theorem untimed_filled_twice_of_zero (h : query.status = "FILLED") (hzero : query.filledQty = 0)
    {m : ExecutionStateMachine} {s : σ}
    (hlive : m.isSubmitted → (recordFill hooks ts 0 query.avgPrice m s).machine.state = .filled) :
    untimed (applyBrokerStatus hooks ts' query (applyBrokerStatus hooks ts query m s).machine
      (applyBrokerStatus hooks ts query m s).world).machine =
        untimed (applyBrokerStatus hooks ts query m s).machine := by
  simp only [applyBrokerStatus_filled h, hzero]
  have hframe : ∃ state updatedAt, (recordFill hooks ts 0 query.avgPrice m s).machine =
      { addFill ts 0 query.avgPrice m with state := state, updatedAt := updatedAt } := by
    by_cases hack : m.state = .acknowledged
    · rw [recordFill_acknowledged hack]
      obtain ⟨st, up, hm, _⟩ := tryTransitionTo_frame hooks ts
        (if m.quantity ≤ 0 then .filled else .partialFill) (addFill ts 0 query.avgPrice m) s
      exact ⟨st, up, hm⟩
    · by_cases hpart : m.state = .partialFill
      · rw [recordFill_partialFill hpart]
        split
        · obtain ⟨st, up, hm, _⟩ := tryTransitionTo_frame hooks ts .filled
            (addFill ts 0 query.avgPrice m) s
          exact ⟨st, up, hm⟩
        · exact ⟨m.state, m.updatedAt, rfl⟩
      · rw [recordFill_refused hack hpart]
        exact ⟨m.state, m.updatedAt, rfl⟩
  obtain ⟨st, up, hm⟩ := hframe
  have hidle : (recordFill hooks ts 0 query.avgPrice m s).machine.state ≠ .acknowledged ∧
      (recordFill hooks ts 0 query.avgPrice m s).machine.state ≠ .partialFill := by
    by_cases hsub : m.isSubmitted
    · rw [hlive hsub]
      decide
    · have hack : m.state ≠ .acknowledged := fun hs => hsub (by simp [isSubmitted, hs])
      have hpart : m.state ≠ .partialFill := fun hs => hsub (by simp [isSubmitted, hs])
      rw [recordFill_refused hack hpart]
      exact ⟨hack, hpart⟩
  rw [recordFill_refused hidle.1 hidle.2, hm]
  have hbase := untimed_addFill_zero ts ts' query.avgPrice m
  simp only [untimed, addFill, ExecutionStateMachine.mk.injEq] at hbase ⊢
  simpa using hbase

/-- Where a live machine ends `FILLED` with nothing filled after an empty report. -/
theorem recordFill_zero_filled_iff (hooks : Hooks σ) (ts : Time) (s : σ) (p : ℚ)
    {m : ExecutionStateMachine}
    (hlive : m.isSubmitted = true) :
    ((recordFill hooks ts 0 p m s).machine.state = .filled ∧
      (recordFill hooks ts 0 p m s).machine.filledQuantity = 0) ↔
      (m.state ≠ .submitted ∧ m.quantity ≤ 0 ∧ m.filledQuantity = 0 ∧
        callbackRefuses hooks .filled (addFill ts 0 p m) s = false) := by
  rw [recordFill_filledQuantity, add_zero]
  have hmem : m.state = .submitted ∨ m.state = .acknowledged ∨ m.state = .partialFill := by
    simpa [isSubmitted] using hlive
  rcases hmem with hs | hs | hs
  · have hack : m.state ≠ .acknowledged := by simp [hs]
    have hpart : m.state ≠ .partialFill := by simp [hs]
    simp [recordFill_refused hack hpart, hs]
  · have hallow : ∀ new, new = .filled ∨ new = .partialFill → (addFill ts 0 p m).Allows new := by
      rintro new (rfl | rfl) <;> simp [Allows, hs, validTransitions]
    rw [recordFill_acknowledged hs, tryTransitionTo_state_of_callback (hallow _ (by split <;> simp))]
    by_cases hq : m.quantity ≤ 0
    · cases hr : callbackRefuses hooks .filled (addFill ts 0 p m) s <;> simp [hq, hs, hr]
    · simp only [hq, if_false, addFill_state, hs]
      cases callbackRefuses hooks .partialFill (addFill ts 0 p m) s <;> simp
  · have hallow : (addFill ts 0 p m).Allows .filled := by
      simp [Allows, hs, validTransitions]
    rw [recordFill_partialFill hs]
    by_cases hq : m.quantity ≤ m.filledQuantity + 0
    · rw [if_pos hq, tryTransitionTo_state_of_callback hallow]
      cases hr : callbackRefuses hooks .filled (addFill ts 0 p m) s with
      | false =>
          simp only [hs, Bool.false_eq_true, if_false, true_and]
          constructor
          · intro hf
            refine ⟨by simp, by omega, hf, trivial⟩
          · intro hf
            exact hf.2.2.1
      | true => simp [hs]
    · rw [if_neg hq]
      simp only [addFill_state, hs]
      constructor
      · rintro ⟨hfalse, _⟩
        cases hfalse
      · rintro ⟨_, hle, hf, _⟩
        omega

theorem fillReportTakenOver_iff_machine {mgr : ExecutionStateMachineManager}
    {m : ExecutionStateMachine} {s : σ} (h : mgr.getMachine query.clientOrderId = some m) :
    FillReportTakenOver hooks ts query mgr s ↔
      (query.status = "FILLED" → m.isSubmitted →
        (applied hooks ts query m s).machine.state = .filled ∧
          (applied hooks ts query m s).machine.filledQuantity = query.filledQty) := by
  simp [FillReportTakenOver, recordBrokerQueryResult_known hooks ts query s h, h]

/-- A fill report that books something is booked again by its repetition. -/
theorem untimed_filled_twice_ne (h : query.status = "FILLED") (hqty : query.filledQty ≠ 0)
    (m : ExecutionStateMachine) (s : σ) :
    untimed (applyBrokerStatus hooks ts' query (applyBrokerStatus hooks ts query m s).machine
      (applyBrokerStatus hooks ts query m s).world).machine ≠
        untimed (applyBrokerStatus hooks ts query m s).machine := by
  intro heq
  have hsame := (untimed_eq_iff _ _ heq).2
  simp only [applyBrokerStatus_filled h, recordFill_filledQuantity] at hsame
  omega

theorem query_filled_iff (h : query.status = "FILLED") {mgr : ExecutionStateMachineManager}
    {m : ExecutionStateMachine} {s : σ} (hm : mgr.getMachine query.clientOrderId = some m) :
    (QueryIdempotent hooks ts ts' query mgr s ∧ FillReportTakenOver hooks ts query mgr s) ↔
      query.filledQty = 0 ∧
        (m.isSubmitted → m.state ≠ .submitted ∧ m.quantity ≤ 0 ∧ m.filledQuantity = 0 ∧
          callbackRefuses hooks .filled
            (addFill ts 0 query.avgPrice (adoptBrokerOrderId query.brokerOrderId m)) s = false) := by
  obtain ⟨hstate, hquantity, hfilled⟩ := adoptBrokerOrderId_frame query.brokerOrderId m
  have hsub : (adoptBrokerOrderId query.brokerOrderId m).isSubmitted = m.isSubmitted := by
    simp [isSubmitted, hstate]
  rw [queryIdempotent_iff_machine hm, fillReportTakenOver_iff_machine hm]
  by_cases hzero : query.filledQty = 0
  · have hempty : m.isSubmitted = true → (((applied hooks ts query m s).machine.state = .filled ∧
        (applied hooks ts query m s).machine.filledQuantity = query.filledQty) ↔
        m.state ≠ .submitted ∧ m.quantity ≤ 0 ∧ m.filledQuantity = 0 ∧
          callbackRefuses hooks .filled
            (addFill ts 0 query.avgPrice (adoptBrokerOrderId query.brokerOrderId m)) s = false) := by
      intro hlive
      have hiff := recordFill_zero_filled_iff hooks ts s query.avgPrice
        (hsub.trans hlive)
      rw [hstate, hquantity, hfilled] at hiff
      rw [applied, applyBrokerStatus_filled h, hzero]
      exact hiff
    constructor
    · rintro ⟨_, htaken⟩
      exact ⟨hzero, fun hlive => (hempty hlive).mp (htaken h hlive)⟩
    · rintro ⟨_, hquiet⟩
      refine ⟨untimed_filled_twice_of_zero h hzero fun hlive => ?_, fun _ hlive =>
        (hempty hlive).mpr (hquiet hlive)⟩
      have hnow := ((hempty (hsub ▸ hlive)).mpr (hquiet (hsub ▸ hlive))).1
      rwa [applied, applyBrokerStatus_filled h, hzero] at hnow
  · exact iff_of_false (fun hboth => untimed_filled_twice_ne h hzero _ _ hboth.1)
      fun hquiet => hzero hquiet.1

theorem query_unfilled_iff (h : query.status ≠ "FILLED") {mgr : ExecutionStateMachineManager}
    {m : ExecutionStateMachine} {s : σ} (hm : mgr.getMachine query.clientOrderId = some m) :
    (QueryIdempotent hooks ts ts' query mgr s ∧ FillReportTakenOver hooks ts query mgr s) ↔
      (query.status ∉ ["FILLED", "REJECTED", "CANCELLED"] → m.state = .submitted →
        callbackRefuses hooks .acknowledged
          (noteAcknowledgment ts (adoptBrokerOrderId query.brokerOrderId m)) s = true →
          callbackRefuses hooks .acknowledged (noteAcknowledgment ts'
            (noteAcknowledgment ts (adoptBrokerOrderId query.brokerOrderId m)))
            (persistOutcome hooks .acknowledged
              (noteAcknowledgment ts (adoptBrokerOrderId query.brokerOrderId m)) s).2 = true) := by
  have htaken : FillReportTakenOver hooks ts query mgr s := fun hfilled => (h hfilled).elim
  rw [and_iff_left htaken, queryIdempotent_iff_machine hm]
  by_cases hrejected : query.status = "REJECTED"
  · exact iff_of_true (untimed_rejected_twice hrejected _ _) fun hno => absurd hrejected (by simp_all)
  · by_cases hcancelled : query.status = "CANCELLED"
    · exact iff_of_true (untimed_cancelled_twice hcancelled _ _)
        fun hno => absurd hcancelled (by simp_all)
    · have hother : query.status ∉ ["FILLED", "REJECTED", "CANCELLED"] := by
        simp [h, hrejected, hcancelled]
      rw [applied, untimed_other_twice_iff hother, (adoptBrokerOrderId_frame _ m).1]
      simp [hother]

/-- A broker report is idempotent and, for a fill, taken over exactly when it settles. -/
theorem recordBrokerQueryResult_idempotent_iff (hooks : Hooks σ) (ts ts' : Time)
    (query : BrokerQuery) (mgr : ExecutionStateMachineManager) (s : σ) :
    (QueryIdempotent hooks ts ts' query mgr s ∧ FillReportTakenOver hooks ts query mgr s) ↔
      QuerySettles hooks ts ts' query mgr s := by
  cases hm : mgr.getMachine query.clientOrderId with
  | none =>
      refine iff_of_true ⟨?_, ?_⟩ ?_
      · intro id
        simp [recordBrokerQueryResult, hm]
      · intro _ m hsome
        simp [hm] at hsome
      · intro m hsome
        simp [hm] at hsome
  | some m =>
      have hsettles : QuerySettles hooks ts ts' query mgr s ↔ _ :=
        ⟨fun hall => hall m hm, fun hone m' hm' => by
          obtain rfl : m = m' := Option.some.inj (hm.symm.trans hm')
          exact hone⟩
      rw [hsettles]
      by_cases hfilled : query.status = "FILLED"
      · rw [query_filled_iff hfilled hm]
        simp [hfilled]
      · rw [query_unfilled_iff hfilled hm]
        simp [hfilled]

/-- A machine acknowledged for fifty units. -/
def acknowledgedManager : ExecutionStateMachineManager :=
  { machines := Dict.set Table.empty "OPB-order"
      { orderOf50 with state := .acknowledged, clientOrderId := "OPB-order" } }

def reportOf50 : BrokerQuery :=
  { clientOrderId := "OPB-order", brokerOrderId := some "B1", status := "FILLED",
    filledQty := 50, avgPrice := 100 }

/-- Polled twice, fifty reported units are booked as one hundred. -/
theorem recordBrokerQueryResult_repeat_books_twice :
    ¬ (QueryIdempotent quietHooks 0 0 reportOf50 acknowledgedManager () ∧
      FillReportTakenOver quietHooks 0 reportOf50 acknowledgedManager ()) := by
  rintro ⟨hidem, _⟩
  have hbooked := hidem "OPB-order"
  revert hbooked
  decide +kernel

end AutoTrade.Execution.ExecutionStateMachineManager
