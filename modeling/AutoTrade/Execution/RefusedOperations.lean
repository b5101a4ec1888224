import AutoTrade.Execution.FillAccounting

/-! # What a refused operation leaves behind

The `record_*` methods write their fields and then ask for the transition. A
refused transition restores the state and nothing else, so a refused operation
is one that changes nothing only where its fields held these values before.
-/

namespace AutoTrade.Execution

open AutoTrade.Library ExecutionStateMachine

variable {σ : Type} {hooks : Hooks σ} {ts : Time}

/-- The fields that a refused operation should leave alone. -/
def ExecutionStateMachine.recorded (m : ExecutionStateMachine) :
    ExecutionState × Option String × Int × ℚ × Option String × Option Time × Option Time ×
      Option Time :=
  (m.state, m.brokerOrderId, m.filledQuantity, m.averagePrice, m.errorMessage, m.submittedAt,
    m.acknowledgedAt, m.filledAt)

/-- If the operation returns `False`, the machine is as it was. -/
def RefusalAtomic (hooks : Hooks σ) (r : MachineRun σ) (op : Time × MachineOp) : Prop :=
  (op.2.apply hooks op.1 r.machine r.world).value = .ok false →
    (op.2.apply hooks op.1 r.machine r.world).machine.recorded = r.machine.recorded

/-- The persistence callback, asked about the move, raises an exception that
`validate_transition` handles. -/
def PersistFails (hooks : Hooks σ) (new : ExecutionState) (m : ExecutionStateMachine) (s : σ) : Prop :=
  ∃ e, (persistOutcome hooks new m s).1 = .error e ∧ e.caughtBy persistenceErrors = true

/-- `try_transition_to` refuses the move. -/
def Refused (hooks : Hooks σ) (new : ExecutionState) (m : ExecutionStateMachine) (s : σ) : Prop :=
  ¬ m.Allows new ∨ PersistFails hooks new m s

/-- A fill of this quantity completes the order. -/
def CompletesOrder (filledQty : Int) (m : ExecutionStateMachine) : Prop :=
  m.state = .acknowledged ∧ m.quantity ≤ filledQty ∨
    m.state = .partialFill ∧ m.quantity ≤ m.filledQuantity + filledQty

/-- A fill that arrives in another state, or completes the order where that cannot be persisted. -/
def RefusesFill (hooks : Hooks σ) (ts : Time) (filledQty : Int) (price : ℚ)
    (m : ExecutionStateMachine) (s : σ) : Prop :=
  m.state ≠ .acknowledged ∧ m.state ≠ .partialFill ∨
    CompletesOrder filledQty m ∧ PersistFails hooks .filled (addFill ts filledQty price m) s

/-- Where the transition an operation asks for is refused, the fields it has written by then held
these values before. -/
def WritesNothingNew (hooks : Hooks σ) (r : MachineRun σ) : Time × MachineOp → Prop
  | (ts, .recordSubmission id) => r.machine.state = .persisted →
      PersistFails hooks .submitted
        { r.machine with brokerOrderId := some id, submittedAt := some ts } r.world →
      r.machine.brokerOrderId = some id ∧ r.machine.submittedAt = some ts
  | (ts, .recordAcknowledgment) => r.machine.state = .submitted →
      PersistFails hooks .acknowledged { r.machine with acknowledgedAt := some ts } r.world →
      r.machine.acknowledgedAt = some ts
  | (ts, .recordFill q p) | (ts, .recordPartialFill q p) =>
      RefusesFill hooks ts q p r.machine r.world →
      q = 0 ∧ r.machine.filledAt = some ts ∧
        (0 < r.machine.filledQuantity ∨ r.machine.averagePrice = 0)
  | (_, .recordRejection reason) => r.machine.state ≠ .submitted →
      r.machine.errorMessage = some reason
  | (_, .recordFailure reason) =>
      Refused hooks .failed { r.machine with errorMessage := some reason } r.world →
      r.machine.errorMessage = some reason
  | (_, .tryTransitionTo _) => True

/-! ## Refused transitions -/

theorem tryTransitionTo_value_iff (hooks : Hooks σ) (ts : Time) (new : ExecutionState)
    (m : ExecutionStateMachine) (s : σ) :
    (tryTransitionTo hooks ts new m s).value = .ok false ↔ Refused hooks new m s := by
  unfold Refused PersistFails
  rcases tryTransitionTo_cases hooks ts new m s with
    ⟨hrefused, h⟩ | ⟨e, s', hallow, hp, he, h⟩ | ⟨e, s', hallow, hp, he, h⟩ | ⟨s', hallow, hp, h⟩
  · simp [h, hrefused]
  · simp [h, hallow, hp, he]
  · simp [h, hallow, hp, he]
  · simp [h, hallow, hp]

theorem machine_of_refused {new : ExecutionState} {m : ExecutionStateMachine} {s : σ}
    (h : (tryTransitionTo hooks ts new m s).value = .ok false) :
    (tryTransitionTo hooks ts new m s).machine = m := by
  rcases tryTransitionTo_cases hooks ts new m s with
    ⟨_, hstep⟩ | ⟨_, _, _, _, _, hstep⟩ | ⟨_, _, _, _, _, hstep⟩ | ⟨_, _, _, hstep⟩
  · rw [hstep]
  · rw [hstep]
  · rw [hstep] at h
    cases h
  · rw [hstep] at h
    cases h

/-- An operation that ends in a transition from `noted` is atomic when `noted` is what it found. -/
theorem atomic_tryTransitionTo_iff (new : ExecutionState) (m noted : ExecutionStateMachine) (s : σ) :
    ((tryTransitionTo hooks ts new noted s).value = .ok false →
        (tryTransitionTo hooks ts new noted s).machine.recorded = m.recorded) ↔
      (Refused hooks new noted s → noted.recorded = m.recorded) := by
  constructor
  · intro hatomic hrefused
    have hvalue := (tryTransitionTo_value_iff hooks ts new noted s).mpr hrefused
    rw [← hatomic hvalue, machine_of_refused hvalue]
  · intro hsame hvalue
    rw [machine_of_refused hvalue]
    exact hsame ((tryTransitionTo_value_iff hooks ts new noted s).mp hvalue)

/-- A move the table admits is refused by the callback only. -/
theorem refused_iff_of_allows {new : ExecutionState} {m : ExecutionStateMachine} (h : m.Allows new)
    (s : σ) : Refused hooks new m s ↔ PersistFails hooks new m s :=
  or_iff_right (not_not.mpr h)

/-- The callback is not consulted about a partial fill. -/
theorem not_persistFails_partialFill (m : ExecutionStateMachine) (s : σ) :
    ¬ PersistFails hooks .partialFill m s := by
  rintro ⟨e, he, -⟩
  have hquiet : persistOutcome hooks .partialFill m s = (.ok (), s) := by
    simp [persistOutcome, persistedStates]
  rw [hquiet] at he
  cases he

/-! ## One operation -/

theorem recorded_addFill_iff (ts : Time) (q : Int) (p : ℚ) (m : ExecutionStateMachine) :
    (addFill ts q p m).recorded = m.recorded ↔
      q = 0 ∧ m.filledAt = some ts ∧ (0 < m.filledQuantity ∨ m.averagePrice = 0) := by
  simp only [recorded, addFill, Prod.mk.injEq, true_and, add_eq_left]
  by_cases hq : q = 0
  · subst hq
    by_cases hpos : 0 < m.filledQuantity
    · have hne : (m.filledQuantity : ℚ) ≠ 0 := by exact_mod_cast hpos.ne'
      simp [hpos, hne, eq_comm]
    · simp [hpos, eq_comm, and_comm]
  · simp [hq]

theorem atomic_recordFill_iff (m : ExecutionStateMachine) (s : σ) (q : Int) (p : ℚ) :
    ((recordFill hooks ts q p m s).value = .ok false →
        (recordFill hooks ts q p m s).machine.recorded = m.recorded) ↔
      (RefusesFill hooks ts q p m s → (addFill ts q p m).recorded = m.recorded) := by
  unfold RefusesFill CompletesOrder
  by_cases hack : m.state = .acknowledged
  · rw [recordFill_acknowledged hack, atomic_tryTransitionTo_iff]
    by_cases hq : m.quantity ≤ q
    · have hallow : (addFill ts q p m).Allows .filled := by
        simp [Allows, hack, validTransitions]
      rw [if_pos hq, refused_iff_of_allows hallow]
      simp [hack, hq]
    · have hallow : (addFill ts q p m).Allows .partialFill := by
        simp [Allows, hack, validTransitions]
      rw [if_neg hq, refused_iff_of_allows hallow]
      simp [hack, hq, not_persistFails_partialFill]
  · by_cases hpart : m.state = .partialFill
    · rw [recordFill_partialFill hpart]
      by_cases hq : m.quantity ≤ m.filledQuantity + q
      · have hallow : (addFill ts q p m).Allows .filled := by
          simp [Allows, hpart, validTransitions]
        rw [if_pos hq, atomic_tryTransitionTo_iff, refused_iff_of_allows hallow]
        simp [hpart, hq]
      · rw [if_neg hq]
        simp [hpart, hq]
    · rw [recordFill_refused hack hpart]
      simp [hack, hpart]

theorem refusalAtomic_iff (hooks : Hooks σ) (r : MachineRun σ) (op : Time × MachineOp) :
    RefusalAtomic hooks r op ↔ WritesNothingNew hooks r op := by
  obtain ⟨ts, op⟩ := op
  unfold RefusalAtomic
  cases op with
  | recordSubmission id =>
      simp only [MachineOp.apply, WritesNothingNew, recordSubmission]
      by_cases hstate : r.machine.state = .persisted
      · have hallow : Allows { r.machine with brokerOrderId := some id, submittedAt := some ts }
            .submitted := by
          simp [Allows, hstate, validTransitions]
        rw [if_neg (not_not.mpr hstate), atomic_tryTransitionTo_iff, refused_iff_of_allows hallow]
        rw [forall_prop_of_true hstate]
        refine imp_congr_right fun _ => ?_
        simp only [recorded, Prod.mk.injEq, true_and, and_true]
        exact and_congr eq_comm eq_comm
      · simp [hstate]
  | recordAcknowledgment =>
      simp only [MachineOp.apply, WritesNothingNew, recordAcknowledgment]
      by_cases hstate : r.machine.state = .submitted
      · have hallow : Allows { r.machine with acknowledgedAt := some ts } .acknowledged := by
          simp [Allows, hstate, validTransitions]
        rw [if_pos hstate, atomic_tryTransitionTo_iff, refused_iff_of_allows hallow]
        rw [forall_prop_of_true hstate]
        refine imp_congr_right fun _ => ?_
        simp only [recorded, Prod.mk.injEq, true_and, and_true]
        exact eq_comm
      · simp [hstate]
  | recordFill q p =>
      exact (atomic_recordFill_iff r.machine r.world q p).trans
        (imp_congr_right fun _ => recorded_addFill_iff ts q p r.machine)
  | recordPartialFill q p =>
      exact (atomic_recordFill_iff r.machine r.world q p).trans
        (imp_congr_right fun _ => recorded_addFill_iff ts q p r.machine)
  | recordRejection reason =>
      simp only [MachineOp.apply, WritesNothingNew, recordRejection]
      by_cases hstate : r.machine.state = .submitted
      · -- `REJECTED` is not persisted, so the rejection goes through
        have hallow : Allows { r.machine with errorMessage := some reason } .rejected := by
          simp [Allows, hstate, validTransitions]
        rw [if_pos hstate, tryTransitionTo_unpersisted hallow (by decide)]
        simp [hstate]
      · rw [if_neg hstate, forall_prop_of_true hstate]
        simp only [recorded, Prod.mk.injEq, true_and, and_true, forall_const]
        exact eq_comm
  | recordFailure reason =>
      simp only [MachineOp.apply, WritesNothingNew, recordFailure]
      rw [atomic_tryTransitionTo_iff]
      refine imp_congr_right fun _ => ?_
      simp only [recorded, Prod.mk.injEq, true_and, and_true]
      exact eq_comm
  | tryTransitionTo new =>
      simp only [MachineOp.apply, WritesNothingNew, iff_true]
      intro hvalue
      rw [machine_of_refused hvalue]

/-- In every run, from any machine and with any callback, the operations that return `False` leave the
machine as it was exactly when none of them had written anything new before its transition was
refused. -/
theorem refused_operations_atomic_iff (hooks : Hooks σ) (start : MachineRun σ)
    (ops : List (Time × MachineOp)) :
    StepsMeet (MachineRun.step hooks) (RefusalAtomic hooks) start ops ↔
      StepsMeet (MachineRun.step hooks) (WritesNothingNew hooks) start ops :=
  stepsMeet_congr (refusalAtomic_iff hooks) start ops

/-- A fill reported to a machine that has not submitted anything is counted and refused. -/
theorem refused_fill_counted :
    ¬ StepsMeet (MachineRun.step ⟨fun _ s => (.ok (), s), fun _ _ s => s⟩)
      (RefusalAtomic ⟨fun _ s => (.ok (), s), fun _ _ s => s⟩)
      (⟨{ intentId := "i1", clientOrderId := "OPB-i1", symbol := "NIFTY", quantity := 10
          price := 100, direction := "BUY", createdAt := 0, updatedAt := 0 }, (), []⟩ :
        MachineRun Unit)
      [(1, .recordFill 10 100)] := by
  rintro ⟨hatomic, -⟩
  have hquantity := congrArg (fun fields => fields.2.2.1) (hatomic rfl)
  exact absurd hquantity (by decide)

end AutoTrade.Execution
