import AutoTrade.Execution.ServiceLaws

/-! # The machines along a run

Between two operations of a service every machine is `VALIDATED`, `FILLED` or
`FAILED`: the driving of a machine stops in no other state, and from these
three only the stale-order sweep moves one. The watchdog, which looks for
`SUBMITTED` machines, and broker queries therefore never cause a transition.
-/

namespace AutoTrade.Execution.ExecutionService

open AutoTrade.Library ExecutionStateMachine ExecutionStateMachineManager

variable {setup : Setup} {call : OrderCall} {s : ExecutionService}

/-- The states a machine rests in between operations. -/
def restingStates : List ExecutionState := [.validated, .filled, .failed]

/-- Every machine of the manager rests and persists its transitions. -/
structure AtRest (mgr : ExecutionStateMachineManager) : Prop where
  wired : mgr.persistenceCallback = true
  machines : ∀ id m, mgr.getMachine id = some m →
    m.state ∈ restingStates ∧ m.persistenceCallback = true

theorem AtRest.put {mgr : ExecutionStateMachineManager} (h : AtRest mgr) (id : String)
    {m : ExecutionStateMachine} (hstate : m.state ∈ restingStates)
    (hwired : m.persistenceCallback = true) : AtRest (mgr.put id m) := by
  refine ⟨h.wired, fun j m' hget => ?_⟩
  by_cases hj : j = id
  · subst hj
    rw [getMachine_put, Option.some.injEq] at hget
    subst hget
    exact ⟨hstate, hwired⟩
  · rw [getMachine_put_of_ne _ _ hj] at hget
    exact h.machines j m' hget

theorem persistenceCallback_of_identity {m m' : ExecutionStateMachine}
    (h : identity m' = identity m) : m'.persistenceCallback = m.persistenceCallback :=
  congrArg (fun who => who.2.2.2.2.2.2) h

/-! ## Calls -/

theorem newState_mem_restingStates (outcome : Except PyExc OrderResult) :
    newState outcome ∈ restingStates := by
  unfold newState
  split
  · decide
  · split
    · split <;> decide
    · decide

/-- The driven machine rests, and belongs to the order of the call. -/
theorem driveMachine_atRest (h : AtRest s.manager) (hgo : proceeds setup call s = true) :
    (driveMachine setup call s).machine.state ∈ restingStates ∧
      (driveMachine setup call s).machine.persistenceCallback = true := by
  obtain ⟨_, hterminal⟩ := (proceeds_iff setup call s).mp hgo
  have hidentity := identity_driveMachine setup call s
  cases hm : priorMachine setup call s with
  | none =>
      rw [createMachine_none hm] at hidentity
      obtain ⟨_, hstate, _⟩ := driveMachine_new hm
      rw [hstate]
      exact ⟨newState_mem_restingStates _,
        (persistenceCallback_of_identity hidentity).trans h.wired⟩
  | some m =>
      rw [createMachine_some hm] at hidentity
      obtain ⟨m', hstep, hstate, _⟩ := driveMachine_some hm (hterminal m hm)
      rw [hstep] at hidentity ⊢
      obtain ⟨hrest, hwired⟩ := h.machines _ m hm
      rw [hstate]
      exact ⟨hrest, (persistenceCallback_of_identity hidentity).trans hwired⟩

/-! ## Jobs and queries -/

theorem AtRest.not_submitted {mgr : ExecutionStateMachineManager} (h : AtRest mgr) (id : String)
    (m : ExecutionStateMachine) (hget : mgr.getMachine id = some m) : m.state ≠ .submitted := by
  intro hs
  have hrest := (h.machines id m hget).1
  rw [hs] at hrest
  exact absurd hrest (by decide)

/-- The watchdog finds nothing to do. -/
theorem step_runAckWatchdog (h : AtRest s.manager) (answers : LifecycleAnswers) (maxAge : ℚ) :
    step setup s (.runAckWatchdog answers maxAge) = s := by
  obtain ⟨hmanager, hworld⟩ := runAckWatchdog_idle (serviceHooks s.clock) s.clock answers
    maxAge s.records h.not_submitted
  simp only [step, hmanager, hworld]

/-- A stale machine that rests is validated; the sweep fails it. -/
theorem recordFailure_of_stale {m : ExecutionStateMachine} (hrest : m.state ∈ restingStates)
    {now : Time} {maxStale : ℚ} (hstale : isStale now maxStale m = true) :
    m.state = .validated ∧
      ({ m with errorMessage := some (staleReason now m) } : ExecutionStateMachine).Allows
        .failed := by
  have hlive : m.isTerminal = false := by
    simp only [isStale, decide_eq_true_eq] at hstale
    exact hstale.1
  have hvalidated : m.state = .validated := by
    have hmem : m.state = .validated ∨ m.state = .filled ∨ m.state = .failed := by
      simpa [restingStates] using hrest
    rcases hmem with h | h | h
    · exact h
    · simp [isTerminal, h, terminalStates] at hlive
    · simp [isTerminal, h, terminalStates] at hlive
  exact ⟨hvalidated, by simp [Allows, hvalidated, validTransitions]⟩

/-- A broker query about a resting machine changes none of its identity, its state and the
records. -/
theorem applyBrokerStatus_atRest {σ : Type} (hooks : Hooks σ) (ts : Time) (query : BrokerQuery)
    {m : ExecutionStateMachine} (hrest : m.state ∈ restingStates) (world : σ) :
    (applyBrokerStatus hooks ts query (adoptBrokerOrderId query.brokerOrderId m)
        world).world = world ∧
      (applyBrokerStatus hooks ts query (adoptBrokerOrderId query.brokerOrderId m)
        world).machine.state = m.state ∧
      identity (applyBrokerStatus hooks ts query (adoptBrokerOrderId query.brokerOrderId m)
        world).machine = identity m := by
  have hadopt : (adoptBrokerOrderId query.brokerOrderId m).state = m.state ∧
      identity (adoptBrokerOrderId query.brokerOrderId m) = identity m := by
    unfold adoptBrokerOrderId
    split <;> exact ⟨rfl, rfl⟩
  have hmem : m.state = .validated ∨ m.state = .filled ∨ m.state = .failed := by
    simpa [restingStates] using hrest
  generalize adoptBrokerOrderId query.brokerOrderId m = adopted at hadopt
  obtain ⟨hstate, hidentity⟩ := hadopt
  have hack : adopted.state ≠ .acknowledged := by rcases hmem with h | h | h <;> simp [hstate, h]
  have hpart : adopted.state ≠ .partialFill := by rcases hmem with h | h | h <;> simp [hstate, h]
  have hsubmitted : adopted.state ≠ .submitted := by
    rcases hmem with h | h | h <;> simp [hstate, h]
  have hcancel : ¬ adopted.Allows .cancelled := by
    rcases hmem with h | h | h <;> simp [Allows, hstate, h, validTransitions]
  unfold applyBrokerStatus
  rw [if_neg hsubmitted]
  split
  · rw [recordFill_refused hack hpart]
    exact ⟨rfl, hstate, hidentity⟩
  · split
    · have hrefused : recordRejection hooks ts "Broker rejected" adopted world =
          ⟨{ adopted with errorMessage := some "Broker rejected" }, world, .ok false⟩ :=
        if_neg hsubmitted
      rw [hrefused]
      exact ⟨rfl, hstate, hidentity⟩
    · split
      · rw [tryTransitionTo_refused hcancel]
        exact ⟨rfl, hstate, hidentity⟩
      · exact ⟨rfl, hstate, hidentity⟩

/-- The same machines, as far as their states and identities go. -/
def SameStates (mgr mgr' : ExecutionStateMachineManager) : Prop :=
  ∀ id, (mgr'.getMachine id).map (fun m => (m.state, identity m)) =
    (mgr.getMachine id).map fun m => (m.state, identity m)

theorem SameStates.symm {mgr mgr' : ExecutionStateMachineManager} (h : SameStates mgr mgr') :
    SameStates mgr' mgr := fun id => (h id).symm

theorem SameStates.exists {mgr mgr' : ExecutionStateMachineManager} (h : SameStates mgr mgr')
    {id : String} {m : ExecutionStateMachine} (hget : mgr'.getMachine id = some m) :
    ∃ m', mgr.getMachine id = some m' ∧ m'.state = m.state ∧ identity m' = identity m := by
  have hpair := h id
  rw [hget, Option.map_some] at hpair
  obtain ⟨m', hget', heq⟩ := Option.map_eq_some_iff.mp hpair.symm
  exact ⟨m', hget', Prod.mk.inj heq⟩

/-- A broker query leaves everything but the manager alone, and there every state and identity. -/
theorem step_recordBrokerQueryResult (setup : Setup) (h : AtRest s.manager) (query : BrokerQuery) :
    ∃ mgr, step setup s (.recordBrokerQueryResult query) = { s with manager := mgr } ∧
      mgr.persistenceCallback = s.manager.persistenceCallback ∧ SameStates s.manager mgr := by
  cases hget : s.manager.getMachine query.clientOrderId with
  | none =>
      refine ⟨s.manager, ?_, rfl, fun _ => rfl⟩
      simp only [step, ExecutionStateMachineManager.recordBrokerQueryResult, hget]
  | some m =>
      obtain ⟨hworld, hstate, hidentity⟩ := applyBrokerStatus_atRest
        (serviceHooks s.clock) (formatTs s.clock) query
        (h.machines _ m hget).1 s.records
      refine ⟨s.manager.put query.clientOrderId (applyBrokerStatus (serviceHooks s.clock)
        (formatTs s.clock) query (adoptBrokerOrderId query.brokerOrderId m) s.records).machine,
        ?_, rfl, fun id => ?_⟩
      · simp only [step, ExecutionStateMachineManager.recordBrokerQueryResult, hget, hworld]
      · by_cases hid : id = query.clientOrderId
        · subst hid
          rw [getMachine_put, hget, Option.map_some, Option.map_some, hstate, hidentity]
        · rw [getMachine_put_of_ne _ _ hid]

/-! ## Every reachable state -/

theorem step_atRest (setup : Setup) (h : AtRest s.manager) (op : ServiceStep) :
    AtRest (step setup s op).manager := by
  cases op with
  | executeOrder call =>
      refine ⟨persistenceCallback_executeOrder.trans h.wired, fun id m hget => ?_⟩
      simp only [step] at hget
      by_cases hattempt : Attempted setup call s
      · rw [getMachine_executeOrder hattempt] at hget
        split at hget
        · rw [Option.some.injEq] at hget
          subst hget
          exact driveMachine_atRest (by rw [prepared_manager]; exact h)
            (by rw [proceeds_prepared]; exact hattempt.2)
        · exact h.machines id m hget
      · rw [(executeOrder_not_attempted hattempt).1] at hget
        exact h.machines id m hget
  | runAckWatchdog answers maxAge =>
      rw [step_runAckWatchdog h]
      exact h
  | runStaleOrderTimeout answers maxStale =>
      refine runStaleOrderTimeout_invariant _ _ _ _ _ _ _ (fun mgr _ => AtRest mgr) ?_ h
      intro mgr records id m hget hstale _ hinv
      obtain ⟨hrest, hwired⟩ := h.machines id m hget
      have hallow := (recordFailure_of_stale hrest hstale).2
      obtain ⟨_, hstate, _⟩ := movedTo_tryTransitionTo (formatTs s.clock)
        (serviceHooks_silent s.clock) hallow records
      refine hinv.put id ?_ ?_
      · rw [recordFailure, hstate]
        decide
      · rw [recordFailure]
        exact (persistenceCallback_of_identity (identity_tryTransitionTo _ _ _)).trans hwired
  | recordBrokerQueryResult query =>
      obtain ⟨mgr, hstep, hwired, hsame⟩ := step_recordBrokerQueryResult setup h query
      rw [hstep]
      refine ⟨hwired.trans h.wired, fun id m hget => ?_⟩
      obtain ⟨m', hget', hstate, hidentity⟩ := hsame.exists hget
      obtain ⟨hrest, hwired'⟩ := h.machines id m' hget'
      exact ⟨hstate ▸ hrest, (persistenceCallback_of_identity hidentity).symm.trans hwired'⟩
  | advance elapsed => exact h

theorem Fresh.atRest (h : s.Fresh) : AtRest s.manager := by
  rw [h.manager]
  exact ⟨rfl, fun id m hget => by cases hget⟩

end AutoTrade.Execution.ExecutionService
