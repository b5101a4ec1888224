import AutoTrade.Execution.FillAccounting
import AutoTrade.Execution.Lifecycle

/-! # Recovered orders and the acknowledgment watchdog

Recovery restores a `SUBMITTED` machine without the time of its submission, and
the watchdog passes over every machine that has none. The sweep next to it
falls back on `updated_at`. Since a machine notes the time only when it leaves
`PERSISTED`, and no machine past that state comes back to it, a recovered order
stays out of the watchdog's sight for as long as the process runs.
-/

namespace AutoTrade.Execution

open AutoTrade.Library ExecutionStateMachine ExecutionStateMachineManager

/-! ## The manager's operations -/

/-- The shared machines, the clock and what the hooks act on. -/
structure MachineDesk (σ : Type) where
  clock : Time
  manager : ExecutionStateMachineManager
  world : σ

/-- Everything the process does to its machines: an operation of one machine, whoever calls it,
the manager's own operations and the two jobs. -/
inductive ManagerStep
  | operate (clientOrderId : String) (op : MachineOp)
  | createOrGet (intentId symbol : String) (quantity : Int) (price : ℚ) (direction : String)
  | recoverFromStore (store : Option DurableExecutionStore)
  | recordBrokerQueryResult (query : BrokerQuery)
  | runStaleOrderTimeout (port : BrokerPort) (answers : LifecycleAnswers) (maxStaleSeconds : ℚ)
  | runAckWatchdog (answers : LifecycleAnswers) (maxAckAgeSeconds : ℚ)
  | advance (elapsed : Nat)

section Desk

variable {σ : Type} (hooks : Time → Hooks σ)

def MachineDesk.step (d : MachineDesk σ) : ManagerStep → MachineDesk σ
  | .operate id op =>
      match d.manager.getMachine id with
      | none => d
      | some m =>
          let out := op.apply (hooks d.clock) (formatTs d.clock) m d.world
          { d with manager := d.manager.put id out.machine, world := out.world }
  | .createOrGet intentId symbol quantity price direction =>
      { d with manager :=
          (d.manager.createOrGet (formatTs d.clock) intentId symbol quantity price direction).2.2 }
  | .recoverFromStore store =>
      { d with manager :=
          (ExecutionStateMachineManager.recoverFromStore (formatTs d.clock) d.manager store).1 }
  | .recordBrokerQueryResult query =>
      let (manager, world, _) := ExecutionStateMachineManager.recordBrokerQueryResult
        (hooks d.clock) (formatTs d.clock) query d.manager d.world
      { d with manager, world }
  | .runStaleOrderTimeout port answers maxStale =>
      let job := (Execution.runStaleOrderTimeout (hooks d.clock) d.clock port answers maxStale
        d.manager d.world).1
      { d with manager := job.manager, world := job.world }
  | .runAckWatchdog answers maxAge =>
      let job := (Execution.runAckWatchdog (hooks d.clock) d.clock answers maxAge
        d.manager d.world).1
      { d with manager := job.manager, world := job.world }
  | .advance elapsed => { d with clock := d.clock + elapsed }

/-- The machines a watchdog call asks the broker about, by client order id: those it reaches that
await an acknowledgment and have an order id to ask with. -/
def watchdogQueries (d : MachineDesk σ) (answers : LifecycleAnswers) (maxAckAgeSeconds : ℚ) :
    List String :=
  let reached := visited (watchMachine (hooks d.clock) d.clock answers maxAckAgeSeconds)
    ⟨d.manager, d.world, {}⟩ d.manager.machines.rows
  (reached.filter fun entry =>
    awaitsAck d.clock maxAckAgeSeconds entry.2 && truthy entry.2.brokerOrderId).map Prod.fst

/-- A watchdog call asks about the machine, and books it as filled when the broker reports so. -/
structure Watched (d : MachineDesk σ) (answers : LifecycleAnswers) (maxAckAgeSeconds : ℚ)
    (id : String) : Prop where
  queried : id ∈ watchdogQueries hooks d answers maxAckAgeSeconds
  filled : ∀ m status, d.manager.getMachine id = some m →
    answers.getOrderStatus m = .ok (some status) → status ∈ ["COMPLETE", "FILLED", "EXECUTED"] →
      ∃ m', (d.step hooks (.runAckWatchdog answers maxAckAgeSeconds)).manager.getMachine id =
          some m' ∧ m'.state = .filled ∧ m'.filledQuantity = m.quantity

end Desk

/-! ## Machines without a time of submission -/

/-- The states before the submission. -/
def unsubmittedStates : List ExecutionState := [.init, .pendingSubmission, .validated, .persisted]

/-- Past the submission without knowing its time. -/
structure Untimed (m : ExecutionStateMachine) : Prop where
  submittedAt : m.submittedAt = none
  state : m.state ∉ unsubmittedStates

/-- The table leads back before the submission only from there. -/
theorem unsubmitted_of_validTransition (state : ExecutionState) :
    ∀ new ∈ validTransitions state, new ∈ unsubmittedStates → state ∈ unsubmittedStates := by
  cases state <;> decide

theorem Untimed.not_awaitsAck {m : ExecutionStateMachine} (h : Untimed m) (now : Time)
    (maxAge : ℚ) : awaitsAck now maxAge m = false := by
  simp [awaitsAck, h.submittedAt]

namespace Untimed

variable {σ : Type} {hooks : Hooks σ} {ts : Time} {m : ExecutionStateMachine}

theorem tryTransitionTo (h : Untimed m) (new : ExecutionState) (s : σ) :
    Untimed (tryTransitionTo hooks ts new m s).machine := by
  refine tryTransitionTo_preserves h (fun allowed updatedAt => ⟨h.submittedAt, fun hnew => ?_⟩) s
  exact h.state (unsubmitted_of_validTransition m.state new allowed.2 hnew)

theorem addFill (h : Untimed m) (q : Int) (p : ℚ) : Untimed (addFill ts q p m) :=
  ⟨h.submittedAt, h.state⟩

theorem withError (h : Untimed m) (message : Option String) :
    Untimed { m with errorMessage := message } :=
  ⟨h.submittedAt, h.state⟩

theorem recordSubmission (h : Untimed m) (brokerOrderId : String) (s : σ) :
    Untimed (recordSubmission hooks ts brokerOrderId m s).machine := by
  have hstate : m.state ≠ .persisted := by
    intro hs
    apply h.state
    simp [hs, unsubmittedStates]
  rw [ExecutionStateMachine.recordSubmission, if_pos hstate]
  exact h

theorem recordAcknowledgment (h : Untimed m) (s : σ) :
    Untimed (recordAcknowledgment hooks ts m s).machine := by
  unfold ExecutionStateMachine.recordAcknowledgment
  split
  · have hnoted : Untimed { m with acknowledgedAt := some ts } := ⟨h.submittedAt, h.state⟩
    exact hnoted.tryTransitionTo _ s
  · exact h

theorem recordFill (h : Untimed m) (q : Int) (p : ℚ) (s : σ) :
    Untimed (recordFill hooks ts q p m s).machine := by
  have hadd : Untimed (ExecutionStateMachine.addFill ts q p m) := h.addFill q p
  unfold ExecutionStateMachine.recordFill
  dsimp only
  split
  · split
    · exact hadd.tryTransitionTo _ s
    · exact hadd.tryTransitionTo _ s
  · split
    · split
      · exact hadd.tryTransitionTo _ s
      · exact hadd
    · exact hadd

theorem recordRejection (h : Untimed m) (reason : String) (s : σ) :
    Untimed (recordRejection hooks ts reason m s).machine := by
  unfold ExecutionStateMachine.recordRejection
  dsimp only
  split
  · exact (h.withError _).tryTransitionTo _ s
  · exact h.withError _

theorem recordFailure (h : Untimed m) (reason : String) (s : σ) :
    Untimed (recordFailure hooks ts reason m s).machine :=
  (h.withError _).tryTransitionTo _ s

/-- No operation of the machine gives it a time of submission. -/
theorem apply (h : Untimed m) (op : MachineOp) (s : σ) : Untimed (op.apply hooks ts m s).machine := by
  cases op with
  | recordSubmission brokerOrderId => exact h.recordSubmission brokerOrderId s
  | recordAcknowledgment => exact h.recordAcknowledgment s
  | recordFill q p => exact h.recordFill q p s
  | recordPartialFill q p => exact h.recordFill q p s
  | recordRejection reason => exact h.recordRejection reason s
  | recordFailure reason => exact h.recordFailure reason s
  | tryTransitionTo new => exact h.tryTransitionTo new s

theorem applyBrokerStatus (h : Untimed m) (query : BrokerQuery) (s : σ) :
    Untimed (applyBrokerStatus hooks ts query m s).machine := by
  unfold ExecutionStateMachineManager.applyBrokerStatus
  split
  · exact h.recordFill _ _ s
  · split
    · exact h.recordRejection _ s
    · split
      · exact h.tryTransitionTo _ s
      · split
        · exact h.recordAcknowledgment s
        · exact h

theorem adoptBrokerOrderId (h : Untimed m) (brokerOrderId : Option String) :
    Untimed (adoptBrokerOrderId brokerOrderId m) := by
  unfold ExecutionStateMachineManager.adoptBrokerOrderId
  split
  · exact ⟨h.submittedAt, h.state⟩
  · exact h

end Untimed

/-! ## The desk -/

section Runs

variable {σ : Type} (hooks : Time → Hooks σ)

/-- The machine of an order is past its submission and does not know its time. -/
def UntimedAt (id : String) (d : MachineDesk σ) : Prop :=
  ∃ m, d.manager.getMachine id = some m ∧ Untimed m

theorem UntimedAt.put {d : MachineDesk σ} {id : String} (h : UntimedAt id d) {j : String}
    {m : ExecutionStateMachine} (hm : j = id → Untimed m) (world : σ) :
    UntimedAt id { d with manager := d.manager.put j m, world := world } := by
  by_cases hj : j = id
  · subst hj
    exact ⟨m, getMachine_put _ _ _, hm rfl⟩
  · obtain ⟨m', hget, huntimed⟩ := h
    exact ⟨m', (getMachine_put_of_ne _ _ (Ne.symm hj)).trans hget, huntimed⟩

/-- A machine is replaced by one that knows the time no better. -/
theorem UntimedAt.replace {d : MachineDesk σ} {id : String} (h : UntimedAt id d) {j : String}
    {m m' : ExecutionStateMachine} (hj : d.manager.getMachine j = some m)
    (hkeeps : Untimed m → Untimed m') (world : σ) :
    UntimedAt id { d with manager := d.manager.put j m', world := world } := by
  refine h.put (fun he => ?_) world
  obtain ⟨known, hget, huntimed⟩ := h
  subst he
  obtain rfl : m = known := Option.some.inj (hj.symm.trans hget)
  exact hkeeps huntimed

/-- Whatever the process does, the machine does not learn its time of submission. -/
theorem step_untimedAt {d : MachineDesk σ} {id : String} (h : UntimedAt id d) (op : ManagerStep) :
    UntimedAt id (d.step hooks op) := by
  cases op with
  | operate j op =>
      cases hj : d.manager.getMachine j with
      | none =>
          simp only [MachineDesk.step, hj]
          exact h
      | some m =>
          simp only [MachineDesk.step, hj]
          exact h.replace hj (fun huntimed => huntimed.apply op d.world) _
  | createOrGet intentId symbol quantity price direction =>
      obtain ⟨m, hget, huntimed⟩ := h
      exact ⟨m, getMachine_createOrGet_of_some _ _ _ _ _ _ hget, huntimed⟩
  | recoverFromStore store =>
      obtain ⟨m, hget, huntimed⟩ := h
      exact ⟨m, getMachine_recoverFromStore_of_some _ store hget, huntimed⟩
  | recordBrokerQueryResult query =>
      cases hj : d.manager.getMachine query.clientOrderId with
      | none =>
          simp only [MachineDesk.step, ExecutionStateMachineManager.recordBrokerQueryResult, hj]
          exact h
      | some m =>
          simp only [MachineDesk.step, ExecutionStateMachineManager.recordBrokerQueryResult, hj]
          refine h.replace hj (fun huntimed => ?_) _
          exact (huntimed.adoptBrokerOrderId query.brokerOrderId).applyBrokerStatus query d.world
  | runStaleOrderTimeout port answers maxStale =>
      obtain ⟨m, hget, huntimed⟩ := h
      simp only [MachineDesk.step]
      cases getMachine_runStaleOrderTimeout (hooks d.clock) d.clock port answers maxStale d.manager
          d.world id with
      | inl hsame => exact ⟨m, hsame.trans hget, huntimed⟩
      | inr hswept =>
          obtain ⟨m', r, hget', _, _, hafter⟩ := hswept
          have hm : m' = m := Option.some.inj (hget'.symm.trans hget)
          subst hm
          exact ⟨_, hafter, huntimed.recordFailure _ r⟩
  | runAckWatchdog answers maxAge =>
      obtain ⟨m, hget, huntimed⟩ := h
      exact ⟨m, getMachine_runAckWatchdog_of_not_awaits (hooks d.clock) d.clock answers maxAge
        d.world hget (huntimed.not_awaitsAck d.clock maxAge), huntimed⟩
  | advance elapsed => exact h

/-- The watchdog never asks about an order without a time of submission. -/
theorem UntimedAt.not_watched {d : MachineDesk σ} {id : String} (h : UntimedAt id d)
    (answers : LifecycleAnswers) (maxAge : ℚ) :
    id ∉ watchdogQueries hooks d answers maxAge := by
  intro hqueried
  obtain ⟨m, hget, huntimed⟩ := h
  unfold watchdogQueries at hqueried
  obtain ⟨entry, hentry, hid⟩ := List.mem_map.mp hqueried
  have hfilter := List.mem_filter.mp hentry
  have hrow := mem_of_mem_visited hfilter.1
  have hget' : d.manager.getMachine id = some entry.2 := by
    rw [← hid]
    exact (Dict.get?_eq_some_iff _ _ _).mpr hrow
  have hm : entry.2 = m := Option.some.inj (hget'.symm.trans hget)
  have hawaits := huntimed.not_awaitsAck d.clock maxAge
  rw [hm, hawaits] at hfilter
  simp at hfilter

/-- The desk of a process that has just loaded the orders of its store. -/
def MachineDesk.Recovered (mgr : ExecutionStateMachineManager) (store : DurableExecutionStore)
    (d : MachineDesk σ) : Prop :=
  d.manager = (ExecutionStateMachineManager.recoverFromStore (formatTs d.clock) mgr (some store)).1

theorem MachineDesk.Recovered.untimedAt {mgr : ExecutionStateMachineManager}
    {store : DurableExecutionStore} {d : MachineDesk σ} (h : d.Recovered mgr store)
    {rec : DurableExecutionRecord} (hrec : store.find? rec.intentId = some rec)
    (hstate : rec.state = .submitted)
    (hnew : mgr.getMachine (generateClientOrderId rec.intentId) = none) :
    UntimedAt (generateClientOrderId rec.intentId) d := by
  have hopen : rec.state ∉ DurableExecutionStore.terminalStates := by rw [hstate]; decide
  refine ⟨mgr.recoverMachine (formatTs d.clock) rec, ?_, rfl, ?_⟩
  · rw [h, getMachine_recoverFromStore _ _ _ _ hnew, hrec]
    simp [Option.filter, hopen]
  · simp [recoverMachine, hstate, recoveredState, unsubmittedStates]

/-- An order recovered in `SUBMITTED` is watched at no later point, whatever the process does in
between, however long it waits and whatever the broker would report. -/
theorem recovered_submission_never_watched (mgr : ExecutionStateMachineManager)
    (store : DurableExecutionStore) (rec : DurableExecutionRecord)
    (hrec : store.find? rec.intentId = some rec) (hstate : rec.state = .submitted)
    (hnew : mgr.getMachine (generateClientOrderId rec.intentId) = none) (start : MachineDesk σ)
    (hstart : start.Recovered mgr store) (ops : List ManagerStep) (answers : LifecycleAnswers)
    (maxAge : ℚ) :
    ¬ Watched hooks (run (MachineDesk.step hooks) start ops) answers maxAge
      (generateClientOrderId rec.intentId) := by
  intro hwatched
  have hinitial : UntimedAt (generateClientOrderId rec.intentId) start :=
    hstart.untimedAt hrec hstate hnew
  have hlater := run_invariant (I := UntimedAt (generateClientOrderId rec.intentId))
    (fun d op h => step_untimedAt hooks h op) hinitial ops
  exact hlater.not_watched hooks answers maxAge hwatched.queried

/-! ## A sample order -/

/-- A broker that reports every order complete. -/
def reportingComplete : LifecycleAnswers where
  cancelOrder _ := .ok true
  getOrderStatus _ := .ok (some "COMPLETE")

/-- An order that was with the broker when the process stopped. -/
def submittedRecord : DurableExecutionRecord :=
  { intentId := "signal-1", clientOrderId := "exec_1_0", symbol := "NIFTY", direction := "BUY"
    quantity := 50, strikePrice := 22500, state := .submitted, brokerOrderId := some "B-7"
    createdAt := 0, updatedAt := 0 }

def submittedStore : DurableExecutionStore := Table.empty.replace submittedRecord

/-- The restarted process, which has loaded the order at noon. -/
def recoveredDesk : MachineDesk Unit where
  clock := 12 * hour
  manager := (recoverFromStore (formatTs (12 * hour)) {} (some submittedStore)).1
  world := ()

/-- One minute after the restart the watchdog, set to thirty seconds, passes over the order. -/
theorem recovered_submission_unwatched :
    ¬ ∀ (hooks : Time → Hooks Unit) (mgr : ExecutionStateMachineManager)
      (store : DurableExecutionStore) (rec : DurableExecutionRecord),
      store.find? rec.intentId = some rec → rec.state = .submitted →
      truthy rec.brokerOrderId = true →
      mgr.getMachine (generateClientOrderId rec.intentId) = none →
      ∀ start : MachineDesk Unit, start.Recovered mgr store →
      ∀ (ops : List ManagerStep) (answers : LifecycleAnswers) (maxAge : ℚ),
        maxAge ≤ totalSeconds (run (MachineDesk.step hooks) start ops).clock start.clock →
        Watched hooks (run (MachineDesk.step hooks) start ops) answers maxAge
          (generateClientOrderId rec.intentId) := by
  intro h
  have hwatched := h (fun _ => quietHooks) {} submittedStore submittedRecord (by decide) rfl
    (by decide) rfl recoveredDesk rfl [.advance (60 * 1000000)] reportingComplete 30
    (by decide +kernel)
  exact absurd hwatched.queried (by decide +kernel)

theorem recovered_sample_never_watched :
    submittedStore.find? "signal-1" = some submittedRecord ∧
      ¬ Watched (fun _ => quietHooks) (run (MachineDesk.step fun _ => quietHooks) recoveredDesk
        [.advance (60 * 1000000)]) reportingComplete 30 "OPB-signal-1" :=
  ⟨by decide, recovered_submission_never_watched (fun _ => quietHooks) {} submittedStore
    submittedRecord (by decide) rfl rfl recoveredDesk rfl [.advance (60 * 1000000)]
    reportingComplete 30⟩

end Runs

end AutoTrade.Execution
