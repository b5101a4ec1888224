import AutoTrade.Execution.Manager
import AutoTrade.Execution.Order
import AutoTrade.Library.Run

/-! # Order lifecycle jobs

`core/execution/order_lifecycle.py`: the sweep that fails orders stuck too long
and the watchdog that asks the broker about unacknowledged ones. Both walk over
a snapshot of the machines; an exception outside the handled classes ends the
walk where it stands.
-/

namespace AutoTrade.Execution

open AutoTrade.Library ExecutionStateMachine ExecutionStateMachineManager

/-- The broker's answers to the calls a job makes, one per machine. The status
text is the one the watchdog compares, in upper case. -/
structure LifecycleAnswers where
  cancelOrder : ExecutionStateMachine → Except PyExc Bool
  getOrderStatus : ExecutionStateMachine → Except PyExc (Option String)

structure StaleTimeoutCounts where
  checked : Nat := 0
  cancelled : Nat := 0
  alreadyTerminal : Nat := 0
  errors : Nat := 0
deriving DecidableEq, Repr

structure AckWatchdogCounts where
  checked : Nat := 0
  acknowledged : Nat := 0
  stillPending : Nat := 0
  errors : Nat := 0
deriving DecidableEq, Repr

/-- The machines, the world and the counters of a job between two iterations. -/
structure JobState (σ γ : Type) where
  manager : ExecutionStateMachineManager
  world : σ
  counts : γ

namespace JobState

variable {σ γ : Type}

/-- A machine operation of the loop body: its exception ends the body, else the job is counted. -/
def perform {α : Type} (job : JobState σ γ) (id : String) (count : γ → γ) (step : Step σ α) :
    JobState σ γ × Option PyExc :=
  let job := { job with manager := job.manager.put id step.machine, world := step.world }
  match step.value with
  | .ok _ => ({ job with counts := count job.counts }, none)
  | .error e => (job, some e)

end JobState

/-! ## The stale-order sweep -/

def staleStates : List ExecutionState :=
  [.submitted, .acknowledged, .cancelPending, .pendingSubmission, .validated, .persisted]

/-- Seconds since the order was submitted or last moved. -/
def staleAge (now : Time) (m : ExecutionStateMachine) : ℚ :=
  totalSeconds now (m.submittedAt.getD m.updatedAt)

/-- The machines the sweep fails. -/
def isStale (now : Time) (maxStaleSeconds : ℚ) (m : ExecutionStateMachine) : Bool :=
  decide (m.isTerminal = false ∧ m.state ∈ staleStates ∧ ¬ staleAge now m < maxStaleSeconds)

def staleReason (now : Time) (m : ExecutionStateMachine) : String :=
  "Stale order timeout (" ++ formatWhole (staleAge now m) ++ "s in " ++ m.state.value ++ ")"

section Jobs

variable {σ : Type} (hooks : Hooks σ) (now : Time)

/-- The exception of `cancel_order` that ends the sweep, if it raises one. -/
def cancelRaises (port : BrokerPort) (answers : LifecycleAnswers) (m : ExecutionStateMachine) :
    Option PyExc :=
  if truthy m.brokerOrderId ∧ port.hasCancelOrder then
    match answers.cancelOrder m with
    | .ok _ => none
    | .error e => if e.caughtBy [.valueError, .osError] then none else some e
  else none

def sweepMachine (port : BrokerPort) (answers : LifecycleAnswers) (maxStaleSeconds : ℚ)
    (job : JobState σ StaleTimeoutCounts) (entry : String × ExecutionStateMachine) :
    JobState σ StaleTimeoutCounts × Option PyExc :=
  let m := entry.2
  if m.isTerminal then
    ({ job with counts.alreadyTerminal := job.counts.alreadyTerminal + 1 }, none)
  else if isStale now maxStaleSeconds m then
    let job := { job with counts.checked := job.counts.checked + 1 }
    match cancelRaises port answers m with
    | some e => (job, some e)
    | none => job.perform entry.1 (fun c => { c with cancelled := c.cancelled + 1 })
        (recordFailure hooks (formatTs now) (staleReason now m) m job.world)
  else (job, none)

def runStaleOrderTimeout (port : BrokerPort) (answers : LifecycleAnswers) (maxStaleSeconds : ℚ)
    (mgr : ExecutionStateMachineManager) (s : σ) :
    JobState σ StaleTimeoutCounts × Except PyExc StaleTimeoutCounts :=
  match loop (sweepMachine hooks now port answers maxStaleSeconds) ⟨mgr, s, {}⟩ mgr.machines.rows with
  | (job, none) => (job, .ok job.counts)
  | (job, some e) =>
      if e.caughtBy [.valueError, .osError, .attributeError] then
        let job := { job with counts.errors := job.counts.errors + 1 }
        (job, .ok job.counts)
      else (job, .error e)

/-! ## The acknowledgment watchdog -/

/-- The machines the watchdog asks about. -/
def awaitsAck (maxAckAgeSeconds : ℚ) (m : ExecutionStateMachine) : Bool :=
  decide (m.state = .submitted) && m.submittedAt.any fun t =>
    decide (¬ totalSeconds now t < maxAckAgeSeconds)

/-- A body whose listed exceptions are counted and not passed on. -/
def countErrors (out : JobState σ AckWatchdogCounts × Option PyExc) :
    JobState σ AckWatchdogCounts × Option PyExc :=
  match out with
  | (job, none) => (job, none)
  | (job, some e) =>
      if e.caughtBy [.valueError, .osError, .attributeError] then
        ({ job with counts.errors := job.counts.errors + 1 }, none)
      else (job, some e)

def applyOrderStatus (status : String) (job : JobState σ AckWatchdogCounts)
    (entry : String × ExecutionStateMachine) : JobState σ AckWatchdogCounts × Option PyExc :=
  let m := entry.2
  let acknowledged := fun c : AckWatchdogCounts => { c with acknowledged := c.acknowledged + 1 }
  if status ∈ ["COMPLETE", "FILLED", "EXECUTED"] then
    job.perform entry.1 acknowledged ((recordAcknowledgment hooks (formatTs now) m job.world).andThen
      (recordFill hooks (formatTs now) m.quantity m.price))
  else if status ∈ ["REJECTED", "CANCELLED", "EXPIRED"] then
    job.perform entry.1 acknowledged (tryTransitionTo hooks (formatTs now) .rejected m job.world)
  else ({ job with counts.stillPending := job.counts.stillPending + 1 }, none)

def watchMachine (answers : LifecycleAnswers) (maxAckAgeSeconds : ℚ)
    (job : JobState σ AckWatchdogCounts) (entry : String × ExecutionStateMachine) :
    JobState σ AckWatchdogCounts × Option PyExc :=
  let m := entry.2
  if awaitsAck now maxAckAgeSeconds m then
    let job := { job with counts.checked := job.counts.checked + 1 }
    if truthy m.brokerOrderId then
      countErrors (match answers.getOrderStatus m with
        | .error e => (job, some e)
        | .ok none => ({ job with counts.stillPending := job.counts.stillPending + 1 }, none)
        | .ok (some status) => applyOrderStatus hooks now status job entry)
    else ({ job with counts.errors := job.counts.errors + 1 }, none)
  else (job, none)

def runAckWatchdog (answers : LifecycleAnswers) (maxAckAgeSeconds : ℚ)
    (mgr : ExecutionStateMachineManager) (s : σ) :
    JobState σ AckWatchdogCounts × Except PyExc AckWatchdogCounts :=
  match loop (watchMachine hooks now answers maxAckAgeSeconds) ⟨mgr, s, {}⟩ mgr.machines.rows with
  | (job, none) => (job, .ok job.counts)
  | (job, some e) => (job, .error e)

end Jobs

/-! ## What a job can do to the machines -/

section Laws

variable {σ : Type}

/-- Whatever the loop body keeps, the sweep keeps. -/
theorem runStaleOrderTimeout_invariant (hooks : Hooks σ) (now : Time) (port : BrokerPort)
    (answers : LifecycleAnswers) (max : ℚ) (mgr : ExecutionStateMachineManager) (s : σ)
    (I : ExecutionStateMachineManager → σ → Prop)
    (preserved : ∀ mgr' s', ∀ id m, mgr.getMachine id = some m → isStale now max m = true →
      cancelRaises port answers m = none → I mgr' s' →
      I (mgr'.put id (recordFailure hooks (formatTs now) (staleReason now m) m s').machine)
        (recordFailure hooks (formatTs now) (staleReason now m) m s').world)
    (initial : I mgr s) :
    I (runStaleOrderTimeout hooks now port answers max mgr s).1.manager
      (runStaleOrderTimeout hooks now port answers max mgr s).1.world := by
  have hloop : I
      (loop (sweepMachine hooks now port answers max) ⟨mgr, s, {}⟩ mgr.machines.rows).1.manager
      (loop (sweepMachine hooks now port answers max) ⟨mgr, s, {}⟩ mgr.machines.rows).1.world := by
    refine loop_invariant (a := ⟨mgr, s, {}⟩)
      (I := fun job : JobState σ StaleTimeoutCounts => I job.manager job.world) ?_ initial
    rintro job ⟨id, m⟩ hmem hinv
    have hget : mgr.getMachine id = some m := (Dict.get?_eq_some_iff _ _ _).mpr hmem
    unfold sweepMachine
    dsimp only
    split
    · exact hinv
    · split
      · rename_i hstale
        split
        · exact hinv
        · rename_i hcancel
          have hnext := preserved job.manager job.world id m hget hstale hcancel hinv
          unfold JobState.perform
          dsimp only
          split <;> exact hnext
      · exact hinv
  unfold runStaleOrderTimeout
  split
  · rename_i job hjob
    rw [hjob] at hloop
    exact hloop
  · rename_i job e hjob
    rw [hjob] at hloop
    split <;> exact hloop

/-- What the sweep did to each machine: nothing, or it failed a stale one whose cancel request did
not end the walk. -/
theorem getMachine_runStaleOrderTimeout (hooks : Hooks σ) (now : Time) (port : BrokerPort)
    (answers : LifecycleAnswers) (maxStale : ℚ) (mgr : ExecutionStateMachineManager) (world : σ)
    (id : String) :
    (runStaleOrderTimeout hooks now port answers maxStale mgr world).1.manager.getMachine id =
        mgr.getMachine id ∨
      ∃ m r, mgr.getMachine id = some m ∧ isStale now maxStale m = true ∧
        cancelRaises port answers m = none ∧
        (runStaleOrderTimeout hooks now port answers maxStale mgr world).1.manager.getMachine id =
          some (recordFailure hooks (formatTs now) (staleReason now m) m r).machine := by
  apply runStaleOrderTimeout_invariant hooks now port answers maxStale mgr world (fun mgr' _ =>
    mgr'.getMachine id = mgr.getMachine id ∨
      ∃ m r, mgr.getMachine id = some m ∧ isStale now maxStale m = true ∧
        cancelRaises port answers m = none ∧
        mgr'.getMachine id =
          some (recordFailure hooks (formatTs now) (staleReason now m) m r).machine)
  · intro mgr' world' j m hget hstale hcancel hinv
    by_cases hj : id = j
    · subst hj
      exact .inr ⟨m, world', hget, hstale, hcancel, getMachine_put _ _ _⟩
    · rw [getMachine_put_of_ne _ _ hj]
      exact hinv
  · exact .inl rfl

/-- Whatever the loop body keeps, the watchdog keeps. -/
theorem runAckWatchdog_invariant (hooks : Hooks σ) (now : Time) (answers : LifecycleAnswers)
    (max : ℚ) (mgr : ExecutionStateMachineManager) (s : σ)
    (I : ExecutionStateMachineManager → σ → Prop)
    (preserved : ∀ job : JobState σ AckWatchdogCounts, ∀ id m, mgr.getMachine id = some m →
      I job.manager job.world →
      I (watchMachine hooks now answers max job (id, m)).1.manager
        (watchMachine hooks now answers max job (id, m)).1.world)
    (initial : I mgr s) :
    I (runAckWatchdog hooks now answers max mgr s).1.manager
      (runAckWatchdog hooks now answers max mgr s).1.world := by
  have hloop : I
      (loop (watchMachine hooks now answers max) ⟨mgr, s, {}⟩ mgr.machines.rows).1.manager
      (loop (watchMachine hooks now answers max) ⟨mgr, s, {}⟩ mgr.machines.rows).1.world := by
    apply loop_invariant (a := ⟨mgr, s, {}⟩)
      (I := fun job : JobState σ AckWatchdogCounts => I job.manager job.world) _ initial
    intro job entry hmem hinv
    exact preserved job entry.1 entry.2 ((Dict.get?_eq_some_iff _ _ _).mpr hmem) hinv
  unfold runAckWatchdog
  split
  · rename_i job hjob
    rw [hjob] at hloop
    exact hloop
  · rename_i job e hjob
    rw [hjob] at hloop
    exact hloop

/-- A machine that does not await an acknowledgment is passed over. -/
theorem watchMachine_of_not_awaits (hooks : Hooks σ) {now : Time} (answers : LifecycleAnswers)
    {max : ℚ} {m : ExecutionStateMachine} (h : awaitsAck now max m = false)
    (job : JobState σ AckWatchdogCounts) (id : String) :
    watchMachine hooks now answers max job (id, m) = (job, none) := by
  simp [watchMachine, h]

/-- With no machine awaiting an acknowledgment the watchdog moves none. -/
theorem runAckWatchdog_idle (hooks : Hooks σ) (now : Time) (answers : LifecycleAnswers) (max : ℚ)
    {mgr : ExecutionStateMachineManager} (s : σ)
    (idle : ∀ id m, mgr.getMachine id = some m → m.state ≠ .submitted) :
    (runAckWatchdog hooks now answers max mgr s).1.manager = mgr ∧
      (runAckWatchdog hooks now answers max mgr s).1.world = s := by
  apply runAckWatchdog_invariant hooks now answers max mgr s
    (fun mgr' s' => mgr' = mgr ∧ s' = s) _ ⟨rfl, rfl⟩
  intro job id m hget hinv
  have hawait : awaitsAck now max m = false := by simp [awaitsAck, idle id m hget]
  rw [watchMachine_of_not_awaits hooks answers hawait]
  exact hinv

theorem getMachine_perform_of_ne {γ α : Type} (job : JobState σ γ) {id j : String}
    (count : γ → γ) (step : Step σ α) (h : j ≠ id) :
    (job.perform id count step).1.manager.getMachine j = job.manager.getMachine j := by
  unfold JobState.perform
  dsimp only
  split
  · exact getMachine_put_of_ne _ _ h
  · exact getMachine_put_of_ne _ _ h

theorem countErrors_manager (out : JobState σ AckWatchdogCounts × Option PyExc) :
    (countErrors out).1.manager = out.1.manager := by
  unfold countErrors
  split
  · rfl
  · split <;> rfl

/-- The body for one machine leaves every other machine alone. -/
theorem getMachine_watchMachine_of_ne (hooks : Hooks σ) (now : Time) (answers : LifecycleAnswers)
    (max : ℚ) (job : JobState σ AckWatchdogCounts) {id j : String} (m : ExecutionStateMachine)
    (h : j ≠ id) :
    (watchMachine hooks now answers max job (id, m)).1.manager.getMachine j =
      job.manager.getMachine j := by
  unfold watchMachine
  dsimp only
  split
  · split
    · rw [countErrors_manager]
      split
      · rfl
      · rfl
      · unfold applyOrderStatus
        dsimp only
        split
        · exact getMachine_perform_of_ne _ _ _ h
        · split
          · exact getMachine_perform_of_ne _ _ _ h
          · rfl
    · rfl
  · rfl

/-- The watchdog leaves a machine alone that does not await an acknowledgment. -/
theorem getMachine_runAckWatchdog_of_not_awaits (hooks : Hooks σ) (now : Time)
    (answers : LifecycleAnswers) (max : ℚ) {mgr : ExecutionStateMachineManager} (s : σ)
    {id : String} {m : ExecutionStateMachine} (hget : mgr.getMachine id = some m)
    (hidle : awaitsAck now max m = false) :
    (runAckWatchdog hooks now answers max mgr s).1.manager.getMachine id = some m := by
  apply runAckWatchdog_invariant hooks now answers max mgr s
    (fun mgr' _ => mgr'.getMachine id = some m) _ hget
  intro job j m' hj hinv
  by_cases hid : id = j
  · subst hid
    have hm : m' = m := Option.some.inj (hj.symm.trans hget)
    rw [hm, watchMachine_of_not_awaits hooks answers hidle]
    exact hinv
  · rw [getMachine_watchMachine_of_ne hooks now answers max job m' hid]
    exact hinv

end Laws

end AutoTrade.Execution
