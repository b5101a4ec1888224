import AutoTrade.Execution.Service
import AutoTrade.Execution.StateMachineLaws

/-! # Recording a result on a machine

Two ways to reason about the machine operations that follow an attempt. What
every transition attempt of an order keeps true of the world, the whole block
keeps true: this is `Keeps`. And for a callback that does not raise, the state
a machine ends in is read off the outcome alone.
-/

namespace AutoTrade.Execution

open ExecutionStateMachine

variable {σ : Type} {hooks : Hooks σ} {ts : Time}

/-! ## World invariants -/

/-- The fields no operation of a machine writes. -/
def identity (m : ExecutionStateMachine) : String × String × String × Int × ℚ × String × Bool :=
  (m.intentId, m.clientOrderId, m.symbol, m.quantity, m.price, m.direction, m.persistenceCallback)

/-- `I` survives every transition attempt of the machines of one order. -/
def Keeps (hooks : Hooks σ) (ts : Time) (who : String × String × String × Int × ℚ × String × Bool)
    (I : σ → Prop) : Prop :=
  ∀ new m s, identity m = who → I s → I (tryTransitionTo hooks ts new m s).world

/-- The outcome of an operation on the order: still its machine, in a world with `I`. -/
def Kept {α : Type} (who : String × String × String × Int × ℚ × String × Bool) (I : σ → Prop)
    (step : Step σ α) : Prop :=
  identity step.machine = who ∧ I step.world

section Keeps

variable {who : String × String × String × Int × ℚ × String × Bool} {I : σ → Prop}

theorem identity_tryTransitionTo (new : ExecutionState) (m : ExecutionStateMachine) (s : σ) :
    identity (tryTransitionTo hooks ts new m s).machine = identity m := by
  obtain ⟨_, _, h, _⟩ := tryTransitionTo_frame hooks ts new m s
  rw [h]
  rfl

theorem Keeps.tryTransitionTo (keeps : Keeps hooks ts who I) (new : ExecutionState)
    {m : ExecutionStateMachine} {s : σ} (hm : identity m = who) (hs : I s) :
    Kept who I (tryTransitionTo hooks ts new m s) :=
  ⟨(identity_tryTransitionTo new m s).trans hm, keeps new m s hm hs⟩

theorem Keeps.recordSubmission (keeps : Keeps hooks ts who I) (id : String)
    {m : ExecutionStateMachine} {s : σ} (hm : identity m = who) (hs : I s) :
    Kept who I (recordSubmission hooks ts id m s) := by
  unfold ExecutionStateMachine.recordSubmission
  split
  · exact ⟨hm, hs⟩
  · exact keeps.tryTransitionTo .submitted hm hs

theorem Keeps.recordAcknowledgment (keeps : Keeps hooks ts who I)
    {m : ExecutionStateMachine} {s : σ} (hm : identity m = who) (hs : I s) :
    Kept who I (recordAcknowledgment hooks ts m s) := by
  unfold ExecutionStateMachine.recordAcknowledgment
  split
  · exact keeps.tryTransitionTo .acknowledged hm hs
  · exact ⟨hm, hs⟩

theorem Keeps.recordFill (keeps : Keeps hooks ts who I) (q : Int) (p : ℚ)
    {m : ExecutionStateMachine} {s : σ} (hm : identity m = who) (hs : I s) :
    Kept who I (recordFill hooks ts q p m s) := by
  have hadd : identity (addFill ts q p m) = who := hm
  unfold ExecutionStateMachine.recordFill
  dsimp only
  split_ifs
  · exact keeps.tryTransitionTo .filled hadd hs
  · exact keeps.tryTransitionTo .partialFill hadd hs
  · exact keeps.tryTransitionTo .filled hadd hs
  · exact ⟨hadd, hs⟩
  · exact ⟨hadd, hs⟩

theorem Kept.andThen {α β : Type} {step : Step σ α} {op : ExecutionStateMachine → σ → Step σ β}
    (kept : Kept who I step)
    (hop : ∀ m s, identity m = who → I s → Kept who I (op m s)) :
    Kept who I (step.andThen op) := by
  unfold Step.andThen
  split
  · exact hop _ _ kept.1 kept.2
  · exact kept

/-- After its first transition the `FILLED` branch goes on keeping `I`. -/
theorem Keeps.recordFilledResult_of_persisted (keeps : Keeps hooks ts who I)
    (request : OrderRequest) (result : OrderResult) {m : ExecutionStateMachine} {s : σ}
    (first : Kept who I (ExecutionStateMachine.tryTransitionTo hooks ts .persisted m s)) :
    Kept who I (recordFilledResult hooks ts request result m s) := by
  have hadvanced : Kept who I (advanceToAcknowledged hooks ts
      (orElse result.brokerOrderId (orElse (some result.orderId) m.clientOrderId)) m s) :=
    (first.andThen fun _ _ => keeps.recordSubmission _).andThen
      fun _ _ => keeps.recordAcknowledgment
  have hfill := keeps.recordFill request.lotSize request.strikePrice hadvanced.1 hadvanced.2
  unfold Execution.recordFilledResult
  dsimp only
  split
  · exact hfill
  · split
    · exact hfill
    · exact hadvanced

theorem Keeps.recordResult (keeps : Keeps hooks ts who I) (request : OrderRequest)
    (result : OrderResult) {m : ExecutionStateMachine} {s : σ} (hm : identity m = who)
    (hs : I s) : Kept who I (recordResult hooks ts request result m s) := by
  unfold Execution.recordResult
  split
  · exact keeps.recordFilledResult_of_persisted request result
      (keeps.tryTransitionTo .persisted hm hs)
  · exact keeps.recordFill result.filledQuantity 0 hm hs
  · exact keeps.tryTransitionTo .rejected hm hs
  · exact keeps.recordSubmission _ hm hs
  · exact keeps.tryTransitionTo .failed hm hs

theorem Keeps.recordRaised (keeps : Keeps hooks ts who I) (now : Time) (e : PyExc)
    {m : ExecutionStateMachine} {s : σ} (hm : identity m = who) (hs : I s) :
    Kept who I (recordRaised hooks ts now e m s) := by
  unfold Execution.recordRaised
  split
  · exact keeps.tryTransitionTo .failed hm hs
  · exact ⟨hm, hs⟩

theorem Keeps.concludeAttempt (keeps : Keeps hooks ts who I) (now : Time) (request : OrderRequest)
    (outcome : Except PyExc OrderResult) {m : ExecutionStateMachine} {s : σ}
    (hm : identity m = who) (hs : I s) :
    Kept who I (concludeAttempt hooks ts now request outcome m s) := by
  unfold Execution.concludeAttempt
  cases outcome with
  | error e => exact keeps.recordRaised now e hm hs
  | ok result =>
      have hrecorded := keeps.recordResult request result hm hs
      dsimp only
      split
      · exact hrecorded
      · exact keeps.recordRaised now _ hrecorded.1 hrecorded.2

/-- An attempt leaves the machine the machine of its order. -/
theorem identity_concludeAttempt (now : Time) (request : OrderRequest)
    (outcome : Except PyExc OrderResult) (m : ExecutionStateMachine) (s : σ) :
    identity (concludeAttempt hooks ts now request outcome m s).machine = identity m :=
  (Keeps.concludeAttempt (I := fun _ => True) (fun _ _ _ _ _ => trivial) now request outcome rfl
    trivial).1

end Keeps

/-! ## The state a machine ends in -/

/-- The callback never raises. -/
def Silent (hooks : Hooks σ) : Prop := ∀ m s, (hooks.persist m s).1 = .ok ()

theorem tryTransitionTo_silent (ts : Time) (silent : Silent hooks) {m : ExecutionStateMachine}
    {new : ExecutionState} (h : m.Allows new) (s : σ) :
    ∃ s', tryTransitionTo hooks ts new m s =
      ⟨{ m with state := new, updatedAt := ts }, s', .ok true⟩ := by
  have hok : (persistOutcome hooks new m s).1 = .ok () := by
    unfold persistOutcome
    split
    · exact silent _ _
    · rfl
  have hp : persistOutcome hooks new m s = (.ok (), (persistOutcome hooks new m s).2) := by
    rw [← hok]
  exact ⟨_, tryTransitionTo_success h hp⟩

/-- The quantity a result books on the machine. -/
def bookedBy (request : OrderRequest) : Except PyExc OrderResult → Int
  | .error _ => 0
  | .ok result =>
      match result.status with
      | .filled => request.lotSize
      | .partiallyFilled => result.filledQuantity
      | _ => 0

/-- What `_execute_with_retries` returns for an outcome, once nothing else raises. -/
def returnedFor (now : Time) : Except PyExc OrderResult → Except PyExc OrderResult
  | .ok result => .ok result
  | .error e =>
      if e.caughtBy handledErrors then
        .ok { orderId := "execution_failed", status := .rejected, timestamp := now
              rejectReason := some ("Execution failed: " ++ e.message) }
      else .error e

/-- On a terminal machine an outcome moves nothing; only the totals of a fill are written. -/
theorem concludeAttempt_of_terminal {m : ExecutionStateMachine} (h : m.state ∈ terminalStates)
    (now : Time) (request : OrderRequest) (outcome : Except PyExc OrderResult) (s : σ) :
    ∃ m', concludeAttempt hooks ts now request outcome m s = ⟨m', s, returnedFor now outcome⟩ ∧
      m'.state = m.state ∧ m'.filledQuantity = m.filledQuantity + bookedBy request outcome := by
  have hmem : m.state = .filled ∨ m.state = .rejected ∨ m.state = .cancelled ∨
      m.state = .failed := by
    simpa [terminalStates] using h
  have hpersisted : m.state ≠ .persisted := by rcases hmem with h | h | h | h <;> simp [h]
  have hsubmitted : m.state ≠ .submitted := by rcases hmem with h | h | h | h <;> simp [h]
  have hack : m.state ≠ .acknowledged := by rcases hmem with h | h | h | h <;> simp [h]
  have hpart : m.state ≠ .partialFill := by rcases hmem with h | h | h | h <;> simp [h]
  cases outcome with
  | error e =>
      refine ⟨m, ?_, rfl, by simp [bookedBy]⟩
      simp only [concludeAttempt, recordRaised, returnedFor, tryTransitionTo_of_terminal h]
      split <;> rfl
  | ok result =>
      cases hstatus : result.status with
      | filled =>
          refine ⟨addFill ts request.lotSize request.strikePrice m, ?_, rfl, by
            simp [bookedBy, hstatus]⟩
          simp [concludeAttempt, recordResult, hstatus, recordFilledResult,
            advanceToAcknowledged, tryTransitionTo_of_terminal h, Step.andThen, recordSubmission,
            hpersisted, recordAcknowledgment, hsubmitted, recordFill_refused hack hpart, returnedFor]
      | partiallyFilled =>
          refine ⟨addFill ts result.filledQuantity 0 m, ?_, rfl, by simp [bookedBy, hstatus]⟩
          simp [concludeAttempt, recordResult, hstatus, recordPartialFill,
            recordFill_refused hack hpart, returnedFor]
      | submitted =>
          refine ⟨m, ?_, rfl, by simp [bookedBy, hstatus]⟩
          simp [concludeAttempt, recordResult, hstatus, recordSubmission, hpersisted, returnedFor]
      | rejected | pending | cancelled | expired =>
          refine ⟨m, ?_, rfl, by simp [bookedBy, hstatus]⟩
          simp [concludeAttempt, recordResult, hstatus, tryTransitionTo_of_terminal h, returnedFor]

/-- The outcomes after which a new machine stays `VALIDATED`: its broker state is not one it can
reach from there, or the exception is not handled. -/
def leavesValidated : Except PyExc OrderResult → Bool
  | .ok result => decide (result.status ∈ [.partiallyFilled, .rejected, .submitted])
  | .error e => !e.caughtBy handledErrors

/-- Such an outcome only writes the totals of a partial fill. -/
theorem concludeAttempt_validated (hooks : Hooks σ) (ts : Time) {m : ExecutionStateMachine}
    (h : m.state = .validated) (now : Time) (request : OrderRequest)
    {outcome : Except PyExc OrderResult}
    (hleaves : leavesValidated outcome = true) (s : σ) :
    ∃ m', concludeAttempt hooks ts now request outcome m s = ⟨m', s, returnedFor now outcome⟩ ∧
      m'.state = .validated ∧ m'.filledQuantity = m.filledQuantity + bookedBy request outcome := by
  cases outcome with
  | error e =>
      have hno : e.caughtBy handledErrors = false := by simpa [leavesValidated] using hleaves
      refine ⟨m, ?_, h, by simp [bookedBy]⟩
      simp [concludeAttempt, recordRaised, returnedFor, hno]
  | ok result =>
      have hmem : result.status = .partiallyFilled ∨ result.status = .rejected ∨
          result.status = .submitted := by
        simpa [leavesValidated] using hleaves
      rcases hmem with hstatus | hstatus | hstatus
      · refine ⟨addFill ts result.filledQuantity 0 m, ?_, h, by simp [bookedBy, hstatus]⟩
        simp [concludeAttempt, recordResult, hstatus, recordPartialFill,
          recordFill_refused (show m.state ≠ .acknowledged by simp [h])
            (show m.state ≠ .partialFill by simp [h]), returnedFor]
      · have hnot : ¬ m.Allows .rejected := by simp [Allows, h, validTransitions]
        refine ⟨m, ?_, h, by simp [bookedBy, hstatus]⟩
        simp [concludeAttempt, recordResult, hstatus, tryTransitionTo_refused hnot, returnedFor]
      · refine ⟨m, ?_, h, by simp [bookedBy, hstatus]⟩
        simp [concludeAttempt, recordResult, hstatus, recordSubmission, h, returnedFor]

/-- The operation succeeded and left the machine in `st` with its quantities as they were. -/
def MovedTo (st : ExecutionState) (m : ExecutionStateMachine) (step : Step σ Bool) : Prop :=
  step.value = .ok true ∧ step.machine.state = st ∧
    step.machine.filledQuantity = m.filledQuantity ∧ step.machine.quantity = m.quantity

theorem movedTo_tryTransitionTo (ts : Time) (silent : Silent hooks) {m : ExecutionStateMachine}
    {new : ExecutionState} (h : m.Allows new) (s : σ) :
    MovedTo new m (tryTransitionTo hooks ts new m s) := by
  obtain ⟨s', hstep⟩ := tryTransitionTo_silent ts silent h s
  rw [hstep]
  exact ⟨rfl, rfl, rfl, rfl⟩

theorem movedTo_recordSubmission (silent : Silent hooks) {m : ExecutionStateMachine}
    (h : m.state = .persisted) (id : String) (s : σ) :
    MovedTo .submitted m (recordSubmission hooks ts id m s) := by
  have hallow : ({ m with brokerOrderId := some id, submittedAt := some ts } :
      ExecutionStateMachine).Allows .submitted := by
    simp [Allows, h, validTransitions]
  rw [recordSubmission, if_neg (not_not.mpr h)]
  exact movedTo_tryTransitionTo ts silent hallow s

theorem movedTo_recordAcknowledgment (silent : Silent hooks) {m : ExecutionStateMachine}
    (h : m.state = .submitted) (s : σ) :
    MovedTo .acknowledged m (recordAcknowledgment hooks ts m s) := by
  have hallow : ({ m with acknowledgedAt := some ts } : ExecutionStateMachine).Allows
      .acknowledged := by
    simp [Allows, h, validTransitions]
  rw [recordAcknowledgment, if_pos h]
  exact movedTo_tryTransitionTo ts silent hallow s

theorem MovedTo.andThen {st st' : ExecutionState} {m : ExecutionStateMachine} {step : Step σ Bool}
    {op : ExecutionStateMachine → σ → Step σ Bool} (moved : MovedTo st m step)
    (hop : ∀ m s, m.state = st → MovedTo st' m (op m s)) : MovedTo st' m (step.andThen op) := by
  obtain ⟨hvalue, hstate, hfilled, hquantity⟩ := moved
  obtain ⟨hvalue', hstate', hfilled', hquantity'⟩ := hop step.machine step.world hstate
  have hthen : step.andThen op = op step.machine step.world := by
    unfold Step.andThen
    rw [hvalue]
  rw [hthen]
  exact ⟨hvalue', hstate', hfilled'.trans hfilled, hquantity'.trans hquantity⟩

theorem movedTo_advanceToAcknowledged (ts : Time) (silent : Silent hooks) {m : ExecutionStateMachine}
    (h : m.state = .validated) (id : String) (s : σ) :
    MovedTo .acknowledged m (advanceToAcknowledged hooks ts id m s) := by
  have hallow : m.Allows .persisted := by simp [Allows, h, validTransitions]
  exact ((movedTo_tryTransitionTo ts silent hallow s).andThen
    fun m s hs => movedTo_recordSubmission silent hs id s).andThen
    fun m s hs => movedTo_recordAcknowledgment silent hs s

theorem recordFill_completes (ts : Time) (silent : Silent hooks) {m : ExecutionStateMachine}
    (h : m.state = .acknowledged) {q : Int} (hq : m.quantity ≤ q) (p : ℚ) (s : σ) :
    (recordFill hooks ts q p m s).value = .ok true ∧
      (recordFill hooks ts q p m s).machine.state = .filled ∧
      (recordFill hooks ts q p m s).machine.filledQuantity = m.filledQuantity + q := by
  have hallow : (addFill ts q p m).Allows .filled := by simp [Allows, h, validTransitions]
  rw [recordFill_acknowledged h, if_pos hq]
  obtain ⟨hvalue, hstate, hfilled, _⟩ := movedTo_tryTransitionTo ts silent hallow s
  exact ⟨hvalue, hstate, hfilled⟩

/-- A fill walks a new machine through the intermediate states to `FILLED`. -/
theorem concludeAttempt_filled (ts : Time) (silent : Silent hooks) {m : ExecutionStateMachine}
    (h : m.state = .validated) {request : OrderRequest} (hq : m.quantity ≤ request.lotSize)
    {result : OrderResult} (hstatus : result.status = .filled) (now : Time) (s : σ) :
    let step := concludeAttempt hooks ts now request (.ok result) m s
    step.value = .ok result ∧ step.machine.state = .filled ∧
      step.machine.filledQuantity = m.filledQuantity + request.lotSize ∧
      step.world = (recordFilledResult hooks ts request result m s).world := by
  obtain ⟨hvalue, hstate, hfilled, hquantity⟩ := movedTo_advanceToAcknowledged ts silent h
    (orElse result.brokerOrderId (orElse (some result.orderId) m.clientOrderId)) s
  have hrecorded := recordFill_completes ts silent hstate
    (hquantity.trans_le hq) request.strikePrice (advanceToAcknowledged hooks ts
      (orElse result.brokerOrderId (orElse (some result.orderId) m.clientOrderId)) m s).world
  have hresult : recordFilledResult hooks ts request result m s =
      recordFill hooks ts request.lotSize request.strikePrice
        (advanceToAcknowledged hooks ts
          (orElse result.brokerOrderId (orElse (some result.orderId) m.clientOrderId)) m s).machine
        (advanceToAcknowledged hooks ts
          (orElse result.brokerOrderId (orElse (some result.orderId) m.clientOrderId)) m s).world := by
    simp [recordFilledResult, hvalue]
  rw [← hresult, hfilled] at hrecorded
  simp [concludeAttempt, recordResult, hstatus, hrecorded]

/-- Any other outcome that does not leave the machine `VALIDATED` fails it. -/
theorem concludeAttempt_failed (ts : Time) (silent : Silent hooks) {m : ExecutionStateMachine}
    (h : m.state = .validated) (now : Time) (request : OrderRequest)
    {outcome : Except PyExc OrderResult} (hleaves : leavesValidated outcome = false)
    (hfilled : ∀ result, outcome = .ok result → result.status ≠ .filled) (s : σ) :
    let step := concludeAttempt hooks ts now request outcome m s
    step.value = returnedFor now outcome ∧
      step.machine = (tryTransitionTo hooks ts .failed m s).machine ∧
      step.machine.state = .failed ∧ step.machine.filledQuantity = m.filledQuantity ∧
      step.world = (tryTransitionTo hooks ts .failed m s).world := by
  have hallow : m.Allows .failed := by simp [Allows, h, validTransitions]
  obtain ⟨hvalue, hstate, hqty, _⟩ := movedTo_tryTransitionTo ts silent hallow s
  cases outcome with
  | error e =>
      have hcaught : e.caughtBy handledErrors = true := by simpa [leavesValidated] using hleaves
      simp [concludeAttempt, recordRaised, returnedFor, hcaught, hvalue, hstate, hqty, Except.map]
  | ok result =>
      have hne := hfilled result rfl
      have hrecorded : recordResult hooks ts request result m s =
          tryTransitionTo hooks ts .failed m s := by
        cases hstatus : result.status <;> simp_all [recordResult, leavesValidated]
      simp [concludeAttempt, hrecorded, hvalue, hstate, hqty, returnedFor]

end AutoTrade.Execution
