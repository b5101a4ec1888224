import AutoTrade.Runtime

/-! # The deterministic execution state machine

`core/execution/deterministic_state_machine.py`: the transition table, one
machine per order, and the operations that drive it. A machine calls out twice
when it moves: to its persistence callback and to the transition log. Both act
on a world of arbitrary type, so the machine is modelled once for every
callback, including callbacks that raise.
-/

namespace AutoTrade.Execution

inductive ExecutionState
  | init
  | pendingSubmission
  | validated
  | persisted
  | submitted
  | acknowledged
  | partialFill
  | filled
  | rejected
  | cancelPending
  | cancelled
  | failed
  | unknown
  | reconciling
deriving DecidableEq, Repr

def ExecutionState.value : ExecutionState → String
  | .init => "INIT"
  | .pendingSubmission => "PENDING_SUBMISSION"
  | .validated => "VALIDATED"
  | .persisted => "PERSISTED"
  | .submitted => "SUBMITTED"
  | .acknowledged => "ACKNOWLEDGED"
  | .partialFill => "PARTIAL_FILL"
  | .filled => "FILLED"
  | .rejected => "REJECTED"
  | .cancelPending => "CANCEL_PENDING"
  | .cancelled => "CANCELLED"
  | .failed => "FAILED"
  | .unknown => "UNKNOWN"
  | .reconciling => "RECONCILING"

inductive TransitionResult
  | success
  | invalidTransition
  | alreadyInState
  | persistenceFailed
deriving DecidableEq, Repr

/-- `VALID_TRANSITIONS`. -/
def validTransitions : ExecutionState → List ExecutionState
  | .init => [.validated, .failed]
  | .pendingSubmission => [.validated, .failed, .unknown]
  | .validated => [.persisted, .failed]
  | .persisted => [.submitted, .failed]
  | .submitted => [.acknowledged, .rejected, .failed, .unknown]
  | .acknowledged => [.partialFill, .filled, .cancelPending, .failed, .unknown]
  | .partialFill => [.partialFill, .filled, .cancelPending, .failed, .unknown]
  | .cancelPending => [.cancelled, .filled, .failed]
  | .filled => []
  | .rejected => []
  | .cancelled => []
  | .failed => []
  | .unknown => [.reconciling]
  | .reconciling => [.filled, .cancelled, .failed, .unknown]

/-- The states whose entry `validate_transition` hands to the persistence callback. -/
def persistedStates : List ExecutionState :=
  [.persisted, .submitted, .acknowledged, .filled, .failed]

/-- The states `is_terminal` lists. -/
def terminalStates : List ExecutionState := [.filled, .rejected, .cancelled, .failed]

structure ExecutionStateMachine where
  intentId : String
  clientOrderId : String
  symbol : String
  quantity : Int
  price : ℚ
  direction : String
  state : ExecutionState := .init
  brokerOrderId : Option String := none
  filledQuantity : Int := 0
  averagePrice : ℚ := 0
  errorMessage : Option String := none
  createdAt : Time
  updatedAt : Time
  submittedAt : Option Time := none
  acknowledgedAt : Option Time := none
  filledAt : Option Time := none
  /-- Whether `_persistence_callback` is set. -/
  persistenceCallback : Bool := false
deriving DecidableEq, Repr

/-- What a machine calls while it moves: the persistence callback, which may
raise, and the log line written after a successful transition. -/
structure Hooks (σ : Type) where
  persist : ExecutionStateMachine → σ → Except PyExc Unit × σ
  transitioned : ExecutionState → ExecutionStateMachine → σ → σ

/-- The machine and the world after an operation, with what it returned or raised. -/
structure Step (σ α : Type) where
  machine : ExecutionStateMachine
  world : σ
  value : Except PyExc α

/-- The next statement of a block, reached unless the previous one raised. -/
def Step.andThen {σ α β : Type} (step : Step σ α) (op : ExecutionStateMachine → σ → Step σ β) :
    Step σ β :=
  match step.value with
  | .ok _ => op step.machine step.world
  | .error e => ⟨step.machine, step.world, .error e⟩

namespace ExecutionStateMachine

variable {σ : Type} (hooks : Hooks σ) (ts : Time)

/-- The classes `validate_transition` treats as a failure to persist. -/
def persistenceErrors : List ExcClass :=
  [.keyError, .valueError, .typeError, .osError, .runtimeError]

/-- The end of `validate_transition`: the new state stands, the time is noted and the
transition is logged. -/
def succeedTransition (m : ExecutionStateMachine) (new : ExecutionState) (s : σ) :
    Step σ (TransitionResult × String) :=
  let moved := { m with state := new, updatedAt := ts }
  ⟨moved, hooks.transitioned m.state moved s,
    .ok (.success, "Transitioned to " ++ new.value)⟩

def validateTransition (new : ExecutionState) (m : ExecutionStateMachine) (s : σ) :
    Step σ (TransitionResult × String) :=
  if new = m.state then
    ⟨m, s, .ok (.alreadyInState, "Already in state " ++ m.state.value)⟩
  else if new ∉ validTransitions m.state then
    ⟨m, s, .ok (.invalidTransition,
      "Cannot transition from " ++ m.state.value ++ " to " ++ new.value)⟩
  else if m.persistenceCallback ∧ new ∈ persistedStates then
    -- the callback already sees the new state; a listed exception reverts it
    match hooks.persist { m with state := new } s with
    | (.ok _, s') => succeedTransition hooks ts m new s'
    | (.error e, s') =>
        if e.caughtBy persistenceErrors then
          ⟨m, s', .ok (.persistenceFailed, "Critical: " ++ e.message)⟩
        else ⟨{ m with state := new }, s', .error e⟩
  else succeedTransition hooks ts m new s

def tryTransitionTo (new : ExecutionState) (m : ExecutionStateMachine) (s : σ) : Step σ Bool :=
  let step := validateTransition hooks ts new m s
  ⟨step.machine, step.world, step.value.map fun r => decide (r.1 = .success)⟩

def recordSubmission (brokerOrderId : String) (m : ExecutionStateMachine) (s : σ) : Step σ Bool :=
  if m.state ≠ .persisted then ⟨m, s, .ok false⟩
  else
    tryTransitionTo hooks ts .submitted
      { m with brokerOrderId := some brokerOrderId, submittedAt := some ts } s

def recordAcknowledgment (m : ExecutionStateMachine) (s : σ) : Step σ Bool :=
  if m.state = .submitted then
    tryTransitionTo hooks ts .acknowledged { m with acknowledgedAt := some ts } s
  else ⟨m, s, .ok false⟩

/-- The totals `record_fill` writes before it looks at the state. -/
def addFill (filledQty : Int) (price : ℚ) (m : ExecutionStateMachine) : ExecutionStateMachine :=
  let totalValue := m.averagePrice * m.filledQuantity + price * filledQty
  let newTotalQty := m.filledQuantity + filledQty
  { m with
    averagePrice := if newTotalQty > 0 then totalValue / newTotalQty else 0
    filledQuantity := newTotalQty
    filledAt := some ts }

def recordFill (filledQty : Int) (price : ℚ) (m : ExecutionStateMachine) (s : σ) : Step σ Bool :=
  let m := addFill ts filledQty price m
  if m.state = .acknowledged then
    -- the last fill is compared here, the accumulated one below
    if filledQty ≥ m.quantity then tryTransitionTo hooks ts .filled m s
    else tryTransitionTo hooks ts .partialFill m s
  else if m.state = .partialFill then
    if m.filledQuantity ≥ m.quantity then tryTransitionTo hooks ts .filled m s
    else ⟨m, s, .ok true⟩
  else ⟨m, s, .ok false⟩

def recordPartialFill (filledQty : Int) (price : ℚ) (m : ExecutionStateMachine) (s : σ) :
    Step σ Bool :=
  recordFill hooks ts filledQty price m s

def recordRejection (reason : String) (m : ExecutionStateMachine) (s : σ) : Step σ Bool :=
  let m := { m with errorMessage := some reason }
  if m.state = .submitted then tryTransitionTo hooks ts .rejected m s else ⟨m, s, .ok false⟩

def recordFailure (reason : String) (m : ExecutionStateMachine) (s : σ) : Step σ Bool :=
  tryTransitionTo hooks ts .failed { m with errorMessage := some reason } s

def canRetry (m : ExecutionStateMachine) : Bool := decide (m.state ∈ [.failed, .rejected])

def isTerminal (m : ExecutionStateMachine) : Bool := decide (m.state ∈ terminalStates)

def isSubmitted (m : ExecutionStateMachine) : Bool :=
  decide (m.state ∈ [.submitted, .acknowledged, .partialFill])

end ExecutionStateMachine

end AutoTrade.Execution
