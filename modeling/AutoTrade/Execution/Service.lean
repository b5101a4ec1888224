import AutoTrade.Execution.Lifecycle
import AutoTrade.Execution.Idempotency
import AutoTrade.Wal.Journal

/-! # The execution service

`core/services/execution_service.py`: `execute_order` with its gates, records
and machine, and the periodic jobs around it. The state holds everything these
operations read or write. Two of its components are history and influence
nothing: the transitions that succeeded and the placements at the broker.
-/

namespace AutoTrade.Execution

open AutoTrade.Library AutoTrade.Wal ExecutionStateMachine

/-! ## Operating modes -/

inductive OperatingMode
  | signalOnly
  | backtest
  | paper
  | shadow
  | liveManualConfirm
  | fullAuto
deriving DecidableEq, Repr

/-- `OperatingModeManager.allows_execution`. -/
def OperatingMode.allowsExecution : OperatingMode → Bool × String
  | .signalOnly => (false, "SIGNAL_ONLY: Signal generation only, no execution")
  | .backtest => (false, "BACKTEST: Historical simulation, no live execution")
  | .paper => (true, "PAPER: Paper execution allowed")
  | .shadow => (true, "SHADOW: Shadow execution allowed (no real orders)")
  | .liveManualConfirm => (true, "LIVE_MANUAL_CONFIRM: Requires manual approval")
  | .fullAuto => (true, "FULL_AUTO: Full auto execution")

/-! ## The records machines write to -/

/-- A transition that succeeded, with the durable store as it was right afterwards. -/
structure TransitionEvent where
  machine : ExecutionStateMachine
  store : DurableExecutionStore

/-- The durable store and the successful transitions, the newest first. -/
structure Records where
  store : DurableExecutionStore
  transitions : List TransitionEvent := []

def Records.write (records : Records) (store : DurableExecutionStore) : Records :=
  { records with store := store }

/-- `state_map` of `_persistence_callback`. -/
def durableState : ExecutionState → DurableExecState
  | .validated => .pending
  | .persisted => .pending
  | .submitted => .submitted
  | .acknowledged => .submitted
  | .partialFill => .partiallyFilled
  | .filled => .filled
  | .rejected => .rejected
  | .failed => .failed
  | .cancelled => .cancelled
  | _ => .unknown

/-- `_persistence_callback`: it updates the row of the machine's intent and never raises. -/
def serviceHooks (now : Time) : Hooks Records where
  persist m records :=
    (.ok (), records.write (records.store.updateState now m.intentId (durableState m.state)
      m.brokerOrderId m.filledQuantity m.averagePrice m.errorMessage))
  transitioned _ m records :=
    { records with transitions := ⟨m, records.store⟩ :: records.transitions }

/-! ## Driving the machine of an order -/

section Drive

variable {σ : Type} (hooks : Hooks σ) (ts : Time)

/-- The walk to `ACKNOWLEDGED` before a fill is booked. -/
def advanceToAcknowledged (brokerId : String) (m : ExecutionStateMachine) (s : σ) : Step σ Bool :=
  ((tryTransitionTo hooks ts .persisted m s).andThen (recordSubmission hooks ts brokerId)).andThen
    (recordAcknowledgment hooks ts)

/-- The `FILLED` branch of `_execute_with_retries`: a few exceptions of the walk are passed over, and
the requested lot is booked at the strike price. -/
def recordFilledResult (request : OrderRequest) (result : OrderResult) (m : ExecutionStateMachine)
    (s : σ) : Step σ Bool :=
  let brokerId := orElse result.brokerOrderId (orElse (some result.orderId) m.clientOrderId)
  let advanced := advanceToAcknowledged hooks ts brokerId m s
  let fill := recordFill hooks ts request.lotSize request.strikePrice advanced.machine advanced.world
  match advanced.value with
  | .ok _ => fill
  | .error e =>
      if e.caughtBy [.valueError, .typeError, .attributeError] then fill
      else ⟨advanced.machine, advanced.world, .error e⟩

/-- The transitions `_execute_with_retries` records for a result. A partial fill is booked at the
price 0: the attribute it reads is not one of `OrderResult`. -/
def recordResult (request : OrderRequest) (result : OrderResult) (m : ExecutionStateMachine)
    (s : σ) : Step σ Bool :=
  match result.status with
  | .filled => recordFilledResult hooks ts request result m s
  | .partiallyFilled => recordPartialFill hooks ts result.filledQuantity 0 m s
  | .rejected => tryTransitionTo hooks ts .rejected m s
  | .submitted => recordSubmission hooks ts (orElse (some result.orderId) "unknown") m s
  | _ => tryTransitionTo hooks ts .failed m s

/-- The classes both `execute_order` and `_execute_with_retries` handle. -/
def handledErrors : List ExcClass := [.persistenceError, .valueError, .osError, .attributeError]

/-- The `except` clause of `_execute_with_retries`. -/
def recordRaised (now : Time) (e : PyExc) (m : ExecutionStateMachine) (s : σ) :
    Step σ OrderResult :=
  if e.caughtBy handledErrors then
    let failed := tryTransitionTo hooks ts .failed m s
    ⟨failed.machine, failed.world, failed.value.map fun _ =>
      { orderId := "execution_failed", status := .rejected, timestamp := now
        rejectReason := some ("Execution failed: " ++ e.message) }⟩
  else ⟨m, s, .error e⟩

/-- What follows the attempt: the result is recorded and returned. -/
def concludeAttempt (now : Time) (request : OrderRequest) (outcome : Except PyExc OrderResult)
    (m : ExecutionStateMachine) (s : σ) : Step σ OrderResult :=
  match outcome with
  | .error e => recordRaised hooks ts now e m s
  | .ok result =>
      let recorded := recordResult hooks ts request result m s
      match recorded.value with
      | .ok _ => ⟨recorded.machine, recorded.world, .ok result⟩
      | .error e => recordRaised hooks ts now e recorded.machine recorded.world

end Drive

/-! ## The service -/

/-- The parameters of a journalled intent. -/
structure OrderParams where
  symbol : String
  direction : String
  qty : Int
  strike : ℚ
  orderType : String
deriving DecidableEq, Repr

/-- One call of `place_order`, with the status the broker answered it with. -/
structure Placement where
  key : String
  time : Time
  answer : Option OrderStatus
deriving DecidableEq, Repr

structure ExecutionService where
  clock : Time
  executionCounter : Nat := 0
  manager : ExecutionStateMachineManager
  records : Records
  idempotency : IdempotencyManager OrderResult
  journal : Option (WriteAheadJournal OrderParams)
  placements : List Placement := []

/-- One call of `execute_order`: its arguments, the flags it reads, the answers it gets
and how long the attempt takes. -/
structure OrderCall where
  request : OrderRequest
  context : Option ExecutionContext := none
  mode : Option OperatingMode := none
  hardHalted : Bool := false
  answers : BrokerAnswers
  latency : Nat := 0

namespace ExecutionService

variable (setup : Setup) (call : OrderCall)

/-- The message of the operating mode that blocks the call. -/
def blockedBy (call : OrderCall) : Option String :=
  match call.mode with
  | none => none
  | some mode => if mode.allowsExecution.1 then none else some mode.allowsExecution.2

/-- The given context, or a default one made at the time of the call. -/
def contextOf (s : ExecutionService) : ExecutionContext :=
  call.context.getD { signalTimestamp := s.clock }

/-- The idempotency key the call runs under. -/
def keyOf (s : ExecutionService) : String := call.request.key setup.platform (contextOf call s)

def intentOf : String := call.request.intentId setup.platform

def rejection (now : Time) (orderId reason : String) : OrderResult :=
  { orderId, status := .rejected, timestamp := now, rejectReason := some reason }

/-- The service after the counter was advanced and the intent appended to the journal. -/
def openIntent (s : ExecutionService) : ExecutionService :=
  { s with
    executionCounter := s.executionCounter + 1
    journal := s.journal.map fun journal => journal.append s.clock
      { intentId := intentOf setup call
        action := "place_order"
        params :=
          { symbol := call.request.symbol
            direction := call.request.direction
            qty := call.request.lotSize
            strike := call.request.strikePrice
            orderType := call.request.orderType.value } } }

def failIntent (reason : String) (s : ExecutionService) : ExecutionService :=
  { s with journal := s.journal.map fun journal =>
      journal.fail s.clock (intentOf setup call) reason }

def commitIntent (s : ExecutionService) : ExecutionService :=
  { s with journal := s.journal.map fun journal => journal.commit s.clock (intentOf setup call) }

/-- The duplicate branch, on the service that already opened the intent. -/
def answerDuplicate (s : ExecutionService) : ExecutionService × OrderResult :=
  let key := keyOf setup call s
  let s := { s with idempotency := (s.idempotency.isDuplicate s.clock key).2 }
  let s := failIntent setup call "Duplicate order detected" s
  let (cached, idempotency) := s.idempotency.getResult s.clock key
  ({ s with idempotency },
    cached.getD (rejection s.clock "duplicate" "Duplicate order detected"))

/-- `exec_{counter}_{int(time.time())}`. -/
def executionId (counter : Nat) (now : Time) : String :=
  "exec_" ++ toString counter ++ "_" ++ toString (epochSeconds now)

def pendingRecord (counter : Nat) (now : Time) : DurableExecutionRecord :=
  { intentId := intentOf setup call
    clientOrderId := executionId counter now
    symbol := call.request.symbol
    direction := call.request.direction
    quantity := call.request.lotSize
    strikePrice := call.request.strikePrice
    state := .pending
    createdAt := now
    updatedAt := now }

/-- The durable row is saved and the key marked in flight. The counter has moved on since the
execution id was built. -/
def saveAndMark (s : ExecutionService) : ExecutionService :=
  { s with
    records := s.records.write (s.records.store.saveExecution
      (pendingRecord setup call (s.executionCounter - 1) s.clock))
    idempotency := s.idempotency.markInFlight s.clock (keyOf setup call s) }

/-- The intent id `_execute_with_retries` derives, which names the machine. -/
def machineIntent (s : ExecutionService) : String :=
  orElse (some (keyOf setup call s)) (intentOf setup call)

/-- `create_or_get` as `_execute_with_retries` calls it. -/
def createMachine (s : ExecutionService) :
    ExecutionStateMachine × Bool × ExecutionStateMachineManager :=
  s.manager.createOrGet (formatTs s.clock) (machineIntent setup call s)
    call.request.symbol call.request.lotSize call.request.strikePrice call.request.direction

/-- The attempt of a call, made when the machine is validated. -/
def attemptOf (s : ExecutionService) : Attempt :=
  attemptOrderExecution setup (s.clock + call.latency) call.request (contextOf call s) call.answers

/-- The call is not stopped before its attempt: no hard halt, and no machine still in progress. -/
def proceeds (s : ExecutionService) : Bool :=
  !call.hardHalted &&
    ((createMachine setup call s).2.1 || (createMachine setup call s).1.isTerminal)

/-- The machine's part of a call that proceeds: it is validated, the attempt is made and its
outcome recorded. -/
def driveMachine (s : ExecutionService) : Step Records OrderResult :=
  let validated := tryTransitionTo (serviceHooks s.clock) (formatTs s.clock) .validated
    (createMachine setup call s).1 s.records
  let later := s.clock + call.latency
  concludeAttempt (serviceHooks later) (formatTs later) later call.request
    (attemptOf setup call s).outcome validated.machine validated.world

/-- `_execute_with_retries`. -/
def executeWithRetries (s : ExecutionService) : ExecutionService × Except PyExc OrderResult :=
  let (machine, isNew, manager) := createMachine setup call s
  if call.hardHalted then (s, .ok (rejection s.clock "" "Hard halt active"))
  else if ¬ isNew ∧ ¬ machine.isTerminal then
    ({ s with manager }, .ok (rejection s.clock machine.clientOrderId
      ("Duplicate order blocked - order already in " ++ machine.state.value ++ " state")))
  else
    let attempt := attemptOf setup call s
    let driven := driveMachine setup call s
    ({ s with
        clock := s.clock + call.latency
        manager := manager.put
          (ExecutionStateMachineManager.generateClientOrderId (machineIntent setup call s))
          driven.machine
        records := driven.world
        placements := if attempt.placed then
            s.placements ++ [⟨keyOf setup call s, s.clock, attempt.answer⟩]
          else s.placements },
      driven.value)

/-- What `execute_order` does with a fill, under the key the call ran under. -/
def settleFill (key : String) (result : OrderResult) (s : ExecutionService) : ExecutionService :=
  let s := commitIntent setup call s
  { s with
    idempotency := s.idempotency.confirmExecution s.clock key result
    records := s.records.write (s.records.store.updateState s.clock (intentOf setup call)
      (if result.status = .filled then .filled else .partiallyFilled)
      result.brokerOrderId result.filledQuantity result.averagePrice) }

/-- What `execute_order` does with any other result. -/
def settleFailure (result : OrderResult) (s : ExecutionService) : ExecutionService :=
  let s := failIntent setup call (orElse result.rejectReason "Order rejected") s
  { s with
    records := s.records.write (s.records.store.updateState s.clock (intentOf setup call)
      (if result.status = .rejected then .rejected else .failed) none 0 0 result.rejectReason) }

/-- The `except` clause of `execute_order`. -/
def settleRaised (key : String) (e : PyExc) (s : ExecutionService) :
    ExecutionService × Except PyExc OrderResult :=
  if e.caughtBy handledErrors then
    let s := failIntent setup call e.message s
    ({ s with
        idempotency := s.idempotency.clearInFlight key
        records := s.records.write (s.records.store.clearInFlight s.clock (intentOf setup call)) },
      .ok (rejection s.clock "error" ("Execution service error: " ++ e.message)))
  else (s, .error e)

def isFill (result : OrderResult) : Bool := decide (result.status ∈ [.filled, .partiallyFilled])

/-- What `execute_order` does once `_execute_with_retries` has returned or raised. -/
def settle (key : String) (out : ExecutionService × Except PyExc OrderResult) :
    ExecutionService × Except PyExc OrderResult :=
  match out.2 with
  | .ok result =>
      (if isFill result then settleFill setup call key result out.1
        else settleFailure setup call result out.1, .ok result)
  | .error e => settleRaised setup call key e out.1

/-- The call after the duplicate check: the records are written, the attempt made and settled. -/
def submit (s : ExecutionService) : ExecutionService × Except PyExc OrderResult :=
  settle setup call (keyOf setup call s)
    (executeWithRetries setup call (saveAndMark setup call s))

/-- `is_duplicate`, consulted only when duplicate prevention is enabled. -/
def isDuplicateCall (s : ExecutionService) : Bool :=
  setup.enableDuplicatePrevention && (s.idempotency.isDuplicate s.clock (keyOf setup call s)).1

/-- The expired entries `is_duplicate` drops, when it is consulted. -/
def checkDuplicate (s : ExecutionService) : ExecutionService :=
  if setup.enableDuplicatePrevention then
    { s with idempotency := (s.idempotency.isDuplicate s.clock (keyOf setup call s)).2 }
  else s

def executeOrder (s : ExecutionService) : ExecutionService × Except PyExc OrderResult :=
  match blockedBy call with
  | some message => (s, .ok (rejection s.clock "blocked" ("BLOCKED_" ++ message)))
  | none =>
      let opened := openIntent setup call s
      if isDuplicateCall setup call opened then
        let (s, result) := answerDuplicate setup call opened
        (s, .ok result)
      else submit setup call (checkDuplicate setup call opened)

end ExecutionService

/-! ## Runs -/

inductive ServiceStep
  | executeOrder (call : OrderCall)
  | runAckWatchdog (answers : LifecycleAnswers) (maxAckAgeSeconds : ℚ)
  | runStaleOrderTimeout (answers : LifecycleAnswers) (maxStaleSeconds : ℚ)
  | recordBrokerQueryResult (query : ExecutionStateMachineManager.BrokerQuery)
  | advance (elapsed : Nat)

namespace ExecutionService

/-- The service after one operation, whether it returned or raised. -/
def step (setup : Setup) (s : ExecutionService) : ServiceStep → ExecutionService
  | .executeOrder call => (executeOrder setup call s).1
  | .runAckWatchdog answers maxAge =>
      let job := (runAckWatchdog (serviceHooks s.clock) s.clock answers maxAge s.manager s.records).1
      { s with manager := job.manager, records := job.world }
  | .runStaleOrderTimeout answers maxStale =>
      let job := (runStaleOrderTimeout (serviceHooks s.clock) s.clock setup.port answers maxStale
        s.manager s.records).1
      { s with manager := job.manager, records := job.world }
  | .recordBrokerQueryResult query =>
      let (manager, records, _) := ExecutionStateMachineManager.recordBrokerQueryResult
        (serviceHooks s.clock) (formatTs s.clock) query s.manager s.records
      { s with manager, records }
  | .advance elapsed => { s with clock := s.clock + elapsed }

/-- A service right after start-up: no machine yet, nothing in flight, no history. The stores and
the confirmed cache may hold what earlier processes left. -/
structure Fresh (s : ExecutionService) : Prop where
  manager : s.manager = { persistenceCallback := true }
  inFlight : s.idempotency.inFlight = Table.empty
  transitions : s.records.transitions = []
  placements : s.placements = []

/-! ## A sample service -/

/-- Whole prices print as Python prints them; the digest is a fixed one. -/
def samplePlatform : Platform where
  floatStr q := toString q.num ++ ".0"
  isoformat t := toString t
  sha256Hex _ := String.ofList (List.replicate 64 'a')
  sha256Hex_length _ := by decide +kernel

def sampleSetup : Setup := { platform := samplePlatform }

def sampleRequest : OrderRequest :=
  { symbol := "NIFTY", direction := "BUY", strikePrice := 22500, lotSize := 50
    orderType := .market, idempotencyKey := some "signal-1" }

/-- The request under a key that spells its own intent id. -/
def selfKeyedRequest : OrderRequest :=
  { sampleRequest with idempotencyKey := some "NIFTY_BUY_22500.0_50" }

/-- A broker that hands back this result. -/
def answering (result : OrderResult) : BrokerAnswers where
  paperTrader := .error ⟨.other, ""⟩
  placeOrder := .ok (.orderResult result)
  routeToBest := .error ⟨.other, ""⟩

def sampleResult (status : OrderStatus) (filledQuantity : Int) : OrderResult :=
  { orderId := "B-7", status, filledQuantity, averagePrice := 22500, timestamp := 0
    brokerOrderId := some "B-7" }

def sampleCall (request : OrderRequest) (status : OrderStatus) (filledQuantity : Int) : OrderCall :=
  { request, answers := answering (sampleResult status filledQuantity) }

/-- A service that has just started at noon of some day. -/
def freshService : ExecutionService :=
  { clock := 12 * hour
    manager := { persistenceCallback := true }
    records := { store := Table.empty }
    idempotency := {}
    journal := some WriteAheadJournal.empty }

theorem freshService_fresh : freshService.Fresh := ⟨rfl, rfl, rfl, rfl⟩

end ExecutionService

end AutoTrade.Execution
