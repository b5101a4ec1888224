import AutoTrade.Runtime

/-! # Orders and one attempt at the broker

The records of `core/ports/execution/execution_port.py`, the acknowledgment
check of `broker_ack_validator.py`, the key of `idempotency_engine.py` and
`ExecutionService._attempt_order_execution`. What the broker, the smart router
and the paper trader answer during an attempt is a value of its own, so that
every answer can be quantified over.
-/

namespace AutoTrade.Execution

inductive OrderType
  | market
  | limit
  | stopLoss
  | stopLossMarket
deriving DecidableEq, Repr

def OrderType.value : OrderType → String
  | .market => "MARKET"
  | .limit => "LIMIT"
  | .stopLoss => "SL"
  | .stopLossMarket => "SL-M"

inductive OrderStatus
  | pending
  | submitted
  | partiallyFilled
  | filled
  | cancelled
  | rejected
  | expired
deriving DecidableEq, Repr

inductive ExecutionMode
  | manual
  | automatic
  | paper
deriving DecidableEq, Repr

structure OrderRequest where
  symbol : String
  direction : String
  strikePrice : ℚ
  lotSize : Int
  orderType : OrderType
  price : Option ℚ := none
  stopLoss : Option ℚ := none
  target : Option ℚ := none
  strategyId : String := ""
  idempotencyKey : Option String := none
deriving DecidableEq, Repr

structure OrderResult where
  orderId : String
  status : OrderStatus
  filledQuantity : Int := 0
  averagePrice : ℚ := 0
  commission : ℚ := 0
  timestamp : Time
  rejectReason : Option String := none
  brokerOrderId : Option String := none
  brokerTimestamp : Option Time := none
deriving DecidableEq, Repr

structure ExecutionContext where
  signalId : String := ""
  signalTimestamp : Time
  executionMode : ExecutionMode := .automatic
deriving DecidableEq, Repr

/-- The texts the program takes from the platform. -/
structure Platform where
  /-- `str` of a float. -/
  floatStr : ℚ → String
  isoformat : Time → String
  /-- `hashlib.sha256(text.encode()).hexdigest()`. -/
  sha256Hex : String → String
  sha256Hex_length : ∀ text, (sha256Hex text).length = 64

/-! ## Keys -/

/-- The text under which the durable store and the journal file an order. -/
def intentText (platform : Platform) (symbol direction : String) (strikePrice : ℚ) (lotSize : Int) :
    String :=
  symbol ++ "_" ++ direction ++ "_" ++ platform.floatStr strikePrice ++ "_" ++ toString lotSize

def OrderRequest.intentId (platform : Platform) (request : OrderRequest) : String :=
  intentText platform request.symbol request.direction request.strikePrice request.lotSize

/-- `key_data` of `generate_key` in sorted order; an absent value is dropped. -/
def keyData (platform : Platform) (request : OrderRequest) (context : ExecutionContext) :
    List (String × String) :=
  [("direction", some request.direction),
    ("lot_size", some (toString request.lotSize)),
    ("order_type", some request.orderType.value),
    ("price", request.price.map platform.floatStr),
    ("signal_id", some context.signalId),
    ("stop_loss", request.stopLoss.map platform.floatStr),
    ("strategy_id", some request.strategyId),
    ("strike_price", some (platform.floatStr request.strikePrice)),
    ("symbol", some request.symbol),
    ("target", request.target.map platform.floatStr),
    ("timestamp", some (platform.isoformat context.signalTimestamp))].filterMap
      fun (name, value) => value.map fun v => (name, v)

/-- `IdempotencyEngine.generate_key`. -/
def generateKey (platform : Platform) (request : OrderRequest) (context : ExecutionContext) :
    String :=
  let keyString := "&".intercalate ((keyData platform request context).map fun (k, v) =>
    k ++ "=" ++ v)
  String.ofList ((platform.sha256Hex keyString).toList.take 32)

/-- The key the order runs under: the caller's, or a generated one. -/
def OrderRequest.key (platform : Platform) (request : OrderRequest) (context : ExecutionContext) :
    String :=
  orElse request.idempotencyKey (generateKey platform request context)

theorem generateKey_ne_empty (platform : Platform) (request : OrderRequest)
    (context : ExecutionContext) : generateKey platform request context ≠ "" := by
  intro h
  have hlist := congrArg String.toList h
  simp only [generateKey, String.toList_ofList, String.toList_empty, List.take_eq_nil_iff] at hlist
  rcases hlist with hzero | hnil
  · cases hzero
  · have hlength := platform.sha256Hex_length ("&".intercalate
      ((keyData platform request context).map fun (k, v) => k ++ "=" ++ v))
    rw [← String.length_toList, hnil] at hlength
    cases hlength

theorem OrderRequest.key_ne_empty (platform : Platform) (request : OrderRequest)
    (context : ExecutionContext) : request.key platform context ≠ "" := by
  unfold key orElse
  split
  · rename_i htruthy
    cases hkey : request.idempotencyKey with
    | none => simp [truthy, hkey] at htruthy
    | some k =>
        simp only [truthy, hkey, Option.any_some, decide_eq_true_eq] at htruthy
        exact htruthy
  · exact generateKey_ne_empty platform request context

/-! ## Broker acknowledgments -/

/-- `str.isspace` on one character. -/
def isSpace (c : Char) : Bool :=
  let n := c.toNat
  decide ((9 ≤ n ∧ n ≤ 13) ∨ (28 ≤ n ∧ n ≤ 32) ∨ n = 0x85 ∨ n = 0xa0 ∨ n = 0x1680 ∨
    (0x2000 ≤ n ∧ n ≤ 0x200a) ∨ n = 0x2028 ∨ n = 0x2029 ∨ n = 0x202f ∨ n = 0x205f ∨ n = 0x3000)

/-- `validate_order_result`: the error message of an acknowledgment that is refused. The status of an
`OrderResult` is always accepted. -/
def validateOrderResult (platform : Platform) (result : OrderResult) : Option String :=
  if result.orderId.toList.all isSpace then some "order_id is empty"
  else if result.averagePrice < 0 then
    some ("negative fill price: " ++ platform.floatStr result.averagePrice)
  else if result.filledQuantity < 0 then
    some ("negative quantity: " ++ toString result.filledQuantity)
  else none

def validateBrokerResult (platform : Platform) (now : Time) (result : OrderResult) : OrderResult :=
  match validateOrderResult platform result with
  | none => result
  | some message =>
      { orderId := orElse (some result.orderId) "validation_failed"
        status := .rejected
        rejectReason := some ("Broker ACK validation failed: " ++ message)
        timestamp := now }

/-! ## One attempt -/

/-- What `place_order` hands back: a result, an order id, or a value of another type. -/
inductive PlaceReturn
  | orderResult (result : OrderResult)
  | orderId (id : String)
  | unexpected (typeText : String)
deriving DecidableEq, Repr

/-- `RouteResult`, with whether an adapter's `place_order` was called on the way to it. -/
structure RouteResult where
  success : Bool
  orderId : PlaceReturn
  error : String := ""
  invoked : Bool
deriving DecidableEq, Repr

/-- Everything outside the service that answers during one attempt. An optional
method that the active broker lacks is `none`. -/
structure BrokerAnswers where
  paperTrader : Except PyExc OrderResult
  placeOrder : Except PyExc PlaceReturn
  routeToBest : Except PyExc RouteResult
  getFilledQuantity : Option (Except PyExc Int) := none
  getFillPrice : Option (Except PyExc ℚ) := none
  /-- The charges in the order details, if the broker knows any. -/
  getOrderDetails : Option (Except PyExc (Option ℚ)) := none

structure BrokerPort where
  /-- The adapter's class is `PaperBrokerAdapter`. -/
  isPaper : Bool := false
  hasPlaceOrder : Bool := true
  hasCancelOrder : Bool := true
deriving DecidableEq, Repr

/-- `round(x, 2)`, ties to the even cent. -/
def roundCents (x : ℚ) : ℚ := roundHalfEven (x * 100) / 100

def getCommissionFromBroker (request : OrderRequest) (answers : BrokerAnswers) : Except PyExc ℚ :=
  let estimate := roundCents (request.strikePrice * request.lotSize * (5 / 10000))
  match answers.getOrderDetails with
  | none => .ok estimate
  | some (.ok charges) => .ok (charges.getD estimate)
  | some (.error e) =>
      if e.caughtBy [.keyError, .valueError, .typeError, .attributeError] then .ok estimate
      else .error e

/-- The result read off an order id: filled, or accepted and not yet filled. -/
def resultOfOrderId (now : Time) (request : OrderRequest) (answers : BrokerAnswers)
    (id : String) : Except PyExc OrderResult := do
  let filledQuantity ← answers.getFilledQuantity.getD (.ok 0)
  let averagePrice ← answers.getFillPrice.getD (.ok 0)
  let brokerOrderId := if id = "" then none else some id
  if filledQuantity > 0 then
    let commission ← getCommissionFromBroker request answers
    return { orderId := id, status := .filled, filledQuantity, averagePrice, commission
             timestamp := now, brokerOrderId, brokerTimestamp := some now }
  else
    return { orderId := id, status := if id = "" then .rejected else .submitted
             brokerOrderId, timestamp := now }

def resultOfReturn (now : Time) (request : OrderRequest) (answers : BrokerAnswers) :
    PlaceReturn → Except PyExc OrderResult
  | .orderResult result => .ok result
  | .orderId id => resultOfOrderId now request answers id
  | .unexpected typeText =>
      .ok { orderId := "", status := .rejected, timestamp := now
            rejectReason := some ("Broker returned unexpected type: " ++ typeText) }

/-- The `except` clause of `_attempt_order_execution`. -/
def catchAttempt (now : Time) : Except PyExc OrderResult → Except PyExc OrderResult
  | .ok result => .ok result
  | .error e =>
      if e.caughtBy [.valueError, .osError, .attributeError] then
        .ok { orderId := "execution_error", status := .rejected, timestamp := now
              rejectReason := some e.message }
      else .error e

/-- The outcome of an attempt, whether a broker's `place_order` was invoked by it, and the status
the broker itself answered with, if it answered with one. -/
structure Attempt where
  placed : Bool
  answer : Option OrderStatus
  outcome : Except PyExc OrderResult

/-- The attempt that reached a broker, from what its `place_order` handed back. -/
def attemptOfReturn (platform : Platform) (now : Time) (request : OrderRequest)
    (answers : BrokerAnswers) (placed : Bool) (returned : Except PyExc PlaceReturn) : Attempt :=
  let result := returned.bind (resultOfReturn now request answers)
  { placed
    answer :=
      match returned, result with
      | .ok (.unexpected _), _ => none
      | _, .ok r => some r.status
      | _, .error _ => none
    outcome := catchAttempt now (result.map (validateBrokerResult platform now)) }

/-- What the service is wired to and configured with. -/
structure Setup where
  platform : Platform
  port : BrokerPort := {}
  smartRouter : Bool := false
  enableDuplicatePrevention : Bool := true

def attemptOrderExecution (setup : Setup) (now : Time) (request : OrderRequest)
    (context : ExecutionContext) (answers : BrokerAnswers) : Attempt :=
  if context.executionMode = .paper ∨ setup.port.isPaper then
    ⟨false, none, catchAttempt now answers.paperTrader⟩
  else if setup.smartRouter then
    match answers.routeToBest with
    | .error e => ⟨false, none, catchAttempt now (.error e)⟩
    | .ok route =>
        if route.success then
          attemptOfReturn setup.platform now request answers route.invoked (.ok route.orderId)
        else
          ⟨route.invoked, none, .ok
            { orderId := "", status := .rejected, timestamp := now
              rejectReason := some ("Smart router: " ++
                orElse (some route.error) "no broker available") }⟩
  else if setup.port.hasPlaceOrder then
    attemptOfReturn setup.platform now request answers true answers.placeOrder
  else
    ⟨false, none, .ok
      { orderId := "", status := .rejected, timestamp := now
        rejectReason := some "Broker port has no place_order method" }⟩

end AutoTrade.Execution
