import AutoTrade.Library.Run
import AutoTrade.Library.Table
import AutoTrade.Runtime

/-! # The order manager

`core/execution/order_manager.py` with the gateway it places orders through: the
orders in memory by intent, the maps between intents and broker order ids, and
the table `orders` behind them. The table has two unique columns, so `INSERT OR
REPLACE` deletes the row of the same intent and also any row with the same
broker order id. Statements are taken to succeed, and JSON to give back the
requests written to it.
-/

namespace AutoTrade.Orders

open AutoTrade.Library

/-- `OrderStatus` of `core/adapters/base_adapter.py`. -/
inductive OrderStatus
  | new
  | pending
  | validated
  | submitted
  | acknowledged
  | partialFill
  | filled
  | cancelPending
  | cancelled
  | rejected
  | failed
  | unknown
  | reconciling
deriving DecidableEq, Repr

/-- Not one of the statuses whose rows `_load_orders_from_disk` leaves out. -/
def OrderStatus.isOpen (s : OrderStatus) : Bool :=
  decide (s ∉ [filled, rejected, cancelled, failed])

structure OrderRequest where
  symbol : String
  qty : Int
  price : ℚ
  orderType : String
  direction : String
  product : String
  variety : String
  tag : String := "OPB_BOT"
  idempotencyKey : String := ""
deriving DecidableEq, Repr

structure OrderResponse where
  orderId : String
  status : OrderStatus
  filledQty : Int := 0
  avgPrice : ℚ := 0
  error : Option String := none
deriving DecidableEq, Repr

/-! ## The gateway -/

/-- Whether an adapter is connected, and what its `place_order` does. -/
structure BrokerGateway where
  connected : Bool := true
  adapter : Except PyExc OrderResponse

/-- `BrokerGateway.place_order`. The TWAP engine sends its slices from a thread of its own; all its
orders get the same answer. -/
def BrokerGateway.placeOrder (gateway : BrokerGateway) (request : OrderRequest) :
    Except PyExc OrderResponse :=
  if ¬ gateway.connected then
    .ok { orderId := "NONE", status := .failed, error := some "No active broker connected" }
  else if request.orderType = "TWAP" then .ok { orderId := "TWAP_ALGO_ROUTED", status := .pending }
  else
    match gateway.adapter with
    | .ok response => .ok response
    | .error e =>
        if e.caughtBy [.valueError, .typeError, .osError, .attributeError] then
          .ok { orderId := "ERROR", status := .failed, error := some e.message }
        else .error e

/-! ## Orders and their rows -/

structure OrderState where
  intentId : String
  request : OrderRequest
  status : OrderStatus
  brokerOrderId : Option String := none
  filledQty : Int := 0
  avgPrice : ℚ := 0
  createdAt : Time
  updatedAt : Time
  error : Option String := none
deriving DecidableEq, Repr

def OrderState.response (o : OrderState) : OrderResponse :=
  { orderId := o.brokerOrderId.getD "", status := o.status, filledQty := o.filledQty
    avgPrice := o.avgPrice, error := o.error }

def OrderState.recordFailure (o : OrderState) (now : Time) (response : OrderResponse) :
    OrderState :=
  { o with status := .failed, error := response.error, updatedAt := now }

def OrderState.recordAck (o : OrderState) (now : Time) (response : OrderResponse) : OrderState :=
  { o with brokerOrderId := some response.orderId, status := .acknowledged
           filledQty := response.filledQty, avgPrice := response.avgPrice, updatedAt := now }

/-- A row of `orders`, with what reading its columns back gives: a request text that is missing or
no JSON gives no fields, a number or a text that does not convert raises. A status text may name
no status. -/
structure OrderRow where
  intentId : String
  brokerOrderId : Option String
  request : Except PyExc (Option OrderRequest)
  status : Option OrderStatus
  filledQty : Except PyExc Int
  avgPrice : Except PyExc ℚ
  createdAt : Time
  updatedAt : Time
  error : Option String

/-- The row `_persist_order` writes. -/
def OrderState.row (o : OrderState) : OrderRow where
  intentId := o.intentId
  brokerOrderId := o.brokerOrderId
  request := .ok (some o.request)
  status := some o.status
  filledQty := .ok o.filledQty
  avgPrice := .ok o.avgPrice
  createdAt := o.createdAt
  updatedAt := o.updatedAt
  error := o.error

/-- The row's status text is not one of the four; it may name no status at all. -/
def OrderRow.isOpen (row : OrderRow) : Bool := row.status.all OrderStatus.isOpen

/-- The two rows have the same broker order id; a NULL is the same as nothing. -/
def OrderRow.sharesBrokerId (row other : OrderRow) : Bool :=
  row.brokerOrderId.isSome && decide (row.brokerOrderId = other.brokerOrderId)

theorem OrderRow.sharesBrokerId_symm {row other : OrderRow} (h : row.sharesBrokerId other = true) :
    other.sharesBrokerId row = true := by
  simp only [sharesBrokerId, Bool.and_eq_true, decide_eq_true_eq] at h ⊢
  exact ⟨h.2 ▸ h.1, h.2.symm⟩

/-- The table: `intent_id` is the primary key, and `broker_order_id` is unique. -/
structure OrdersTable where
  rows : Table OrderRow OrderRow.intentId
  unique : ∀ r ∈ rows.rows, ∀ r' ∈ rows.rows, r.sharesBrokerId r' = true → r = r'

namespace OrdersTable

def empty : OrdersTable := ⟨Table.empty, fun _ h => by cases h⟩

def find? (t : OrdersTable) (intentId : String) : Option OrderRow := t.rows.find? intentId

/-- `INSERT OR REPLACE`. -/
def insertOrReplace (t : OrdersTable) (row : OrderRow) : OrdersTable where
  rows := (t.rows.filter fun r => !row.sharesBrokerId r).replace row
  unique := by
    have hkept : ∀ r ∈ ((t.rows.filter fun r => !row.sharesBrokerId r).replace row).rows,
        r = row ∨ (r ∈ t.rows.rows ∧ row.sharesBrokerId r = false) := by
      intro r hr
      cases List.mem_append.mp hr with
      | inl hold =>
          have hfilter := List.mem_filter.mp (List.mem_filter.mp hold).1
          exact .inr ⟨hfilter.1, by simpa using hfilter.2⟩
      | inr hnew => exact .inl (List.mem_singleton.mp hnew)
    intro r hr r' hr' hshare
    cases hkept r hr with
    | inl hrow =>
        subst hrow
        cases hkept r' hr' with
        | inl hrow' => exact hrow'.symm
        | inr hold' => exact absurd (hshare.symm.trans hold'.2) (by simp)
    | inr hold =>
        cases hkept r' hr' with
        | inl hrow' =>
            subst hrow'
            exact absurd ((OrderRow.sharesBrokerId_symm hshare).symm.trans hold.2) (by simp)
        | inr hold' => exact t.unique r hold.1 r' hold'.1 hshare

theorem find?_insertOrReplace (t : OrdersTable) (row : OrderRow) (id : String) :
    (t.insertOrReplace row).find? id =
      if id = row.intentId then some row
      else (t.find? id).filter fun r => !row.sharesBrokerId r := by
  unfold find? insertOrReplace
  rw [Table.find?_replace, Table.find?_filter]

end OrdersTable

/-! ## The manager -/

structure OrderManager where
  orders : Dict String OrderState := Table.empty
  /-- Broker order id to intent, and back; an intent not yet confirmed is mapped to `""`. -/
  brokerMap : Dict String String := Table.empty
  intentMap : Dict String String := Table.empty
  table : OrdersTable

namespace OrderManager

/-! ### Loading -/

/-- The request read from a JSON object without any of its fields. -/
def defaultRequest : OrderRequest :=
  { symbol := "", qty := 0, price := 0, orderType := "MARKET", direction := "BUY", product := "MIS"
    variety := "REGULAR" }

/-- The order of a row; a row without an intent id gets a new one. -/
def readOrder (uuid : String) (row : OrderRow) : Except PyExc OrderState := do
  let request ← row.request
  let filledQty ← row.filledQty
  let avgPrice ← row.avgPrice
  return { intentId := if row.intentId = "" then uuid else row.intentId
           request := request.getD defaultRequest
           status := row.status.getD .unknown
           brokerOrderId := row.brokerOrderId
           filledQty, avgPrice
           createdAt := row.createdAt
           updatedAt := row.updatedAt
           error := row.error }

def loadOrder (mgr : OrderManager) (o : OrderState) : OrderManager :=
  { mgr with
    orders := mgr.orders.set o.intentId o
    brokerMap :=
      match o.brokerOrderId with
      | none => mgr.brokerMap
      | some id => if id = "" then mgr.brokerMap else mgr.brokerMap.set id o.intentId
    intentMap :=
      if o.intentId = "" then mgr.intentMap
      else mgr.intentMap.set o.intentId (o.brokerOrderId.getD "") }

def loadRow (uuid : String) (mgr : OrderManager) (row : OrderRow) : OrderManager × Option PyExc :=
  match readOrder uuid row with
  | .ok o => (mgr.loadOrder o, none)
  | .error e => (mgr, some e)

/-- The rows of the loader's query, in table order. -/
def openRows (t : OrdersTable) : List OrderRow := t.rows.rows.filter OrderRow.isOpen

/-- A manager opened on a table. The loop over the rows stands in one `try`; an exception it does
not name leaves the constructor. -/
def openOn (uuid : String) (t : OrdersTable) : Except PyExc OrderManager :=
  match loop (loadRow uuid) { table := t } (openRows t) with
  | (mgr, none) => .ok mgr
  | (mgr, some e) =>
      if e.caughtBy [.osError, .valueError, .typeError] then .ok mgr else .error e

/-! ### Answers -/

def getOrderResponse (mgr : OrderManager) (brokerOrderId : String) : OrderResponse :=
  let byMap := (mgr.brokerMap.get? brokerOrderId).bind fun intentId =>
    if intentId = "" then none else mgr.orders.get? intentId
  match byMap.or (mgr.orders.get? brokerOrderId) with
  | none => { orderId := "NOT_FOUND", status := .failed, error := some "Order not found" }
  | some o => { o.response with orderId := orElse o.brokerOrderId brokerOrderId }

/-- The answer by the broker order id an intent is mapped to, if it is mapped to one. -/
def confirmedResponse? (mgr : OrderManager) (intentId : String) : Option OrderResponse :=
  let brokerId := mgr.intentMap.get? intentId
  if truthy brokerId then some (mgr.getOrderResponse (brokerId.getD "")) else none

/-- The answer to a call for an intent that is already there. -/
def existingResponse (mgr : OrderManager) (intentId : String) (o : OrderState) : OrderResponse :=
  (mgr.confirmedResponse? intentId).getD o.response

/-! ### Executing an intent -/

def persistOrder (mgr : OrderManager) (o : OrderState) : OrderManager :=
  { mgr with table := mgr.table.insertOrReplace o.row }

/-- The changed order object, in memory and in the table. -/
def writeOrder (mgr : OrderManager) (o : OrderState) : OrderManager :=
  { mgr with orders := mgr.orders.set o.intentId o }.persistOrder o

/-- Phase 1: the order is validated and not yet with the broker. -/
def preSubmit (mgr : OrderManager) (o : OrderState) : OrderManager :=
  { mgr with intentMap := mgr.intentMap.set o.intentId "" }.writeOrder o

/-- Phase 3: the broker's order id enters the maps. -/
def mapBrokerOrder (mgr : OrderManager) (intentId orderId : String) : OrderManager :=
  if orderId = "" then mgr
  else { mgr with
    brokerMap := mgr.brokerMap.set orderId intentId
    intentMap := mgr.intentMap.set intentId orderId }

@[simp] theorem mapBrokerOrder_orders (mgr : OrderManager) (intentId orderId : String) :
    (mgr.mapBrokerOrder intentId orderId).orders = mgr.orders := by
  unfold mapBrokerOrder
  split <;> rfl

/-- One call of `execute_intent`: its arguments, the gateway, and the times before and after the
broker's answer. -/
structure IntentCall where
  intentId : String
  request : OrderRequest
  gateway : BrokerGateway
  now : Time
  later : Time

def newOrder (call : IntentCall) : OrderState :=
  { intentId := call.intentId, request := call.request, status := .validated
    createdAt := call.now, updatedAt := call.now }

/-- The order after the broker's answer. -/
def concludedOrder (call : IntentCall) (response : OrderResponse) : OrderState :=
  if response.status = .failed then (newOrder call).recordFailure call.later response
  else (newOrder call).recordAck call.later response

def conclude (mgr : OrderManager) (call : IntentCall) (response : OrderResponse) : OrderManager :=
  let o := concludedOrder call response
  if response.status = .failed then mgr.writeOrder o
  else (mgr.mapBrokerOrder call.intentId response.orderId).writeOrder o

/-- `execute_intent`, with no other call under way. A call for an intent that is there may wait for
its event; nothing changes meanwhile. -/
def executeIntent (mgr : OrderManager) (call : IntentCall) :
    OrderManager × Except PyExc OrderResponse :=
  match mgr.orders.get? call.intentId with
  | some o => (mgr, .ok (mgr.existingResponse call.intentId o))
  | none =>
      let mgr := mgr.preSubmit (newOrder call)
      match call.gateway.placeOrder call.request with
      | .error e => (mgr, .error e)
      | .ok response => (mgr.conclude call response, .ok response)

theorem executeIntent_of_known {mgr : OrderManager} {call : IntentCall} {o : OrderState}
    (known : mgr.orders.get? call.intentId = some o) :
    mgr.executeIntent call = (mgr, .ok (mgr.existingResponse call.intentId o)) := by
  unfold executeIntent
  rw [known]

theorem executeIntent_of_new {mgr : OrderManager} {call : IntentCall}
    (new : mgr.orders.get? call.intentId = none) :
    mgr.executeIntent call =
      match call.gateway.placeOrder call.request with
      | .error e => (mgr.preSubmit (newOrder call), .error e)
      | .ok response => ((mgr.preSubmit (newOrder call)).conclude call response, .ok response) := by
  unfold executeIntent
  rw [new]

/-! ### Updates -/

/-- `_validate_transition`. -/
def validTransitions : OrderStatus → List OrderStatus
  | .new => [.validated, .failed]
  | .validated => [.submitted, .acknowledged, .failed]
  | .submitted => [.acknowledged, .rejected, .failed]
  | .acknowledged => [.partialFill, .filled, .cancelPending, .failed]
  | .partialFill => [.partialFill, .filled, .cancelPending, .failed]
  | .cancelPending => [.cancelled, .filled, .failed]
  | _ => []

def updateOrderStatus (mgr : OrderManager) (now : Time) (brokerOrderId : String)
    (newStatus : OrderStatus) (filledQty : Int) (avgPrice : ℚ) : OrderManager :=
  match mgr.brokerMap.get? brokerOrderId with
  | none => mgr
  | some intentId =>
      match if intentId = "" then none else mgr.orders.get? intentId with
      | none => mgr
      | some o =>
          if newStatus ∈ validTransitions o.status then
            mgr.writeOrder { o with status := newStatus, filledQty, avgPrice, updatedAt := now }
          else mgr

/-- An update writes an order of the manager with its broker order id unchanged, or nothing. -/
theorem updateOrderStatus_cases (mgr : OrderManager) (now : Time) (brokerOrderId : String)
    (newStatus : OrderStatus) (filledQty : Int) (avgPrice : ℚ) :
    mgr.updateOrderStatus now brokerOrderId newStatus filledQty avgPrice = mgr ∨
      ∃ intentId o, mgr.orders.get? intentId = some o ∧
        mgr.updateOrderStatus now brokerOrderId newStatus filledQty avgPrice =
          mgr.writeOrder { o with status := newStatus, filledQty, avgPrice, updatedAt := now } := by
  unfold updateOrderStatus
  cases mgr.brokerMap.get? brokerOrderId with
  | none => exact .inl rfl
  | some intentId =>
      by_cases hid : intentId = ""
      · exact .inl (by simp only [if_pos hid])
      · simp only [if_neg hid]
        cases hget : mgr.orders.get? intentId with
        | none => exact .inl rfl
        | some o =>
            by_cases hvalid : newStatus ∈ validTransitions o.status
            · exact .inr ⟨intentId, o, hget, if_pos hvalid⟩
            · exact .inl (if_neg hvalid)

end OrderManager

end AutoTrade.Orders
