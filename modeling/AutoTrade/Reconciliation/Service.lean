import AutoTrade.Library.Run
import AutoTrade.Library.Table
import AutoTrade.Runtime
import Mathlib.Data.List.Infix
import Mathlib.Data.List.Sort

/-! # Reconciliation of the orders table with the broker

A run fetches the broker's order book and positions, looks for four kinds of
divergence, repairs two of them and freezes trading where the rest is ambiguous.
A fetch that fails with one of the handled errors counts as an empty answer.

Broker records are read as the code reads them: identifiers through `str()`,
statuses in upper case, numbers through `int()` and `float()`, which raise
`ValueError`, `TypeError` or `OverflowError`. The database answers every
statement. `BrokerConnectionError` is handled wherever `OSError` is.
-/

namespace AutoTrade.Reconciliation

open AutoTrade.Library

inductive ReconciliationState
  | clean
  | orphanPosition
  | staleOrder
  | quantityMismatch
  | unrecordedFill
  | ambiguous
deriving DecidableEq, Repr

def ReconciliationState.text : ReconciliationState → String
  | .clean => "CLEAN"
  | .orphanPosition => "ORPHAN_POSITION"
  | .staleOrder => "STALE_ORDER"
  | .quantityMismatch => "QUANTITY_MISMATCH"
  | .unrecordedFill => "UNRECORDED_FILL"
  | .ambiguous => "AMBIGUOUS"

inductive TradingFreezeReason
  | reconciliationFailed
  | orphanPositionsDetected
  | staleOrdersUnresolved
  | quantityMismatchUnresolved
  | brokerUnavailable
deriving DecidableEq, Repr

inductive ReadClass
  | valueError
  | typeError
  | overflowError
deriving DecidableEq, Repr

/-- What `int()` or `float()` raises. -/
structure ReadError where
  cls : ReadClass
  message : String
deriving DecidableEq, Repr

def ReadError.toPyExc (e : ReadError) : PyExc where
  cls := match e.cls with
    | .valueError => .valueError
    | .typeError => .typeError
    | .overflowError => .other
  message := e.message

/-- A number in a broker record: its text and what `int()` and `float()` make of it. -/
structure BrokerNumber where
  text : String
  toInt : Except ReadError Int
  toFloat : Except ReadError ℚ

structure BrokerOrder where
  orderId : String
  status : String
  filledShares : BrokerNumber
  averagePrice : BrokerNumber

structure BrokerPosition where
  symbol : String
  quantity : BrokerNumber
  /-- `qty != 0`. -/
  nonzero : Bool

/-- What the broker answers to one run, or raises. -/
structure BrokerAnswers where
  orderBook : Except PyExc (List BrokerOrder)
  positions : Except PyExc (List BrokerPosition)

structure OrderRow where
  orderId : String
  intentId : Option String
  symbol : String
  direction : String
  quantity : Int
  filledQuantity : Int := 0
  averagePrice : ℚ := 0
  status : String
  brokerOrderId : Option String
  createdAt : String
  updatedAt : String
  idempotencyKey : Option String := none
  isReconciled : Bool := false
  notes : Option String := none
deriving DecidableEq

/-- The table `execution_orders`, with the key of every row that an `UPDATE` rewrote. -/
structure OrdersDb where
  table : Table OrderRow OrderRow.orderId
  touched : List String := []

inductive BrokerValue
  | nothing
  | notFound
  | quantity (qty : BrokerNumber)
  | fill (filledQty price : BrokerNumber)

structure ReconciliationIssue where
  issueType : ReconciliationState
  orderId : Option String
  internalValue : Option String
  brokerValue : BrokerValue
  description : String

structure ReconciliationResult where
  isClean : Bool
  issues : List ReconciliationIssue
  freezeReason : Option TradingFreezeReason
  brokerPositionsCount : Nat := 0
  internalOrdersCount : Nat := 0
  /-- The issues that `repaired_count` counts. -/
  repaired : List ReconciliationIssue := []

def ReconciliationResult.repairedCount (r : ReconciliationResult) : Nat := r.repaired.length

structure ReconciliationService where
  db : OrdersDb
  enableAutoRepair : Bool := true
  isFrozen : Bool := false
  freezeReason : Option TradingFreezeReason := none
  lastReconciliation : Option ReconciliationResult := none
  /-- The calls of the freeze callback, the oldest first. -/
  notified : List (TradingFreezeReason × String) := []

/-! ## The orders table -/

namespace OrdersDb

def update (db : OrdersDb) (orderId : String) (f : OrderRow → OrderRow)
    (hf : ∀ r, (f r).orderId = r.orderId) : OrdersDb where
  table := db.table.update orderId f hf
  touched := if db.table.contains orderId then db.touched ++ [orderId] else db.touched

def terminalRow (now status : String) (r : OrderRow) : OrderRow :=
  { r with status := status, updatedAt := now, isReconciled := true }

theorem terminalRow_orderId (now status : String) (r : OrderRow) :
    (terminalRow now status r).orderId = r.orderId := rfl

def filledRow (now : String) (filledQuantity : Int) (averagePrice : ℚ) (status : String)
    (r : OrderRow) : OrderRow :=
  { r with
    filledQuantity := filledQuantity
    averagePrice := averagePrice
    status := status
    updatedAt := now
    isReconciled := false }

theorem filledRow_orderId (now : String) (filledQuantity : Int) (averagePrice : ℚ)
    (status : String) (r : OrderRow) :
    (filledRow now filledQuantity averagePrice status r).orderId = r.orderId := rfl

def markOrderTerminal (now orderId status : String) (db : OrdersDb) : OrdersDb :=
  db.update orderId (terminalRow now status) (terminalRow_orderId now status)

def updateOrderFill (now orderId : String) (filledQuantity : Int) (averagePrice : ℚ)
    (status : String) (db : OrdersDb) : OrdersDb :=
  db.update orderId (filledRow now filledQuantity averagePrice status)
    (filledRow_orderId now filledQuantity averagePrice status)

/-- `ORDER BY created_at`, rows of one time in table order. -/
def getAllOrders (db : OrdersDb) : List OrderRow :=
  db.table.rows.insertionSort fun a b => a.createdAt ≤ b.createdAt

def terminalStates : List String := ["FILLED", "CANCELLED", "REJECTED", "EXPIRED", "COMPLETE"]

def getPendingOrders (db : OrdersDb) : List OrderRow :=
  db.getAllOrders.filter fun r => decide (r.status ∉ terminalStates)

end OrdersDb

/-! ## Detection -/

def indexRow (d : Dict String OrderRow) (r : OrderRow) : Dict String OrderRow :=
  match r.brokerOrderId with
  | some bid => if bid ≠ "" then d.set bid r else d
  | none => d

/-- The rows by broker order id; a later row with the same id takes the place of an earlier one. -/
def internalByBrokerId (orders : List OrderRow) : Dict String OrderRow :=
  orders.foldl indexRow Table.empty

def staleIssue (r : OrderRow) (brokerId : String) : ReconciliationIssue where
  issueType := .staleOrder
  orderId := some r.orderId
  internalValue := some r.status
  brokerValue := .notFound
  description := "Order " ++ r.orderId ++ " (broker: " ++ brokerId ++ ") not found in broker"

def detectStaleOrders (pending : List OrderRow) (brokerOrders : List BrokerOrder) :
    List ReconciliationIssue :=
  pending.filterMap fun r =>
    match r.brokerOrderId with
    | some bid =>
        if bid ≠ "" ∧ bid ∉ brokerOrders.map BrokerOrder.orderId then some (staleIssue r bid)
        else none
    | none => none

def orphanIssue (p : BrokerPosition) : ReconciliationIssue where
  issueType := .orphanPosition
  orderId := none
  internalValue := some "NO_ORDER"
  brokerValue := .quantity p.quantity
  description := "Orphan position: " ++ p.symbol ++ " x " ++ p.quantity.text ++
    " in broker but no internal order"

def detectOrphanPositions (positions : List BrokerPosition) (orders : List OrderRow) :
    List ReconciliationIssue :=
  let symbols := (orders.map OrderRow.symbol).filter fun sym => decide (sym ≠ "")
  (positions.filter fun p => p.nonzero && decide (p.symbol ∉ symbols)).map orphanIssue

def mismatchIssue (o : BrokerOrder) (internal : OrderRow) : ReconciliationIssue where
  issueType := .quantityMismatch
  orderId := some internal.orderId
  internalValue := some (toString internal.filledQuantity)
  brokerValue := .quantity o.filledShares
  description := "Mismatch for " ++ o.orderId ++ ": internal=" ++
    toString internal.filledQuantity ++ ", broker=" ++ o.filledShares.text

/-- Reading the broker's quantity may raise. -/
def detectQuantityMismatches (brokerOrders : List BrokerOrder) (orders : List OrderRow) :
    Except ReadError (List ReconciliationIssue) :=
  match brokerOrders with
  | [] => .ok []
  | o :: rest =>
      match (internalByBrokerId orders).get? o.orderId with
      | none => detectQuantityMismatches rest orders
      | some internal =>
          match o.filledShares.toInt with
          | .error e => .error e
          | .ok brokerQty =>
              match detectQuantityMismatches rest orders with
              | .error e => .error e
              | .ok issues =>
                  if brokerQty ≠ internal.filledQuantity then
                    .ok (mismatchIssue o internal :: issues)
                  else .ok issues

/-- `"COMPLETE" in status or "FILLED" in status`. -/
def BrokerOrder.filled (o : BrokerOrder) : Bool :=
  decide ("COMPLETE".toList <:+: o.status.toList) || decide ("FILLED".toList <:+: o.status.toList)

def fillIssue (o : BrokerOrder) : ReconciliationIssue where
  issueType := .unrecordedFill
  orderId := some o.orderId
  internalValue := some "NOT_FOUND"
  brokerValue := .fill o.filledShares o.averagePrice
  description := "Fill in broker not recorded internally: " ++ o.orderId ++ " x " ++
    o.filledShares.text ++ " @ " ++ o.averagePrice.text

def detectUnrecordedFills (brokerOrders : List BrokerOrder) (orders : List OrderRow) :
    List ReconciliationIssue :=
  (brokerOrders.filter fun o =>
    o.filled && !(internalByBrokerId orders).contains o.orderId).map fillIssue

/-! ## Freezing -/

def detectAmbiguity (issues : List ReconciliationIssue) : Bool :=
  decide (3 < issues.length) || issues.any fun i =>
    decide (i.issueType ∈ [ReconciliationState.ambiguous, .orphanPosition, .quantityMismatch])

def determineFreezeReason (issues : List ReconciliationIssue) : TradingFreezeReason :=
  if issues.any (·.issueType = .orphanPosition) then .orphanPositionsDetected
  else if issues.any (·.issueType = .staleOrder) then .staleOrdersUnresolved
  else if issues.any (·.issueType = .quantityMismatch) then .quantityMismatchUnresolved
  else .reconciliationFailed

def formatIssues (issues : List ReconciliationIssue) : String :=
  let line := fun (i : ReconciliationIssue × Nat) =>
    "  " ++ toString (i.2 + 1) ++ ". " ++ i.1.issueType.text ++ ": " ++ i.1.description
  "\n".intercalate (["Total issues: " ++ toString issues.length] ++
    (issues.take 10).zipIdx.map line ++
    if 10 < issues.length then
      ["  ... and " ++ toString (issues.length - 10) ++ " more"] else [])

namespace ReconciliationService

def freezeTrading (reason : TradingFreezeReason) (details : String) (s : ReconciliationService) :
    ReconciliationService :=
  { s with
    isFrozen := true
    freezeReason := some reason
    notified := s.notified ++ [(reason, details)] }

/-! ## Repair -/

def recordUnrecordedFill (now : String) (issue : ReconciliationIssue) (db : OrdersDb) :
    Except ReadError OrdersDb :=
  if truthy issue.orderId then
    match issue.brokerValue with
    | .fill filledQty price =>
        match filledQty.toInt, price.toFloat with
        | .error e, _ => .error e
        | .ok _, .error e => .error e
        | .ok qty, .ok paid =>
            .ok (db.updateOrderFill now (issue.orderId.getD "") qty paid "FILLED")
    | .notFound => .ok (db.updateOrderFill now (issue.orderId.getD "") 0 0 "FILLED")
    | .quantity _ => .ok (db.updateOrderFill now (issue.orderId.getD "") 0 0 "FILLED")
    | .nothing => .ok db
  else .ok db

/-- One issue of the repair loop. The errors that the loop handles are not those of a number that
cannot be read: these end it. -/
def repairIssue (now : String) (done : OrdersDb × List ReconciliationIssue)
    (issue : ReconciliationIssue) :
    (OrdersDb × List ReconciliationIssue) × Option ReadError :=
  match issue.issueType with
  | .staleOrder =>
      ((done.1.markOrderTerminal now (issue.orderId.getD "") "UNKNOWN_STALE", done.2 ++ [issue]),
        none)
  | .unrecordedFill =>
      match recordUnrecordedFill now issue done.1 with
      | .ok db => ((db, done.2 ++ [issue]), none)
      | .error e => (done, some e)
  | _ => (done, none)

def autoRepair (now : String) (issues : List ReconciliationIssue) (db : OrdersDb) :
    (OrdersDb × List ReconciliationIssue) × Option ReadError :=
  loop (repairIssue now) (db, []) issues

/-! ## The run -/

/-- A fetch: the handled errors become an empty answer. -/
def fetch {α : Type} (answer : Except PyExc (List α)) : Except PyExc (List α) :=
  match answer with
  | .ok xs => .ok xs
  | .error e => if e.caughtBy [.osError, .valueError] then .ok [] else .error e

/-- What a run has in hand before it repairs anything. -/
structure Survey where
  issues : List ReconciliationIssue
  brokerPositionsCount : Nat
  internalOrdersCount : Nat

def detect (db : OrdersDb) (brokerOrders : List BrokerOrder) (positions : List BrokerPosition) :
    Except ReadError Survey :=
  match detectQuantityMismatches brokerOrders db.getAllOrders with
  | .error e => .error e
  | .ok mismatches => .ok {
      issues := detectStaleOrders db.getPendingOrders brokerOrders ++
        detectOrphanPositions positions db.getAllOrders ++ mismatches ++
        detectUnrecordedFills brokerOrders db.getAllOrders
      brokerPositionsCount := positions.length
      internalOrdersCount := db.getAllOrders.length }

/-- Repair, freeze and report, or the error that ends the run. -/
def settle (now : String) (survey : Survey) (s : ReconciliationService) :
    ReconciliationService × Except ReadError ReconciliationResult :=
  let repair := if s.enableAutoRepair then autoRepair now survey.issues s.db
    else ((s.db, []), none)
  let repaired := { s with db := repair.1.1 }
  match repair.2 with
  | some e => (repaired, .error e)
  | none =>
      let isClean := survey.issues.isEmpty
      let frozen := if !isClean && detectAmbiguity survey.issues then
          repaired.freezeTrading (determineFreezeReason survey.issues) (formatIssues survey.issues)
        else repaired
      let result : ReconciliationResult := {
        isClean := isClean
        issues := survey.issues
        freezeReason := if isClean then none else frozen.freezeReason
        brokerPositionsCount := survey.brokerPositionsCount
        internalOrdersCount := survey.internalOrdersCount
        repaired := repair.1.2 }
      ({ frozen with lastReconciliation := some result }, .ok result)

/-- The result of a run that one of the handled errors ended. -/
def failedResult (e : PyExc) : ReconciliationResult where
  isClean := false
  issues := [{
    issueType := .ambiguous
    orderId := none
    internalValue := none
    brokerValue := .nothing
    description := "Reconciliation exception: " ++ e.message }]
  freezeReason := some .reconciliationFailed

def handle (e : PyExc) (s : ReconciliationService) :
    ReconciliationService × Except PyExc ReconciliationResult :=
  if e.caughtBy [.persistenceError, .osError, .valueError, .keyError] then
    (s.freezeTrading .reconciliationFailed e.message, .ok (failedResult e))
  else (s, .error e)

/-- Repair, freeze and report, or the handling of the error that ends the run. -/
def settleOrHandle (now : String) (survey : Survey) (s : ReconciliationService) :
    ReconciliationService × Except PyExc ReconciliationResult :=
  match settle now survey s with
  | (s', .ok result) => (s', .ok result)
  | (s', .error e) => handle e.toPyExc s'

def reconcile (now : String) (answers : BrokerAnswers) (s : ReconciliationService) :
    ReconciliationService × Except PyExc ReconciliationResult :=
  match fetch answers.orderBook, fetch answers.positions with
  | .error e, _ => handle e s
  | .ok _, .error e => handle e s
  | .ok brokerOrders, .ok positions =>
      match detect s.db brokerOrders positions with
      | .error e => handle e.toPyExc s
      | .ok survey => settleOrHandle now survey s

end ReconciliationService

end AutoTrade.Reconciliation
