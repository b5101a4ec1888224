import AutoTrade.Library.Table
import AutoTrade.Runtime

/-! # The portfolio service

`PortfolioService` of `core/domains/portfolio/service.py`, with rational
quantities and prices. The class is not a dataclass, so what `__init__` assigns
to the trade history is the object that `dataclasses.field` returns, which has no
`append`. The history is therefore either that object or a deque. A call returns
the trade record it made, if it made one, beside its result.
-/

namespace AutoTrade.Portfolio

open AutoTrade.Library

structure Position where
  symbol : String
  quantity : ℚ
  averagePrice : ℚ
  marketValue : ℚ
  unrealizedPnl : ℚ
  realizedPnl : ℚ
  timestamp : Time
deriving DecidableEq, Repr

structure TradeRecord where
  symbol : String
  entryPrice : ℚ
  exitPrice : ℚ
  quantity : ℚ
  direction : String
  entryTime : Time
  exitTime : Time
  realizedPnl : ℚ
  commission : ℚ := 0
  strategyId : String := ""
deriving DecidableEq, Repr

/-- A fill has a positive quantity, whichever side it is on. -/
structure Fill where
  symbol : String
  direction : String
  quantity : ℚ
  price : ℚ
  timestamp : Time
  commission : Option ℚ := none
  strategyId : Option String := none
  quantity_pos : 0 < quantity
deriving DecidableEq

def Fill.signed (f : Fill) : ℚ := if f.direction = "BUY" then f.quantity else -f.quantity

/-- The side of a held quantity. -/
def sideOf (quantity : ℚ) : String := if 0 < quantity then "BUY" else "SELL"

inductive TradeHistory
  | field
  | deque (records : List TradeRecord)
deriving DecidableEq, Repr

/-- `deque(maxlen=10000)`. -/
def maxTradeHistory : Nat := 10000

def TradeHistory.append (history : TradeHistory) (record : TradeRecord) :
    Except PyExc TradeHistory :=
  match history with
  | .field => .error ⟨.attributeError, "'Field' object has no attribute 'append'"⟩
  | .deque records =>
      .ok (.deque ((records ++ [record]).drop ((records ++ [record]).length - maxTradeHistory)))

structure PortfolioService where
  positions : Dict String Position := Table.empty
  tradeHistory : TradeHistory
deriving DecidableEq

namespace PortfolioService

/-- A service as its constructor leaves it. -/
def new : PortfolioService := { tradeHistory := .field }

def put (s : PortfolioService) (p : Position) : PortfolioService :=
  { s with positions := s.positions.set p.symbol p }

def remove (s : PortfolioService) (symbol : String) : PortfolioService :=
  { s with positions := s.positions.erase symbol }

/-- The record that closing a quantity of a position makes. -/
def closingRecord (old : Position) (fill : Fill) (quantity realizedPnl commission : ℚ) :
    TradeRecord where
  symbol := fill.symbol
  entryPrice := old.averagePrice
  exitPrice := fill.price
  quantity := quantity
  direction := sideOf old.quantity
  entryTime := old.timestamp
  exitTime := fill.timestamp
  realizedPnl := realizedPnl
  commission := commission
  strategyId := fill.strategyId.getD "unknown"

def updatePosition (s : PortfolioService) (fill : Fill) :
    PortfolioService × Option TradeRecord × Except PyExc Position :=
  let symbol := fill.symbol
  let quantity := fill.signed
  let price := fill.price
  let commission := fill.commission.getD 0
  match s.positions.get? symbol with
  | none =>
      let newPosition : Position :=
        { symbol, quantity, averagePrice := price, marketValue := quantity * price,
          unrealizedPnl := 0, realizedPnl := 0, timestamp := fill.timestamp }
      (s.put newPosition, none, .ok newPosition)
  | some old =>
      let newQuantity := old.quantity + quantity
      if newQuantity = 0 then
        let realizedPnl := (price - old.averagePrice) * old.quantity
        let closedPosition : Position :=
          { symbol, quantity := 0, averagePrice := 0, marketValue := 0, unrealizedPnl := 0,
            realizedPnl := old.realizedPnl + realizedPnl, timestamp := fill.timestamp }
        let record := closingRecord old fill |old.quantity| realizedPnl commission
        match s.tradeHistory.append record with
        | .error e => (s, some record, .error e)
        | .ok tradeHistory =>
            ({ s with tradeHistory }.remove symbol, some record, .ok closedPosition)
      else if 0 < old.quantity * quantity then
        let totalCost := old.quantity * old.averagePrice + quantity * price
        let newPosition : Position :=
          { symbol, quantity := newQuantity, averagePrice := totalCost / newQuantity,
            marketValue := newQuantity * price, unrealizedPnl := 0,
            realizedPnl := old.realizedPnl, timestamp := fill.timestamp }
        (s.put newPosition, none, .ok newPosition)
      else if |quantity| < |old.quantity| then
        let closedQuantity := min |old.quantity| |quantity|
        let realizedPnl :=
          (price - old.averagePrice) * closedQuantity * (if sideOf old.quantity = "BUY" then 1 else -1)
        let newPosition : Position :=
          { symbol, quantity := newQuantity, averagePrice := old.averagePrice,
            marketValue := newQuantity * price, unrealizedPnl := 0,
            realizedPnl := old.realizedPnl + realizedPnl, timestamp := fill.timestamp }
        let record := closingRecord old fill closedQuantity realizedPnl
          (commission * (closedQuantity / |old.quantity|))
        match s.tradeHistory.append record with
        | .error e => (s.put newPosition, some record, .error e)
        | .ok tradeHistory =>
            ({ s with tradeHistory }.put newPosition, some record, .ok newPosition)
      else
        let realizedPnl :=
          (price - old.averagePrice) * |old.quantity| * (if 0 < old.quantity then 1 else -1)
        let newPosition : Position :=
          { symbol, quantity := newQuantity, averagePrice := price,
            marketValue := newQuantity * price, unrealizedPnl := 0,
            realizedPnl := old.realizedPnl + realizedPnl, timestamp := fill.timestamp }
        let record := closingRecord old fill |old.quantity| realizedPnl commission
        match s.tradeHistory.append record with
        | .error e => (s.put newPosition, some record, .error e)
        | .ok tradeHistory =>
            ({ s with tradeHistory }.put newPosition, some record, .ok newPosition)

/-- A position has no strategy of its own, so the record has `"unknown"`. -/
def closePosition (s : PortfolioService) (symbol : String) (exitPrice commission : ℚ) (now : Time) :
    PortfolioService × Option TradeRecord × Except PyExc (Option TradeRecord) :=
  match s.positions.get? symbol with
  | none => (s, none, .ok none)
  | some position =>
      if position.quantity = 0 then (s, none, .ok none)
      else
        let record : TradeRecord :=
          { symbol, entryPrice := position.averagePrice, exitPrice, quantity := |position.quantity|,
            direction := sideOf position.quantity, entryTime := position.timestamp, exitTime := now,
            realizedPnl := (exitPrice - position.averagePrice) * position.quantity, commission,
            strategyId := "unknown" }
        match s.tradeHistory.append record with
        | .error e => (s, some record, .error e)
        | .ok tradeHistory => ({ s with tradeHistory }.remove symbol, some record, .ok (some record))

end PortfolioService

end AutoTrade.Portfolio
