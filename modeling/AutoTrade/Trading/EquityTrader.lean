import AutoTrade.Trading.ReentryTracker
import AutoTrade.Library.CallPool
import AutoTrade.Library.Table
import AutoTrade.Library.Run

/-! # The cash market trader

`EquityTrader` of `core/equity_trader.py`. Entering a position tests the limits under the lock,
calls the broker outside it and takes the lock again to record the position; an exit takes the
position out of the book first and sells afterwards. A call is therefore modelled as a frame that
moves from one of these stages to the next, and any number of calls may be in flight at once. The
log keeps what the callbacks were asked to do and what became of it.
-/

namespace AutoTrade.Trading

open AutoTrade.Library

/-- What the constructor makes of the configuration. -/
structure TraderConfig where
  /-- the asset class of each enabled symbol -/
  assetMapIndex : Dict String String
  slPct : ℚ
  targetPct : ℚ
  maxDailyTrades : Int
  defaultQty : Int
  defaultQtys : Dict String Int
  reentry : ReentryConfig

structure Position where
  direction : String
  qty : Int
  entryPrice : ℚ
  entryTime : Time
  score : Int
  reason : String
  peakPrice : ℚ
  currentPrice : Option ℚ := none
  assetClass : String
deriving DecidableEq

/-- What an entry goes by, from its first test to its record. -/
structure Entry where
  symbol : String
  direction : String
  score : Int
  reason : String
deriving DecidableEq, Repr

/-- A call between two of its stages. `rest` are the symbols that the monitor still has to look at
when the call is done; a call from outside leaves none. -/
inductive Frame
  /-- past the tests under the lock -/
  | entering (entry : Entry)
  /-- about to call `execute_entry_fn` -/
  | ordering (entry : Entry) (qty : Int) (price : ℚ)
  /-- the entry went through and is about to be recorded -/
  | recording (entry : Entry) (qty : Int) (price : ℚ)
  /-- the position is out of the book -/
  | exiting (symbol : String) (position : Position) (rest : List String)
  /-- about to call `execute_exit_fn` -/
  | selling (symbol : String) (position : Position) (price : ℚ) (rest : List String)
  /-- about to record the outcome with the tracker -/
  | noting (symbol : String) (wasProfit : Bool) (rest : List String)
  /-- the monitor's loop, at the next symbol of its list -/
  | monitoring (rest : List String)
  /-- the monitor has copied a position -/
  | watching (symbol : String) (position : Position) (rest : List String)
  /-- the monitor has a price, and is about to note it in the book -/
  | pricing (symbol : String) (position : Position) (price : ℚ) (rest : List String)
  /-- the monitor exits a position, found in the book or not -/
  | stopping (symbol : String) (rest : List String)
deriving DecidableEq

/-- What a call to `get_price_fn` answers. -/
inductive PriceAnswer
  | price (value : Option ℚ)
  | raises
deriving DecidableEq

/-- What a call to `execute_entry_fn` or `execute_exit_fn` answers. `handled` is an exception that
the trader catches. -/
inductive OrderAnswer
  | returns (truthy : Bool)
  | raisesHandled
  | raisesOther
deriving DecidableEq, Repr

/-- What one stage of a call meets outside the trader; a missing callback answers as returning. -/
structure Answers where
  now : Time
  price : PriceAnswer := .price none
  order : OrderAnswer := .returns true
deriving DecidableEq

inductive TradeEvent
  /-- the entry went through -/
  | entered
  /-- the exit order went out -/
  | sold
  /-- the exit order raised -/
  | sellFailed
  /-- the price read raised after the position had left the book -/
  | abandoned
  /-- the record replaced another one for the symbol -/
  | overwritten
deriving DecidableEq, Repr

structure LogEntry where
  event : TradeEvent
  symbol : String
  qty : Int
deriving DecidableEq, Repr

structure Trader where
  config : TraderConfig
  positions : Dict String Position := Table.empty
  dailyTrades : Int := 0
  currentDay : Option Int := none
  reentryTrackers : Dict String ReentryTracker
  inFlight : List Frame := []
  log : List LogEntry := []

inductive TraderCall
  | enterPosition (entry : Entry)
  | exitPosition (symbol : String)
  | monitorPositions
  | resetDailyIfNeeded
deriving DecidableEq, Repr

/-- A turn starts a call or goes on with the one at a place among those in flight. -/
inductive TraderTurn
  | start (call : TraderCall) (answers : Answers)
  | resume (place : Nat) (answers : Answers)
deriving DecidableEq

def dayLength : Time := 24 * hour

/-- The clock starts on a Thursday. -/
def isMarketOpen (now : Time) : Bool :=
  let weekday := (now / dayLength + 3) % 7
  let minutes := (now % dayLength) / (60 * second)
  decide (weekday < 5 ∧ 9 * 60 + 15 ≤ minutes ∧ minutes < 15 * 60 + 30)

namespace Trader

def new (config : TraderConfig) : Trader where
  config := config
  reentryTrackers := buildReentryTrackers (config.assetMapIndex.rows.map Prod.fst)

variable (w : Trader)

def getPositionSize (symbol : String) (price : ℚ) : Int :=
  if price ≤ 0 then w.config.defaultQty
  else
    (w.config.defaultQtys.get? ((w.config.assetMapIndex.get? symbol).getD "EQUITY")).getD
      w.config.defaultQty

def canTrade (equitySymbols : List String) (now : Time) : Bool × String :=
  if equitySymbols = [] then (false, "No equity symbols configured")
  else if !isMarketOpen now then (false, "Market closed")
  else if w.config.maxDailyTrades ≤ w.dailyTrades then
    (false, "Max daily trades (" ++ toString w.config.maxDailyTrades ++ ") reached")
  else (true, "Trading allowed")

/-- The tests of `enter_position` under the lock. -/
def admits (entry : Entry) (now : Time) : Bool :=
  isMarketOpen now && decide (w.dailyTrades < w.config.maxDailyTrades) &&
    !w.positions.contains entry.symbol

def exitPnl (position : Position) (price : ℚ) : ℚ :=
  if position.direction = "SELL" then (position.entryPrice - price) * position.qty
  else (price - position.entryPrice) * position.qty

def recordTradeOutcome (symbol : String) (wasProfit : Bool) : Trader :=
  match w.reentryTrackers.get? symbol with
  | none => w
  | some t =>
      { w with reentryTrackers := w.reentryTrackers.set symbol (t.recordOutcome wasProfit) }

def resetDailyIfNeeded (now : Time) : Trader :=
  let today := now / dayLength
  if w.currentDay = some today then w
  else
    { w with
      currentDay := some today
      dailyTrades := 0
      reentryTrackers := w.reentryTrackers.mapValues ReentryTracker.resetDaily }

/-- The record of an entry that went through. -/
def recordEntry (entry : Entry) (qty : Int) (price : ℚ) (now : Time) : Trader :=
  let replaced := (w.positions.get? entry.symbol).toList.map fun old =>
    LogEntry.mk .overwritten entry.symbol old.qty
  { w with
    positions := w.positions.set entry.symbol
      { direction := entry.direction
        qty := qty
        entryPrice := price
        entryTime := now
        score := entry.score
        reason := entry.reason
        peakPrice := price
        assetClass := (w.config.assetMapIndex.get? entry.symbol).getD "UNKNOWN" }
    dailyTrades := w.dailyTrades + 1
    log := w.log ++ replaced }

/-- The current price and the peak, where the position is still there. -/
def notePrice (symbol : String) (price : ℚ) : Trader :=
  match w.positions.get? symbol with
  | none => w
  | some position =>
      { w with
        positions := w.positions.set symbol
          { position with
            currentPrice := some price
            peakPrice := if position.peakPrice < price then price else position.peakPrice } }

/-- Whether the monitor exits at this price. -/
def stops (position : Position) (price : ℚ) : Bool :=
  let move := (price - position.entryPrice) / position.entryPrice
  if position.direction = "BUY" then
    decide (move ≤ -(1 - w.config.slPct) ∨ w.config.targetPct - 1 ≤ move)
  else decide (1 - w.config.slPct ≤ move ∨ move ≤ -(w.config.targetPct - 1))

/-- The re-entry test and the price of an entry; `none` is a refusal. -/
def prepareEntry (entry : Entry) (a : Answers) : Option Frame :=
  let allowed := match w.reentryTrackers.get? entry.symbol with
    | none => true
    | some t => (t.evaluateReentry w.config.reentry a.now entry.score entry.direction).allowed
  if !allowed then none
  else
    match a.price with
    | .price (some price) =>
        if price ≤ 0 then none
        else some (.ordering entry (w.getPositionSize entry.symbol price) price)
    | _ => none

/-- Taking a position out of the book. -/
def popPosition (symbol : String) (rest : List String) : Trader × List Frame :=
  match w.positions.get? symbol with
  | none => (w, [.monitoring rest])
  | some position =>
      ({ w with positions := w.positions.erase symbol }, [.exiting symbol position rest])

def note (event : TradeEvent) (symbol : String) (qty : Int) : Trader :=
  { w with log := w.log ++ [⟨event, symbol, qty⟩] }

/-- The next stage of a call: what it leaves of the trader, and the frame that follows, if any. -/
def stage (a : Answers) : Frame → Trader × List Frame
  | .entering entry => (w, (w.prepareEntry entry a).toList)
  | .ordering entry qty price =>
      match a.order with
      | .returns true => (w.note .entered entry.symbol qty, [.recording entry qty price])
      | _ => (w, [])
  | .recording entry qty price => (w.recordEntry entry qty price a.now, [])
  | .exiting symbol position rest =>
      match a.price with
      | .raises => (w.note .abandoned symbol position.qty, [])
      | .price value =>
          -- a price of zero counts as missing
          let price := if value = some 0 then position.entryPrice
            else value.getD position.entryPrice
          (w, [.selling symbol position price rest])
  | .selling symbol position price rest =>
      match a.order with
      | .returns _ =>
          (w.note .sold symbol position.qty,
            [.noting symbol (decide (0 < exitPnl position price)) rest])
      | .raisesHandled =>
          (w.note .sellFailed symbol position.qty,
            [.noting symbol (decide (0 < exitPnl position price)) rest])
      | .raisesOther => (w.note .sellFailed symbol position.qty, [])
  | .noting symbol wasProfit rest => (w.recordTradeOutcome symbol wasProfit, [.monitoring rest])
  | .monitoring [] => (w, [])
  | .monitoring (symbol :: rest) =>
      match w.positions.get? symbol with
      | none => (w, [.monitoring rest])
      | some position => (w, [.watching symbol position rest])
  | .watching symbol position rest =>
      match a.price with
      | .raises => (w, [])
      | .price none => (w, [.monitoring rest])
      | .price (some price) =>
          if price ≤ 0 ∨ position.entryPrice ≤ 0 then (w, [.monitoring rest])
          else (w, [.pricing symbol position price rest])
  | .pricing symbol position price rest =>
      (w.notePrice symbol price,
        [if w.stops position price then .stopping symbol rest else .monitoring rest])
  | .stopping symbol rest => w.popPosition symbol rest

/-- The first stage of a call. -/
def begin (a : Answers) : TraderCall → Trader × List Frame
  | .enterPosition entry => (w, if w.admits entry a.now then [.entering entry] else [])
  | .exitPosition symbol => w.popPosition symbol []
  | .monitorPositions => (w, [.monitoring (w.positions.rows.map Prod.fst)])
  | .resetDailyIfNeeded => (w.resetDailyIfNeeded a.now, [])

def turn : TraderTurn → Trader
  | .start call a =>
      let r := w.begin a call
      { r.1 with inFlight := r.1.inFlight ++ r.2 }
  | .resume place a =>
      match w.inFlight[place]? with
      | none => w
      | some frame =>
          let r := w.stage a frame
          { r.1 with inFlight := replaceAt r.1.inFlight place r.2 }

end Trader

end AutoTrade.Trading
