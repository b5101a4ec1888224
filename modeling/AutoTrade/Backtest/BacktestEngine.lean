import AutoTrade.Backtest.CandleEngine
import AutoTrade.Library.Run
import AutoTrade.Library.Table

/-! # The replay backtest

`BacktestEngine.run` of `backtest_engine.py`, one step for each bar after the
warm-up: an open position is checked for its exit, and where none is open and no
cooldown runs, the strategy engine is asked for a signal. The strategy engine
and the resampling of bars are parameters; the strategy engine may keep a state
of its own, which outlives the run.
-/

namespace AutoTrade.Backtest

open AutoTrade.Library

structure ReplayConfig where
  frameIntervals : List String := ["1min", "5min", "15min"]
  warmupBars : Int := 20

structure BacktestConfig where
  initialCapital : ℚ := 5000
  tradeSize : Int := 1
  signalEntryBuffer : Int := 0
  fallbackStopPct : ℚ := 1 / 100
  fallbackTargetPct : ℚ := 2 / 100
  maxBarsInTrade : Int := 20
  commissionPerTrade : ℚ := 0
  slippagePct : ℚ := 0
  cooldownBars : Int := 0

/-- The entries of a signal that the engine reads; a number is `none` where the entry is missing or
`float` refuses it. -/
structure RawSignal where
  score : Option ℚ := none
  threshold : Option ℚ := none
  direction : Option String := none
  stopLoss : Option ℚ := none
  tp2 : Option ℚ := none
  qty : Option Int := none
deriving DecidableEq, Repr

structure BacktestTrade where
  entryTime : Time
  exitTime : Time
  direction : String
  entryPrice : ℚ
  exitPrice : ℚ
  qty : Int
  grossPnl : ℚ
  netPnl : ℚ
  exitReason : String
  barsHeld : Int
  signalScore : ℚ
  signalThreshold : ℚ
deriving DecidableEq, Repr

structure BacktestReport where
  name : String
  initialCapital : ℚ
  endingCapital : ℚ
  trades : List BacktestTrade
  totalTrades : Nat
  wins : Nat
  losses : Nat
  winRate : ℚ
  netPnl : ℚ
  maxDrawdown : ℚ
deriving DecidableEq, Repr

/-- `generateSignal` answers `None` or an empty signal with `none`; `σ` is the state of the strategy
engine. -/
structure BacktestEngine (σ : Type) where
  generateSignal : σ → String → Dict String (List Bar) → ℚ → Option RawSignal × σ
  /-- `window.resample(rule, label="right", closed="right").agg(agg).dropna(...)`. -/
  resample : String → List Bar → List Bar
  replayConfig : ReplayConfig := {}
  cfg : BacktestConfig := {}

namespace BacktestEngine

/-- The dictionary that `run` keeps for an open position. -/
structure Position where
  entryIdx : Nat
  entryTime : Time
  entryPrice : ℚ
  stopLoss : ℚ
  target : ℚ
  direction : String
  qty : Int
  score : ℚ
  threshold : ℚ
deriving DecidableEq, Repr

structure State (σ : Type) where
  trades : List BacktestTrade := []
  capital : ℚ
  peakCapital : ℚ
  maxDrawdown : ℚ := 0
  position : Option Position := none
  cooldownUntil : Int := -1
  strategy : σ

/-- `interval_map.get(interval, interval)`. -/
def intervalRule (interval : String) : String :=
  if interval = "1m" then "1min"
  else if interval = "5m" then "5min"
  else if interval = "15m" then "15min"
  else interval

def frameKey (interval : String) : String :=
  if interval = "1min" ∨ interval = "1m" then "1m"
  else if interval = "5min" ∨ interval = "5m" then "5m"
  else if interval = "15min" ∨ interval = "15m" then "15m"
  else interval

variable {σ : Type} (engine : BacktestEngine σ)

def buildFrames (bars : List Bar) (upto : Nat) : Dict String (List Bar) :=
  let window := bars.take (upto + 1)
  let frames : Dict String (List Bar) := Dict.set Table.empty "1m" window
  engine.replayConfig.frameIntervals.foldl (fun frames interval =>
    let key := frameKey interval
    if key = "1m" then Dict.set frames key window
    else Dict.set frames key (engine.resample (intervalRule interval) window)) frames

/-- The exit price of an open position on a bar and its reason. -/
def exitOn (position : Position) (row : Bar) (idx : Nat) : Option (ℚ × String) :=
  let held : Int := (idx : Int) - position.entryIdx
  let levels :=
    if position.direction = "CALL" then
      if row.lowPrice ≤ position.stopLoss then some (position.stopLoss, "stop_loss")
      else if position.target ≤ row.highPrice then some (position.target, "target")
      else none
    else if position.stopLoss ≤ row.highPrice then some (position.stopLoss, "stop_loss")
    else if row.lowPrice ≤ position.target then some (position.target, "target")
    else none
  match levels with
  | some exit => some exit
  | none =>
      if engine.cfg.maxBarsInTrade ≤ held then some (row.closePrice, "time_exit") else none

def closeTrade (s : State σ) (position : Position) (row : Bar) (idx : Nat) (exitPrice : ℚ)
    (exitReason : String) : State σ :=
  let gross := if position.direction = "CALL" then
      (exitPrice - position.entryPrice) * position.qty
    else (position.entryPrice - exitPrice) * position.qty
  let net := gross - engine.cfg.commissionPerTrade
  let capital := roundTo 2 (s.capital + net)
  let peak := max s.peakCapital capital
  { s with
    capital := capital
    peakCapital := peak
    maxDrawdown := if 0 < peak then
        max s.maxDrawdown (roundTo 2 ((peak - capital) / peak * 100))
      else s.maxDrawdown
    trades := s.trades ++
      [{ entryTime := position.entryTime
         exitTime := row.timestamp
         direction := position.direction
         entryPrice := roundTo 4 position.entryPrice
         exitPrice := roundTo 4 exitPrice
         qty := position.qty
         grossPnl := roundTo 2 gross
         netPnl := roundTo 2 net
         exitReason := exitReason
         barsHeld := (idx : Int) - position.entryIdx
         signalScore := position.score
         signalThreshold := position.threshold }]
    position := none
    cooldownUntil := idx + engine.cfg.cooldownBars }

/-- The position that a signal opens at the close of its bar, where its score is high enough. -/
def openPosition (sig : RawSignal) (row : Bar) (idx : Nat) : Option Position :=
  let cfg := engine.cfg
  let score := sig.score.getD 0
  let threshold := sig.threshold.getD 0
  if score < threshold + cfg.signalEntryBuffer then none
  else
    let direction := (orElse sig.direction "CALL").toUpper
    let slipMult := if direction = "CALL" then 1 + cfg.slippagePct else 1 - cfg.slippagePct
    let entryPrice := roundTo 4 (row.closePrice * slipMult)
    let stopDefault := if direction = "CALL" then entryPrice * (1 - cfg.fallbackStopPct)
      else entryPrice * (1 + cfg.fallbackStopPct)
    let targetDefault := if direction = "CALL" then entryPrice * (1 + cfg.fallbackTargetPct)
      else entryPrice * (1 - cfg.fallbackTargetPct)
    some
      { entryIdx := idx
        entryTime := row.timestamp
        entryPrice := entryPrice
        stopLoss := sig.stopLoss.getD stopDefault
        target := sig.tp2.getD targetDefault
        direction := direction
        qty := if sig.qty.getD 0 = 0 then cfg.tradeSize else sig.qty.getD 0
        score := score
        threshold := threshold }

/-- Ask the strategy engine for a signal, and open its position. -/
def lookForSignal (name : String) (vix : ℚ) (bars : List Bar) (s : State σ) (row : Bar)
    (idx : Nat) : State σ :=
  let (sig, strategy) := engine.generateSignal s.strategy name (engine.buildFrames bars idx) vix
  { s with strategy := strategy, position := sig.bind fun sig => engine.openPosition sig row idx }

/-- One bar of the loop. -/
def step (name : String) (vix : ℚ) (bars : List Bar) (s : State σ) (entry : Bar × Nat) : State σ :=
  match s.position with
  | some position =>
      match engine.exitOn position entry.1 entry.2 with
      | some (exitPrice, exitReason) =>
          engine.closeTrade s position entry.1 entry.2 exitPrice exitReason
      | none => s
  | none =>
      if (entry.2 : Int) < s.cooldownUntil then s
      else engine.lookForSignal name vix bars s entry.1 entry.2

def warmup : Nat := (max 1 engine.replayConfig.warmupBars).toNat

/-- The bars after the warm-up, each with its number. -/
def loopBars (bars : List Bar) : List (Bar × Nat) :=
  (bars.drop engine.warmup).zipIdx engine.warmup

def start (strategy : σ) : State σ :=
  { capital := engine.cfg.initialCapital, peakCapital := engine.cfg.initialCapital
    strategy := strategy }

def loop (name : String) (vix : ℚ) (strategy : σ) (bars : List Bar) : State σ :=
  Library.run (engine.step name vix bars) (engine.start strategy) (engine.loopBars bars)

/-- The report, and the state the strategy engine is left in. -/
def run (name : String) (vix : ℚ) (strategy : σ) (bars : List Bar) : BacktestReport × σ :=
  let s := engine.loop name vix strategy bars
  let wins := s.trades.countP fun trade => 0 ≤ trade.netPnl
  let netPnl := roundTo 2 ((s.trades.map BacktestTrade.netPnl).sum)
  ({ name := name
     initialCapital := engine.cfg.initialCapital
     endingCapital := roundTo 2 (engine.cfg.initialCapital + netPnl)
     trades := s.trades
     totalTrades := s.trades.length
     wins := wins
     losses := s.trades.length - wins
     winRate := if s.trades = [] then 0 else roundTo 2 ((wins : ℚ) / s.trades.length * 100)
     netPnl := netPnl
     maxDrawdown := s.maxDrawdown }, s.strategy)

end BacktestEngine

/-- A strategy that never signals. -/
def silentEngine : BacktestEngine Unit where
  generateSignal _ _ _ _ := (none, ())
  resample _ window := window

end AutoTrade.Backtest
