import AutoTrade.Backtest.OptionPremium

/-! # The candle backtest

`CandleBacktestEngine.run` of `candle_backtest.py`, one step for each bar after
the warm-up: a pending order that falls due becomes a position, a position is
checked for its exit, and without a position a signal is looked for. The
resampling of bars, the signal evaluation, the snapshot store and the square
root are parameters of the engine. Of the metrics only the drawdown is kept.
-/

namespace AutoTrade.Backtest

/-- A row of the 1-minute series with its index. -/
structure Bar where
  timestamp : Time
  openPrice : ℚ
  highPrice : ℚ
  lowPrice : ℚ
  closePrice : ℚ
  volume : ℚ
deriving DecidableEq, Repr

structure Frames where
  m1 : List Bar
  m5 : List Bar
  m15 : List Bar
deriving DecidableEq, Repr

/-- The arguments of `evaluate_dual_direction_signal` that vary. -/
structure SignalInput where
  frames : Frames
  vix : ℚ
  iv : ℚ
  oiSup : ℚ
  oiRes : ℚ
  pcr : ℚ
  smart : String
  isEarlySession : Bool
  dualDirectionEnabled : Bool
  counterTrendPenalty : Int
  meanReversionEnabled : Bool
  tfDivergenceFallback : Bool

/-- The entries of the finalized signal that the engine reads; the rest goes into the metadata. -/
structure Finalized (μ : Type) where
  action : String
  direction : String
  score : Int
  threshold : Int
  atr : Option ℚ := none
  mktRegime : Option String := none
  confidence : ℚ := 0
  signalReason : String := ""
  rest : μ

/-- `π` stands for partial signals and `μ` for the metadata no code of the engine reads. -/
structure CandleBacktestEngine (π μ : Type) where
  name : String := "NIFTY"
  isEarlySession : Bool := false
  sqrt : ℚ → ℚ
  /-- `window.resample(rule, label="right", closed="right").agg(agg).dropna(...)`, by minutes. -/
  resample : Nat → List Bar → List Bar
  evaluate : SignalInput → Option π
  partialScore : π → Int
  /-- From the partial signal, the threshold and the bar in the trace id. -/
  finalize : π → Int → Nat → Finalized μ
  /-- `get_pcr_at` of the store at a path; an error counts as no snapshot. -/
  pcrAt : String → Time → Option ℚ

structure CandleBacktestConfig where
  initialCapital : ℚ := 100000
  qty : Int := 1
  warmupBars : Int := 35
  latencyBars : Int := 1
  slippagePct : ℚ := 5 / 10000
  spreadPct : ℚ := 2 / 10000
  feePerLot : ℚ := 40
  maxBarsInTrade : Int := 40
  cooldownBars : Int := 30
  vix : ℚ := 14
  iv : ℚ := 0
  baseAiThreshold : Int := 65
  scoreGap : Int := 5
  tpAtrMult : ℚ := 1618 / 1000
  slAtrMult : ℚ := 12 / 10
  useOptionModel : Bool := true
  dte : Int := 3
  deltaScale : ℚ := 15 / 10
  useRegimeRr : Bool := true
  oiSnapshotDb : String := ""
  strictOi : Bool := true
  dualDirectionEnabled : Bool := true
  counterTrendPenalty : Int := 10
  meanReversionEnabled : Bool := true
  tfDivergenceFallback : Bool := true

structure SignalMeta (μ : Type) where
  confidence : ℚ
  signalReason : String
  mktRegime : String
  rest : μ

structure Pending (μ : Type) where
  enterOnIdx : Nat
  direction : String
  refPrice : ℚ
  atr : ℚ
  tpMult : ℚ
  slMult : ℚ
  score : Int
  threshold : Int
  regime : String
  signalMeta : SignalMeta μ

structure Position (μ : Type) where
  entryIdx : Nat
  entryTime : Time
  entryPrice : ℚ
  stopLoss : ℚ
  tp : ℚ
  direction : String
  qty : Int
  entryPremium : ℚ
  optSpec : Option OptionTradeSpec
  signalMeta : SignalMeta μ
  score : Int
  threshold : Int
  regime : String
  maxBars : Int

structure TradeJournalRow (μ : Type) where
  entryTime : Time
  exitTime : Time
  entryPrice : ℚ
  exitPrice : ℚ
  entryPremium : ℚ
  exitPremium : ℚ
  direction : String
  grossPnl : ℚ
  netPnl : ℚ
  exitReason : String
  barsHeld : Int
  score : Int
  threshold : Int
  confidence : ℚ
  rrAchieved : ℚ
  pctPnl : ℚ
  regime : String
  signalReason : String
  signalMetadata : SignalMeta μ

/-- `journal` pairs each row with the bar it was written at. -/
structure BacktestState (μ : Type) where
  journal : List (Nat × TradeJournalRow μ) := []
  equity : List ℚ := []
  capital : ℚ
  peak : ℚ
  maxDd : ℚ := 0
  position : Option (Position μ) := none
  pending : Option (Pending μ) := none
  cooldownUntil : Int := -1
  syntheticBars : Nat := 0
  totalSignalBars : Nat := 0

structure CandleBacktestResult (μ : Type) where
  journal : List (Nat × TradeJournalRow μ)
  equityCurve : List ℚ
  maxDrawdownPct : ℚ
  endingCapital : ℚ

/-- `_synthetic_oi`: support, resistance, put-call ratio and bias. -/
def syntheticOi (price : ℚ) : ℚ × ℚ × ℚ × String :=
  if price ≤ 0 then (0, 0, 1, "NEUTRAL")
  else (roundTo 2 (price * (99 / 100)), roundTo 2 (price * (101 / 100)), 1, "NEUTRAL")

/-- `_historical_oi` from the put-call ratio found. -/
def historicalOi (price : ℚ) (pcr : Option ℚ) : Option (ℚ × ℚ × ℚ × String) :=
  pcr.map fun p =>
    (roundTo 2 (price * (99 / 100)), roundTo 2 (price * (101 / 100)), p,
      if 12 / 10 < p then "BULLISH" else if p < 8 / 10 then "BEARISH" else "NEUTRAL")

/-- The fee both `_execute_pending` and `_close_trade` take off. -/
def CandleBacktestConfig.fee (cfg : CandleBacktestConfig) : ℚ := cfg.feePerLot * cfg.qty

def CandleBacktestConfig.warmup (cfg : CandleBacktestConfig) : Nat := (max 20 cfg.warmupBars).toNat

namespace CandleBacktestEngine

variable {π μ : Type} (engine : CandleBacktestEngine π μ) (cfg : CandleBacktestConfig)

/-- `_build_frames`: the rows up to this one, and their resampled bars. -/
def buildFrames (bars : List Bar) (upto : Nat) : Frames :=
  let window := bars.take (upto + 1)
  { m1 := window, m5 := engine.resample 5 window, m15 := engine.resample 15 window }

def executePending (pending : Pending μ) (idx : Nat) (ts : Time) (capital : ℚ) : Position μ × ℚ :=
  let call := pending.direction = "CALL"
  let entryIdx := if call then pending.refPrice * (1 + cfg.slippagePct + cfg.spreadPct * (1 / 2))
    else pending.refPrice * (1 - cfg.slippagePct - cfg.spreadPct * (1 / 2))
  let slIdx := if call then entryIdx - pending.atr * pending.slMult
    else entryIdx + pending.atr * pending.slMult
  let tpIdx := if call then entryIdx + pending.atr * pending.tpMult
    else entryIdx - pending.atr * pending.tpMult
  let optSpec := if cfg.useOptionModel then
      some (buildOptionTrade engine.sqrt engine.name pending.direction entryIdx pending.atr cfg.vix
        slIdx tpIdx cfg.dte cfg.deltaScale)
    else none
  ({ entryIdx := idx
     entryTime := ts
     entryPrice := roundTo 4 entryIdx
     stopLoss := roundTo 4 slIdx
     tp := roundTo 4 tpIdx
     direction := pending.direction
     qty := cfg.qty
     entryPremium := roundTo 2 (optSpec.elim 0 OptionTradeSpec.entryPremium)
     optSpec := optSpec
     signalMeta := pending.signalMeta
     score := pending.score
     threshold := pending.threshold
     regime := pending.regime
     maxBars := cfg.maxBarsInTrade },
    roundTo 2 (capital - cfg.fee))

/-- `_maybe_exit_bar`: the exit price and its reason. -/
def maybeExitBar (position : Position μ) (row : Bar) (idx : Nat) : Option (ℚ × String) :=
  let call := position.direction = "CALL"
  if (if call then row.lowPrice ≤ position.stopLoss else position.stopLoss ≤ row.highPrice) then
    some (position.stopLoss, "stop_loss")
  else if (if call then position.tp ≤ row.highPrice else row.lowPrice ≤ position.tp) then
    some (position.tp, "take_profit")
  else if position.maxBars ≤ (idx : Int) - position.entryIdx then
    some (row.closePrice, "time_exit")
  else none

/-- The figures of a closed trade: gross, net, exit premium, reward to risk and percentage. -/
structure TradePnl where
  gross : ℚ
  net : ℚ
  exitPrem : ℚ := 0
  rr : ℚ := 0
  pctPnl : ℚ := 0

/-- The profit in `_close_trade`, in option space or in index points. -/
def tradePnl (position : Position μ) (exitIndex : ℚ) : TradePnl :=
  match if cfg.useOptionModel then position.optSpec else none with
  | some spec =>
      let pnl := calcOptionPnl spec exitIndex cfg.feePerLot
      { gross := pnl.grossPnlPerLot * position.qty, net := pnl.netPnlPerLot * position.qty
        exitPrem := pnl.exitPremium, rr := pnl.rrAchieved, pctPnl := pnl.pctPnl }
  | none =>
      let gross := if position.direction = "CALL" then
          (exitIndex - position.entryPrice) * position.qty
        else (position.entryPrice - exitIndex) * position.qty
      { gross := gross, net := gross - cfg.feePerLot * position.qty
        pctPnl := if 0 < position.entryPrice then
            (exitIndex - position.entryPrice) / position.entryPrice * 100
          else 0 }

/-- The exit price with slippage, upwards in both directions. -/
def slippedExit (exitIndex : ℚ) : ℚ :=
  exitIndex * (1 + (cfg.slippagePct + cfg.spreadPct * (1 / 2)))

def journalRow (position : Position μ) (ts : Time) (exitIndex : ℚ) (reason : String) (idx : Nat) :
    TradeJournalRow μ :=
  let pnl := tradePnl cfg position exitIndex
  { entryTime := position.entryTime
    exitTime := ts
    entryPrice := roundTo 4 position.entryPrice
    exitPrice := roundTo 4 exitIndex
    entryPremium := roundTo 2 position.entryPremium
    exitPremium := roundTo 2 pnl.exitPrem
    direction := position.direction
    grossPnl := roundTo 2 pnl.gross
    netPnl := roundTo 2 pnl.net
    exitReason := reason
    barsHeld := (idx : Int) - position.entryIdx
    score := position.score
    threshold := position.threshold
    confidence := position.signalMeta.confidence
    rrAchieved := roundTo 3 pnl.rr
    pctPnl := roundTo 2 pnl.pctPnl
    regime := position.regime
    signalReason := position.signalMeta.signalReason
    signalMetadata := position.signalMeta }

/-- `_close_trade`: the capital, its peak and the drawdown, and the row for the journal. -/
def closeTrade (s : BacktestState μ) (position : Position μ) (ts : Time) (exitPx : ℚ)
    (reason : String) (idx : Nat) : BacktestState μ :=
  let exitIndex := slippedExit cfg exitPx
  let capital := roundTo 2 (s.capital + (tradePnl cfg position exitIndex).net)
  let peak := max s.peak capital
  { s with
    capital := capital
    peak := peak
    maxDd := if 0 < peak then max s.maxDd ((peak - capital) / peak * 100) else s.maxDd
    journal := s.journal ++ [(idx, journalRow cfg position ts exitIndex reason idx)] }

/-- The put-call ratio on file for this bar, if a snapshot store is configured. -/
def oiOnFile (row : Bar) : Option (ℚ × ℚ × ℚ × String) :=
  if cfg.oiSnapshotDb = "" then none
  else historicalOi row.closePrice (engine.pcrAt cfg.oiSnapshotDb row.timestamp)

/-- The signal of a bar, where it passes the score gap and is to be bought. -/
def signalAt (bars : List Bar) (row : Bar) (idx : Nat) : Option (Finalized μ) :=
  let oi := (engine.oiOnFile cfg row).getD (syntheticOi row.closePrice)
  let input : SignalInput :=
    { frames := engine.buildFrames bars idx
      vix := cfg.vix
      iv := cfg.iv
      oiSup := oi.1
      oiRes := oi.2.1
      pcr := oi.2.2.1
      smart := oi.2.2.2
      isEarlySession := engine.isEarlySession
      dualDirectionEnabled := cfg.dualDirectionEnabled
      counterTrendPenalty := cfg.counterTrendPenalty
      meanReversionEnabled := cfg.meanReversionEnabled
      tfDivergenceFallback := cfg.tfDivergenceFallback }
  (engine.evaluate input).bind fun p =>
    if engine.partialScore p < cfg.baseAiThreshold + cfg.scoreGap then none
    else
      let finalized := engine.finalize p cfg.baseAiThreshold idx
      if finalized.action = "BUY" then some finalized else none

/-- The bar a signal is to be executed on. -/
def enterOn (idx : Nat) : Nat := idx + (max 0 cfg.latencyBars).toNat

/-- The order a signal leaves: its reference price is read from the bar it will be executed on. -/
def newPending (finalized : Finalized μ) (enterOnIdx : Nat) (refRow : Bar) : Pending μ :=
  let refPrice := refRow.openPrice
  let regime := orElse finalized.mktRegime "NEUTRAL"
  let mults := if cfg.useRegimeRr then regimeRrTargets regime cfg.slAtrMult cfg.tpAtrMult
    else (cfg.slAtrMult, cfg.tpAtrMult)
  { enterOnIdx := enterOnIdx
    direction := finalized.direction
    refPrice := refPrice
    atr := match finalized.atr with
      | none => refPrice * (5 / 1000)
      | some atr => if atr = 0 then refPrice * (5 / 1000) else atr
    tpMult := mults.2
    slMult := mults.1
    score := finalized.score
    threshold := finalized.threshold
    regime := regime
    signalMeta :=
      { confidence := finalized.confidence
        signalReason := finalized.signalReason
        mktRegime := regime
        rest := finalized.rest } }

/-- A pending order whose bar this is becomes a position. -/
def enterDue (s : BacktestState μ) (row : Bar) (idx : Nat) : BacktestState μ :=
  match s.pending with
  | none => s
  | some pending =>
      if pending.enterOnIdx = idx then
        let entered := engine.executePending cfg pending idx row.timestamp s.capital
        { s with position := some entered.1, capital := entered.2, pending := none }
      else s

/-- The search for a signal; an order behind the last bar is dropped. -/
def lookForSignal (bars : List Bar) (s : BacktestState μ) (row : Bar) (idx : Nat) :
    BacktestState μ :=
  let counted := { s with
    totalSignalBars := s.totalSignalBars + 1
    syntheticBars := s.syntheticBars + if (engine.oiOnFile cfg row).isSome then 0 else 1 }
  match engine.signalAt cfg bars row idx with
  | none => counted
  | some finalized =>
      match bars[enterOn cfg idx]? with
      | none => counted
      | some refRow =>
          { counted with pending := some (newPending cfg finalized (enterOn cfg idx) refRow) }

/-- The search changes the pending order and the counts only. -/
theorem lookForSignal_frame (bars : List Bar) (s : BacktestState μ) (row : Bar) (idx : Nat) :
    ∃ pending synthetic total, engine.lookForSignal cfg bars s row idx =
      { s with pending := pending, syntheticBars := synthetic, totalSignalBars := total } := by
  unfold lookForSignal
  cases engine.signalAt cfg bars row idx with
  | none => exact ⟨_, _, _, rfl⟩
  | some finalized =>
      cases bars[enterOn cfg idx]? with
      | none => exact ⟨_, _, _, rfl⟩
      | some refRow => exact ⟨_, _, _, rfl⟩

/-- The rest of a bar: the exit of the position, else the bar's point of the curve and, without a
position, the search for a signal. -/
def finishBar (bars : List Bar) (s : BacktestState μ) (row : Bar) (idx : Nat) : BacktestState μ :=
  match s.position.bind fun position => (maybeExitBar position row idx).map (position, ·) with
  | some (position, exitPx, reason) =>
      let closed := closeTrade cfg s position row.timestamp exitPx reason idx
      { closed with
        position := none
        cooldownUntil := idx + cfg.cooldownBars
        equity := closed.equity ++ [closed.capital] }
  | none =>
      let kept := { s with equity := s.equity ++ [s.capital] }
      if s.position.isSome ∨ (idx : Int) < s.cooldownUntil then kept
      else engine.lookForSignal cfg bars kept row idx

/-- One bar of the loop. -/
def step (bars : List Bar) (s : BacktestState μ) (entry : Bar × Nat) : BacktestState μ :=
  engine.finishBar cfg bars (engine.enterDue cfg s entry.1 entry.2) entry.1 entry.2

/-- The bars after the warm-up, each with its number. -/
def loopBars (bars : List Bar) : List (Bar × Nat) := (bars.drop cfg.warmup).zipIdx cfg.warmup

def start : BacktestState μ := { capital := cfg.initialCapital, peak := cfg.initialCapital }

def loop (bars : List Bar) : BacktestState μ :=
  (loopBars cfg bars).foldl (engine.step cfg bars) (start cfg)

/-- The share of bars without a snapshot. -/
def oiFallbackFrac (s : BacktestState μ) : ℚ :=
  if s.totalSignalBars = 0 then 1 else s.syntheticBars / s.totalSignalBars

/-- `run`: the checks after the loop, and the result. The metrics of a run with trades divide by the
initial capital. -/
def run (bars : List Bar) : Except String (CandleBacktestResult μ) :=
  let s := engine.loop cfg bars
  let frac := oiFallbackFrac s
  if cfg.strictOi ∧ 20 / 100 < frac then
    .error ("--strict-backtest: OI coverage " ++ formatWhole (100 * (1 - frac)) ++ "% < 80% (" ++
      toString s.syntheticBars ++ "/" ++ toString s.totalSignalBars ++
      " bars used synthetic fallback). " ++
      "Aborting. Run without --strict-backtest to proceed with fallback data.")
  else if s.journal ≠ [] ∧ cfg.initialCapital = 0 then .error "float division by zero"
  else .ok
    { journal := s.journal
      equityCurve := s.equity
      maxDrawdownPct := roundTo 4 s.maxDd
      endingCapital := roundTo 2 s.capital }

end CandleBacktestEngine

/-! ## A sample engine -/

/-- Buys a call after every bar that closes above its opening price. -/
def sampleEngine : CandleBacktestEngine Unit Unit where
  sqrt := id
  resample _ window := window
  evaluate input := if input.frames.m1.getLast?.any fun row => row.openPrice < row.closePrice then
      some ()
    else none
  partialScore _ := 80
  finalize _ threshold _ :=
    { action := "BUY", direction := "CALL", score := 80, threshold := threshold, atr := some 10
      rest := () }
  pcrAt _ _ := none

/-- One bar a minute around the same price. -/
def sampleBars (first count : Nat) (price : ℚ) : List Bar :=
  (List.range' first count).map fun i =>
    { timestamp := i * 60 * second, openPrice := price, highPrice := price + 5
      lowPrice := price - 5, closePrice := price + 1, volume := 1000 }

end AutoTrade.Backtest
