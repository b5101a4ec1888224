import AutoTrade.Events.EventStore
import AutoTrade.Risk.OptionsGreeks
import AutoTrade.Risk.PositionSizing
import AutoTrade.Risk.RiskService
import AutoTrade.Safety.HardHalt

/-! # The gate of the risk service

`core/services/risk_service.py`: `evaluate_trade` with its checks, the limits that can be
changed while the service runs, and the count of the day's entries. What the
callbacks and the clock report to a call are its readings. A call that raises
keeps what it changed before.
-/

namespace AutoTrade.Risk

open AutoTrade.Events (strip)
open AutoTrade.Library
open AutoTrade.Safety

/-- The limits of `RiskLimitsManager`. -/
structure LimitConfig where
  maxDailyLoss : ℚ := -2000
  maxDailyTrades : Int := 10
  maxOpenPositions : Int := 1
  maxPortfolioRisk : ℚ := 1 / 4
  maxConsecutiveLosses : Int := 3
deriving DecidableEq, Repr

/-- The configuration of the service; sizing reads the part it extends. -/
structure GateConfig extends RiskServiceConfig where
  defaultRiskPerTrade : ℚ := 1 / 50
  maxDailyLoss : ℚ := -2000
  maxDailyTrades : Int := 10
  maxOpenPositions : Int := 1
  maxConsecutiveLosses : Int := 3
  lossResetHours : Int := 6
  marginSafetyFactor : ℚ := 4 / 5
  minVolumeRatio : ℚ := 1 / 2
  maxSpreadPct : ℚ := 2
deriving DecidableEq, Repr

def GateConfig.limitConfig (c : GateConfig) : LimitConfig where
  maxDailyLoss := c.maxDailyLoss
  maxDailyTrades := c.maxDailyTrades
  maxOpenPositions := c.maxOpenPositions
  maxPortfolioRisk := c.maxPortfolioRisk
  maxConsecutiveLosses := c.maxConsecutiveLosses

/-- The service, with the halt and the losses in a row that `core/safety_state.py` keeps. -/
structure TradeGate where
  config : GateConfig
  limits : LimitConfig
  configuredLot : String → LotValue
  positions : Dict String TrackedPosition := Table.empty
  peakPnl : ℚ := 0
  maxDrawdown : ℚ := 0
  lastLossReset : Time
  tradeEntryTimes : List Time := []
  safety : SafetyState := {}

inductive RiskDecision
  | allowed
  | denied
deriving DecidableEq, Repr

structure RiskEvaluation where
  decision : RiskDecision
  reason : String
  recommendedPositionSize : Option Int := none
  maxAllowedPositionSize : Option Int := none
  riskScore : ℚ := 0
deriving DecidableEq, Repr

/-- What `safe_num` reads in the fields of a signal: nothing where a field is missing or holds no
finite number. A direction that is no text has the text of the error it raises. -/
structure SignalData where
  direction : Except String String := .ok ""
  price : Option ℚ := none
  stopLoss : Option ℚ := none
  strength : Option ℚ := none
  quantity : Option ℚ := none
  stopLossPct : Option ℚ := none
  volumeRatio : Option ℚ := none
  spreadPct : Option ℚ := none
  tteDays : Option ℚ := none
  iv : Option ℚ := none
  strike : Option ℚ := none

/-- A callback answers, raises one of the errors that its caller handles, or another. -/
inductive Reading (α : Type)
  | answer (a : α)
  | handled
  | raised (e : PyExc)

/-- The callbacks behind the portfolio metrics. `get_portfolio_risk_metrics` handles every class
that its callers handle but `AttributeError`. -/
inductive MetricsReading
  | answer (capital dailyPnl : ℚ) (openPositions : Int)
  | handled
  | attributeError
  | raised (e : PyExc)

/-- What one call of `evaluate_trade` is told. -/
structure Answers where
  now : Time
  metrics : MetricsReading
  margin : ℚ → Except PyExc ℚ
  volatility : Except PyExc (Option ℚ)
  capital : CapitalReading
  scoreVolatility : Reading (Option ℚ)

/-! ## The limits -/

inductive RiskLimit
  | maxDailyLoss
  | maxTradesDay
  | maxOpen
  | maxPortfolioRisk
  | maxConsecutiveLosses
deriving DecidableEq, Repr

/-- A row of `field_map`: its key, whether the value is an `int`, and the bounds with their
texts. -/
structure LimitField where
  key : String
  limit : RiskLimit
  whole : Bool
  minimum : Option (ℚ × String)
  maximum : Option (ℚ × String)
deriving DecidableEq, Repr

def fieldMap : List LimitField :=
  [⟨"MAX_DAILY_LOSS", .maxDailyLoss, false, none, some (-1 / 1000000, "-1e-06")⟩,
    ⟨"MAX_TRADES_DAY", .maxTradesDay, true, some (1, "1"), none⟩,
    ⟨"MAX_OPEN", .maxOpen, true, some (1, "1"), none⟩,
    ⟨"MAX_PORTFOLIO_RISK", .maxPortfolioRisk, false, some (0, "0.0"), some (1, "1.0")⟩,
    ⟨"MAX_CONSECUTIVE_LOSSES", .maxConsecutiveLosses, true, some (1, "1"), none⟩]

/-- What `float(value)` makes of a value. -/
inductive FloatReading
  | number (q : ℚ)
  | notFinite
  | unreadable
deriving DecidableEq, Repr

structure LimitValue where
  text : String
  float : FloatReading
deriving DecidableEq, Repr

/-- The number a row accepts, or the text of the error. -/
def LimitField.convert (f : LimitField) (value : LimitValue) : Except String ℚ :=
  match value.float with
  | .unreadable => .error ("Invalid value for " ++ f.key ++ ": " ++ value.text)
  | .notFinite =>
      -- `int()` raises on it, and is handled
      if f.whole then .error ("Invalid value for " ++ f.key ++ ": " ++ value.text)
      else .error (f.key ++ " must be a finite numeric value")
  | .number q =>
      if f.whole = true ∧ (truncate q : ℚ) ≠ q then
        .error ("Invalid value for " ++ f.key ++ ": " ++ value.text)
      else
        match f.minimum with
        | some (least, text) =>
            if q < least then .error (f.key ++ " must be >= " ++ text) else upper q
        | none => upper q
where
  upper (q : ℚ) : Except String ℚ :=
    match f.maximum with
    | some (most, text) => if most < q then .error (f.key ++ " must be <= " ++ text) else .ok q
    | none => .ok q

def LimitConfig.value (l : LimitConfig) : RiskLimit → ℚ
  | .maxDailyLoss => l.maxDailyLoss
  | .maxTradesDay => l.maxDailyTrades
  | .maxOpen => l.maxOpenPositions
  | .maxPortfolioRisk => l.maxPortfolioRisk
  | .maxConsecutiveLosses => l.maxConsecutiveLosses

def LimitConfig.assign (l : LimitConfig) (limit : RiskLimit) (q : ℚ) : LimitConfig :=
  match limit with
  | .maxDailyLoss => { l with maxDailyLoss := q }
  | .maxTradesDay => { l with maxDailyTrades := truncate q }
  | .maxOpen => { l with maxOpenPositions := truncate q }
  | .maxPortfolioRisk => { l with maxPortfolioRisk := q }
  | .maxConsecutiveLosses => { l with maxConsecutiveLosses := truncate q }

def GateConfig.assign (c : GateConfig) (limit : RiskLimit) (q : ℚ) : GateConfig :=
  match limit with
  | .maxDailyLoss => { c with maxDailyLoss := q }
  | .maxTradesDay => { c with maxDailyTrades := truncate q }
  | .maxOpen => { c with maxOpenPositions := truncate q }
  | .maxPortfolioRisk => { c with maxPortfolioRisk := q }
  | .maxConsecutiveLosses => { c with maxConsecutiveLosses := truncate q }

/-! ## The halt -/

/-- `trip_hard_halt`, called by a thread that no other one interrupts. -/
def tripHardHalt (s : SafetyState) (reason source : String) : SafetyState :=
  if s.hardHalt then s else { s with hardHaltReason := haltText reason source, hardHalt := true }

/-- Three turns of a thread, one after another, are the whole call. -/
theorem shared_three_turns {w : World} {t : Turn} {reason source : String}
    (hidle : w.positions t.thread = .idle) (hcall : t.call = .tripHardHalt reason source) :
    (run World.turn w [t, t, t]).shared = tripHardHalt w.shared reason source := by
  have haccess := World.access_idle hidle
  rw [hcall, begin] at haccess
  unfold tripHardHalt
  cases hset : w.shared.hardHalt with
  | true =>
      have hstays : (w.turn t).shared = w.shared ∧ (w.turn t).positions t.thread = .idle := by
        simp [haccess, hset]
      have hnext : (w.turn t).access t = ⟨.idle, w.shared, none⟩ := by
        rw [World.access_idle hstays.2, hstays.1, hcall, begin, hset]
        rfl
      have hlast : ((w.turn t).turn t).access t = ⟨.idle, w.shared, none⟩ := by
        have hposition : ((w.turn t).turn t).positions t.thread = .idle := by simp [hnext]
        rw [World.access_idle hposition, World.turn_shared, hnext, hcall, begin, hset]
        rfl
      show (((w.turn t).turn t).turn t).shared = w.shared
      rw [World.turn_shared, hlast]
  | false =>
      have hstoring : (w.turn t).positions t.thread = .storing (haltText reason source) .returns ∧
          (w.turn t).shared = w.shared := by
        simp [haccess, hset]
      have hnext := World.access_busy hstoring.1 nofun
      have hsetting : ((w.turn t).turn t).positions t.thread = .setting .returns := by
        simp [hnext, advance]
      have hlast := World.access_busy hsetting nofun
      show (((w.turn t).turn t).turn t).shared = _
      rw [World.turn_shared, hlast, World.turn_shared, hnext, hstoring.2]
      rfl

namespace TradeGate

/-- What `RiskServiceConfig` and the callbacks make of a new service. -/
def new (config : GateConfig) (configuredLot : String → LotValue) (safety : SafetyState)
    (now : Time) : TradeGate where
  config := config
  limits := config.limitConfig
  configuredLot := configuredLot
  lastLossReset := now
  safety := safety

/-! ## Tracked positions and their metrics -/

/-- The part of the service that tracks positions. -/
def tracker (g : TradeGate) : RiskService where
  config :=
    { maxDailyLoss := g.config.maxDailyLoss
      maxOpenPositions := g.config.maxOpenPositions
      maxConsecutiveLosses := g.config.maxConsecutiveLosses }
  configuredLot := g.configuredLot
  positions := g.positions
  peakPnl := g.peakPnl
  maxDrawdown := g.maxDrawdown

def withTracker (g : TradeGate) (s : RiskService) : TradeGate :=
  { g with positions := s.positions, peakPnl := s.peakPnl, maxDrawdown := s.maxDrawdown }

def updatePosition (g : TradeGate) (u : RiskService.PositionUpdate) : TradeGate :=
  g.withTracker (g.tracker.updatePosition u)

def removePosition (g : TradeGate) (symbol : String) : TradeGate :=
  g.withTracker (g.tracker.removePosition symbol)

/-- The metrics, or the error that gets out of the call. -/
def getPortfolioRiskMetrics (g : TradeGate) :
    MetricsReading → TradeGate × Except (Option PyExc) PortfolioRiskMetrics
  | .answer capital dailyPnl openPositions =>
      let read := g.tracker.getPortfolioRiskMetrics
        (some ⟨capital, dailyPnl, openPositions, g.safety.consecutiveLosses⟩)
      (g.withTracker read.1, .ok read.2)
  | .handled => (g, .ok g.tracker.failClosedMetrics)
  | .attributeError => (g, .error none)
  | .raised e => (g, .error (some e))

/-- Metrics without capital, and an `AttributeError`, give a risk of zero. -/
def estimatePortfolioRisk (g : TradeGate) (reading : MetricsReading) : TradeGate × Except PyExc ℚ :=
  match g.getPortfolioRiskMetrics reading with
  | (g', .ok metrics) =>
      (g', .ok (if metrics.totalCapital ≤ 0 then 0 else metrics.usedCapital / metrics.totalCapital))
  | (g', .error none) => (g', .ok 0)
  | (g', .error (some e)) => (g', .error e)

/-! ## Changes of a limit -/

/-- The value before and the new one, or the text of the error. -/
def updateRiskLimit (g : TradeGate) (name : String) (value : LimitValue) :
    TradeGate × Except String (ℚ × ℚ) :=
  match fieldMap.find? fun f => decide (f.key = (strip name).toUpper) with
  | none => (g, .error ("Unsupported runtime risk limit: " ++ name))
  | some f =>
      match f.convert value with
      | .error text => (g, .error text)
      | .ok q =>
          ({ g with config := g.config.assign f.limit q, limits := g.limits.assign f.limit q },
            .ok (g.config.limitConfig.value f.limit, q))

/-! ## Entries of the day -/

/-- Midnight before an instant of the IST clock. -/
def startOfDay (now : Time) : Time := now - now % (24 * hour)

def recordTradeEntry (g : TradeGate) (now : Time) : TradeGate :=
  { g with tradeEntryTimes := g.tradeEntryTimes ++ [now] }

def getTradesToday (g : TradeGate) (now : Time) : Nat :=
  g.tradeEntryTimes.countP fun t => decide (startOfDay now ≤ t)

/-- The clock is read for the hours since the last reset, at a reset of the losses, and for the
start of the day. -/
def resetDailyMetrics (g : TradeGate) (asked reset today : Time) : TradeGate :=
  let due := decide (g.config.lossResetHours ≤ totalSeconds asked g.lastLossReset / 3600)
  { g with
    peakPnl := 0
    maxDrawdown := 0
    safety := if due then g.safety.resetConsecutiveLosses else g.safety
    lastLossReset := if due then reset else g.lastLossReset
    tradeEntryTimes := g.tradeEntryTimes.filter fun t => decide (startOfDay today ≤ t) }

/-! ## The checks -/

section Checks

variable (floatText : ℚ → String) (compute : Greeks.Pricer)

def allow (reason : String) (riskScore : ℚ) : RiskEvaluation where
  decision := .allowed
  reason := reason
  riskScore := riskScore

def deny (reason : String) (riskScore : ℚ) : RiskEvaluation where
  decision := .denied
  reason := reason
  riskScore := riskScore

/-- `f"{x:.2%}"`. -/
def percentText (x : ℚ) : String := formatFixed 2 "" (x * 100) ++ "%"

/-- What a check leaves behind, and its evaluation or the error it raises. -/
abbrev Checked := TradeGate × Except PyExc RiskEvaluation

/-- A breach that halts every entry. -/
def denyAndHalt (g : TradeGate) (breach source reason : String) : Checked :=
  ({ g with safety := tripHardHalt g.safety breach source }, .ok (deny reason 1))

def checkDailyLossLimit (g : TradeGate) (portfolio : PortfolioRiskMetrics) : Checked :=
  if portfolio.dailyPnl ≤ g.config.maxDailyLoss then
    g.denyAndHalt
      ("Daily loss limit breached: " ++ floatText portfolio.dailyPnl ++ " <= " ++
        floatText g.config.maxDailyLoss)
      "RiskService._check_daily_loss_limit"
      ("Daily loss limit reached: " ++ formatFixed 2 "" portfolio.dailyPnl ++ " <= " ++
        formatFixed 2 "" g.config.maxDailyLoss)
  else (g, .ok (allow "Daily loss limit check passed" 0))

def checkConsecutiveLosses (g : TradeGate) (portfolio : PortfolioRiskMetrics) : Checked :=
  if g.config.maxConsecutiveLosses ≤ portfolio.consecutiveLosses then
    g.denyAndHalt
      ("Consecutive loss limit breached: " ++ toString portfolio.consecutiveLosses ++ " >= " ++
        toString g.config.maxConsecutiveLosses)
      "RiskService._check_consecutive_losses"
      ("Consecutive loss limit reached: " ++ toString portfolio.consecutiveLosses ++ " >= " ++
        toString g.config.maxConsecutiveLosses)
  else (g, .ok (allow "Consecutive loss limit check passed" 0))

def checkDailyTradeCount (g : TradeGate) (now : Time) : Checked :=
  let tradesToday := g.getTradesToday now
  if g.config.maxDailyTrades ≤ tradesToday then
    (g, .ok (deny ("Daily trade count limit reached: " ++ toString tradesToday ++ " >= " ++
      toString g.config.maxDailyTrades) (4 / 5)))
  else (g, .ok (allow "Daily trade count check passed" 0))

def checkPortfolioLimits (g : TradeGate) (portfolio : PortfolioRiskMetrics)
    (reading : MetricsReading) : Checked :=
  if g.config.maxOpenPositions ≤ portfolio.openPositionsCount then
    (g, .ok (deny ("Maximum open positions reached: " ++ toString portfolio.openPositionsCount ++
      " >= " ++ toString g.config.maxOpenPositions) (4 / 5)))
  else
    match g.estimatePortfolioRisk reading with
    | (g', .error e) => (g', .error e)
    | (g', .ok currentRisk) =>
        if g.config.maxPortfolioRisk < currentRisk then
          (g', .ok (deny ("Portfolio risk limit reached: " ++ percentText currentRisk ++ " > " ++
            percentText g.config.maxPortfolioRisk) (9 / 10)))
        else (g', .ok (allow "Portfolio limits check passed" (1 / 10)))

/-- The option that a direction stands for. -/
def optionType (direction : String) : Option Greeks.OptionType :=
  if direction = "CE" ∨ direction = "CALL" ∨ direction = "LONG" then some .ce
  else if direction = "PE" ∨ direction = "PUT" ∨ direction = "SHORT" then some .pe
  else none

def proposedGreeks (symbol direction : String) (option : Greeks.OptionType)
    (signalData : SignalData) : Greeks.PositionGreeksInput where
  symbol := symbol
  optionType := option
  direction := if direction = "SHORT" ∨ direction = "SELL" then "SHORT" else "LONG"
  spot := signalData.price.getD 0
  strike := signalData.strike.getD (signalData.price.getD 0)
  tteDays := signalData.tteDays.getD 3
  iv := signalData.iv.getD (3 / 20)
  quantityLots := max 1 (truncate (signalData.quantity.getD 1))

def heldGreeks (symbol : String) (p : TrackedPosition) : Greeks.PositionGreeksInput where
  symbol := symbol
  optionType := if p.optionType = "CE" then .ce else .pe
  direction := if 0 ≤ p.quantity then "LONG" else "SHORT"
  spot := p.entryPrice
  strike := p.strike
  tteDays := p.tteDays
  iv := p.iv
  quantityLots := max 1 |p.quantity|

/-- The engine is built with its own default limits. -/
def checkGreeksLimits (g : TradeGate) (symbol direction : String) (signalData : SignalData) :
    Checked :=
  if direction = "" ∨ signalData.price.getD 0 ≤ 0 then
    (g, .ok (allow "Greeks check skipped - missing direction or price" 0))
  else
    match optionType direction with
    | none => (g, .ok (allow "Greeks check skipped - unknown option type" 0))
    | some option =>
        match Greeks.checkPreTradeGreeks {} compute
            (proposedGreeks symbol direction option signalData)
            (g.positions.rows.map fun e => heldGreeks e.1 e.2) with
        | .error text =>
            (g, .ok (allow ("Greeks check errored (non-blocking): " ++ text) (1 / 5)))
        | .ok result =>
            let reasons := "; ".intercalate result.reasons
            match result.status with
            | .block => (g, .ok (deny ("Greeks limit blocked: " ++ reasons) (9 / 10)))
            | .warn => (g, .ok (allow ("Greeks limit warning: " ++ reasons) (2 / 5)))
            | .pass => (g, .ok (allow "Greeks limits check passed" 0))

/-- The quantity of the signal, or one sized by the risk and capped at five lots. -/
def intendedQuantity (g : TradeGate) (symbol : String) (signalData : SignalData)
    (availableCapital : ℚ) : ℚ :=
  let entryPrice := signalData.price.getD 0
  match signalData.quantity.filter fun q => decide (0 < q) with
  | some q => q
  | none =>
      let riskPerShare := entryPrice * signalData.stopLossPct.getD (1 / 20)
      if 0 < signalData.stopLossPct.getD (1 / 20) ∧ 0 < entryPrice then
        let calculated := if 0 < riskPerShare then
          truncate (availableCapital * g.config.defaultRiskPerTrade / riskPerShare) else 1
        ((max 1 (min calculated (g.tracker.getLotSize symbol * 5)) : Int) : ℚ)
      else 1

def validateMarginRequirements (g : TradeGate) (margin : ℚ → Except PyExc ℚ)
    (quantity capitalAvailable : ℚ) : Except PyExc Bool :=
  if quantity ≤ 0 then .ok true
  else
    match margin quantity with
    | .ok required => .ok (decide (required ≤ capitalAvailable * g.config.marginSafetyFactor))
    | .error e =>
        if e.caughtBy [.typeError, .valueError, .attributeError, .osError] then .ok false
        else .error e

def checkMarginRequirements (g : TradeGate) (symbol : String) (signalData : SignalData)
    (portfolio : PortfolioRiskMetrics) (margin : ℚ → Except PyExc ℚ) : Checked :=
  if signalData.price.getD 0 ≤ 0 then (g, .ok (deny "Invalid price for margin check" (1 / 2)))
  else
    match g.validateMarginRequirements margin
        (g.intendedQuantity symbol signalData portfolio.availableCapital)
        portfolio.availableCapital with
    | .error e => (g, .error e)
    | .ok false => (g, .ok (deny "Insufficient margin for position" (7 / 10)))
    | .ok true => (g, .ok (allow "Margin requirements check passed" (1 / 10)))

def checkTradeQuality (g : TradeGate) (signalData : SignalData) : Checked :=
  let volumeRatio := signalData.volumeRatio.getD 1
  let spreadPct := signalData.spreadPct.getD 0
  if volumeRatio < g.config.minVolumeRatio then
    (g, .ok (deny ("Insufficient volume ratio: " ++ formatFixed 2 "" volumeRatio ++ " < " ++
      formatFixed 2 "" g.config.minVolumeRatio) (3 / 5)))
  else if g.config.maxSpreadPct < spreadPct then
    (g, .ok (deny ("Excessive bid-ask spread: " ++ formatFixed 2 "" spreadPct ++ "% > " ++
      formatFixed 2 "" g.config.maxSpreadPct ++ "%") (3 / 5)))
  else (g, .ok (allow "Trade quality checks passed" (1 / 10)))

/-- It warns of a tight stop, and denies nothing. -/
def checkPositionSizingLimits (g : TradeGate) (signalData : SignalData) : Checked :=
  let entryPrice := signalData.price.getD 0
  let priceDiff := |entryPrice - signalData.stopLoss.getD 0|
  if (0 < entryPrice ∧ 0 < signalData.stopLoss.getD 0) ∧ priceDiff < entryPrice * (1 / 100) then
    (g, .ok { allow ("Very tight stop loss: " ++ percentText (priceDiff / entryPrice) ++
      " price distance") (3 / 10) with recommendedPositionSize := some 1 })
  else (g, .ok (allow "Position sizing limits check passed" 0))

/-! ## The evaluation -/

def checks (symbol direction : String) (signalData : SignalData) (portfolio : PortfolioRiskMetrics)
    (answers : Answers) : List (TradeGate → Checked) :=
  [fun g => g.checkDailyLossLimit floatText portfolio,
    fun g => g.checkConsecutiveLosses portfolio,
    fun g => g.checkDailyTradeCount answers.now,
    fun g => g.checkPortfolioLimits portfolio answers.metrics,
    fun g => g.checkGreeksLimits compute symbol direction signalData,
    fun g => g.checkMarginRequirements symbol signalData portfolio answers.margin,
    fun g => g.checkTradeQuality signalData,
    fun g => g.checkPositionSizingLimits signalData]

/-- The checks in their order, up to the first that denies or raises. -/
def runChecks : List (TradeGate → Checked) → TradeGate →
    TradeGate × Except PyExc (Option RiskEvaluation)
  | [], g => (g, .ok none)
  | check :: rest, g =>
      match check g with
      | (g', .error e) => (g', .error e)
      | (g', .ok evaluation) =>
          if evaluation.decision = .denied then (g', .ok (some evaluation)) else runChecks rest g'

def calculateRiskScore (g : TradeGate) (signalData : SignalData) (portfolio : PortfolioRiskMetrics)
    (volatility : Reading (Option ℚ)) : Except PyExc ℚ :=
  let loss :=
    if g.config.maxDailyLoss < 0 then
      min (3 / 10) (|portfolio.dailyPnl| / |g.config.maxDailyLoss| * (3 / 10))
    else 0
  let concentration :=
    if 0 < portfolio.totalCapital then
      min (1 / 5) (portfolio.usedCapital / portfolio.totalCapital * (1 / 5))
    else 0
  let strengthRisk := (100 - signalData.strength.getD 50) / 100
  match volatility with
  | .raised e => .error e
  | .handled | .answer none => .ok (1 / 2)
  | .answer (some v) =>
      .ok (min 1 (max 0
        (loss + concentration + min 1 (v / 50) * (1 / 5) + strengthRisk * (3 / 10))))

def sizingInput (g : TradeGate) (symbol : String) (signalData : SignalData)
    (portfolio : PortfolioRiskMetrics) (volatility : Option ℚ) : PositionSizingInput where
  symbol := symbol
  entryPrice := signalData.price.getD 0
  stopLossPrice := signalData.stopLoss.getD 0
  capitalAvailable := portfolio.availableCapital
  riskPerTrade := g.config.defaultRiskPerTrade
  lotSize := g.tracker.getLotSize symbol
  volatility := volatility

def recommendation (size : Int) (riskScore : ℚ) : RiskEvaluation where
  decision := .allowed
  reason := "All risk checks passed"
  recommendedPositionSize := some size
  maxAllowedPositionSize := some size
  riskScore := riskScore

/-- The evaluation once all checks have passed. -/
def recommend (g : TradeGate) (symbol : String) (signalData : SignalData)
    (portfolio : PortfolioRiskMetrics) (answers : Answers) : Except PyExc RiskEvaluation :=
  match answers.volatility with
  | .error e => .error e
  | .ok volatility =>
      match g.config.calculatePositionSize answers.capital
          (g.sizingInput symbol signalData portfolio volatility) with
      | .error e => .error e
      | .ok size =>
          match g.calculateRiskScore signalData portfolio answers.scoreVolatility with
          | .error e => .error e
          | .ok score => .ok (recommendation size score)

def evaluationError (text : String) : RiskEvaluation := deny ("Risk evaluation error: " ++ text) 1

/-- `except (KeyError, TypeError, ValueError, AttributeError)`. -/
def orDenied : Except PyExc RiskEvaluation → Except PyExc RiskEvaluation
  | .ok evaluation => .ok evaluation
  | .error e =>
      if e.caughtBy [.keyError, .typeError, .valueError, .attributeError] then
        .ok (evaluationError e.message)
      else .error e

def evaluateTrade (g : TradeGate) (symbol : String) (signalData : SignalData)
    (portfolio : PortfolioRiskMetrics) (answers : Answers) : Checked :=
  match signalData.direction with
  | .error text => (g, .ok (evaluationError text))
  | .ok direction =>
      if direction.toUpper = "" ∨ signalData.price.getD 0 ≤ 0 then
        (g, .ok (deny "Invalid signal data: missing direction or price" 0))
      else
        match runChecks
            (checks floatText compute symbol direction.toUpper signalData portfolio answers) g with
        | (g', .error e) => (g', orDenied (.error e))
        | (g', .ok (some evaluation)) => (g', .ok evaluation)
        | (g', .ok none) => (g', orDenied (g'.recommend symbol signalData portfolio answers))

end Checks

end TradeGate

/-- The calls of the service, with what the clock and the callbacks report to each. -/
inductive GateOp
  | evaluateTrade (symbol : String) (signalData : SignalData) (portfolio : PortfolioRiskMetrics)
      (answers : Answers)
  | updateRiskLimit (name : String) (value : LimitValue)
  | recordTradeEntry (now : Time)
  | resetDailyMetrics (asked reset today : Time)
  | updatePosition (u : RiskService.PositionUpdate)
  | removePosition (symbol : String)
  | getPortfolioRiskMetrics (reading : MetricsReading)
  | recordTradeOutcome (wasProfit : Bool)

namespace TradeGate

def step (floatText : ℚ → String) (compute : Greeks.Pricer) (g : TradeGate) : GateOp → TradeGate
  | .evaluateTrade symbol signalData portfolio answers =>
      (g.evaluateTrade floatText compute symbol signalData portfolio answers).1
  | .updateRiskLimit name value => (g.updateRiskLimit name value).1
  | .recordTradeEntry now => g.recordTradeEntry now
  | .resetDailyMetrics asked reset today => g.resetDailyMetrics asked reset today
  | .updatePosition u => g.updatePosition u
  | .removePosition symbol => g.removePosition symbol
  | .getPortfolioRiskMetrics reading => (g.getPortfolioRiskMetrics reading).1
  | .recordTradeOutcome wasProfit => { g with safety := (g.safety.recordTradeOutcome wasProfit).2 }

end TradeGate

end AutoTrade.Risk
