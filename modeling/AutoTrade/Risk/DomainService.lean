import AutoTrade.Library.Table
import AutoTrade.Runtime
import Mathlib.Algebra.Order.BigOperators.Group.List

/-! # The domain risk service

`RiskService` of `core/domains/risk/service.py`: ten checks of a proposed trade,
of which the first that fails decides, and the size of a trade that passes them
all. Numbers are rational. The volatility of a series of returns, which takes a
square root, is a parameter of the calls that need it.
-/

namespace AutoTrade.Risk.Domain

open AutoTrade.Library

structure RiskLimits where
  maxPositionSize : Int := 100
  maxDailyLoss : ℚ := 1000
  maxDrawdown : ℚ := 1 / 5
  maxConsecutiveLosses : Int := 5
  maxPortfolioExposure : ℚ := 4 / 5
  maxVolatility : ℚ := 1 / 2
  maxLiquiditySize : Int := 500
  maxCorrelation : ℚ := 7 / 10
  maxOpenPositions : Int := 10
  targetVolatility : ℚ := 1 / 5
  useKellySizing : Bool := true
  kellyFraction : ℚ := 1 / 2
  minPositionSize : Int := 1
  accountEquity : ℚ := 100000
deriving DecidableEq, Repr

structure Position where
  symbol : String
  quantity : Int
  averagePrice : ℚ
  marketValue : ℚ
deriving DecidableEq, Repr

def Position.direction (p : Position) : String :=
  if 0 < p.quantity then "LONG" else if p.quantity < 0 then "SHORT" else "NEUTRAL"

/-- A closed trade; a key it lacks reads as `none`, and its result may be there without a value. -/
structure PastTrade where
  symbol : Option String
  direction : Option String
  pnl : Option (Option ℚ)
deriving DecidableEq, Repr

/-- A portfolio state, in which a key that is missing reads as empty. A price without a value counts as
missing, and a correlation that `float()` cannot read is `none`. -/
structure PortfolioState where
  positions : List Position := []
  prices : Dict String ℚ := Table.empty
  marketPrices : Dict String ℚ := Table.empty
  correlations : Dict String (Option ℚ) := Table.empty
  positionVolatilities : Dict String ℚ := Table.empty
  portfolioReturns : List ℚ := []
  tradeHistory : List PastTrade := []
  trades : List PastTrade := []

namespace PortfolioState

def listedPrices (state : PortfolioState) : Dict String ℚ :=
  if state.prices.rows = [] then state.marketPrices else state.prices

def closedTrades (state : PortfolioState) : List PastTrade :=
  if state.tradeHistory = [] then state.trades else state.tradeHistory

/-- The price listed for a symbol, or the average price of the first position in it. -/
def priceOf (state : PortfolioState) (symbol : String) : Option ℚ :=
  match state.listedPrices.get? symbol with
  | some price => some price
  | none => (state.positions.find? fun p => decide (p.symbol = symbol)).map Position.averagePrice

def totalValue (state : PortfolioState) : ℚ := (state.positions.map fun p => |p.marketValue|).sum

/-! ## Risk scores -/

/-- The Herfindahl index of the positions, normalised. -/
def concentrationRisk (state : PortfolioState) : ℚ :=
  if state.positions = [] ∨ state.totalValue = 0 then 0
  else
    let hhi := (state.positions.map fun p => (|p.marketValue| / state.totalValue) ^ 2).sum
    let minHhi : ℚ := 1 / state.positions.length
    let normalized := if minHhi < 1 then (hhi - minHhi) / (1 - minHhi) else 0
    min (max normalized 0) 1

/-- `_estimate_portfolio_volatility`: the volatilities of the positions by their weights, if there are
any, else that of the returns. -/
def estimateVolatility (returnsVolatility : List ℚ → ℚ) (state : PortfolioState) : ℚ :=
  let weights := state.positions.filterMap fun p =>
    (state.positionVolatilities.get? p.symbol).map fun vol => (|p.marketValue|, max vol 0)
  let total := (weights.map Prod.fst).sum
  if 0 < total then (weights.map fun w => w.1 / total * w.2).sum
  else if 2 ≤ state.portfolioReturns.length then returnsVolatility state.portfolioReturns
  else 0

def varRisk (returnsVolatility : List ℚ → ℚ) (state : PortfolioState) : ℚ :=
  min (state.estimateVolatility returnsVolatility / (1 / 2)) 1

/-- `_calculate_max_correlation`. -/
def maxCorrelation (state : PortfolioState) (symbol direction : String) : ℚ :=
  if state.positions = [] then 0
  else
    let observed := state.positions.filterMap fun p =>
      if p.symbol = symbol then some 1
      else
        (((state.correlations.get? (symbol ++ ":" ++ p.symbol)).or
          (state.correlations.get? (p.symbol ++ ":" ++ symbol))).join).map fun value => |value|
    if observed ≠ [] then min (observed.foldl max 0) 1
    else if state.positions.any fun p => decide (p.direction = direction) then 3 / 5
    else 0

/-! ## Kelly sizing -/

structure HistoricalStats where
  winRate : ℚ := 0
  avgWin : ℚ := 0
  avgLoss : ℚ := 0
deriving DecidableEq, Repr

def average (values : List ℚ) : ℚ := values.sum / values.length

/-- The trades of this symbol and direction, or all if there are none. -/
def relevantTrades (history : List PastTrade) (symbol direction : String) : List PastTrade :=
  let relevant := history.filter fun t => decide
    ((t.symbol = some symbol ∨ symbol = "") ∧ (t.direction = some direction ∨ direction = "") ∧
      t.pnl.isSome = true)
  if relevant = [] then history.filter fun t => t.pnl.isSome else relevant

/-- `_get_historical_stats`. -/
def historicalStats (state : PortfolioState) (symbol direction : String) : HistoricalStats :=
  let pnls := (relevantTrades state.closedTrades symbol direction).filterMap fun t => t.pnl.join
  if pnls = [] then {}
  else
    let wins := pnls.filter (0 < ·)
    let losses := pnls.filter (· < 0)
    { winRate := wins.length / pnls.length
      avgWin := if wins = [] then 0 else average wins
      avgLoss := if losses = [] then 0 else average losses }

end PortfolioState

def RiskLimits.kellySize (limits : RiskLimits) (stats : PortfolioState.HistoricalStats) : Int :=
  if stats.winRate ≤ 0 ∨ stats.avgWin ≤ 0 ∨ 0 ≤ stats.avgLoss then limits.maxPositionSize
  else
    let b := stats.avgWin / |stats.avgLoss|
    let p := stats.winRate
    let fraction := if 0 < b then (b * p - (1 - p)) / b else 0
    let kellySize := truncate (limits.maxPositionSize * fraction * limits.kellyFraction)
    max limits.minPositionSize (min kellySize limits.maxPositionSize)

/-- `_calculate_volatility_adjustment`. -/
def RiskLimits.volatilityAdjustment (limits : RiskLimits) (volatility : ℚ) : ℚ :=
  if volatility ≤ 0 then 1 else limits.targetVolatility / max volatility (1 / 1000)

/-! ## The service -/

/-- What a decision says; a refusal by a limit names the value and the limit. -/
inductive Reason
  | positionSize (size limit : Int)
  | dailyLoss (pnl limit : ℚ)
  | drawdown (value limit : ℚ)
  | consecutiveLosses (losses limit : Int)
  | exposure (value limit : ℚ)
  | volatility (value limit : ℚ)
  | liquidity (size limit : Int)
  | correlation (value limit : ℚ)
  | marketVolatility (value : ℚ)
  | openPositions (count limit : Int)
  | passed
deriving DecidableEq, Repr

structure RiskDecision where
  allowed : Bool
  reason : Reason
  suggestedSize : Int := 0
deriving DecidableEq, Repr

/-- A check against a limit. -/
def decideLimit (breached : Prop) [Decidable breached] (reason : Reason) (suggestedSize : Int) :
    RiskDecision :=
  if breached then { allowed := false, reason, suggestedSize }
  else { allowed := true, reason := .passed }

structure RiskService where
  riskLimits : RiskLimits
  dailyPnl : ℚ := 0
  dailyStartEquity : ℚ
  consecutiveLosses : Int := 0
  peakEquity : ℚ
  lastResetDate : Int
deriving DecidableEq, Repr

namespace RiskService

variable (svc : RiskService)

def currentEquity : ℚ := svc.dailyStartEquity + svc.dailyPnl

def resetDailyTracking (today : Int) : RiskService :=
  if today = svc.lastResetDate then svc
  else
    let cleared := { svc with dailyPnl := 0, consecutiveLosses := 0 }
    { cleared with dailyStartEquity := cleared.currentEquity, lastResetDate := today }

/-- `_calculate_drawdown`, with the peak it leaves. -/
def calculateDrawdown (currentEquity : ℚ) : RiskService × Except PyExc ℚ :=
  let peak := if svc.peakEquity = 0 then currentEquity else svc.peakEquity
  if peak < currentEquity then ({ svc with peakEquity := currentEquity }, .ok 0)
  else if peak = 0 then
    ({ svc with peakEquity := peak }, .error ⟨.other, "float division by zero"⟩)
  else ({ svc with peakEquity := peak }, .ok ((peak - currentEquity) / peak))

def currentExposure (state : PortfolioState) : ℚ :=
  if 0 < svc.currentEquity then state.totalValue / svc.currentEquity else 0

/-- `_calculate_new_exposure`. Without a price it is the limit, unless that is exceeded already. -/
def newExposure (currentExposure : ℚ) (symbol : String) (suggestedSize : Int)
    (state : PortfolioState) : ℚ :=
  match state.priceOf symbol with
  | none => max currentExposure svc.riskLimits.maxPortfolioExposure
  | some price =>
      let value := |price| * |suggestedSize|
      let added := currentExposure +
        if 0 < svc.currentEquity then value / svc.currentEquity else 1
      min (max added 0) 1

def leverageRisk (state : PortfolioState) : ℚ := min (svc.currentExposure state) 2 / 2

def portfolioRiskScore (returnsVolatility : List ℚ → ℚ) (state : PortfolioState) : ℚ :=
  state.concentrationRisk * (3 / 10) + svc.leverageRisk state * (3 / 10) +
    state.varRisk returnsVolatility * (2 / 5)

/-- `_calculate_portfolio_heat_adjustment`. -/
def heatAdjustment (returnsVolatility : List ℚ → ℚ) (state : PortfolioState) : ℚ :=
  let risk := svc.portfolioRiskScore returnsVolatility state
  if 4 / 5 ≤ risk then 1 / 2 else if 4 / 5 * (4 / 5) ≤ risk then 3 / 4 else 1

/-- `_calculate_final_position_size`. -/
def finalPositionSize (returnsVolatility : List ℚ → ℚ) (symbol : String) (baseSize : Int)
    (direction : String) (state : PortfolioState) (volatility : ℚ) : Int :=
  let size := truncate (baseSize * svc.riskLimits.volatilityAdjustment volatility)
  let size := truncate (size * svc.heatAdjustment returnsVolatility state)
  let size :=
    if svc.riskLimits.useKellySizing then
      min size (svc.riskLimits.kellySize (state.historicalStats symbol direction))
    else size
  max size svc.riskLimits.minPositionSize

/-- The checks, in their order. The exposure is checked without the portfolio state, so without a
price. -/
def checks (drawdown : ℚ) (symbol direction : String) (suggestedSize : Int) (state : PortfolioState)
    (volatility : ℚ) : List RiskDecision :=
  let limits := svc.riskLimits
  let exposure := svc.newExposure (svc.currentExposure state) symbol suggestedSize {}
  let correlation := state.maxCorrelation symbol direction
  [decideLimit (limits.maxPositionSize < suggestedSize)
      (.positionSize suggestedSize limits.maxPositionSize) limits.maxPositionSize,
    decideLimit (svc.dailyPnl < -limits.maxDailyLoss)
      (.dailyLoss svc.dailyPnl (-limits.maxDailyLoss)) 0,
    decideLimit (limits.maxDrawdown < drawdown) (.drawdown drawdown limits.maxDrawdown) 0,
    decideLimit (limits.maxConsecutiveLosses ≤ svc.consecutiveLosses)
      (.consecutiveLosses svc.consecutiveLosses limits.maxConsecutiveLosses) 0,
    decideLimit (limits.maxPortfolioExposure < exposure)
      (.exposure exposure limits.maxPortfolioExposure) 0,
    decideLimit (limits.maxVolatility < volatility) (.volatility volatility limits.maxVolatility) 0,
    decideLimit (limits.maxLiquiditySize < suggestedSize)
      (.liquidity suggestedSize limits.maxLiquiditySize) limits.maxLiquiditySize,
    decideLimit (limits.maxCorrelation < correlation)
      (.correlation correlation limits.maxCorrelation) 0,
    decideLimit (limits.maxVolatility < volatility) (.marketVolatility volatility) 0,
    decideLimit (limits.maxOpenPositions ≤ state.positions.length)
      (.openPositions state.positions.length limits.maxOpenPositions) 0]

/-- `evaluate_trade`, on a day. -/
def evaluateTrade (returnsVolatility : List ℚ → ℚ) (today : Int) (symbol direction : String)
    (suggestedSize : Int) (state : PortfolioState) (volatility : ℚ) :
    RiskService × Except PyExc RiskDecision :=
  let svc := svc.resetDailyTracking today
  match svc.calculateDrawdown svc.currentEquity with
  | (svc, .error e) => (svc, .error e)
  | (svc, .ok drawdown) =>
      match (svc.checks drawdown symbol direction suggestedSize state volatility).find?
          fun check => !check.allowed with
      | some refusal => (svc, .ok refusal)
      | none =>
          (svc, .ok
            { allowed := true
              reason := .passed
              suggestedSize := svc.finalPositionSize returnsVolatility symbol suggestedSize direction
                state volatility })

end RiskService

end AutoTrade.Risk.Domain
