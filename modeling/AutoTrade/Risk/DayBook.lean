import AutoTrade.Library.Run
import AutoTrade.Risk.DomainService
import Mathlib.Tactic.Linarith

/-! # Runs of the domain risk service

The calls of `core/domains/risk/service.py` that share a state. What they leave is the
book of a day: the result last reported for it and the largest equity that was
looked at. The equity a day starts with is the first one's for good, and the losses
in a row are never counted.
-/

namespace AutoTrade.Risk.Domain

open AutoTrade.Library

/-- What `update_portfolio_risk` reports. -/
structure PortfolioRiskMetrics where
  totalExposure : ℚ
  netValue : ℚ
  concentrationRisk : ℚ
  volatility : ℚ
  drawdown : ℚ
  valueAtRisk95 : ℚ
deriving DecidableEq, Repr

inductive RiskAlert
  | dailyLoss (pnl : ℚ)
  | drawdown (value : ℚ)
  | consecutiveLosses (losses : Int)
deriving DecidableEq, Repr

namespace RiskService

def new (riskLimits : RiskLimits) (today : Int) : RiskService where
  riskLimits := riskLimits
  dailyStartEquity := riskLimits.accountEquity
  peakEquity := riskLimits.accountEquity
  lastResetDate := today

def report (svc : RiskService) (todayPnl : ℚ) : RiskService := { svc with dailyPnl := todayPnl }

/-- Whether the result and the drawdown are within the limits; the second is looked at where the
first is. -/
def dailyLimitsKept (svc : RiskService) : RiskService × Except PyExc Bool :=
  if -svc.riskLimits.maxDailyLoss ≤ svc.dailyPnl then
    match svc.calculateDrawdown svc.currentEquity with
    | (svc, .error e) => (svc, .error e)
    | (svc, .ok drawdown) => (svc, .ok (decide (drawdown ≤ svc.riskLimits.maxDrawdown)))
  else (svc, .ok false)

def checkDailyLimits (svc : RiskService) (todayPnl : ℚ) : RiskService × Except PyExc Bool :=
  (svc.report todayPnl).dailyLimitsKept

/-- The square root of the trading days in a year is a parameter. -/
def updatePortfolioRisk (svc : RiskService) (returnsVolatility : List ℚ → ℚ) (rootOfYear : ℚ)
    (positions : List Position) : RiskService × Except PyExc PortfolioRiskMetrics :=
  let state : PortfolioState := { positions }
  let volatility := state.estimateVolatility returnsVolatility
  match svc.calculateDrawdown svc.currentEquity with
  | (svc, .error e) => (svc, .error e)
  | (svc, .ok drawdown) =>
      (svc, .ok
        { totalExposure := state.totalValue
          netValue := (positions.map Position.marketValue).sum
          concentrationRisk := state.concentrationRisk
          volatility := volatility
          drawdown := drawdown
          valueAtRisk95 := state.totalValue * (volatility / rootOfYear) * (1645 / 1000) })

def getRiskAlerts (svc : RiskService) : RiskService × Except PyExc (List RiskAlert) :=
  match svc.calculateDrawdown svc.currentEquity with
  | (svc', .error e) => (svc', .error e)
  | (svc', .ok drawdown) =>
      let limits := svc.riskLimits
      (svc', .ok (
        (if limits.maxDailyLoss * (4 / 5) < |svc.dailyPnl| then
          [.dailyLoss svc.dailyPnl] else []) ++
        (if limits.maxDrawdown * (4 / 5) < drawdown then [.drawdown drawdown] else []) ++
        (if limits.maxConsecutiveLosses - 1 ≤ svc.consecutiveLosses then
          [.consecutiveLosses svc.consecutiveLosses] else [])))

end RiskService

inductive RiskOp
  | evaluateTrade (today : Int) (symbol direction : String) (suggestedSize : Int)
      (state : PortfolioState) (volatility : ℚ)
  | checkDailyLimits (todayPnl : ℚ)
  | updatePortfolioRisk (positions : List Position)
  | getRiskAlerts

section Calls

variable (returnsVolatility : List ℚ → ℚ) (rootOfYear : ℚ)

def RiskService.step (svc : RiskService) : RiskOp → RiskService
  | .evaluateTrade today symbol direction suggestedSize state volatility =>
      (svc.evaluateTrade returnsVolatility today symbol direction suggestedSize state volatility).1
  | .checkDailyLimits todayPnl => (svc.checkDailyLimits todayPnl).1
  | .updatePortfolioRisk positions =>
      (svc.updatePortfolioRisk returnsVolatility rootOfYear positions).1
  | .getRiskAlerts => svc.getRiskAlerts.1

end Calls

/-! ## The book of a day -/

/-- What the calls before come to, on the day of the last evaluation. -/
structure DayBook where
  date : Int
  pnl : ℚ := 0
  peak : ℚ
deriving DecidableEq, Repr

namespace DayBook

/-- The equity is looked at. -/
def marked (b : DayBook) (start : ℚ) : DayBook := { b with peak := max b.peak (start + b.pnl) }

/-- A new day forgets the result of the one before, also one that was reported on the new day. -/
def onDay (b : DayBook) (today : Int) : DayBook :=
  if today = b.date then b else { b with date := today, pnl := 0 }

def step (limits : RiskLimits) (b : DayBook) : RiskOp → DayBook
  | .evaluateTrade today .. => (b.onDay today).marked limits.accountEquity
  | .checkDailyLimits todayPnl =>
      let reported := { b with pnl := todayPnl }
      if -limits.maxDailyLoss ≤ todayPnl then reported.marked limits.accountEquity else reported
  | .updatePortfolioRisk _ => b.marked limits.accountEquity
  | .getRiskAlerts => b.marked limits.accountEquity

/-- The service that has this book. -/
def service (b : DayBook) (limits : RiskLimits) : RiskService where
  riskLimits := limits
  dailyPnl := b.pnl
  dailyStartEquity := limits.accountEquity
  consecutiveLosses := 0
  peakEquity := b.peak
  lastResetDate := b.date

def drawdown (b : DayBook) (start : ℚ) : ℚ :=
  ((b.marked start).peak - (start + b.pnl)) / (b.marked start).peak

theorem peak_marked_pos {b : DayBook} (h : 0 < b.peak) (start : ℚ) : 0 < (b.marked start).peak :=
  lt_max_of_lt_left h

theorem peak_onDay (b : DayBook) (today : Int) : (b.onDay today).peak = b.peak := by
  unfold onDay
  split <;> rfl

/-- From a positive peak the drawdown is always found. -/
theorem calculateDrawdown_service {b : DayBook} (h : 0 < b.peak) (limits : RiskLimits) :
    (b.service limits).calculateDrawdown (b.service limits).currentEquity =
      ((b.marked limits.accountEquity).service limits, .ok (b.drawdown limits.accountEquity)) := by
  have hequity : (b.service limits).currentEquity = limits.accountEquity + b.pnl := rfl
  rw [hequity]
  unfold RiskService.calculateDrawdown drawdown marked
  have hpeak : (b.service limits).peakEquity = b.peak := rfl
  rw [hpeak, if_neg h.ne']
  by_cases habove : b.peak < limits.accountEquity + b.pnl
  · rw [if_pos habove]
    simp only [max_eq_right habove.le, sub_self, zero_div]
    rfl
  · rw [if_neg habove, if_neg h.ne']
    simp only [max_eq_left (not_lt.mp habove)]
    rfl

theorem resetDailyTracking_service (b : DayBook) (limits : RiskLimits) (today : Int) :
    (b.service limits).resetDailyTracking today = (b.onDay today).service limits := by
  unfold RiskService.resetDailyTracking onDay
  have hdate : (b.service limits).lastResetDate = b.date := rfl
  rw [hdate]
  split
  · rfl
  · simp [service, RiskService.currentEquity]

theorem evaluateTrade_fst {b : DayBook} (h : 0 < b.peak) (limits : RiskLimits)
    (returnsVolatility : List ℚ → ℚ) (today : Int) (symbol direction : String) (suggestedSize : Int)
    (state : PortfolioState) (volatility : ℚ) :
    ((b.service limits).evaluateTrade returnsVolatility today symbol direction suggestedSize state
      volatility).1 = ((b.onDay today).marked limits.accountEquity).service limits := by
  have hday : 0 < (b.onDay today).peak := by rwa [peak_onDay]
  unfold RiskService.evaluateTrade
  rw [resetDailyTracking_service]
  dsimp only
  rw [calculateDrawdown_service hday]
  dsimp only
  split <;> rfl

theorem checkDailyLimits_fst {b : DayBook} (h : 0 < b.peak) (limits : RiskLimits) (todayPnl : ℚ) :
    ((b.service limits).checkDailyLimits todayPnl).1 =
      (b.step limits (.checkDailyLimits todayPnl)).service limits := by
  have hreported : (b.service limits).report todayPnl =
      ({ b with pnl := todayPnl } : DayBook).service limits := rfl
  have hpeak : 0 < ({ b with pnl := todayPnl } : DayBook).peak := h
  have hdraw := calculateDrawdown_service hpeak limits
  rw [RiskService.checkDailyLimits, hreported, RiskService.dailyLimitsKept]
  by_cases hloss : -limits.maxDailyLoss ≤ todayPnl
  · rw [if_pos (show -(({ b with pnl := todayPnl } : DayBook).service
      limits).riskLimits.maxDailyLoss ≤
        (({ b with pnl := todayPnl } : DayBook).service limits).dailyPnl from hloss), hdraw]
    exact (congrArg (fun b' : DayBook => b'.service limits) (if_pos hloss)).symm
  · rw [if_neg (show ¬ -(({ b with pnl := todayPnl } : DayBook).service
      limits).riskLimits.maxDailyLoss ≤
        (({ b with pnl := todayPnl } : DayBook).service limits).dailyPnl from hloss)]
    exact (congrArg (fun b' : DayBook => b'.service limits) (if_neg hloss)).symm

section Refinement

variable (returnsVolatility : List ℚ → ℚ) (rootOfYear : ℚ) (limits : RiskLimits)

theorem step_service {b : DayBook} (h : 0 < b.peak) (op : RiskOp) :
    (b.service limits).step returnsVolatility rootOfYear op =
      (b.step limits op).service limits := by
  cases op with
  | evaluateTrade today symbol direction suggestedSize state volatility =>
      exact evaluateTrade_fst h limits returnsVolatility today symbol direction suggestedSize state
        volatility
  | checkDailyLimits todayPnl => exact checkDailyLimits_fst h limits todayPnl
  | updatePortfolioRisk positions =>
      show ((b.service limits).updatePortfolioRisk returnsVolatility rootOfYear positions).1 = _
      unfold RiskService.updatePortfolioRisk
      dsimp only
      rw [calculateDrawdown_service h]
      rfl
  | getRiskAlerts =>
      show ((b.service limits).getRiskAlerts).1 = _
      unfold RiskService.getRiskAlerts
      rw [calculateDrawdown_service h]
      rfl

theorem peak_step_pos {b : DayBook} (h : 0 < b.peak) (op : RiskOp) :
    0 < (b.step limits op).peak := by
  cases op with
  | evaluateTrade today symbol direction suggestedSize state volatility =>
      have hday : 0 < (b.onDay today).peak := by rwa [peak_onDay]
      exact peak_marked_pos hday limits.accountEquity
  | checkDailyLimits todayPnl =>
      have hreported : 0 < ({ b with pnl := todayPnl } : DayBook).peak := h
      unfold step
      dsimp only
      split
      · exact peak_marked_pos hreported limits.accountEquity
      · exact hreported
  | updatePortfolioRisk positions => exact peak_marked_pos h limits.accountEquity
  | getRiskAlerts => exact peak_marked_pos h limits.accountEquity

theorem run_service {b : DayBook} (h : 0 < b.peak) (ops : List RiskOp) :
    run (RiskService.step returnsVolatility rootOfYear) (b.service limits) ops =
        (run (step limits) b ops).service limits ∧ 0 < (run (step limits) b ops).peak := by
  induction ops generalizing b with
  | nil => exact ⟨rfl, h⟩
  | cons op rest ih =>
      have hstep := step_service returnsVolatility rootOfYear limits h op
      have hrest := ih (peak_step_pos limits h op)
      rw [← hstep] at hrest
      exact hrest

end Refinement

/-! ## What is approved -/

/-- What an approval asks for; the exposure is that of the positions held, without the trade. -/
structure Approves (b : DayBook) (limits : RiskLimits) (symbol direction : String)
    (suggestedSize : Int) (state : PortfolioState) (volatility : ℚ) : Prop where
  position : suggestedSize ≤ limits.maxPositionSize
  dailyLoss : -limits.maxDailyLoss ≤ b.pnl
  drawdown : b.drawdown limits.accountEquity ≤ limits.maxDrawdown
  losses : 0 < limits.maxConsecutiveLosses
  exposure : (b.service limits).currentExposure state ≤ limits.maxPortfolioExposure
  volatility : volatility ≤ limits.maxVolatility
  liquidity : suggestedSize ≤ limits.maxLiquiditySize
  correlation : state.maxCorrelation symbol direction ≤ limits.maxCorrelation
  openPositions : (state.positions.length : Int) < limits.maxOpenPositions

theorem allowed_decideLimit (breached : Prop) [Decidable breached] (reason : Reason) (size : Int) :
    (decideLimit breached reason size).allowed = true ↔ ¬ breached := by
  unfold decideLimit
  split <;> simp_all

theorem find?_refusal_eq_none_iff (cs : List RiskDecision) :
    (cs.find? fun check => !check.allowed) = none ↔ ∀ check ∈ cs, check.allowed = true := by
  simp

/-- The checked exposure has no price to count the trade with. -/
theorem newExposure_unpriced (svc : RiskService) (exposure : ℚ) (symbol : String) (size : Int) :
    svc.newExposure exposure symbol size {} = max exposure svc.riskLimits.maxPortfolioExposure :=
  rfl

theorem checks_allowed_iff (b : DayBook) (limits : RiskLimits) (symbol direction : String)
    (suggestedSize : Int) (state : PortfolioState) (volatility : ℚ) :
    (∀ check ∈ ((b.marked limits.accountEquity).service limits).checks
        (b.drawdown limits.accountEquity) symbol direction suggestedSize state volatility,
        check.allowed = true) ↔
      b.Approves limits symbol direction suggestedSize state volatility := by
  have hexposure : ((b.marked limits.accountEquity).service limits).currentExposure state =
      (b.service limits).currentExposure state := rfl
  unfold RiskService.checks
  dsimp only
  simp only [List.forall_mem_cons, allowed_decideLimit, newExposure_unpriced, hexposure, not_lt,
    not_le, max_le_iff]
  constructor
  · rintro ⟨hposition, hloss, hdrawdown, hlosses, ⟨hexposed, -⟩, hvolatility, hliquidity,
      hcorrelation, -, hopen, -⟩
    exact ⟨hposition, hloss, hdrawdown, hlosses, hexposed, hvolatility, hliquidity, hcorrelation,
      hopen⟩
  · rintro ⟨hposition, hloss, hdrawdown, hlosses, hexposed, hvolatility, hliquidity, hcorrelation,
      hopen⟩
    exact ⟨hposition, hloss, hdrawdown, hlosses, ⟨hexposed, le_refl _⟩, hvolatility, hliquidity,
      hcorrelation, hvolatility, hopen, fun _ h => absurd h List.not_mem_nil⟩

theorem reason_decideLimit_ne {breached : Prop} [Decidable breached] {reason : Reason} (size : Int)
    {v : ℚ} (h : reason ≠ .marketVolatility v) :
    (decideLimit breached reason size).reason ≠ .marketVolatility v := by
  unfold decideLimit
  split
  · exact h
  · nofun

/-- Where the conditions of the market would refuse, the volatility has refused before. -/
theorem reason_ne_marketVolatility {svc : RiskService} {drawdown : ℚ} {symbol direction : String}
    {suggestedSize : Int} {state : PortfolioState} {volatility : ℚ} {refusal : RiskDecision}
    (h : (svc.checks drawdown symbol direction suggestedSize state volatility).find?
      (fun check => !check.allowed) = some refusal) (v : ℚ) :
    refusal.reason ≠ .marketVolatility v := by
  have hmem := List.mem_of_find?_eq_some h
  have hrefused : refusal.allowed ≠ true := by simpa using List.find?_some h
  by_cases hvolatile : svc.riskLimits.maxVolatility < volatility
  · have hsplit := List.take_append_drop 6
      (svc.checks drawdown symbol direction suggestedSize state volatility)
    rw [← hsplit, List.find?_append] at h
    have hsixth : decideLimit (svc.riskLimits.maxVolatility < volatility)
        (.volatility volatility svc.riskLimits.maxVolatility) 0 ∈
          (svc.checks drawdown symbol direction suggestedSize state volatility).take 6 := by
      simp [RiskService.checks]
    have hfound : ((svc.checks drawdown symbol direction suggestedSize state volatility).take
        6).find? (fun check => !check.allowed) ≠ none := by
      rw [Ne, find?_refusal_eq_none_iff]
      intro hall
      exact (allowed_decideLimit _ _ _).mp (hall _ hsixth) hvolatile
    obtain ⟨first, hfirst⟩ := Option.ne_none_iff_exists'.mp hfound
    rw [hfirst] at h
    cases h
    have hearly := List.mem_of_find?_eq_some hfirst
    simp only [RiskService.checks, List.take_succ_cons, List.take_zero, List.mem_cons,
      List.not_mem_nil, or_false] at hearly
    rcases hearly with rfl | rfl | rfl | rfl | rfl | rfl <;> exact reason_decideLimit_ne _ nofun
  · simp only [RiskService.checks, List.mem_cons, List.not_mem_nil, or_false] at hmem
    rcases hmem with rfl | rfl | rfl | rfl | rfl | rfl | rfl | rfl | rfl | rfl
    case inr.inr.inr.inr.inr.inr.inr.inr.inl =>
      exact absurd ((allowed_decideLimit _ _ _).mpr hvolatile) hrefused
    all_goals exact reason_decideLimit_ne _ nofun

section Approval

variable (returnsVolatility : List ℚ → ℚ) (rootOfYear : ℚ) (limits : RiskLimits)

theorem evaluateTrade_service {b : DayBook} (h : 0 < b.peak) (today : Int)
    (symbol direction : String) (suggestedSize : Int) (state : PortfolioState) (volatility : ℚ) :
    ∃ decision, ((b.service limits).evaluateTrade returnsVolatility today symbol direction
        suggestedSize state volatility).2 = .ok decision ∧
      (decision.allowed = true ↔
        (b.onDay today).Approves limits symbol direction suggestedSize state volatility) ∧
      ∀ v, decision.reason ≠ .marketVolatility v := by
  have hday : 0 < (b.onDay today).peak := by rwa [peak_onDay]
  unfold RiskService.evaluateTrade
  rw [resetDailyTracking_service]
  dsimp only
  rw [calculateDrawdown_service hday, ← checks_allowed_iff, ← find?_refusal_eq_none_iff]
  dsimp only
  cases hfind : ((((b.onDay today).marked limits.accountEquity).service limits).checks
      ((b.onDay today).drawdown limits.accountEquity) symbol direction suggestedSize state
      volatility).find? fun check => !check.allowed with
  | none => exact ⟨_, rfl, iff_of_true rfl rfl, nofun⟩
  | some refusal =>
      refine ⟨refusal, rfl, iff_of_false ?_ nofun, reason_ne_marketVolatility hfind⟩
      simpa using List.find?_some hfind

/-- Over every run of calls the service is its book of the day: the losses in a row stay zero and
the equity of the start stays the first one. An evaluation never raises and approves exactly
what the book approves, the proposed size being no part of the exposure. -/
theorem runs_keep_day_book (hequity : 0 < limits.accountEquity) (start : Int) (ops : List RiskOp) :
    run (RiskService.step returnsVolatility rootOfYear) (RiskService.new limits start) ops =
        (run (step limits) { date := start, peak := limits.accountEquity } ops).service limits ∧
      ∀ (today : Int) (symbol direction : String) (suggestedSize : Int) (state : PortfolioState)
        (volatility : ℚ),
        ∃ decision, ((run (RiskService.step returnsVolatility rootOfYear)
            (RiskService.new limits start) ops).evaluateTrade returnsVolatility today symbol
              direction suggestedSize state volatility).2 = .ok decision ∧
          (decision.allowed = true ↔
            ((run (step limits) { date := start, peak := limits.accountEquity } ops).onDay
              today).Approves limits symbol direction suggestedSize state volatility) ∧
          ∀ v, decision.reason ≠ .marketVolatility v := by
  have hrun := @run_service returnsVolatility rootOfYear limits
    { date := start, peak := limits.accountEquity } hequity ops
  have hnew : RiskService.new limits start =
      ({ date := start, peak := limits.accountEquity } : DayBook).service limits := rfl
  rw [hnew, hrun.1]
  exact ⟨rfl, fun today symbol direction suggestedSize state volatility =>
    evaluateTrade_service returnsVolatility limits hrun.2 today symbol direction suggestedSize state
      volatility⟩

end Approval

/-- A loss is reported on one day, the next day is evaluated, and its result comes after. -/
def overnight : List RiskOp :=
  [.checkDailyLimits (-2000), .evaluateTrade 1 "NIFTY" "BUY" 10 {} 0, .checkDailyLimits 500]

theorem runs_keep_day_book_overnight :
    run (RiskService.step (fun _ => 0) 16) (RiskService.new {} 0) overnight =
      (run (step {}) { date := 0, peak := 100000 } overnight).service {} :=
  (runs_keep_day_book (fun _ => 0) 16 {} (by decide) 0 overnight).1

end DayBook

/-- The positions alone have no volatility, so they have no value at risk. -/
theorem RiskService.valueAtRisk_eq_zero {svc svc' : RiskService} {returnsVolatility : List ℚ → ℚ}
    {rootOfYear : ℚ} {positions : List Position} {metrics : PortfolioRiskMetrics}
    (h : svc.updatePortfolioRisk returnsVolatility rootOfYear positions = (svc', .ok metrics)) :
    metrics.volatility = 0 ∧ metrics.valueAtRisk95 = 0 := by
  have hweights : positions.filterMap (fun p =>
      (Dict.get? (Table.empty : Dict String ℚ) p.symbol).map
        fun vol => (|p.marketValue|, max vol 0)) = [] :=
    List.filterMap_eq_nil_iff.mpr fun _ _ => rfl
  have hvolatility : ({ positions } : PortfolioState).estimateVolatility returnsVolatility = 0 := by
    unfold PortfolioState.estimateVolatility
    dsimp only
    rw [hweights]
    rfl
  unfold updatePortfolioRisk at h
  dsimp only at h
  rw [hvolatility] at h
  split at h
  · cases h
  · cases h
    simp

end AutoTrade.Risk.Domain
