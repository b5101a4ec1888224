import AutoTrade.Risk.DomainService
import Mathlib.Tactic.Linarith

/-! # The size of an approved trade

The limits are checked on the size that is asked for, and the size that is
returned is another: scaled by the volatility, cut by the heat of the portfolio
and by the Kelly size, and raised to the minimum. Every limit is a bound from
above, so the returned size keeps them all exactly when some size that does
bounds each way it can come about.
-/

namespace AutoTrade.Risk.Domain

open AutoTrade.Library

/-- A truncated size that is multiplied and truncated once more stays at or below a number exactly when
the size stays below what the next number comes from, rounded up. -/
theorem truncate_mul_le_iff {x heat : ℚ} (hheat : 0 < heat) {n : Int} (hn : 0 ≤ n) :
    truncate (truncate x * heat) ≤ n ↔ x < ((n + 1) / heat).ceil := by
  have hnext : (0 : ℚ) < (n + 1) / heat := by
    have hcast : (0 : ℚ) ≤ n := by exact_mod_cast hn
    exact div_pos (by linarith) hheat
  have hpos : 0 < ((n + 1) / heat).ceil := Rat.lt_ceil_iff.mpr (by exact_mod_cast hnext)
  rw [truncate_le_iff hn, ← lt_div_iff₀ hheat, ← Rat.lt_ceil_iff, ← Int.le_sub_one_iff,
    truncate_le_iff (by omega)]
  push_cast
  rw [sub_add_cancel]

namespace RiskService

/-! ## Limits on a size -/

/-- The exposure after a trade of this size at the price; without equity a trade counts as 1. -/
def sizeExposure (svc : RiskService) (state : PortfolioState) (price : ℚ) (size : Int) : ℚ :=
  svc.currentExposure state +
    if 0 < svc.currentEquity then |price| * size / svc.currentEquity else 1

structure WithinLimits (svc : RiskService) (state : PortfolioState) (price : ℚ) (size : Int) :
    Prop where
  position : size ≤ svc.riskLimits.maxPositionSize
  liquidity : size ≤ svc.riskLimits.maxLiquiditySize
  exposure : svc.sizeExposure state price size ≤ svc.riskLimits.maxPortfolioExposure

/-- The size is a bound for the request, scaled by the volatility and cut by the heat, or for the Kelly
size, where that counts. -/
def Bounds (svc : RiskService) (returnsVolatility : List ℚ → ℚ) (symbol direction : String)
    (suggestedSize : Int) (state : PortfolioState) (volatility : ℚ) (size : Int) : Prop :=
  suggestedSize * svc.riskLimits.volatilityAdjustment volatility <
      ((size + 1) / svc.heatAdjustment returnsVolatility state).ceil ∨
    svc.riskLimits.useKellySizing = true ∧
      svc.riskLimits.kellySize (state.historicalStats symbol direction) ≤ size

section Size

variable {svc : RiskService} {returnsVolatility : List ℚ → ℚ} {symbol direction : String}
  {suggestedSize : Int} {state : PortfolioState} {volatility price : ℚ}

theorem sizeExposure_mono {size larger : Int} (h : size ≤ larger) :
    svc.sizeExposure state price size ≤ svc.sizeExposure state price larger := by
  unfold sizeExposure
  split
  · rename_i hequity
    have hcast : (size : ℚ) ≤ larger := by exact_mod_cast h
    have hvalue : |price| * size ≤ |price| * larger :=
      mul_le_mul_of_nonneg_left hcast (abs_nonneg price)
    exact add_le_add (le_refl _) (div_le_div_of_nonneg_right hvalue hequity.le)
  · exact le_refl _

/-- A size below one that is within the limits is within them. -/
theorem WithinLimits.anti {size larger : Int} (within : svc.WithinLimits state price larger)
    (h : size ≤ larger) : svc.WithinLimits state price size :=
  ⟨h.trans within.position, h.trans within.liquidity,
    (sizeExposure_mono h).trans within.exposure⟩

theorem heatAdjustment_pos (svc : RiskService) (returnsVolatility : List ℚ → ℚ)
    (state : PortfolioState) : 0 < svc.heatAdjustment returnsVolatility state := by
  unfold heatAdjustment
  dsimp only
  split
  · norm_num
  · split
    · norm_num
    · norm_num

/-- What bounds a request bounds it from above. -/
theorem Bounds.mono {size larger : Int}
    (bounds : svc.Bounds returnsVolatility symbol direction suggestedSize state volatility size)
    (h : size ≤ larger) :
    svc.Bounds returnsVolatility symbol direction suggestedSize state volatility larger := by
  rcases bounds with hscaled | ⟨hkelly, hle⟩
  · refine .inl (hscaled.trans_le ?_)
    have hcast : (size : ℚ) + 1 ≤ larger + 1 := by exact_mod_cast Int.add_le_add_right h 1
    have hquot := div_le_div_of_nonneg_right hcast
      (svc.heatAdjustment_pos returnsVolatility state).le
    exact_mod_cast Rat.ceil_le_iff.mpr (hquot.trans Rat.le_ceil)
  · exact .inr ⟨hkelly, hle.trans h⟩

/-- The size of a trade is at most another exactly when that is not below the minimum and bounds the
request. -/
theorem finalPositionSize_le_iff {size : Int} (hsize : 0 ≤ size) :
    svc.finalPositionSize returnsVolatility symbol suggestedSize direction state volatility ≤ size ↔
      svc.riskLimits.minPositionSize ≤ size ∧
        svc.Bounds returnsVolatility symbol direction suggestedSize state volatility size := by
  unfold finalPositionSize Bounds
  dsimp only
  rw [max_le_iff, and_comm, ← truncate_mul_le_iff (heatAdjustment_pos _ _ _) hsize]
  refine and_congr_right fun _ => ?_
  split
  · rename_i hkelly
    rw [min_le_iff]
    exact or_congr_right ⟨fun h => ⟨hkelly, h⟩, fun h => h.2⟩
  · rename_i hkelly
    exact ⟨.inl, fun h => h.resolve_right fun hk => hkelly hk.1⟩

/-- The size is within the limits exactly when it is at most a size that is. -/
theorem finalPositionSize_within_iff (hmin : 1 ≤ svc.riskLimits.minPositionSize) :
    svc.WithinLimits state price
        (svc.finalPositionSize returnsVolatility symbol suggestedSize direction state volatility) ↔
      ∃ size, svc.riskLimits.minPositionSize ≤ size ∧ svc.WithinLimits state price size ∧
        svc.Bounds returnsVolatility symbol direction suggestedSize state volatility size := by
  constructor
  · intro within
    have hpos : 0 ≤ svc.finalPositionSize returnsVolatility symbol suggestedSize direction state
        volatility := by
      unfold finalPositionSize
      exact le_max_of_le_right (by omega)
    obtain ⟨hleast, bounds⟩ := (finalPositionSize_le_iff hpos).mp (le_refl _)
    exact ⟨_, hleast, within, bounds⟩
  · rintro ⟨size, hleast, within, bounds⟩
    exact within.anti ((finalPositionSize_le_iff (by omega)).mpr ⟨hleast, bounds⟩)

end Size

/-! ## Approval -/

theorem resetDailyTracking_riskLimits (svc : RiskService) (today : Int) :
    (svc.resetDailyTracking today).riskLimits = svc.riskLimits := by
  unfold resetDailyTracking
  split <;> rfl

/-- The drawdown moves nothing but the peak. -/
theorem calculateDrawdown_fst (svc : RiskService) (equity : ℚ) :
    ∃ peak, (svc.calculateDrawdown equity).1 = { svc with peakEquity := peak } := by
  unfold calculateDrawdown
  dsimp only
  generalize (if svc.peakEquity = 0 then equity else svc.peakEquity) = peak
  split
  · exact ⟨_, rfl⟩
  · split <;> exact ⟨_, rfl⟩

/-- An approved trade has the size that is computed for it, on the service as the day finds it. -/
theorem suggestedSize_of_approved {svc svc' : RiskService} {returnsVolatility : List ℚ → ℚ}
    {today : Int} {symbol direction : String} {suggestedSize : Int} {state : PortfolioState}
    {volatility : ℚ} {decision : RiskDecision}
    (h : svc.evaluateTrade returnsVolatility today symbol direction suggestedSize state volatility =
      (svc', .ok decision)) (hallowed : decision.allowed = true) :
    decision.suggestedSize = (svc.resetDailyTracking today).finalPositionSize returnsVolatility symbol
      suggestedSize direction state volatility := by
  unfold evaluateTrade at h
  dsimp only at h
  obtain ⟨peak, hpeak⟩ := (svc.resetDailyTracking today).calculateDrawdown_fst
    (svc.resetDailyTracking today).currentEquity
  split at h
  · cases h
  · rename_i svc₁ drawdown hdrawdown
    rw [hdrawdown] at hpeak
    obtain rfl : svc₁ = _ := hpeak
    split at h
    · rename_i refusal hrefusal
      cases h
      have hrefused := List.find?_some hrefusal
      rw [hallowed] at hrefused
      cases hrefused
    · cases h
      rfl

/-- The size of an approved trade is within the limits exactly when some size that is, and is not below
the minimum, bounds the request. The service is the one that the day finds. -/
theorem approved_within_limits_iff (svc : RiskService) (returnsVolatility : List ℚ → ℚ) (today : Int)
    (symbol direction : String) (suggestedSize : Int) (state : PortfolioState) (volatility : ℚ)
    (hmin : 1 ≤ svc.riskLimits.minPositionSize) {svc' : RiskService} {decision : RiskDecision}
    (h : svc.evaluateTrade returnsVolatility today symbol direction suggestedSize state volatility =
      (svc', .ok decision)) (hallowed : decision.allowed = true) :
    ∀ price, state.listedPrices.get? symbol = some price →
      ((svc.resetDailyTracking today).WithinLimits state price decision.suggestedSize ↔
        ∃ size, svc.riskLimits.minPositionSize ≤ size ∧
          (svc.resetDailyTracking today).WithinLimits state price size ∧
          (svc.resetDailyTracking today).Bounds returnsVolatility symbol direction suggestedSize
            state volatility size) := by
  intro price _
  rw [suggestedSize_of_approved h hallowed, ← svc.resetDailyTracking_riskLimits today]
  exact finalPositionSize_within_iff (by rwa [resetDailyTracking_riskLimits])

def sampleService (riskLimits : RiskLimits) : RiskService where
  riskLimits
  dailyStartEquity := riskLimits.accountEquity
  peakEquity := riskLimits.accountEquity
  lastResetDate := 739620

def priced (symbol : String) (price : ℚ) : PortfolioState where
  prices := Dict.set Table.empty symbol price

/-- Thirty units at 2000 and a volatility on target: the size is asked for and returned. -/
theorem approved_within_limits_thirty :
    (sampleService {}).WithinLimits (priced "NIFTY" 2000) 2000 30 := by
  have hok : (sampleService {}).evaluateTrade (fun _ => 0) 739620 "NIFTY" "BUY" 30
      (priced "NIFTY" 2000) (1 / 5) =
        (sampleService {}, .ok { allowed := true, reason := .passed, suggestedSize := 30 }) := by
    decide +kernel
  refine (approved_within_limits_iff (sampleService {}) (fun _ => 0) 739620 "NIFTY" "BUY" 30
    (priced "NIFTY" 2000) (1 / 5) (by decide) hok rfl 2000 (by decide +kernel)).mpr ⟨30, ?_, ?_, ?_⟩
  · decide
  · exact ⟨by decide, by decide, by decide +kernel⟩
  · exact .inl (by decide +kernel)

/-- Fifty units at 2000 are approved although they are the whole equity, and at a quarter of the target
volatility fifty units become two hundred, which is twice the maximum. -/
theorem approved_beyond_limits :
    ((sampleService {}).evaluateTrade (fun _ => 0) 739620 "NIFTY" "BUY" 50 (priced "NIFTY" 2000)
        (1 / 5) =
        (sampleService {}, .ok { allowed := true, reason := .passed, suggestedSize := 50 }) ∧
      ¬ (sampleService {}).WithinLimits (priced "NIFTY" 2000) 2000 50) ∧
    ((sampleService { useKellySizing := false }).evaluateTrade (fun _ => 0) 739620 "NIFTY" "BUY" 50
        (priced "NIFTY" 100) (1 / 20) =
        (sampleService { useKellySizing := false },
          .ok { allowed := true, reason := .passed, suggestedSize := 200 }) ∧
      ¬ (sampleService { useKellySizing := false }).WithinLimits (priced "NIFTY" 100) 100 200) := by
  refine ⟨⟨by decide +kernel, fun within => ?_⟩, by decide +kernel, fun within => ?_⟩
  · exact absurd within.exposure (by decide +kernel)
  · exact absurd within.position (by decide)

end RiskService

end AutoTrade.Risk.Domain
