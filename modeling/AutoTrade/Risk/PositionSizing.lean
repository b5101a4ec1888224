import AutoTrade.Runtime
import Mathlib.Algebra.Order.Ring.Abs
import Mathlib.Tactic.Linarith
import Mathlib.Tactic.Positivity

/-! # Position sizing

The number of lots is the least of four: the lots of the risk amount after the
volatility adjustment, and the caps of the portfolio, the trade and the
capital. All numbers are rational, and `int()` truncates.
-/

namespace AutoTrade.Risk

/-- `fixed` is every `risk_mode` whose text in upper case is `FIXED`. -/
inductive RiskMode
  | percent
  | fixed
deriving DecidableEq, Repr

/-- What sizing reads of the service's configuration. -/
structure RiskServiceConfig where
  maxRiskPerTrade : ℚ := 1 / 20
  riskMode : RiskMode := .percent
  riskFixedAmount : ℚ := 150
  maxPortfolioRisk : ℚ := 1 / 4
  vixThresholdLow : ℚ := 15
  vixThresholdHigh : ℚ := 35
  vixSizeMultiplierLow : ℚ := 6 / 5
  vixSizeMultiplierHigh : ℚ := 3 / 5
deriving DecidableEq, Repr

structure PositionSizingInput where
  symbol : String
  entryPrice : ℚ
  stopLossPrice : ℚ
  capitalAvailable : ℚ
  riskPerTrade : ℚ
  lotSize : Int
  volatility : Option ℚ := none
deriving DecidableEq, Repr

/-- The capital callback answers, raises one of the errors that sizing handles, or another. -/
inductive CapitalReading
  | capital (amount : ℚ)
  | handled
  | raised (e : PyExc)
deriving DecidableEq, Repr

namespace RiskServiceConfig

def getVolatilityMultiplier (cfg : RiskServiceConfig) (volatility : ℚ) : ℚ :=
  if volatility ≤ cfg.vixThresholdLow then cfg.vixSizeMultiplierLow
  else if cfg.vixThresholdHigh ≤ volatility then cfg.vixSizeMultiplierHigh
  else
    let ratio := (volatility - cfg.vixThresholdLow) / (cfg.vixThresholdHigh - cfg.vixThresholdLow)
    cfg.vixSizeMultiplierLow +
      max 0 (min 1 ratio) * (cfg.vixSizeMultiplierHigh - cfg.vixSizeMultiplierLow)

/-- The estimate assumes a stop of 5 % at a price of 1000 and a lot of 50. -/
def getMaxLotsPerTrade (cfg : RiskServiceConfig) (_symbol : String) (capital : ℚ) : Int :=
  max 1 (truncate (capital * cfg.maxRiskPerTrade / (1 / 20 * 1000 * 50)))

def calculateMaxLotsByPortfolio (cfg : RiskServiceConfig) (input : PositionSizingInput)
    (currentLots : Int) : Int :=
  let maxRiskAmount := input.capitalAvailable * cfg.maxPortfolioRisk
  let currentRisk := input.capitalAvailable * input.riskPerTrade
  if currentRisk ≤ 0 then currentLots
  else if maxRiskAmount < currentRisk then
    max 1 (truncate (currentLots * (maxRiskAmount / currentRisk)))
  else currentLots

/-- What one lot loses from the entry to the stop. -/
def lossPerLot (input : PositionSizingInput) : ℚ :=
  |input.entryPrice - input.stopLossPrice| * input.lotSize

def calculateMaxLotsByCapital (cfg : RiskServiceConfig) (input : PositionSizingInput) : Int :=
  let maxRiskAmount := input.capitalAvailable * cfg.maxRiskPerTrade
  if input.riskPerTrade ≤ 0 then 0
  else if |input.entryPrice - input.stopLossPrice| ≤ 0 ∨ input.lotSize ≤ 0 then 0
  else max 0 (truncate (maxRiskAmount / lossPerLot input))

def riskAmount (cfg : RiskServiceConfig) (input : PositionSizingInput) : ℚ :=
  match cfg.riskMode with
  | .fixed => cfg.riskFixedAmount
  | .percent => input.capitalAvailable * input.riskPerTrade

def baseLots (cfg : RiskServiceConfig) (input : PositionSizingInput) : Int :=
  max 1 (truncate (cfg.riskAmount input / lossPerLot input))

/-- The lots after the volatility adjustment and the portfolio limit. -/
def portfolioLots (cfg : RiskServiceConfig) (input : PositionSizingInput) (volatility : ℚ) : Int :=
  let adjustedLots := truncate (cfg.baseLots input * cfg.getVolatilityMultiplier volatility)
  min adjustedLots (cfg.calculateMaxLotsByPortfolio input adjustedLots)

/-- The lots of a call that no check and no error ends early. -/
def finalLots (cfg : RiskServiceConfig) (input : PositionSizingInput) (volatility capital : ℚ) :
    Int :=
  max 0 (min (min (cfg.portfolioLots input volatility)
    (cfg.getMaxLotsPerTrade input.symbol capital)) (cfg.calculateMaxLotsByCapital input))

def calculatePositionSize (cfg : RiskServiceConfig) (getCapital : CapitalReading)
    (input : PositionSizingInput) : Except PyExc Int :=
  if input.stopLossPrice ≤ 0 ∨ input.entryPrice ≤ 0 then .ok 0
  else if |input.entryPrice - input.stopLossPrice| ≤ 0 then .ok 0
  -- the division by a lot size of zero and the comparison of no volatility raise, and are handled
  else if input.lotSize = 0 then .ok 0
  else
    match input.volatility with
    | none => .ok 0
    | some volatility =>
        match getCapital with
        | .capital amount => .ok (cfg.finalLots input volatility amount)
        | .handled => .ok 0
        | .raised e => .error e

/-! ## What each cap leaves -/

theorem finalLots_nonneg (cfg : RiskServiceConfig) (input : PositionSizingInput)
    (volatility capital : ℚ) : 0 ≤ cfg.finalLots input volatility capital :=
  le_max_left _ _

theorem maxLotsByCapital_nonneg (cfg : RiskServiceConfig) (input : PositionSizingInput) :
    0 ≤ cfg.calculateMaxLotsByCapital input := by
  unfold calculateMaxLotsByCapital
  dsimp only
  split
  · exact le_refl 0
  · split
    · exact le_refl 0
    · exact le_max_left _ _

theorem finalLots_le_byCapital (cfg : RiskServiceConfig) (input : PositionSizingInput)
    (volatility capital : ℚ) :
    cfg.finalLots input volatility capital ≤ cfg.calculateMaxLotsByCapital input :=
  max_le (cfg.maxLotsByCapital_nonneg input) (min_le_right _ _)

/-- The capital cap leaves a lot only where risk and loss are positive, and it covers that loss. -/
structure Covers (cfg : RiskServiceConfig) (input : PositionSizingInput) (lots : Int) : Prop where
  risk : 0 < input.riskPerTrade
  distance : 0 < |input.entryPrice - input.stopLossPrice|
  lot : 0 < input.lotSize
  loss : lots * lossPerLot input ≤ input.capitalAvailable * cfg.maxRiskPerTrade

theorem covers_of_le {cfg : RiskServiceConfig} {input : PositionSizingInput} {lots : Int}
    (hpos : 0 < lots) (h : lots ≤ cfg.calculateMaxLotsByCapital input) : cfg.Covers input lots := by
  unfold calculateMaxLotsByCapital at h
  dsimp only at h
  split at h
  · omega
  · rename_i hrisk
    split at h
    · omega
    · rename_i hloss
      push Not at hloss
      have hlot : (0 : ℚ) < input.lotSize := Rat.intCast_pos.mpr hloss.2
      have hper : 0 < lossPerLot input := mul_pos hloss.1 hlot
      refine ⟨not_le.mp hrisk, hloss.1, hloss.2, ?_⟩
      rw [← le_div_iff₀ hper]
      have htrunc : 1 ≤ truncate (input.capitalAvailable * cfg.maxRiskPerTrade /
          lossPerLot input) := by omega
      have hquot : 0 ≤ input.capitalAvailable * cfg.maxRiskPerTrade / lossPerLot input := by
        by_contra hneg
        have hnonpos := truncate_nonpos (not_le.mp hneg).le
        omega
      rw [truncate, if_pos hquot] at h
      exact Rat.le_floor_iff.mp (by omega)

/-! ## How each stage moves -/

theorem getVolatilityMultiplier_between {cfg : RiskServiceConfig}
    (ordered : cfg.vixSizeMultiplierHigh ≤ cfg.vixSizeMultiplierLow) (volatility : ℚ) :
    cfg.vixSizeMultiplierHigh ≤ cfg.getVolatilityMultiplier volatility ∧
      cfg.getVolatilityMultiplier volatility ≤ cfg.vixSizeMultiplierLow := by
  unfold getVolatilityMultiplier
  dsimp only
  split
  · exact ⟨ordered, le_refl _⟩
  · split
    · exact ⟨le_refl _, ordered⟩
    · have h0 : 0 ≤ max 0 (min 1 ((volatility - cfg.vixThresholdLow) /
          (cfg.vixThresholdHigh - cfg.vixThresholdLow))) := le_max_left _ _
      have h1 : max 0 (min 1 ((volatility - cfg.vixThresholdLow) /
          (cfg.vixThresholdHigh - cfg.vixThresholdLow))) ≤ 1 :=
        max_le zero_le_one (min_le_left _ _)
      constructor <;> nlinarith

theorem getVolatilityMultiplier_antitone {cfg : RiskServiceConfig}
    (ordered : cfg.vixSizeMultiplierHigh ≤ cfg.vixSizeMultiplierLow) {v v' : ℚ} (h : v ≤ v') :
    cfg.getVolatilityMultiplier v' ≤ cfg.getVolatilityMultiplier v := by
  by_cases hlow : v ≤ cfg.vixThresholdLow
  · have hfirst : cfg.getVolatilityMultiplier v = cfg.vixSizeMultiplierLow := if_pos hlow
    rw [hfirst]
    exact (getVolatilityMultiplier_between ordered v').2
  by_cases hhigh : cfg.vixThresholdHigh ≤ v'
  · have hlast : cfg.getVolatilityMultiplier v' = cfg.vixSizeMultiplierHigh := by
      unfold getVolatilityMultiplier
      rw [if_neg (by linarith), if_pos hhigh]
    rw [hlast]
    exact (getVolatilityMultiplier_between ordered v).1
  -- both are between the thresholds, where the ratio grows with the volatility
  · unfold getVolatilityMultiplier
    rw [if_neg (by linarith), if_neg hhigh, if_neg hlow, if_neg (by linarith)]
    have hratio : (v - cfg.vixThresholdLow) / (cfg.vixThresholdHigh - cfg.vixThresholdLow) ≤
        (v' - cfg.vixThresholdLow) / (cfg.vixThresholdHigh - cfg.vixThresholdLow) :=
      div_le_div_of_nonneg_right (by linarith) (by linarith)
    have hclamp := max_le_max_left 0 (min_le_min_left 1 hratio)
    dsimp only
    nlinarith

/-- Under a floor of one lot the sign of the factor does not matter. -/
theorem max_one_truncate_mul {a b : ℚ} (hnonneg : 0 ≤ a) (h : a ≤ b) (factor : ℚ) :
    max 1 (truncate (a * factor)) ≤ max 1 (truncate (b * factor)) := by
  by_cases hfactor : 0 ≤ factor
  · exact max_le_max_left 1 (truncate_mono (mul_le_mul_of_nonneg_right h hfactor))
  · have hnonpos := truncate_nonpos (mul_nonpos_of_nonneg_of_nonpos hnonneg (not_le.mp hfactor).le)
    exact max_le (le_max_left _ _) ((hnonpos.trans zero_le_one).trans (le_max_left _ _))

theorem calculateMaxLotsByPortfolio_mono (cfg : RiskServiceConfig) (input : PositionSizingInput)
    {lots lots' : Int} (hnonneg : 0 ≤ lots) (h : lots ≤ lots') :
    cfg.calculateMaxLotsByPortfolio input lots ≤ cfg.calculateMaxLotsByPortfolio input lots' := by
  unfold calculateMaxLotsByPortfolio
  dsimp only
  split
  · exact h
  · split
    · exact max_one_truncate_mul (Rat.intCast_nonneg.mpr hnonneg) (Rat.intCast_le_intCast.mpr h) _
    · exact h

/-- Of the portfolio limit only the two fractions matter once there is capital. -/
theorem calculateMaxLotsByPortfolio_capital (cfg : RiskServiceConfig)
    {input : PositionSizingInput} {capital : ℚ} (hpos : 0 < input.capitalAvailable)
    (hpos' : 0 < capital) (lots : Int) :
    cfg.calculateMaxLotsByPortfolio { input with capitalAvailable := capital } lots =
      cfg.calculateMaxLotsByPortfolio input lots := by
  have hrisk {c : ℚ} (hc : 0 < c) : c * input.riskPerTrade ≤ 0 ↔ input.riskPerTrade ≤ 0 :=
    mul_nonpos_iff_pos_imp_nonpos.trans ⟨fun h => h.1 hc, fun h => ⟨fun _ => h, fun _ => hc.le⟩⟩
  unfold calculateMaxLotsByPortfolio
  simp only [hrisk hpos, hrisk hpos', mul_lt_mul_iff_right₀ hpos, mul_lt_mul_iff_right₀ hpos',
    mul_div_mul_left _ _ hpos.ne', mul_div_mul_left _ _ hpos'.ne']

theorem portfolioLots_le {cfg : RiskServiceConfig} {input input' : PositionSizingInput}
    {v v' : ℚ} (base : cfg.baseLots input ≤ cfg.baseLots input')
    (nonneg : 0 ≤ cfg.getVolatilityMultiplier v)
    (multiplier : cfg.getVolatilityMultiplier v ≤ cfg.getVolatilityMultiplier v')
    (limit : ∀ lots, cfg.calculateMaxLotsByPortfolio input lots =
      cfg.calculateMaxLotsByPortfolio input' lots) :
    cfg.portfolioLots input v ≤ cfg.portfolioLots input' v' := by
  have hbase : (0 : ℚ) ≤ cfg.baseLots input :=
    Rat.intCast_nonneg.mpr (zero_le_one.trans (le_max_left _ _))
  have hadjusted : truncate (cfg.baseLots input * cfg.getVolatilityMultiplier v) ≤
      truncate (cfg.baseLots input' * cfg.getVolatilityMultiplier v') :=
    truncate_mono (mul_le_mul (Rat.intCast_le_intCast.mpr base) multiplier nonneg
      (hbase.trans (Rat.intCast_le_intCast.mpr base)))
  have hnonneg := truncate_nonneg (mul_nonneg hbase nonneg)
  unfold portfolioLots
  dsimp only
  rw [limit]
  exact min_le_min hadjusted (cfg.calculateMaxLotsByPortfolio_mono input' hnonneg hadjusted)

theorem finalLots_le {cfg : RiskServiceConfig} {input input' : PositionSizingInput}
    {v v' capital : ℚ} (portfolio : cfg.portfolioLots input v ≤ cfg.portfolioLots input' v')
    (byCapital : cfg.calculateMaxLotsByCapital input ≤ cfg.calculateMaxLotsByCapital input') :
    cfg.finalLots input v capital ≤ cfg.finalLots input' v' capital :=
  max_le_max_left 0 (min_le_min (min_le_min_right _ portfolio) byCapital)

theorem maxLotsByCapital_eq {cfg : RiskServiceConfig} {input : PositionSizingInput}
    (risk : 0 < input.riskPerTrade) (distance : 0 < |input.entryPrice - input.stopLossPrice|)
    (lot : 0 < input.lotSize) :
    cfg.calculateMaxLotsByCapital input =
      max 0 (truncate (input.capitalAvailable * cfg.maxRiskPerTrade / lossPerLot input)) := by
  unfold calculateMaxLotsByCapital
  dsimp only
  rw [if_neg (not_le.mpr risk), if_neg]
  exact not_or.mpr ⟨not_le.mpr distance, not_le.mpr lot⟩

/-! ## The calls -/

/-- The checks of the prices, the lot size and the volatility pass. -/
structure Checked (input : PositionSizingInput) (volatility : ℚ) : Prop where
  stop : 0 < input.stopLossPrice
  entry : 0 < input.entryPrice
  distance : 0 < |input.entryPrice - input.stopLossPrice|
  lot : input.lotSize ≠ 0
  volatility : input.volatility = some volatility

theorem calculatePositionSize_checked {cfg : RiskServiceConfig} {input : PositionSizingInput}
    {volatility : ℚ} (h : Checked input volatility) (amount : ℚ) :
    cfg.calculatePositionSize (.capital amount) input =
      .ok (cfg.finalLots input volatility amount) := by
  unfold calculatePositionSize
  rw [if_neg (not_or.mpr ⟨not_le.mpr h.stop, not_le.mpr h.entry⟩), if_neg (not_le.mpr h.distance),
    if_neg h.lot, h.volatility]

theorem calculatePositionSize_ok {cfg : RiskServiceConfig} {reading : CapitalReading}
    {input : PositionSizingInput} {lots : Int}
    (h : cfg.calculatePositionSize reading input = .ok lots) :
    lots = 0 ∨ ∃ volatility amount, Checked input volatility ∧ reading = .capital amount ∧
      lots = cfg.finalLots input volatility amount := by
  unfold calculatePositionSize at h
  split at h
  · exact .inl (Except.ok.inj h).symm
  · rename_i hprices
    split at h
    · exact .inl (Except.ok.inj h).symm
    · rename_i hdistance
      split at h
      · exact .inl (Except.ok.inj h).symm
      · rename_i hlot
        push Not at hprices hdistance
        cases hv : input.volatility with
        | none =>
            rw [hv] at h
            exact .inl (Except.ok.inj h).symm
        | some v =>
            rw [hv] at h
            cases reading with
            | capital amount =>
                exact .inr ⟨v, amount, ⟨hprices.1, hprices.2, hdistance, hlot, hv⟩, rfl,
                  (Except.ok.inj h).symm⟩
            | handled => exact .inl (Except.ok.inj h).symm
            | raised e => cases h

theorem calculatePositionSize_nonneg {cfg : RiskServiceConfig} {reading : CapitalReading}
    {input : PositionSizingInput} {lots : Int}
    (h : cfg.calculatePositionSize reading input = .ok lots) : 0 ≤ lots := by
  obtain rfl | ⟨v, amount, -, -, rfl⟩ := calculatePositionSize_ok h
  · exact le_refl 0
  · exact cfg.finalLots_nonneg input v amount

/-- A lot is only given by a call that the checks pass and whose cost the capital cap covers. -/
theorem calculatePositionSize_pos {cfg : RiskServiceConfig} {reading : CapitalReading}
    {input : PositionSizingInput} {lots : Int} (hpos : 0 < lots)
    (h : cfg.calculatePositionSize reading input = .ok lots) :
    cfg.Covers input lots ∧ ∃ volatility amount, Checked input volatility ∧
      reading = .capital amount ∧ lots = cfg.finalLots input volatility amount := by
  obtain rfl | ⟨v, amount, hchecked, hreading, rfl⟩ := calculatePositionSize_ok h
  · omega
  · exact ⟨covers_of_le hpos (cfg.finalLots_le_byCapital input v amount),
      v, amount, hchecked, hreading, rfl⟩

theorem Covers.budget_pos {cfg : RiskServiceConfig} {input : PositionSizingInput} {lots : Int}
    (h : cfg.Covers input lots) (hpos : 0 < lots) :
    0 < lossPerLot input ∧ 0 < input.capitalAvailable * cfg.maxRiskPerTrade := by
  have hloss : 0 < lossPerLot input := mul_pos h.distance (Rat.intCast_pos.mpr h.lot)
  exact ⟨hloss, (mul_pos (Rat.intCast_pos.mpr hpos) hloss).trans_le h.loss⟩

/-- Lots are compared stage by stage: only a positive number has to be covered by the other call,
which then passes the checks as well. -/
theorem lots_le_of_stages {cfg : RiskServiceConfig} {reading : CapitalReading}
    {input input' : PositionSizingInput} {lots lots' : Int}
    (h : cfg.calculatePositionSize reading input = .ok lots)
    (h' : cfg.calculatePositionSize reading input' = .ok lots')
    (stages : ∀ volatility amount, 0 < lots → cfg.Covers input lots → Checked input volatility →
      ∃ volatility', Checked input' volatility' ∧
        cfg.finalLots input volatility amount ≤ cfg.finalLots input' volatility' amount) :
    lots ≤ lots' := by
  by_cases hpos : 0 < lots
  · obtain ⟨hcovers, v, amount, hchecked, rfl, rfl⟩ := calculatePositionSize_pos hpos h
    obtain ⟨v', hchecked', hle⟩ := stages v amount hpos hcovers hchecked
    rw [calculatePositionSize_checked hchecked'] at h'
    rw [← Except.ok.inj h']
    exact hle
  · exact (not_lt.mp hpos).trans (calculatePositionSize_nonneg h')

theorem lots_le_of_capital {cfg : RiskServiceConfig} {reading : CapitalReading}
    {input : PositionSizingInput} {lots lots' : Int} {capital : ℚ}
    (hcapital : 0 ≤ input.capitalAvailable) (high : 0 ≤ cfg.vixSizeMultiplierHigh)
    (ordered : cfg.vixSizeMultiplierHigh ≤ cfg.vixSizeMultiplierLow)
    (hle : input.capitalAvailable ≤ capital)
    (h : cfg.calculatePositionSize reading input = .ok lots)
    (h' : cfg.calculatePositionSize reading { input with capitalAvailable := capital } =
      .ok lots') : lots ≤ lots' := by
  refine lots_le_of_stages h h' fun v amount hpos hcovers hchecked => ⟨v, ?_, ?_⟩
  · exact ⟨hchecked.stop, hchecked.entry, hchecked.distance, hchecked.lot, hchecked.volatility⟩
  · obtain ⟨hloss, hbudget⟩ := hcovers.budget_pos hpos
    have hc : 0 < input.capitalAvailable := by
      refine hcapital.lt_of_ne fun hzero => ?_
      rw [← hzero, zero_mul] at hbudget
      exact lt_irrefl 0 hbudget
    have hmax : 0 < cfg.maxRiskPerTrade := (mul_pos_iff_of_pos_left hc).mp hbudget
    have hmult := getVolatilityMultiplier_between ordered v
    apply finalLots_le
    · apply portfolioLots_le _ (high.trans hmult.1) (le_refl _)
      · intro k
        exact (cfg.calculateMaxLotsByPortfolio_capital hc (hc.trans_le hle) k).symm
      · apply max_le_max_left
        apply truncate_mono
        apply div_le_div_of_nonneg_right _ hloss.le
        unfold riskAmount
        split
        · exact le_refl _
        · exact mul_le_mul_of_nonneg_right hle hcovers.risk.le
    · rw [maxLotsByCapital_eq hcovers.risk hcovers.distance hcovers.lot,
        @maxLotsByCapital_eq cfg { input with capitalAvailable := capital } hcovers.risk
          hcovers.distance hcovers.lot]
      apply max_le_max_left
      apply truncate_mono
      exact div_le_div_of_nonneg_right (mul_le_mul_of_nonneg_right hle hmax.le) hloss.le

theorem lots_le_of_stop {cfg : RiskServiceConfig} {reading : CapitalReading}
    {input : PositionSizingInput} {lots lots' : Int} {stop : ℚ}
    (high : 0 ≤ cfg.vixSizeMultiplierHigh)
    (ordered : cfg.vixSizeMultiplierHigh ≤ cfg.vixSizeMultiplierLow)
    (hstop : 0 < input.stopLossPrice) (hother : input.stopLossPrice ≠ input.entryPrice)
    (hle : |input.entryPrice - input.stopLossPrice| ≤ |input.entryPrice - stop|)
    (h : cfg.calculatePositionSize reading input = .ok lots)
    (h' : cfg.calculatePositionSize reading { input with stopLossPrice := stop } = .ok lots') :
    lots' ≤ lots := by
  have hdistance : 0 < |input.entryPrice - input.stopLossPrice| :=
    abs_pos.mpr (sub_ne_zero.mpr hother.symm)
  refine lots_le_of_stages h' h fun v amount hpos hcovers hchecked => ⟨v, ?_, ?_⟩
  · exact ⟨hstop, hchecked.entry, hdistance, hchecked.lot, hchecked.volatility⟩
  · obtain ⟨hloss', hbudget⟩ := hcovers.budget_pos hpos
    have hmult := getVolatilityMultiplier_between ordered v
    have hlot : (0 : ℚ) < input.lotSize := Rat.intCast_pos.mpr hcovers.lot
    have hloss : 0 < lossPerLot input := mul_pos hdistance hlot
    have hlosses : lossPerLot input ≤ lossPerLot { input with stopLossPrice := stop } :=
      mul_le_mul_of_nonneg_right hle hlot.le
    have hbase : cfg.baseLots { input with stopLossPrice := stop } ≤ cfg.baseLots input := by
      have hinverse := max_one_truncate_mul (inv_pos.mpr hloss').le (inv_anti₀ hloss hlosses)
        (cfg.riskAmount input)
      rw [inv_mul_eq_div, inv_mul_eq_div] at hinverse
      exact hinverse
    have hlimit (k : Int) : cfg.calculateMaxLotsByPortfolio { input with stopLossPrice := stop } k =
        cfg.calculateMaxLotsByPortfolio input k := rfl
    apply finalLots_le
    · exact portfolioLots_le hbase (high.trans hmult.1) (le_refl _) hlimit
    · rw [maxLotsByCapital_eq hcovers.risk hcovers.distance hcovers.lot,
        @maxLotsByCapital_eq cfg input hcovers.risk hdistance hcovers.lot]
      apply max_le_max_left
      apply truncate_mono
      exact div_le_div_of_nonneg_left hbudget.le hloss hlosses

theorem lots_le_of_volatility {cfg : RiskServiceConfig} {reading : CapitalReading}
    {input : PositionSizingInput} {lots lots' : Int} {v v' : ℚ}
    (high : 0 ≤ cfg.vixSizeMultiplierHigh)
    (ordered : cfg.vixSizeMultiplierHigh ≤ cfg.vixSizeMultiplierLow)
    (hv : input.volatility = some v) (hle : v ≤ v')
    (h : cfg.calculatePositionSize reading input = .ok lots)
    (h' : cfg.calculatePositionSize reading { input with volatility := some v' } = .ok lots') :
    lots' ≤ lots := by
  refine lots_le_of_stages h' h fun w amount _ _ hchecked => ⟨v, ?_, ?_⟩
  · exact ⟨hchecked.stop, hchecked.entry, hchecked.distance, hchecked.lot, hv⟩
  · obtain rfl : v' = w := Option.some.inj hchecked.volatility
    have hmult := getVolatilityMultiplier_between ordered v'
    have hbase : cfg.baseLots { input with volatility := some v' } = cfg.baseLots input := rfl
    have hbudget : cfg.calculateMaxLotsByCapital { input with volatility := some v' } =
        cfg.calculateMaxLotsByCapital input := rfl
    apply finalLots_le
    · exact portfolioLots_le hbase.le (high.trans hmult.1)
        (getVolatilityMultiplier_antitone ordered hle) fun k => rfl
    · exact hbudget.le

/-- How the lots compare with those of calls that differ in the capital, the stop or the volatility
alone. -/
structure MovesWith (cfg : RiskServiceConfig) (reading : CapitalReading)
    (input : PositionSizingInput) (lots : Int) : Prop where
  capital : ∀ capital lots', input.capitalAvailable ≤ capital →
    cfg.calculatePositionSize reading { input with capitalAvailable := capital } = .ok lots' →
    lots ≤ lots'
  stop : 0 < input.stopLossPrice → input.stopLossPrice ≠ input.entryPrice → ∀ stop lots',
    |input.entryPrice - input.stopLossPrice| ≤ |input.entryPrice - stop| →
    cfg.calculatePositionSize reading { input with stopLossPrice := stop } = .ok lots' →
    lots' ≤ lots
  volatility : ∀ v v' lots', input.volatility = some v → v ≤ v' →
    cfg.calculatePositionSize reading { input with volatility := some v' } = .ok lots' →
    lots' ≤ lots

/-- A size is never negative, and at the stop it loses no more than the share of the capital that
one trade may risk. It does not shrink as the capital grows, and it does not grow with the
volatility or with the distance of a stop at a positive price other than the entry price. -/
theorem position_size_within_trade_risk {cfg : RiskServiceConfig} {reading : CapitalReading}
    {input : PositionSizingInput} {lots : Int} (hcapital : 0 ≤ input.capitalAvailable)
    (h : cfg.calculatePositionSize reading input = .ok lots) :
    0 ≤ lots ∧
      (0 < lots → lots * |input.entryPrice - input.stopLossPrice| * input.lotSize ≤
        input.capitalAvailable * cfg.maxRiskPerTrade) ∧
      (0 ≤ cfg.vixSizeMultiplierHigh → cfg.vixSizeMultiplierHigh ≤ cfg.vixSizeMultiplierLow →
        cfg.vixThresholdLow < cfg.vixThresholdHigh → cfg.MovesWith reading input lots) := by
  refine ⟨calculatePositionSize_nonneg h, ?_, ?_⟩
  · intro hpos
    rw [mul_assoc]
    exact (calculatePositionSize_pos hpos h).1.loss
  · intro high ordered _
    constructor
    · intro capital lots' hle h'
      exact lots_le_of_capital hcapital high ordered hle h h'
    · intro hstop hother stop lots' hle h'
      exact lots_le_of_stop high ordered hstop hother hle h h'
    · intro v v' lots' hv hle h'
      exact lots_le_of_volatility high ordered hv hle h h'

/-- A lot of 50 at 100, stopped out at 95 and at a volatility of 20; 2 % of a hundred thousand. -/
def sampleSizing : PositionSizingInput where
  symbol := "NIFTY"
  entryPrice := 100
  stopLossPrice := 95
  capitalAvailable := 100000
  riskPerTrade := 1 / 50
  lotSize := 50
  volatility := some 20

theorem sample_size_within_trade_risk :
    ((8 : Int) : ℚ) * |sampleSizing.entryPrice - sampleSizing.stopLossPrice| *
        sampleSizing.lotSize ≤ sampleSizing.capitalAvailable * (1 / 20) ∧
      MovesWith {} (.capital 5000000) sampleSizing 8 := by
  have hsize : calculatePositionSize {} (.capital 5000000) sampleSizing = .ok 8 := by
    decide +kernel
  obtain ⟨-, hcap, hmoves⟩ := position_size_within_trade_risk (by decide) hsize
  exact ⟨hcap (by decide), hmoves (by decide +kernel) (by decide +kernel) (by decide +kernel)⟩

/-- A stop at the entry price is no stop: sizing answers zero, and more for one further away. -/
theorem stop_at_entry_price_sized_zero :
    |sampleSizing.entryPrice - sampleSizing.entryPrice| ≤
        |sampleSizing.entryPrice - sampleSizing.stopLossPrice| ∧
      calculatePositionSize {} (.capital 5000000)
        { sampleSizing with stopLossPrice := sampleSizing.entryPrice } = .ok 0 ∧
      calculatePositionSize {} (.capital 5000000) sampleSizing = .ok 8 := by
  decide +kernel

end RiskServiceConfig

end AutoTrade.Risk
