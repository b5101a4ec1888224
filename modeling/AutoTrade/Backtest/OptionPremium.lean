import AutoTrade.Runtime

/-! # Option premiums of the backtest

The estimates of `option_premium_model.py` that a backtest trade is priced
with: the premium at entry from the range and the volatility of the index, the
premium at exit from the move of the index, and the profit or loss of one lot.
The square root in the factor for the days to expiry is a parameter.
-/

namespace AutoTrade.Backtest

/-- `NSE_LOT_SIZES`, the longest names first. -/
def nseLotSizes : List (String × Int) :=
  [("MIDCPNIFTY", 75), ("BANKNIFTY", 15), ("FINNIFTY", 40), ("SENSEX", 10), ("NIFTY", 25)]

def defaultLot : Int := 25

/-- The characters with the needle taken out from left to right; `skip` of them still belong to the
needle met last. -/
def withoutText (needle : List Char) : Nat → List Char → List Char
  | _, [] => []
  | skip + 1, _ :: rest => withoutText needle skip rest
  | 0, c :: rest =>
      if needle <+: c :: rest then withoutText needle (needle.length - 1) rest
      else c :: withoutText needle 0 rest

/-- `text.replace(needle, "")`. -/
def remove (needle text : String) : String :=
  String.ofList (withoutText needle.toList 0 text.toList)

def lotSize (symbol : String) : Int :=
  let key := remove " " (remove "NSE:" (remove "^" symbol.toUpper))
  ((nseLotSizes.find? fun entry => inText entry.1 key).map Prod.snd).getD defaultLot

def ivFactor (vix : ℚ) : ℚ :=
  if vix ≤ 0 then 1
  else roundTo 4 (max (80 / 100) (min (150 / 100) (1 + (vix - 15) / 50)))

def dteFactor (sqrt : ℚ → ℚ) (dte : Int) : ℚ := roundTo 4 (sqrt ((max 1 dte : Int) / 3))

def atmDelta (vix : ℚ) (dte : Int) : ℚ :=
  let dteAdj : ℚ := -(8 / 1000) * (max 0 (7 - dte) : Int)
  let volAdj : ℚ := -(1 / 1000) * max 0 (vix - 20)
  roundTo 3 (max (35 / 100) (min (55 / 100) (50 / 100 + dteAdj + volAdj)))

def estimateAtmPremium (sqrt : ℚ → ℚ) (indexPrice atr vix : ℚ) (dte : Int) (deltaScale : ℚ) : ℚ :=
  if atr ≤ 0 ∨ indexPrice ≤ 0 then max 20 (indexPrice * (4 / 1000))
  else
    let raw := atr * ivFactor vix * deltaScale * dteFactor sqrt dte
    let floor := max 15 (indexPrice * (8 / 10000))
    roundTo 2 (max raw floor)

structure OptionTradeSpec where
  symbol : String
  direction : String
  entryIndex : ℚ
  entryPremium : ℚ
  delta : ℚ
  lotSizeN : Int
  slIndex : ℚ
  tpIndex : ℚ
  slPremium : ℚ
  tpPremium : ℚ
  atr : ℚ
  vix : ℚ
deriving DecidableEq, Repr

def buildOptionTrade (sqrt : ℚ → ℚ) (symbol direction : String) (entryIndex atr vix slIndex
    tpIndex : ℚ) (dte : Int) (deltaScale : ℚ) : OptionTradeSpec :=
  let prem := estimateAtmPremium sqrt entryIndex atr vix dte deltaScale
  let d := atmDelta vix dte
  let slDist := if direction = "CALL" then max 0 (entryIndex - slIndex)
    else max 0 (slIndex - entryIndex)
  let tpDist := if direction = "CALL" then max 0 (tpIndex - entryIndex)
    else max 0 (entryIndex - tpIndex)
  { symbol := symbol, direction := direction, entryIndex := entryIndex, entryPremium := prem
    delta := d, lotSizeN := lotSize symbol, slIndex := slIndex, tpIndex := tpIndex
    slPremium := max 5 (roundTo 2 (prem - slDist * d))
    tpPremium := roundTo 2 (prem + tpDist * d), atr := atr, vix := vix }

/-- What `calc_option_pnl` returns. -/
structure OptionPnl where
  exitPremium : ℚ
  grossPnlPerLot : ℚ
  netPnlPerLot : ℚ
  rrAchieved : ℚ
  pctPnl : ℚ
  isWinner : Bool
deriving DecidableEq, Repr

def calcOptionPnl (spec : OptionTradeSpec) (exitIndex feePerLot : ℚ) : OptionPnl :=
  let indexMove := if spec.direction = "CALL" then exitIndex - spec.entryIndex
    else spec.entryIndex - exitIndex
  let exitPrem := max (1 / 2) (roundTo 2 (spec.entryPremium + indexMove * spec.delta))
  let grossPerLot := roundTo 2 ((exitPrem - spec.entryPremium) * spec.lotSizeN)
  let netPerLot := roundTo 2 (grossPerLot - feePerLot)
  let slRisk := max (1 / 100) (spec.entryPremium - spec.slPremium)
  { exitPremium := exitPrem
    grossPnlPerLot := grossPerLot
    netPnlPerLot := netPerLot
    rrAchieved := roundTo 3 ((exitPrem - spec.entryPremium) / slRisk)
    pctPnl := roundTo 2 ((exitPrem - spec.entryPremium) / spec.entryPremium * 100)
    isWinner := decide (0 ≤ netPerLot) }

/-- The multiples of the range for stop loss and target. -/
def regimeRrTargets (regime : String) (baseSlMult baseTpMult : ℚ) : ℚ × ℚ :=
  if regime = "TRENDING" then (baseSlMult, baseTpMult * (12 / 10))
  else if regime = "CHOPPY" then (baseSlMult * (85 / 100), baseTpMult * (75 / 100))
  else if regime = "EVENT" then (baseSlMult * (75 / 100), baseTpMult * (65 / 100))
  else (baseSlMult, baseTpMult)

example : (lotSize "^NSE:Bank Nifty", lotSize "nifty 50", lotSize "GOLD") = (15, 25, 25) := by
  decide +kernel

/-! ## A premium is never zero -/

theorem floor_le_roundHalfEven (x : ℚ) : x.floor ≤ roundHalfEven x := by
  unfold roundHalfEven
  dsimp only
  split <;> omega

theorem le_roundTo {digits : Nat} {n : Int} {x : ℚ} (h : (n : ℚ) ≤ x) :
    (n : ℚ) ≤ roundTo digits x := by
  have hscale : (0 : ℚ) < 10 ^ digits := pow_pos (by decide) digits
  have hfloor : n * 10 ^ digits ≤ (x * 10 ^ digits).floor := by
    refine Rat.le_floor_iff.mpr ?_
    push_cast
    exact mul_le_mul_of_nonneg_right h hscale.le
  have hround := hfloor.trans (floor_le_roundHalfEven (x * 10 ^ digits))
  rw [roundTo, le_div_iff₀ hscale]
  exact_mod_cast hround

/-- `calc_option_pnl` divides by the premium at entry. -/
theorem estimateAtmPremium_pos (sqrt : ℚ → ℚ) (indexPrice atr vix : ℚ) (dte : Int)
    (deltaScale : ℚ) : 0 < estimateAtmPremium sqrt indexPrice atr vix dte deltaScale := by
  unfold estimateAtmPremium
  split
  · exact lt_of_lt_of_le (by decide) (le_max_left _ _)
  · refine lt_of_lt_of_le (by decide : (0 : ℚ) < (15 : Int)) (le_roundTo ?_)
    exact (le_max_left _ _).trans (le_max_right _ _)

end AutoTrade.Backtest
