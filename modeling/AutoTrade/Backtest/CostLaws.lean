import AutoTrade.Backtest.Books
import Mathlib.Order.Filter.AtTopBot.Field

/-! # What costs do to a booked result

`_close_trade` moves the exit price upwards by the slippage and half the spread,
for calls and for puts. A put is left at a higher price than it was to be, at a
loss; for a call, which should be sold for less, the move is a gain without
bound.
-/

namespace AutoTrade.Backtest

open Filter

/-- The same configuration at other costs. -/
def CandleBacktestConfig.withCosts (cfg : CandleBacktestConfig) (slippagePct spreadPct feePerLot : ℚ) :
    CandleBacktestConfig :=
  { cfg with slippagePct, spreadPct, feePerLot }

namespace CandleBacktestEngine

variable {π μ : Type}

/-- The `net_pnl` of the row that `_close_trade` writes. -/
def bookedNetPnl (cfg : CandleBacktestConfig) (position : Position μ) (ts : Time) (exitPx : ℚ)
    (reason : String) (idx : Nat) : ℚ :=
  (journalRow cfg position ts (slippedExit cfg exitPx) reason idx).netPnl

/-- No rise of the slippage, of the spread or of the fee raises what is booked. -/
def CostsNeverHelp (cfg : CandleBacktestConfig) (position : Position μ) (ts : Time) (exitPx : ℚ)
    (reason : String) (idx : Nat) : Prop :=
  ∀ slip slip' spread spread' fee fee' : ℚ, slip ≤ slip' → spread ≤ spread' → fee ≤ fee' →
    bookedNetPnl (cfg.withCosts slip' spread' fee') position ts exitPx reason idx ≤
      bookedNetPnl (cfg.withCosts slip spread fee) position ts exitPx reason idx

/-! ## Rounding without bound -/

theorem tendsto_roundTo : Tendsto (roundTo 2) atTop atTop := by
  have hshift : Tendsto (fun x : ℚ => x + -(5 / 1000)) atTop atTop :=
    tendsto_atTop_add_const_right atTop _ tendsto_id
  refine tendsto_atTop_mono (fun x => ?_) hshift
  have hclose := (abs_le.mp (abs_roundTo_sub_le x)).1
  linarith

/-! ## What a position is priced with -/

theorem atmDelta_pos (vix : ℚ) (dte : Int) : 0 < atmDelta vix dte :=
  lt_of_lt_of_le (by decide +kernel : (0 : ℚ) < roundTo 3 (35 / 100))
    (roundTo_mono 3 (le_max_left _ _))

theorem lotFound_pos (p : String × Int → Bool) :
    0 < ((nseLotSizes.find? p).map Prod.snd).getD defaultLot := by
  cases hfound : nseLotSizes.find? p with
  | none => decide
  | some entry =>
      have hentry := List.mem_of_find?_eq_some hfound
      exact (by decide : ∀ e ∈ nseLotSizes, 0 < e.2) entry hentry

theorem lotSize_pos (symbol : String) : 0 < lotSize symbol := by
  rw [lotSize]
  exact lotFound_pos _

theorem buildOptionTrade_lotSizeN (sqrt : ℚ → ℚ) (symbol direction : String)
    (entryIndex atr vix slIndex tpIndex : ℚ) (dte : Int) (deltaScale : ℚ) :
    (buildOptionTrade sqrt symbol direction entryIndex atr vix slIndex tpIndex dte
      deltaScale).lotSizeN = lotSize symbol := by
  rw [buildOptionTrade]

/-- The option behind a position has its direction, and moves with the index. -/
def Priced (position : Position μ) : Prop :=
  ∀ spec, position.optSpec = some spec →
    spec.direction = position.direction ∧ 0 < spec.delta ∧ 0 < spec.lotSizeN

theorem executePending_priced (engine : CandleBacktestEngine π μ) (cfg : CandleBacktestConfig)
    (pending : Pending μ) (idx : Nat) (ts : Time) (capital : ℚ) :
    Priced (engine.executePending cfg pending idx ts capital).1 := by
  intro spec hspec
  obtain ⟨-, hspec⟩ := Option.ite_none_right_eq_some.mp hspec
  obtain rfl := Option.some.inj hspec
  refine ⟨rfl, ?_, ?_⟩
  · exact atmDelta_pos cfg.vix cfg.dte
  · rw [buildOptionTrade_lotSizeN]
    exact lotSize_pos engine.name

/-! ## The option model -/

section OptionModel

variable {spec : OptionTradeSpec} {fee fee' move move' exitIndex exitIndex' : ℚ}

/-- The result of a lot by the move of the index in the direction of the option. -/
def lotResult (spec : OptionTradeSpec) (move fee : ℚ) : ℚ :=
  roundTo 2 (roundTo 2 ((max (1 / 2) (roundTo 2 (spec.entryPremium + move * spec.delta)) -
    spec.entryPremium) * spec.lotSizeN) - fee)

theorem netPnlPerLot_call (hcall : spec.direction = "CALL") (exitIndex fee : ℚ) :
    (calcOptionPnl spec exitIndex fee).netPnlPerLot =
      lotResult spec (exitIndex - spec.entryIndex) fee := by
  simp [calcOptionPnl, lotResult, hcall]

theorem netPnlPerLot_put (hput : spec.direction ≠ "CALL") (exitIndex fee : ℚ) :
    (calcOptionPnl spec exitIndex fee).netPnlPerLot =
      lotResult spec (spec.entryIndex - exitIndex) fee := by
  simp [calcOptionPnl, lotResult, hput]

theorem lotResult_mono (hdelta : 0 < spec.delta) (hlot : 0 < spec.lotSizeN) (hmove : move ≤ move')
    (hfee : fee ≤ fee') : lotResult spec move fee' ≤ lotResult spec move' fee := by
  have hlots : (0 : ℚ) ≤ spec.lotSizeN := by exact_mod_cast hlot.le
  have hprem : roundTo 2 (spec.entryPremium + move * spec.delta) ≤
      roundTo 2 (spec.entryPremium + move' * spec.delta) :=
    roundTo_mono 2 ((add_le_add_iff_left _).mpr (mul_le_mul_of_nonneg_right hmove hdelta.le))
  have hgross := roundTo_mono 2 (mul_le_mul_of_nonneg_right
    (sub_le_sub_right (max_le_max_left (1 / 2) hprem) spec.entryPremium) hlots)
  exact roundTo_mono 2 (sub_le_sub hgross hfee)

/-- The result of a lot has no upper bound. -/
theorem tendsto_lotResult (hdelta : 0 < spec.delta) (hlot : 0 < spec.lotSizeN) (fee : ℚ) :
    Tendsto (fun move => lotResult spec move fee) atTop atTop := by
  have hlots : (0 : ℚ) < spec.lotSizeN := by exact_mod_cast hlot
  have hmoved : Tendsto (fun move => spec.entryPremium + move * spec.delta) atTop atTop :=
    tendsto_atTop_add_const_left atTop _ (tendsto_id.atTop_mul_const hdelta)
  have hprem := tendsto_atTop_mono (fun move => le_max_right (1 / 2) _)
    (tendsto_roundTo.comp hmoved)
  have hgain := tendsto_atTop_add_const_right atTop (-spec.entryPremium) hprem
  have hgross := tendsto_roundTo.comp (hgain.atTop_mul_const hlots)
  have hnet := tendsto_roundTo.comp (tendsto_atTop_add_const_right atTop (-fee) hgross)
  refine hnet.congr fun move => ?_
  simp only [lotResult, Function.comp_apply, sub_eq_add_neg]

end OptionModel

/-! ## What one unit of the quantity books -/

section Unit

variable {cfg : CandleBacktestConfig} {position : Position μ} {fee fee' exitIndex exitIndex' : ℚ}

/-- The net result for each unit of the quantity, in option space or in index points. -/
def unitNet (cfg : CandleBacktestConfig) (position : Position μ) (exitIndex fee : ℚ) : ℚ :=
  match if cfg.useOptionModel then position.optSpec else none with
  | some spec => (calcOptionPnl spec exitIndex fee).netPnlPerLot
  | none =>
      (if position.direction = "CALL" then exitIndex - position.entryPrice
        else position.entryPrice - exitIndex) - fee

theorem tradePnl_net (cfg : CandleBacktestConfig) (position : Position μ) (exitIndex : ℚ) :
    (tradePnl cfg position exitIndex).net =
      unitNet cfg position exitIndex cfg.feePerLot * position.qty := by
  unfold tradePnl unitNet
  generalize (if cfg.useOptionModel = true then position.optSpec else none) = optSpec
  cases optSpec with
  | some spec => rfl
  | none => by_cases hcall : position.direction = "CALL" <;> simp [hcall, sub_mul]

theorem bookedNetPnl_withCosts (cfg : CandleBacktestConfig) (position : Position μ) (ts : Time)
    (exitPx : ℚ) (reason : String) (idx : Nat) (slip spread fee : ℚ) :
    bookedNetPnl (cfg.withCosts slip spread fee) position ts exitPx reason idx =
      roundTo 2 (unitNet cfg position (exitPx * (1 + (slip + spread * (1 / 2)))) fee *
        position.qty) := by
  rw [bookedNetPnl, journalRow, tradePnl_net]
  rfl

theorem unitNet_put (hpriced : Priced position) (hput : position.direction ≠ "CALL")
    (hexit : exitIndex ≤ exitIndex') (hfee : fee ≤ fee') :
    unitNet cfg position exitIndex' fee' ≤ unitNet cfg position exitIndex fee := by
  unfold unitNet
  split
  · rename_i spec hspec
    obtain ⟨-, hspec⟩ := Option.ite_none_right_eq_some.mp hspec
    obtain ⟨hdirection, hdelta, hlot⟩ := hpriced spec hspec
    rw [← hdirection] at hput
    rw [netPnlPerLot_put hput, netPnlPerLot_put hput]
    exact lotResult_mono hdelta hlot (sub_le_sub_left hexit _) hfee
  · rw [if_neg hput, if_neg hput]
    exact sub_le_sub (sub_le_sub_left hexit _) hfee

/-- The higher the exit of a call, the more it books, without bound. -/
theorem tendsto_unitNet_call (cfg : CandleBacktestConfig) (hpriced : Priced position)
    (hcall : position.direction = "CALL") (fee : ℚ) :
    Tendsto (fun exitIndex => unitNet cfg position exitIndex fee) atTop atTop := by
  unfold unitNet
  split
  · rename_i spec hspec
    obtain ⟨-, hspec⟩ := Option.ite_none_right_eq_some.mp hspec
    obtain ⟨hdirection, hdelta, hlot⟩ := hpriced spec hspec
    simp only [netPnlPerLot_call (hdirection.trans hcall), sub_eq_add_neg _ spec.entryIndex]
    exact (tendsto_lotResult hdelta hlot fee).comp
      (tendsto_atTop_add_const_right atTop (-spec.entryIndex) tendsto_id)
  · simp only [hcall, if_true, sub_sub, sub_eq_add_neg _ (position.entryPrice + fee)]
    exact tendsto_atTop_add_const_right atTop (-(position.entryPrice + fee)) tendsto_id

/-- The higher the fee, the less is booked, without bound. -/
theorem tendsto_unitNet_fee (cfg : CandleBacktestConfig) (position : Position μ) (exitIndex : ℚ) :
    Tendsto (fun fee => -unitNet cfg position exitIndex fee) atTop atTop := by
  unfold unitNet
  split
  · rename_i spec hspec
    refine tendsto_atTop_mono (fun fee => ?_) (tendsto_atTop_add_const_right atTop
      (-((calcOptionPnl spec exitIndex 0).grossPnlPerLot + 5 / 1000)) tendsto_id)
    have hclose := (abs_le.mp (abs_roundTo_sub_le
      ((calcOptionPnl spec exitIndex 0).grossPnlPerLot - fee))).2
    show fee + _ ≤ -roundTo 2 ((calcOptionPnl spec exitIndex 0).grossPnlPerLot - fee)
    linarith
  · generalize (if position.direction = "CALL" then exitIndex - position.entryPrice
      else position.entryPrice - exitIndex) = gross
    refine (tendsto_atTop_add_const_right atTop (-gross) tendsto_id).congr fun fee => ?_
    rw [id_eq, neg_sub, sub_eq_add_neg]

end Unit

/-! ## Which positions costs never help -/

section Law

variable {cfg : CandleBacktestConfig} {position : Position μ} {ts : Time} {exitPx : ℚ}
  {reason : String} {idx : Nat}

/-- What grows without bound is higher somewhere than at zero. -/
theorem exists_gain {f : ℚ → ℚ} (h : Tendsto f atTop atTop) : ∃ x, 0 ≤ x ∧ f 0 < f x :=
  ((eventually_ge_atTop 0).and (h.eventually_gt_atTop (f 0))).exists

theorem costsNeverHelp_put (hpriced : Priced position) (hput : position.direction ≠ "CALL")
    (hqty : 0 ≤ position.qty) (hexit : 0 < exitPx) :
    CostsNeverHelp cfg position ts exitPx reason idx := by
  intro slip slip' spread spread' fee fee' hslip hspread hfee
  have hunits : (0 : ℚ) ≤ position.qty := by exact_mod_cast hqty
  have hmoved : exitPx * (1 + (slip + spread * (1 / 2))) ≤
      exitPx * (1 + (slip' + spread' * (1 / 2))) :=
    mul_le_mul_of_nonneg_left (by linarith) hexit.le
  rw [bookedNetPnl_withCosts, bookedNetPnl_withCosts]
  exact roundTo_mono 2 (mul_le_mul_of_nonneg_right (unitNet_put hpriced hput hmoved hfee) hunits)

theorem not_costsNeverHelp_call (hpriced : Priced position) (hcall : position.direction = "CALL")
    (hqty : 0 < position.qty) (hexit : 0 < exitPx) :
    ¬ CostsNeverHelp cfg position ts exitPx reason idx := by
  intro h
  have hunits : (0 : ℚ) < position.qty := by exact_mod_cast hqty
  have hmoved : Tendsto (fun slip : ℚ => exitPx * (1 + (slip + 0 * (1 / 2)))) atTop atTop :=
    (tendsto_atTop_add_const_left atTop 1
      (tendsto_atTop_add_const_right atTop _ tendsto_id)).const_mul_atTop hexit
  have hbooked := tendsto_roundTo.comp
    (((tendsto_unitNet_call cfg hpriced hcall 0).comp hmoved).atTop_mul_const hunits)
  obtain ⟨slip, hslip, hgain⟩ := exists_gain hbooked
  have hfall := h 0 slip 0 0 0 0 hslip le_rfl le_rfl
  rw [bookedNetPnl_withCosts, bookedNetPnl_withCosts] at hfall
  exact absurd hgain (not_lt.mpr hfall)

theorem not_costsNeverHelp_negative (hqty : position.qty < 0) :
    ¬ CostsNeverHelp cfg position ts exitPx reason idx := by
  intro h
  have hunits : (0 : ℚ) < -position.qty := by exact_mod_cast Int.neg_pos.mpr hqty
  have hbooked := tendsto_roundTo.comp
    ((tendsto_unitNet_fee cfg position (exitPx * (1 + (0 + 0 * (1 / 2))))).atTop_mul_const hunits)
  obtain ⟨fee, hfee, hgain⟩ := exists_gain hbooked
  have hfall := h 0 0 0 0 0 fee le_rfl le_rfl hfee
  rw [bookedNetPnl_withCosts, bookedNetPnl_withCosts] at hfall
  simp only [Function.comp_apply, neg_mul_neg] at hgain
  exact absurd hgain (not_lt.mpr hfall)

theorem costsNeverHelp_zero (hqty : position.qty = 0) :
    CostsNeverHelp cfg position ts exitPx reason idx := by
  intro slip slip' spread spread' fee fee' _ _ _
  rw [bookedNetPnl_withCosts, bookedNetPnl_withCosts, hqty, Int.cast_zero, mul_zero, mul_zero]

/-- For every position that the engine opens and every exit price above zero, no cost raises the
booked result exactly where nothing was bought, or a put was. -/
theorem costs_never_help_iff (engine : CandleBacktestEngine π μ)
    (opened closed : CandleBacktestConfig) (pending : Pending μ) (entryIdx : Nat) (entryTs : Time)
    (capital exitPx : ℚ) (ts : Time) (reason : String) (idx : Nat) (hexit : 0 < exitPx) :
    CostsNeverHelp closed (engine.executePending opened pending entryIdx entryTs capital).1 ts
        exitPx reason idx ↔
      opened.qty = 0 ∨ (0 < opened.qty ∧ pending.direction ≠ "CALL") := by
  have hpriced := executePending_priced engine opened pending entryIdx entryTs capital
  rcases lt_trichotomy opened.qty 0 with hneg | hzero | hpos
  · refine iff_of_false (not_costsNeverHelp_negative hneg) ?_
    rintro (hzero | ⟨hpos, -⟩)
    · exact hneg.ne hzero
    · exact hpos.not_gt hneg
  · exact iff_of_true (costsNeverHelp_zero hzero) (Or.inl hzero)
  · by_cases hcall : pending.direction = "CALL"
    · refine iff_of_false (not_costsNeverHelp_call hpriced hcall hpos hexit) ?_
      rintro (hzero | ⟨-, hput⟩)
      · exact hpos.ne' hzero
      · exact hput hcall
    · exact iff_of_true (costsNeverHelp_put hpriced hcall hpos.le hexit) (Or.inr ⟨hpos, hcall⟩)

end Law

/-! ## A call and a put of the sample engine -/

/-- An order for the sample engine, in either direction. -/
def sampleOrder (direction : String) : Pending Unit :=
  { enterOnIdx := 40, direction := direction, refPrice := 20000, atr := 10, tpMult := 2, slMult := 1
    score := 80, threshold := 65, regime := "NEUTRAL"
    signalMeta := { confidence := 0, signalReason := "", mktRegime := "NEUTRAL", rest := () } }

/-- For a put no cost raises what is booked. -/
theorem put_costs_never_help :
    CostsNeverHelp {} (sampleEngine.executePending {} (sampleOrder "PUT") 40 0 100000).1 0 20050
      "time_exit" 50 :=
  (costs_never_help_iff sampleEngine {} {} (sampleOrder "PUT") 40 0 100000 20050 0 "time_exit" 50
    (by decide)).mpr (Or.inr ⟨by decide, by decide⟩)

/-- A call that leaves at 20050 books more with the default slippage than without. -/
theorem slippage_helps_call :
    ¬ CostsNeverHelp {} (sampleEngine.executePending {} (sampleOrder "CALL") 40 0 100000).1 0 20050
      "time_exit" 50 := by
  intro h
  exact absurd (h 0 (5 / 10000) 0 0 40 40 (by decide +kernel) le_rfl le_rfl) (by decide +kernel)

end CandleBacktestEngine

end AutoTrade.Backtest
