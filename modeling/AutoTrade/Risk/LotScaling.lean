import AutoTrade.Risk.CapitalManager

/-! # Which way a recorded trade moves the lots

Capital, drawdown, loss streak and the day's result decide the scale factor. A
state that is no better in any of the four scales to no more lots, and a loss
leaves such a state while a win comes from one.
-/

namespace AutoTrade.Risk

open AutoTrade.Library

namespace CapitalManager

/-! ## The factors -/

/-- What is taken off a factor leaves it between zero and one. -/
theorem reduced_range {least taken : ℚ} (hleast : 0 ≤ least) (hone : least ≤ 1)
    (htaken : 0 ≤ taken) :
    0 ≤ roundTo 3 (max least (1 - taken)) ∧ roundTo 3 (max least (1 - taken)) ≤ 1 := by
  have hle : max least (1 - taken) ≤ 1 := max_le hone (by linarith)
  constructor
  · exact roundTo_nonneg 3 (le_max_of_le_left hleast)
  · exact (roundTo_mono 3 hle).trans (by decide +kernel)

theorem drawdownFactor_of_pos {m : CapitalManager} {ddPct : ℚ}
    (enabled : m.drawdownScaleEnabled = true) (h : 0 < ddPct) (below : ddPct < m.maxDd) :
    m.drawdownFactor ddPct = roundTo 3 (max ddScaleFloor (1 - ddPct / m.maxDd)) := by
  rw [drawdownFactor, enabled, if_neg (by decide), if_neg (not_le.mpr below), if_pos h]

theorem drawdownFactor_range {m : CapitalManager} (limit : 0 < m.maxDd) (ddPct : ℚ) :
    0 ≤ m.drawdownFactor ddPct ∧ m.drawdownFactor ddPct ≤ 1 := by
  unfold drawdownFactor
  split
  · exact ⟨zero_le_one, le_refl 1⟩
  · split
    · exact ⟨le_refl 0, zero_le_one⟩
    · split
      · rename_i hpos
        have hshare : 0 < ddPct / m.maxDd := div_pos hpos limit
        exact reduced_range (by decide +kernel) (by decide +kernel) hshare.le
      · exact ⟨zero_le_one, le_refl 1⟩

theorem drawdownFactor_antitone {m : CapitalManager} (limit : 0 < m.maxDd) {dd dd' : ℚ}
    (h : dd ≤ dd') : m.drawdownFactor dd' ≤ m.drawdownFactor dd := by
  by_cases henabled : m.drawdownScaleEnabled = false
  · simp [drawdownFactor, henabled]
  by_cases hover : m.maxDd ≤ dd'
  · have hzero : m.drawdownFactor dd' = 0 := by
      rw [drawdownFactor, if_neg henabled, if_pos hover]
    rw [hzero]
    exact (drawdownFactor_range limit dd).1
  by_cases hpos : 0 < dd
  · have hon : m.drawdownScaleEnabled = true := by simpa using henabled
    rw [drawdownFactor_of_pos hon hpos (h.trans_lt (not_le.mp hover)),
      drawdownFactor_of_pos hon (hpos.trans_le h) (not_le.mp hover)]
    have hshare := div_le_div_of_nonneg_right h limit.le
    exact roundTo_mono 3 (max_le_max_left _ (by linarith))
  · have hone : m.drawdownFactor dd = 1 := by
      rw [drawdownFactor, if_neg henabled, if_neg (by linarith), if_neg hpos]
    rw [hone]
    exact (drawdownFactor_range limit dd').2

theorem consecFactor_nonneg (losses : Nat) : 0 ≤ consecFactor losses := by
  unfold consecFactor
  split_ifs <;> decide +kernel

theorem consecFactor_antitone {losses losses' : Nat} (h : losses ≤ losses') :
    consecFactor losses' ≤ consecFactor losses := by
  unfold consecFactor
  split_ifs <;> first | omega | decide +kernel

theorem capitalGrowth_nonneg (m : CapitalManager) : 0 ≤ m.capitalGrowth := by
  have hfloor : (0 : ℚ) ≤ max (1 / 10) (m.state.currentCapital / max m.state.initialCapital 1) :=
    le_max_of_le_left (by decide +kernel)
  exact roundTo_nonneg 3 (le_min (by decide +kernel) hfloor)

/-- Under the same limits, the first state is no better than the second in anything that scales the
lots. -/
structure NoBetter (m m' : CapitalManager) : Prop where
  maxDailyLoss : m.maxDailyLoss = m'.maxDailyLoss
  maxDd : m.maxDd = m'.maxDd
  dailyWarnPct : m.dailyWarnPct = m'.dailyWarnPct
  drawdownScaleEnabled : m.drawdownScaleEnabled = m'.drawdownScaleEnabled
  initialCapital : m.state.initialCapital = m'.state.initialCapital
  currentCapital : m.state.currentCapital ≤ m'.state.currentCapital
  drawdown : drawdownPctUnlocked m'.state ≤ drawdownPctUnlocked m.state
  consecutiveLosses : m'.state.consecutiveLosses ≤ m.state.consecutiveLosses
  dailyPnl : m.state.dailyPnl ≤ m'.state.dailyPnl

theorem NoBetter.capitalGrowth_le {m m' : CapitalManager} (h : NoBetter m m') :
    m.capitalGrowth ≤ m'.capitalGrowth := by
  have hbase : (0 : ℚ) < max m'.state.initialCapital 1 := lt_max_of_lt_right zero_lt_one
  have hgrowth : m.state.currentCapital / max m'.state.initialCapital 1 ≤
      m'.state.currentCapital / max m'.state.initialCapital 1 :=
    div_le_div_of_nonneg_right h.currentCapital hbase.le
  unfold capitalGrowth
  rw [h.initialCapital]
  exact roundTo_mono 3 (min_le_min_left _ (max_le_max_left _ hgrowth))

theorem NoBetter.drawdownFactor_le {m m' : CapitalManager} (h : NoBetter m m')
    (limit : 0 < m.maxDd) :
    m.drawdownFactor (drawdownPctUnlocked m.state) ≤
      m'.drawdownFactor (drawdownPctUnlocked m'.state) := by
  have hsame : m'.drawdownFactor (drawdownPctUnlocked m'.state) =
      m.drawdownFactor (drawdownPctUnlocked m'.state) := by
    unfold drawdownFactor
    rw [h.maxDd, h.drawdownScaleEnabled]
  rw [hsame]
  exact drawdownFactor_antitone limit h.drawdown

theorem dailyFactor_range (m : CapitalManager) : 0 ≤ m.dailyFactor ∧ m.dailyFactor ≤ 1 := by
  unfold dailyFactor
  dsimp only
  split
  · rename_i hwarn
    have hneg : m.state.dailyPnl < 0 := hwarn.1.trans_lt hwarn.2
    have hused : 0 < m.state.dailyPnl / m.maxDailyLoss := div_pos_of_neg_of_neg hneg
      m.maxDailyLoss_neg
    exact reduced_range (by decide +kernel) (by decide +kernel) (by linarith)
  · exact ⟨zero_le_one, le_refl 1⟩

theorem NoBetter.dailyFactor_le {m m' : CapitalManager} (h : NoBetter m m') :
    m.dailyFactor ≤ m'.dailyFactor := by
  by_cases hwarn : m'.state.dailyPnl ≤ m'.maxDailyLoss * m'.dailyWarnPct ∧
      m'.maxDailyLoss * m'.dailyWarnPct < 0
  -- the day's loss is past the warning in both states, and deeper in the first
  · have hused : m'.state.dailyPnl / m'.maxDailyLoss ≤ m.state.dailyPnl / m'.maxDailyLoss :=
      div_le_div_of_nonpos_of_le m'.maxDailyLoss_neg.le h.dailyPnl
    unfold dailyFactor
    dsimp only
    rw [h.maxDailyLoss, h.dailyWarnPct, if_pos ⟨h.dailyPnl.trans hwarn.1, hwarn.2⟩, if_pos hwarn]
    exact roundTo_mono 3 (max_le_max_left _ (by linarith))
  · have hone : m'.dailyFactor = 1 := if_neg hwarn
    rw [hone]
    exact m.dailyFactor_range.2

theorem NoBetter.scaleFactor_le {m m' : CapitalManager} (h : NoBetter m m')
    (limit : 0 < m.maxDd) : m.scaleFactor ≤ m'.scaleFactor := by
  have hdd := (drawdownFactor_range limit (drawdownPctUnlocked m.state)).1
  have hgrowth := m.capitalGrowth_nonneg
  have hstreak := consecFactor_nonneg m.state.consecutiveLosses
  have hgrown := mul_le_mul h.capitalGrowth_le (h.drawdownFactor_le limit) hdd
    (hgrowth.trans h.capitalGrowth_le)
  have hgrownPos := mul_nonneg hgrowth hdd
  have hstreaked := mul_le_mul hgrown (consecFactor_antitone h.consecutiveLosses) hstreak
    (hgrownPos.trans hgrown)
  have hstreakedPos := mul_nonneg hgrownPos hstreak
  have hproduct := mul_le_mul hstreaked h.dailyFactor_le m.dailyFactor_range.1
    (hstreakedPos.trans hstreaked)
  exact max_le_max_left 0 (min_le_min_left 1 (roundTo_mono 3 hproduct))

/-! ## The lots -/

/-- Where the base is negative both factors scale to a single lot. -/
theorem scaledLots_le_of_scaleFactor_le {m m' : CapitalManager} (h : m.scaleFactor ≤ m'.scaleFactor)
    (baseLots maxLots : Int) : m.scaledLots baseLots maxLots ≤ m'.scaledLots baseLots maxLots := by
  unfold scaledLots
  by_cases hpos : 0 < m.scaleFactor
  · rw [if_pos hpos, if_pos (hpos.trans_le h)]
    by_cases hbase : 0 ≤ baseLots
    · have hscaled : (baseLots : ℚ) * m.scaleFactor ≤ baseLots * m'.scaleFactor :=
        mul_le_mul_of_nonneg_left h (Rat.intCast_nonneg.mpr hbase)
      exact max_le_max_left 1 (min_le_min_right _ (Rat.floor_monotone hscaled))
    · have hbelow := floor_scaled_le baseLots hpos.le m.scaleFactor_range.2
      omega
  · rw [if_neg hpos]
    split <;> omega

/-! ## Trades -/

theorem drawdown_above_peak {st : CapitalState} (peak : 0 < st.peakCapital)
    (above : st.peakCapital ≤ st.currentCapital) : drawdownPctUnlocked st = 0 := by
  unfold drawdownPctUnlocked
  rw [if_pos peak]
  exact max_eq_left (div_nonpos_of_nonpos_of_nonneg (sub_nonpos.mpr above) peak.le)

theorem drawdown_nonneg (st : CapitalState) : 0 ≤ drawdownPctUnlocked st := by
  unfold drawdownPctUnlocked
  split
  · exact le_max_left _ _
  · exact le_refl 0

/-- From one peak, less capital is more drawdown. -/
theorem drawdown_le_of_current_le {st st' : CapitalState} (peak : st.peakCapital = st'.peakCapital)
    (h : st.currentCapital ≤ st'.currentCapital) :
    drawdownPctUnlocked st' ≤ drawdownPctUnlocked st := by
  unfold drawdownPctUnlocked
  rw [peak]
  split
  · rename_i hpeak
    exact max_le_max_left 0 (div_le_div_of_nonneg_right (by linarith) hpeak.le)
  · exact le_refl 0

/-- Either the peak stays, or the new capital is the new peak. -/
theorem drawdown_recordTrade {m : CapitalManager} (peak : 0 < m.state.peakCapital) (netPnl : ℚ)
    (isWinner : Bool) :
    (m.recordTrade netPnl isWinner).state.peakCapital = m.state.peakCapital ∨
      m.state.peakCapital < m.state.currentCapital + netPnl ∧
        drawdownPctUnlocked (m.recordTrade netPnl isWinner).state = 0 := by
  by_cases habove : m.state.peakCapital < m.state.currentCapital + netPnl
  · refine .inr ⟨habove, drawdown_above_peak ?_ ?_⟩
    · exact lt_max_of_lt_left peak
    · exact max_le habove.le (le_refl _)
  · exact .inl (max_eq_left (not_lt.mp habove))

theorem noBetter_of_loss {m : CapitalManager} (peak : 0 < m.state.peakCapital) {netPnl : ℚ}
    (loss : netPnl < 0) : NoBetter (m.recordTrade netPnl false) m where
  maxDailyLoss := rfl
  maxDd := rfl
  dailyWarnPct := rfl
  drawdownScaleEnabled := rfl
  initialCapital := rfl
  currentCapital := by
    simp only [recordTrade]
    linarith
  drawdown := by
    rcases drawdown_recordTrade peak netPnl false with hpeak | ⟨habove, hzero⟩
    · apply drawdown_le_of_current_le hpeak
      simp only [recordTrade]
      linarith
    · rw [hzero, drawdown_above_peak peak (by linarith)]
  consecutiveLosses := Nat.le_succ _
  dailyPnl := by
    simp only [recordTrade]
    linarith

theorem noBetter_than_win {m : CapitalManager} (peak : 0 < m.state.peakCapital) {netPnl : ℚ}
    (win : 0 < netPnl) : NoBetter m (m.recordTrade netPnl true) where
  maxDailyLoss := rfl
  maxDd := rfl
  dailyWarnPct := rfl
  drawdownScaleEnabled := rfl
  initialCapital := rfl
  currentCapital := by
    simp only [recordTrade]
    linarith
  drawdown := by
    rcases drawdown_recordTrade peak netPnl true with hpeak | ⟨-, hzero⟩
    · apply drawdown_le_of_current_le hpeak.symm
      simp only [recordTrade]
      linarith
    · rw [hzero]
      exact drawdown_nonneg m.state
  consecutiveLosses := Nat.zero_le _
  dailyPnl := by
    simp only [recordTrade]
    linarith

/-- There is a peak to measure drawdown from, and a limit to measure it against. -/
structure Measured (m : CapitalManager) : Prop where
  peak : 0 < m.state.peakCapital
  limit : 0 < m.maxDd

theorem Measured.step {m : CapitalManager} (h : m.Measured) (op : CapitalOp) :
    (m.step op).Measured := by
  cases op with
  | recordTrade netPnl isWinner => exact ⟨lt_max_of_lt_left h.peak, h.limit⟩
  | lockProfits lockPct => exact ⟨h.peak, h.limit⟩
  | resetDaily => exact ⟨h.peak, h.limit⟩

theorem measured_new {initialCapital maxDailyLoss maxDrawdownPct dailyLossWarnPct : ℚ}
    {drawdownScaleEnabled : Bool} {m : CapitalManager} (capital : 0 < initialCapital)
    (limit : 0 < maxDrawdownPct)
    (built : new initialCapital maxDailyLoss maxDrawdownPct dailyLossWarnPct
      drawdownScaleEnabled = .ok m) : m.Measured := by
  unfold new at built
  split at built
  · cases built
  · cases built
    exact ⟨capital, limit⟩

/-- In every reachable state a recorded loss scales to no more lots and a recorded win to no fewer,
and the factor is between zero and one. -/
theorem losses_shrink_and_wins_grow_lots
    (initialCapital maxDailyLoss maxDrawdownPct dailyLossWarnPct : ℚ)
    (drawdownScaleEnabled : Bool) (m : CapitalManager) (capital : 0 < initialCapital)
    (limit : 0 < maxDrawdownPct)
    (built : new initialCapital maxDailyLoss maxDrawdownPct dailyLossWarnPct
      drawdownScaleEnabled = .ok m) (ops : List CapitalOp) (baseLots maxLots : Int) :
    (∀ netPnl < 0, (((run step m ops).recordTrade netPnl false).scale baseLots maxLots).scaledLots ≤
        ((run step m ops).scale baseLots maxLots).scaledLots) ∧
      (∀ netPnl > 0, ((run step m ops).scale baseLots maxLots).scaledLots ≤
        (((run step m ops).recordTrade netPnl true).scale baseLots maxLots).scaledLots) ∧
      0 ≤ ((run step m ops).scale baseLots maxLots).scaleFactor ∧
        ((run step m ops).scale baseLots maxLots).scaleFactor ≤ 1 := by
  have hmeasured : (run step m ops).Measured :=
    run_invariant (fun _ op h => h.step op) (measured_new capital limit built) ops
  refine ⟨?_, ?_, (run step m ops).scaleFactor_range⟩
  · intro netPnl hloss
    exact scaledLots_le_of_scaleFactor_le
      ((noBetter_of_loss hmeasured.peak hloss).scaleFactor_le hmeasured.limit) baseLots maxLots
  · intro netPnl hwin
    exact scaledLots_le_of_scaleFactor_le
      ((noBetter_than_win hmeasured.peak hwin).scaleFactor_le hmeasured.limit) baseLots maxLots

/-- A second loss in a row, of a tenth of the capital: three lots become one. -/
theorem lots_shrink_after_second_loss :
    (((run step standardManager [.recordTrade (-1000) false]).recordTrade (-10000)
        false).scale 4 4).scaledLots ≤
      ((run step standardManager [.recordTrade (-1000) false]).scale 4 4).scaledLots := by
  have hbuilt : new 100000 (-2000) (1 / 5) (3 / 5) true = .ok standardManager := by
    unfold new
    rw [dif_neg (by decide)]
    rfl
  exact (losses_shrink_and_wins_grow_lots 100000 (-2000) (1 / 5) (3 / 5) true standardManager
    (by decide) (by decide +kernel) hbuilt [.recordTrade (-1000) false] 4 4).1 (-10000) (by decide)

end CapitalManager

end AutoTrade.Risk
