import AutoTrade.Library.Run
import AutoTrade.Runtime
import Mathlib.Algebra.Order.Floor.Semiring
import Mathlib.Data.Rat.Floor
import Mathlib.Tactic.Linarith
import Mathlib.Tactic.Positivity

/-! # The capital manager

Equity is tracked trade by trade, profit can be taken out, and the number of
lots is scaled by growth, drawdown, loss streak and the day's loss. Drawdown is
measured from the peak, which taking profit out leaves where it was.
-/

namespace AutoTrade.Risk

open AutoTrade.Library

def growthCap : ℚ := 3 / 2
def ddScaleFloor : ℚ := 3 / 10
def consecLoss2 : ℚ := 3 / 4
def consecLoss3 : ℚ := 1 / 2
def consecLoss4p : ℚ := 1 / 4

structure CapitalState where
  initialCapital : ℚ
  currentCapital : ℚ
  peakCapital : ℚ
  lockedProfit : ℚ := 0
  dailyPnl : ℚ := 0
  dailyTradeCount : Nat := 0
  consecutiveLosses : Nat := 0
  totalTrades : Nat := 0
  totalWins : Nat := 0
deriving DecidableEq, Repr

structure ScaleResult where
  scaleFactor : ℚ
  scaledLots : Int
  capitalGrowth : ℚ
  drawdownFactor : ℚ
  consecLossFactor : ℚ
  dailyLossFactor : ℚ
  drawdownPct : ℚ
  reasoning : String
deriving DecidableEq, Repr

/-- The answer of `decide_trade_allowed`, with the reason it trips the hard halt for. -/
structure TradeDecision where
  allowed : Bool
  reason : String
  hardHalt : Option String := none
deriving DecidableEq, Repr

/-- The constructor refuses a daily loss limit that is not negative. -/
structure CapitalManager where
  state : CapitalState
  maxDailyLoss : ℚ
  maxDd : ℚ
  dailyWarnPct : ℚ
  drawdownScaleEnabled : Bool
  maxDailyLoss_neg : maxDailyLoss < 0

namespace CapitalManager

/-- `CapitalManager(...)`; the last three arguments default to 0.20, 0.60 and `True`. -/
def new (initialCapital maxDailyLoss maxDrawdownPct dailyLossWarnPct : ℚ)
    (drawdownScaleEnabled : Bool) : Except PyExc CapitalManager :=
  if h : 0 ≤ maxDailyLoss then
    .error ⟨.valueError, "max_daily_loss must be negative"⟩
  else
    .ok {
      state := {
        initialCapital := initialCapital
        currentCapital := initialCapital
        peakCapital := initialCapital }
      maxDailyLoss := maxDailyLoss
      maxDd := maxDrawdownPct
      dailyWarnPct := dailyLossWarnPct
      drawdownScaleEnabled := drawdownScaleEnabled
      maxDailyLoss_neg := not_le.mp h }

def drawdownPctUnlocked (st : CapitalState) : ℚ :=
  if 0 < st.peakCapital then max 0 ((st.peakCapital - st.currentCapital) / st.peakCapital) else 0

def drawdownPct (m : CapitalManager) : ℚ := roundTo 2 (drawdownPctUnlocked m.state * 100)

def drawdownFactor (m : CapitalManager) (ddPct : ℚ) : ℚ :=
  if m.drawdownScaleEnabled = false then 1
  else if m.maxDd ≤ ddPct then 0
  else if 0 < ddPct then roundTo 3 (max ddScaleFloor (1 - ddPct / m.maxDd))
  else 1

def consecFactor (losses : Nat) : ℚ :=
  if 4 ≤ losses then consecLoss4p
  else if 3 ≤ losses then consecLoss3
  else if 2 ≤ losses then consecLoss2
  else 1

def dailyFactor (m : CapitalManager) : ℚ :=
  let dailyWarnLevel := m.maxDailyLoss * m.dailyWarnPct
  if m.state.dailyPnl ≤ dailyWarnLevel ∧ dailyWarnLevel < 0 then
    roundTo 3 (max (1 / 4) (1 - m.state.dailyPnl / m.maxDailyLoss * (1 / 2)))
  else 1

def capitalGrowth (m : CapitalManager) : ℚ :=
  let growth := m.state.currentCapital / max m.state.initialCapital 1
  roundTo 3 (min growthCap (max (1 / 10) growth))

def scaleFactor (m : CapitalManager) : ℚ :=
  max 0 (min 1 (roundTo 3 (m.capitalGrowth * m.drawdownFactor (drawdownPctUnlocked m.state) *
    consecFactor m.state.consecutiveLosses * m.dailyFactor)))

def scaledLots (m : CapitalManager) (baseLots maxLots : Int) : Int :=
  if 0 < m.scaleFactor then max 1 (min (baseLots * m.scaleFactor).floor maxLots) else 0

def scale (m : CapitalManager) (baseLots maxLots : Int) : ScaleResult :=
  let st := m.state
  let ddPct := drawdownPctUnlocked st
  let ddFactor := m.drawdownFactor ddPct
  let lossFactor := consecFactor st.consecutiveLosses
  let dayFactor := m.dailyFactor
  let parts :=
    ["growth=" ++ formatFixed 2 "" m.capitalGrowth] ++
    (if ddFactor < 1 then
      ["dd=" ++ formatPercent ddPct ++ "→dd_factor=" ++ formatFixed 2 "" ddFactor] else []) ++
    (if lossFactor < 1 then
      ["consec_losses=" ++ toString st.consecutiveLosses ++ "→factor=" ++
        formatFixed 2 "" lossFactor] else []) ++
    (if dayFactor < 1 then
      ["daily_pnl=" ++ formatFixed 0 "+" st.dailyPnl ++ "→factor=" ++
        formatFixed 2 "" dayFactor] else [])
  { scaleFactor := m.scaleFactor
    scaledLots := m.scaledLots baseLots maxLots
    capitalGrowth := m.capitalGrowth
    drawdownFactor := ddFactor
    consecLossFactor := lossFactor
    dailyLossFactor := dayFactor
    drawdownPct := ddPct
    reasoning := toString baseLots ++ " lots × scale=" ++ formatFixed 2 "" m.scaleFactor ++
      " [" ++ ", ".intercalate parts ++ "] → " ++ toString (m.scaledLots baseLots maxLots) ++
      " lots" }

def recordTrade (m : CapitalManager) (netPnl : ℚ) (isWinner : Bool) : CapitalManager :=
  let st := m.state
  { m with state := { st with
      currentCapital := st.currentCapital + netPnl
      dailyPnl := st.dailyPnl + netPnl
      peakCapital := max st.peakCapital (st.currentCapital + netPnl)
      dailyTradeCount := st.dailyTradeCount + 1
      totalTrades := st.totalTrades + 1
      consecutiveLosses := if isWinner then 0 else st.consecutiveLosses + 1
      totalWins := if isWinner then st.totalWins + 1 else st.totalWins } }

def resetDaily (m : CapitalManager) : CapitalManager :=
  { m with state := { m.state with dailyPnl := 0, dailyTradeCount := 0 } }

/-- What `lock_profits` returns: the amount that it takes out. -/
def lockAmount (m : CapitalManager) (lockPct : ℚ) : ℚ :=
  let profit := m.state.currentCapital - m.state.initialCapital
  if profit ≤ 0 then 0 else roundTo 2 (profit * lockPct)

def lockProfits (m : CapitalManager) (lockPct : ℚ) : CapitalManager :=
  { m with state := { m.state with
      currentCapital := m.state.currentCapital - m.lockAmount lockPct
      lockedProfit := m.state.lockedProfit + m.lockAmount lockPct } }

def decideTradeAllowed (m : CapitalManager) : TradeDecision :=
  let st := m.state
  let dd := drawdownPctUnlocked st
  if st.dailyPnl ≤ m.maxDailyLoss then
    { allowed := false
      reason := "Daily loss limit hit: " ++ formatFixed 2 "+" st.dailyPnl ++ " <= " ++
        formatFixed 2 "+" m.maxDailyLoss }
  else if m.maxDd ≤ dd then
    let reason := "Max drawdown breached: " ++ formatPercent dd ++ " >= " ++ formatPercent m.maxDd
    { allowed := false, reason := reason, hardHalt := some reason }
  else if 5 ≤ st.consecutiveLosses then
    let reason := "Circuit breaker: " ++ toString st.consecutiveLosses ++ " consecutive losses"
    { allowed := false, reason := reason, hardHalt := some reason }
  else
    { allowed := true, reason := "OK" }

end CapitalManager

inductive CapitalOp
  | recordTrade (netPnl : ℚ) (isWinner : Bool)
  | lockProfits (lockPct : ℚ)
  | resetDaily
deriving DecidableEq, Repr

namespace CapitalOp

def netPnl : CapitalOp → ℚ
  | .recordTrade netPnl _ => netPnl
  | .lockProfits _ => 0
  | .resetDaily => 0

/-- Profit is taken out as a share of it. -/
def TakesShare : CapitalOp → Prop
  | .lockProfits lockPct => 0 ≤ lockPct ∧ lockPct ≤ 1
  | _ => True

end CapitalOp

namespace CapitalManager

def step (m : CapitalManager) : CapitalOp → CapitalManager
  | .recordTrade netPnl isWinner => m.recordTrade netPnl isWinner
  | .lockProfits lockPct => m.lockProfits lockPct
  | .resetDaily => m.resetDaily

/-! ## Conservation -/

def equity (m : CapitalManager) : ℚ := m.state.currentCapital + m.state.lockedProfit

theorem equity_step (m : CapitalManager) (op : CapitalOp) :
    (m.step op).equity = m.equity + op.netPnl := by
  cases op with
  | recordTrade netPnl isWinner =>
      simp only [step, recordTrade, equity, CapitalOp.netPnl]
      linarith
  | lockProfits lockPct =>
      simp only [step, lockProfits, equity, CapitalOp.netPnl]
      linarith
  | resetDaily =>
      simp only [step, resetDaily, equity, CapitalOp.netPnl]
      linarith

theorem equity_run (m : CapitalManager) (ops : List CapitalOp) :
    (run step m ops).equity = m.equity + (ops.map CapitalOp.netPnl).sum := by
  induction ops generalizing m with
  | nil => simp [run]
  | cons op rest ih =>
      have hrest := ih (m.step op)
      rw [equity_step] at hrest
      simp only [run, List.foldl_cons, List.map_cons, List.sum_cons] at hrest ⊢
      linarith

/-! ## Drawdown and the decision after taking profit out -/

theorem lockAmount_nonneg (m : CapitalManager) {lockPct : ℚ} (h : 0 ≤ lockPct) :
    0 ≤ m.lockAmount lockPct := by
  unfold lockAmount
  dsimp only
  split
  · exact le_refl 0
  · rename_i hprofit
    exact roundTo_nonneg 2 (mul_nonneg (not_le.mp hprofit).le h)

def BelowPeak (m : CapitalManager) : Prop := m.state.currentCapital ≤ m.state.peakCapital

theorem BelowPeak.step {m : CapitalManager} {op : CapitalOp} (h : m.BelowPeak)
    (share : op.TakesShare) : (m.step op).BelowPeak := by
  cases op with
  | recordTrade netPnl isWinner => exact le_max_right _ _
  | lockProfits lockPct =>
      have hamount := m.lockAmount_nonneg share.1
      unfold BelowPeak at h ⊢
      simp only [CapitalManager.step, lockProfits]
      linarith
  | resetDaily => exact h

/-- The extracted amount as a share of the peak. -/
def lockedShare (m : CapitalManager) (lockPct : ℚ) : ℚ :=
  if 0 < m.state.peakCapital then m.lockAmount lockPct / m.state.peakCapital else 0

theorem lockedShare_nonneg (m : CapitalManager) {lockPct : ℚ} (h : 0 ≤ lockPct) :
    0 ≤ m.lockedShare lockPct := by
  unfold lockedShare
  split
  · rename_i hpeak
    exact div_nonneg (m.lockAmount_nonneg h) hpeak.le
  · exact le_refl 0

theorem drawdown_of_peak_pos (st : CapitalState) (peak : 0 < st.peakCapital)
    (below : st.currentCapital ≤ st.peakCapital) :
    drawdownPctUnlocked st = (st.peakCapital - st.currentCapital) / st.peakCapital := by
  unfold drawdownPctUnlocked
  rw [if_pos peak, max_eq_right (div_nonneg (sub_nonneg.mpr below) peak.le)]

theorem drawdown_of_peak_nonpos (st : CapitalState) (peak : ¬ 0 < st.peakCapital) :
    drawdownPctUnlocked st = 0 := by
  unfold drawdownPctUnlocked
  rw [if_neg peak]

theorem drawdown_lockProfits {m : CapitalManager} (below : m.BelowPeak) {lockPct : ℚ}
    (h : 0 ≤ lockPct) :
    drawdownPctUnlocked (m.lockProfits lockPct).state =
      drawdownPctUnlocked m.state + m.lockedShare lockPct := by
  have hamount := m.lockAmount_nonneg h
  by_cases hpeak : 0 < m.state.peakCapital
  · have hbelow : m.state.currentCapital - m.lockAmount lockPct ≤ m.state.peakCapital := by
      unfold BelowPeak at below
      linarith
    rw [drawdown_of_peak_pos (m.lockProfits lockPct).state hpeak hbelow,
      drawdown_of_peak_pos m.state hpeak below, lockedShare, if_pos hpeak]
    simp only [lockProfits]
    rw [← add_div]
    congr 1
    linarith
  · rw [drawdown_of_peak_nonpos (m.lockProfits lockPct).state hpeak,
      drawdown_of_peak_nonpos m.state hpeak, lockedShare, if_neg hpeak, add_zero]

theorem lockProfits_of_amount_zero {m : CapitalManager} {lockPct : ℚ}
    (h : m.lockAmount lockPct = 0) : m.lockProfits lockPct = m := by
  simp [lockProfits, h]

/-- Below the limit the answer does not look at the drawdown. -/
theorem decideTradeAllowed_below {m : CapitalManager}
    (h : drawdownPctUnlocked m.state < m.maxDd ∨ m.state.dailyPnl ≤ m.maxDailyLoss) :
    m.decideTradeAllowed =
      if m.state.dailyPnl ≤ m.maxDailyLoss then
        { allowed := false
          reason := "Daily loss limit hit: " ++ formatFixed 2 "+" m.state.dailyPnl ++ " <= " ++
            formatFixed 2 "+" m.maxDailyLoss }
      else if 5 ≤ m.state.consecutiveLosses then
        { allowed := false
          reason := "Circuit breaker: " ++ toString m.state.consecutiveLosses ++
            " consecutive losses"
          hardHalt := some ("Circuit breaker: " ++ toString m.state.consecutiveLosses ++
            " consecutive losses") }
      else { allowed := true, reason := "OK" } := by
  unfold decideTradeAllowed
  dsimp only
  by_cases hloss : m.state.dailyPnl ≤ m.maxDailyLoss
  · rw [if_pos hloss, if_pos hloss]
  · have hbelow : drawdownPctUnlocked m.state < m.maxDd := h.resolve_right hloss
    rw [if_neg hloss, if_neg hloss, if_neg (not_le.mpr hbelow)]

theorem decideTradeAllowed_of_drawdown {m : CapitalManager}
    (h : m.maxDd ≤ drawdownPctUnlocked m.state) : m.decideTradeAllowed.allowed = false := by
  unfold decideTradeAllowed
  dsimp only
  rw [if_pos h]
  split <;> rfl

/-! ## The number of lots -/

theorem scaleFactor_range (m : CapitalManager) : 0 ≤ m.scaleFactor ∧ m.scaleFactor ≤ 1 :=
  ⟨le_max_left _ _, max_le (by decide) (min_le_left _ _)⟩

theorem floor_scaled_le (baseLots : Int) {factor : ℚ} (h0 : 0 ≤ factor) (h1 : factor ≤ 1) :
    (baseLots * factor).floor ≤ max 0 baseLots := by
  have hle : (baseLots : ℚ) * factor ≤ ((max 0 baseLots : Int) : ℚ) := by
    have hbase : (baseLots : ℚ) ≤ ((max 0 baseLots : Int) : ℚ) := by
      exact_mod_cast le_max_right 0 baseLots
    have hmax : (0 : ℚ) ≤ ((max 0 baseLots : Int) : ℚ) := by
      exact_mod_cast le_max_left 0 baseLots
    calc (baseLots : ℚ) * factor ≤ ((max 0 baseLots : Int) : ℚ) * factor :=
          mul_le_mul_of_nonneg_right hbase h0
      _ ≤ ((max 0 baseLots : Int) : ℚ) * 1 := mul_le_mul_of_nonneg_left h1 hmax
      _ = ((max 0 baseLots : Int) : ℚ) := mul_one _
  have hfloor := (Rat.floor_le (baseLots * factor)).trans hle
  exact_mod_cast hfloor

/-- At least one lot is traded wherever the factor is positive, whatever the two arguments. -/
theorem scaledLots_le (m : CapitalManager) (baseLots maxLots : Int) :
    (m.scale baseLots maxLots).scaledLots ≤ max 1 baseLots ∧
      (m.scale baseLots maxLots).scaledLots ≤ max 1 maxLots := by
  obtain ⟨h0, h1⟩ := m.scaleFactor_range
  have hfloor := floor_scaled_le baseLots h0 h1
  simp only [scale, scaledLots]
  split
  · omega
  · omega

/-! ## Taking profit out -/

/-- What taking profit out does to the drawdown and to the decision. -/
structure TakesProfitOut (m : CapitalManager) (lockPct : ℚ) : Prop where
  /-- The drawdown grows by the extracted share of the peak. -/
  drawdown : drawdownPctUnlocked (m.lockProfits lockPct).state =
    drawdownPctUnlocked m.state + m.lockedShare lockPct
  reported : (m.lockProfits lockPct).drawdownPct =
    roundTo 2 ((drawdownPctUnlocked m.state + m.lockedShare lockPct) * 100)
  nothing : m.lockAmount lockPct = 0 → m.lockProfits lockPct = m
  unchanged : drawdownPctUnlocked m.state + m.lockedShare lockPct < m.maxDd ∨
      m.state.dailyPnl ≤ m.maxDailyLoss →
    (m.lockProfits lockPct).decideTradeAllowed = m.decideTradeAllowed
  refused : m.maxDd ≤ drawdownPctUnlocked m.state + m.lockedShare lockPct →
    (m.lockProfits lockPct).decideTradeAllowed.allowed = false

theorem takesProfitOut {m : CapitalManager} (below : m.BelowPeak) {lockPct : ℚ}
    (h : 0 ≤ lockPct) : m.TakesProfitOut lockPct := by
  have hdrawdown := drawdown_lockProfits below h
  have hshare := m.lockedShare_nonneg h
  refine ⟨hdrawdown, ?_, lockProfits_of_amount_zero, ?_, ?_⟩
  · rw [drawdownPct, hdrawdown]
  · intro hcase
    have hbefore : drawdownPctUnlocked m.state < m.maxDd ∨ m.state.dailyPnl ≤ m.maxDailyLoss :=
      hcase.imp_left fun hlt => by linarith
    rw [decideTradeAllowed_below hbefore, decideTradeAllowed_below (m := m.lockProfits lockPct)]
    · rfl
    · rw [hdrawdown]
      exact hcase
  · intro hover
    apply decideTradeAllowed_of_drawdown
    rw [hdrawdown]
    exact hover

theorem new_spec {initialCapital maxDailyLoss maxDrawdownPct dailyLossWarnPct : ℚ}
    {drawdownScaleEnabled : Bool} {m : CapitalManager}
    (built : new initialCapital maxDailyLoss maxDrawdownPct dailyLossWarnPct
      drawdownScaleEnabled = .ok m) :
    m.equity = initialCapital ∧ m.BelowPeak := by
  unfold new at built
  split at built
  · cases built
  · cases built
    exact ⟨add_zero _, le_refl _⟩

/-- Equity and extracted profit add up to the initial capital and the recorded results over every
run. In every state reached by taking shares of the profit out, doing so once more raises the
drawdown by the extracted amount over the peak, and the answer stays as it was while that is below
the limit. At most one lot is traded above either number of lots. -/
theorem profit_taken_out_counts_as_drawdown
    (initialCapital maxDailyLoss maxDrawdownPct dailyLossWarnPct : ℚ)
    (drawdownScaleEnabled : Bool) (m : CapitalManager)
    (built : new initialCapital maxDailyLoss maxDrawdownPct dailyLossWarnPct
      drawdownScaleEnabled = .ok m) (ops : List CapitalOp) :
    (run step m ops).state.currentCapital + (run step m ops).state.lockedProfit =
        initialCapital + (ops.map CapitalOp.netPnl).sum ∧
      ((∀ op ∈ ops, op.TakesShare) → ∀ lockPct, 0 ≤ lockPct → lockPct ≤ 1 →
        (run step m ops).TakesProfitOut lockPct) ∧
      ∀ baseLots maxLots,
        ((run step m ops).scale baseLots maxLots).scaledLots ≤ max 1 baseLots ∧
          ((run step m ops).scale baseLots maxLots).scaledLots ≤ max 1 maxLots := by
  obtain ⟨hequity, hbelow⟩ := new_spec built
  refine ⟨?_, ?_, ?_⟩
  · rw [← hequity]
    exact equity_run m ops
  · intro shares lockPct h0 _
    have hpreserved : ∀ m : CapitalManager, ∀ op ∈ ops, m.BelowPeak → True →
        (m.step op).BelowPeak := fun m op hop h _ => h.step (shares op hop)
    have hreached := (always_of_stepsMeet hpreserved hbelow (stepsMeet_true m ops)).final
    exact takesProfitOut hreached h0
  · intro baseLots maxLots
    exact scaledLots_le _ baseLots maxLots

/-- A hundred thousand of capital, at most two thousand lost in a day, a drawdown limit of 20 %. -/
def standardManager : CapitalManager where
  state := { initialCapital := 100000, currentCapital := 100000, peakCapital := 100000 }
  maxDailyLoss := -2000
  maxDd := 1 / 5
  dailyWarnPct := 3 / 5
  drawdownScaleEnabled := true
  maxDailyLoss_neg := by decide

theorem profit_taken_out_counts_at_standard :
    (run step standardManager [.recordTrade 100000 true]).TakesProfitOut (1 / 2) := by
  have hbuilt : new 100000 (-2000) (1 / 5) (3 / 5) true = .ok standardManager := by
    unfold new
    rw [dif_neg (by decide)]
    rfl
  apply (profit_taken_out_counts_as_drawdown 100000 (-2000) (1 / 5) (3 / 5) true standardManager
    hbuilt [.recordTrade 100000 true]).2.1
  · simp [CapitalOp.TakesShare]
  · decide +kernel
  · decide +kernel

/-- The capital doubles; taking half of the profit out is a drawdown of a quarter. -/
theorem profit_taken_out_refuses_trades :
    (run step standardManager [.recordTrade 100000 true]).decideTradeAllowed.allowed = true ∧
      ((run step standardManager [.recordTrade 100000 true]).lockProfits
        (1 / 2)).decideTradeAllowed.allowed = false ∧
      ((run step standardManager [.recordTrade 100000 true]).lockProfits (1 / 2)).drawdownPct ≠
        (run step standardManager [.recordTrade 100000 true]).drawdownPct := by
  decide +kernel

end CapitalManager

end AutoTrade.Risk
