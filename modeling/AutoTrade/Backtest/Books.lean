import AutoTrade.Backtest.NoLookahead
import AutoTrade.Library.Run
import Mathlib.Algebra.Order.Field.Basic
import Mathlib.Tactic.Linarith
import Mathlib.Tactic.Ring

/-! # The books of a backtest

The capital, the journal and the curve are written in different places of the
loop. The fee of an entry is taken off the capital in one of them only: the row
of the trade has the fee of its exit and not this one, and the drawdown is not
looked at until the trade is closed.
-/

namespace AutoTrade.Backtest

open AutoTrade.Library

/-! ## What reconciles -/

/-- The sum of the journal's `net_pnl`. -/
def netTotal {μ : Type} (journal : List (Nat × TradeJournalRow μ)) : ℚ :=
  (journal.map fun row => row.2.netPnl).sum

/-- A walk along a curve: the highest value so far and the deepest fall from it. -/
structure Drawdown where
  peak : Option ℚ := none
  depth : ℚ := 0
deriving DecidableEq, Repr

/-- The fall counts where the peak is positive. -/
def Drawdown.add (d : Drawdown) (value : ℚ) : Drawdown :=
  let peak := (d.peak.map fun p => max p value).getD value
  { peak := some peak
    depth := max d.depth (if 0 < peak then (peak - value) / peak else 0) }

def drawdownOf (curve : List ℚ) : Drawdown := curve.foldl Drawdown.add {}

/-- Half a paisa for each rounding to two decimals: three for a trade, on entry, on exit and in its
row, and one for the ending capital. -/
def roundingRoom (trades : Nat) : ℚ := (3 * trades + 1) * (5 / 1000)

/-- The ending capital is the initial capital and the net results of the journal, the curve ends
there, and the drawdown is the curve's, in percent. -/
structure Reconciled {μ : Type} (cfg : CandleBacktestConfig) (result : CandleBacktestResult μ) :
    Prop where
  capital : |result.endingCapital - (cfg.initialCapital + netTotal result.journal)| ≤
    roundingRoom result.journal.length
  curve : ∀ last ∈ result.equityCurve.getLast?, last = result.endingCapital
  drawdown : result.maxDrawdownPct = roundTo 4 (100 * (drawdownOf result.equityCurve).depth)

/-- The order falls due on this bar. -/
def BacktestState.Due {μ : Type} (s : BacktestState μ) (idx : Nat) : Prop :=
  s.pending.any fun pending => pending.enterOnIdx = idx

/-- An order is executed on this bar only where its fee is zero. -/
def FreeEntry {μ : Type} (cfg : CandleBacktestConfig) (s : BacktestState μ) (entry : Bar × Nat) :
    Prop :=
  s.Due entry.2 → cfg.fee = 0

/-! ## Capital and journal in every run -/

section Ledger

variable {π μ : Type} {engine : CandleBacktestEngine π μ} {cfg : CandleBacktestConfig}
  {s : BacktestState μ}

/-- The trades entered so far. -/
def BacktestState.entered (s : BacktestState μ) : Nat :=
  s.journal.length + if s.position.isSome then 1 else 0

/-- Whatever the fees: the capital is the initial capital and the net results of the journal, less
the fee of each entry, up to the roundings so far; and no order waits beside a position. -/
structure Ledger (cfg : CandleBacktestConfig) (s : BacktestState μ) : Prop where
  exclusive : s.position.isSome → s.pending = none
  capital : |s.capital - (cfg.initialCapital + netTotal s.journal - cfg.fee * s.entered)| ≤
    (s.entered + 2 * s.journal.length) * (5 / 1000)

theorem ledger_start : Ledger cfg (CandleBacktestEngine.start cfg : BacktestState μ) where
  exclusive h := by cases h
  capital := by simp [CandleBacktestEngine.start, netTotal, BacktestState.entered]

theorem Ledger.free_of_due (h : Ledger cfg s) {idx : Nat} (hdue : s.Due idx) :
    s.position = none := by
  cases hposition : s.position with
  | none => rfl
  | some position =>
      have hnone := h.exclusive (by simp [hposition])
      simp [BacktestState.Due, hnone] at hdue

/-- An order that falls due is entered, at the cost of its fee. -/
theorem enterDue_cases (engine : CandleBacktestEngine π μ) (cfg : CandleBacktestConfig)
    (s : BacktestState μ) (row : Bar) (idx : Nat) :
    (¬ s.Due idx ∧ engine.enterDue cfg s row idx = s) ∨
      (s.Due idx ∧ ∃ position, engine.enterDue cfg s row idx =
        { s with
          position := some position, capital := roundTo 2 (s.capital - cfg.fee)
          pending := none }) := by
  unfold CandleBacktestEngine.enterDue BacktestState.Due
  cases hpending : s.pending with
  | none => exact Or.inl ⟨by simp, rfl⟩
  | some pending =>
      by_cases hdue : pending.enterOnIdx = idx
      · refine Or.inr ⟨by simp [hdue],
          (engine.executePending cfg pending idx row.timestamp s.capital).1, ?_⟩
        simp only [hdue, if_true]
        rfl
      · exact Or.inl ⟨by simp [hdue], by simp [hdue]⟩

/-- The rest of a bar closes the position, or leaves everything but the curve and the search. -/
theorem finishBar_cases (engine : CandleBacktestEngine π μ) (cfg : CandleBacktestConfig)
    (bars : List Bar) (s : BacktestState μ) (row : Bar) (idx : Nat) :
    (∃ position exitPx reason, s.position = some position ∧
      engine.finishBar cfg bars s row idx =
        { CandleBacktestEngine.closeTrade cfg s position row.timestamp exitPx reason idx with
          position := none
          cooldownUntil := idx + cfg.cooldownBars
          equity := s.equity ++ [(CandleBacktestEngine.closeTrade cfg s position row.timestamp exitPx
            reason idx).capital] }) ∨
      ∃ pending synthetic total, engine.finishBar cfg bars s row idx =
        { s with
          equity := s.equity ++ [s.capital]
          pending := pending, syntheticBars := synthetic, totalSignalBars := total } ∧
        (s.position.isSome → pending = s.pending) := by
  unfold CandleBacktestEngine.finishBar
  cases hexit : s.position.bind fun position =>
      (CandleBacktestEngine.maybeExitBar position row idx).map (position, ·) with
  | some exit =>
      obtain ⟨position, exitPx, reason⟩ := exit
      refine Or.inl ⟨position, exitPx, reason, ?_, rfl⟩
      obtain ⟨p, hp, hmap⟩ := Option.bind_eq_some_iff.mp hexit
      obtain ⟨e, -, he⟩ := Option.map_eq_some_iff.mp hmap
      rw [hp, (Prod.mk.inj he).1]
  | none =>
      right
      by_cases hbusy : s.position.isSome ∨ (idx : Int) < s.cooldownUntil
      · exact ⟨s.pending, s.syntheticBars, s.totalSignalBars, by simp only [hbusy, if_true],
          fun _ => rfl⟩
      · obtain ⟨pending, synthetic, total, hlook⟩ := engine.lookForSignal_frame cfg bars
          { s with equity := s.equity ++ [s.capital] } row idx
        refine ⟨pending, synthetic, total, by simp only [hbusy, if_false, hlook], fun h => ?_⟩
        exact absurd (Or.inl h) hbusy

theorem ledger_enterDue (h : Ledger cfg s) (row : Bar) (idx : Nat) :
    Ledger cfg (engine.enterDue cfg s row idx) := by
  rcases enterDue_cases engine cfg s row idx with ⟨-, hsame⟩ | ⟨hdue, position, hin⟩
  · rwa [hsame]
  · have hfree := h.free_of_due hdue
    have hcapital := h.capital
    have hround := abs_roundTo_sub_le (s.capital - cfg.fee)
    rw [hin]
    refine ⟨fun _ => rfl, ?_⟩
    simp only [BacktestState.entered, hfree, Option.isSome_none, Option.isSome_some,
      Bool.false_eq_true, if_true, if_false] at hcapital ⊢
    push_cast at hcapital ⊢
    rw [abs_le] at hcapital hround ⊢
    constructor <;> linarith

theorem netTotal_append (journal : List (Nat × TradeJournalRow μ)) (row : Nat × TradeJournalRow μ) :
    netTotal (journal ++ [row]) = netTotal journal + row.2.netPnl := by
  simp [netTotal]

theorem ledger_finishBar (h : Ledger cfg s) (bars : List Bar) (row : Bar) (idx : Nat) :
    Ledger cfg (engine.finishBar cfg bars s row idx) := by
  have hcapital := h.capital
  rcases finishBar_cases engine cfg bars s row idx with
    ⟨position, exitPx, reason, hposition, hclose⟩ | ⟨pending, synthetic, total, hkeep, hpending⟩
  · rw [hclose]
    refine ⟨fun hsome => absurd hsome Bool.false_ne_true, ?_⟩
    have hnet := abs_roundTo_sub_le (CandleBacktestEngine.tradePnl cfg position
      (CandleBacktestEngine.slippedExit cfg exitPx)).net
    have hround := abs_roundTo_sub_le (s.capital + (CandleBacktestEngine.tradePnl cfg position
      (CandleBacktestEngine.slippedExit cfg exitPx)).net)
    simp only [CandleBacktestEngine.closeTrade, BacktestState.entered, netTotal_append,
      CandleBacktestEngine.journalRow, List.length_append, List.length_singleton, hposition,
      Option.isSome_some, Option.isSome_none, Bool.false_eq_true, if_true, if_false] at hcapital ⊢
    push_cast at hcapital ⊢
    rw [abs_le] at hcapital hnet hround ⊢
    constructor <;> linarith
  · rw [hkeep]
    refine ⟨fun hsome => ?_, hcapital⟩
    rw [show pending = s.pending from hpending hsome]
    exact h.exclusive hsome

theorem ledger_step (engine : CandleBacktestEngine π μ) (bars : List Bar) (s : BacktestState μ)
    (entry : Bar × Nat) (h : Ledger cfg s) : Ledger cfg (engine.step cfg bars s entry) :=
  ledger_finishBar (ledger_enterDue h entry.1 entry.2) bars entry.1 entry.2

theorem ledger_loop (engine : CandleBacktestEngine π μ) (cfg : CandleBacktestConfig)
    (bars : List Bar) : Ledger cfg (engine.loop cfg bars) :=
  run_invariant (ledger_step engine bars) ledger_start _

/-! ## Which runs enter a trade -/

theorem entered_finishBar (bars : List Bar) (s : BacktestState μ) (row : Bar) (idx : Nat) :
    (engine.finishBar cfg bars s row idx).entered = s.entered := by
  rcases finishBar_cases engine cfg bars s row idx with
    ⟨position, exitPx, reason, hposition, hclose⟩ | ⟨pending, synthetic, total, hkeep, -⟩
  · rw [hclose]
    simp [BacktestState.entered, CandleBacktestEngine.closeTrade, hposition]
  · rw [hkeep]
    rfl

/-- A bar enters at most one trade, and one on which an order falls due enters it. -/
theorem entered_step (engine : CandleBacktestEngine π μ) (h : Ledger cfg s) (bars : List Bar)
    (entry : Bar × Nat) :
    s.entered ≤ (engine.step cfg bars s entry).entered ∧
      (s.Due entry.2 → s.entered < (engine.step cfg bars s entry).entered) := by
  rw [CandleBacktestEngine.step, entered_finishBar]
  rcases enterDue_cases engine cfg s entry.1 entry.2 with
    ⟨hdue, hsame⟩ | ⟨hdue, position, hin⟩
  · rw [hsame]
    exact ⟨le_rfl, fun h => absurd h hdue⟩
  · have hfree := h.free_of_due hdue
    rw [hin]
    simp [BacktestState.entered, hfree]

theorem entered_run (engine : CandleBacktestEngine π μ) (h : Ledger cfg s) (bars : List Bar)
    (entries : List (Bar × Nat)) :
    s.entered ≤ (run (engine.step cfg bars) s entries).entered := by
  induction entries generalizing s with
  | nil => exact le_rfl
  | cons entry rest ih =>
      exact (entered_step engine h bars entry).1.trans (ih (ledger_step engine bars s entry h))

/-- Where nothing was entered no order ever fell due. -/
theorem freeEntry_of_none (h : Ledger cfg s) (bars : List Bar) {entries : List (Bar × Nat)}
    (hnone : (run (engine.step cfg bars) s entries).entered = 0) :
    StepsMeet (engine.step cfg bars) (FreeEntry cfg) s entries := by
  induction entries generalizing s with
  | nil => trivial
  | cons entry rest ih =>
      have hnext := ledger_step engine bars s entry h
      have hlater := entered_run engine hnext bars rest
      refine ⟨fun hdue => ?_, ih hnext hnone⟩
      have hin := (entered_step engine h bars entry).2 hdue
      have hzero : (run (engine.step cfg bars) (engine.step cfg bars s entry) rest).entered = 0 :=
        hnone
      omega

end Ledger

/-! ## Curve and drawdown where no entry costs a fee -/

section Curve

variable {π μ : Type} {engine : CandleBacktestEngine π μ} {cfg : CandleBacktestConfig}
  {s : BacktestState μ}

theorem drawdownOf_append (curve : List ℚ) (value : ℚ) :
    drawdownOf (curve ++ [value]) = (drawdownOf curve).add value := by
  simp [drawdownOf]

/-- The capital only changes when a trade is closed, and peak and drawdown are those of the curve. -/
structure Charted (s : BacktestState μ) : Prop where
  rounded : roundTo 2 s.capital = s.capital
  below : s.capital ≤ s.peak
  shallow : 0 ≤ s.maxDd
  deep : 0 < s.peak → (s.peak - s.capital) / s.peak * 100 ≤ s.maxDd
  curve : (s.equity = [] ∧ s.position = none ∧ s.pending = none ∧ s.peak = s.capital ∧
      s.maxDd = 0) ∨
    (s.equity.getLast? = some s.capital ∧
      drawdownOf s.equity = { peak := some s.peak, depth := s.maxDd / 100 })

theorem charted_start (hround : roundTo 2 cfg.initialCapital = cfg.initialCapital) :
    Charted (CandleBacktestEngine.start cfg : BacktestState μ) where
  rounded := hround
  below := le_rfl
  shallow := le_rfl
  deep _ := by simp [CandleBacktestEngine.start]
  curve := Or.inl ⟨rfl, rfl, rfl, rfl, rfl⟩

theorem charted_enterDue (h : Charted s) (row : Bar) (idx : Nat)
    (hfree : s.Due idx → cfg.fee = 0) : Charted (engine.enterDue cfg s row idx) := by
  rcases enterDue_cases engine cfg s row idx with
    ⟨-, hsame⟩ | ⟨hdue, position, hin⟩
  · rwa [hsame]
  · rw [hin, hfree hdue, sub_zero, h.rounded]
    refine ⟨h.rounded, h.below, h.shallow, h.deep, ?_⟩
    rcases h.curve with ⟨-, -, hpending, -⟩ | hcurve
    · simp [BacktestState.Due, hpending] at hdue
    · exact Or.inr hcurve

/-- The point that repeats the capital changes neither peak nor depth. -/
theorem add_capital (h : Charted s) :
    (drawdownOf s.equity).add s.capital = { peak := some s.peak, depth := s.maxDd / 100 } := by
  rcases h.curve with ⟨hempty, -, -, hpeak, hdd⟩ | ⟨-, hcurve⟩
  · simp [hempty, drawdownOf, Drawdown.add, hpeak, hdd]
  · rw [hcurve]
    simp only [Drawdown.add, Option.map_some, Option.getD_some, max_eq_left h.below,
      Drawdown.mk.injEq, true_and]
    refine max_eq_left ?_
    split
    · rename_i hpos
      rw [le_div_iff₀ (by decide)]
      exact h.deep hpos
    · exact div_nonneg h.shallow (by decide)

theorem charted_finishBar (h : Charted s) (bars : List Bar) (row : Bar) (idx : Nat) :
    Charted (engine.finishBar cfg bars s row idx) := by
  rcases finishBar_cases engine cfg bars s row idx with
    ⟨position, exitPx, reason, hposition, hclose⟩ | ⟨pending, synthetic, total, hkeep, -⟩
  · have hcurve : drawdownOf s.equity = { peak := some s.peak, depth := s.maxDd / 100 } := by
      rcases h.curve with ⟨-, hnone, -⟩ | ⟨-, hcurve⟩
      · rw [hposition] at hnone
        cases hnone
      · exact hcurve
    rw [hclose]
    simp only [CandleBacktestEngine.closeTrade]
    generalize hcapital : roundTo 2 (s.capital + (CandleBacktestEngine.tradePnl cfg position
      (CandleBacktestEngine.slippedExit cfg exitPx)).net) = capital
    refine ⟨by rw [← hcapital, roundTo_roundTo], le_max_right _ _, ?_, ?_, Or.inr ⟨by simp, ?_⟩⟩
    · dsimp only
      split
      · exact h.shallow.trans (le_max_left _ _)
      · exact h.shallow
    · intro hpos
      dsimp only at hpos ⊢
      rw [if_pos hpos]
      exact le_max_right _ _
    · rw [drawdownOf_append, hcurve]
      simp only [Drawdown.add, Option.map_some, Option.getD_some, Drawdown.mk.injEq, true_and]
      split
      · rw [← max_div_div_right (by decide), mul_div_cancel_right₀ _ (by decide)]
      · exact max_eq_left (div_nonneg h.shallow (by decide))
  · rw [hkeep]
    refine ⟨h.rounded, h.below, h.shallow, h.deep, Or.inr ⟨by simp, ?_⟩⟩
    rw [drawdownOf_append]
    exact add_capital h

theorem charted_loop (hround : roundTo 2 cfg.initialCapital = cfg.initialCapital) {bars : List Bar}
    (hfree : StepsMeet (engine.step cfg bars) (FreeEntry cfg) (CandleBacktestEngine.start cfg)
      (CandleBacktestEngine.loopBars cfg bars)) : Charted (engine.loop cfg bars) := by
  refine (always_of_stepsMeet ?_ (charted_start hround) hfree).final
  rintro s entry - h hentry
  exact charted_finishBar (charted_enterDue h entry.1 entry.2 hentry) bars entry.1 entry.2

end Curve

/-! ## Which books reconcile -/

section Reconcile

variable {π μ : Type} {engine : CandleBacktestEngine π μ} {cfg : CandleBacktestConfig}
  {bars : List Bar} {result : CandleBacktestResult μ}

theorem entered_of_closed {s : BacktestState μ} (hclosed : s.position = none) :
    s.entered = s.journal.length := by
  simp [BacktestState.entered, hclosed]

/-- How far the ending capital is from the books, for any fee. -/
theorem ending_near (hrun : engine.run cfg bars = .ok result)
    (hclosed : (engine.loop cfg bars).position = none) :
    |result.endingCapital - (cfg.initialCapital + netTotal result.journal -
        cfg.fee * result.journal.length)| ≤ roundingRoom result.journal.length := by
  obtain ⟨hjournal, -, -, hending⟩ := CandleBacktestEngine.run_eq_ok hrun
  have hledger := (ledger_loop engine cfg bars).capital
  have hround := abs_roundTo_sub_le (engine.loop cfg bars).capital
  rw [entered_of_closed hclosed] at hledger
  rw [hjournal, hending, roundingRoom]
  rw [abs_le] at hledger hround ⊢
  constructor <;> linarith

/-- Where an entry would cost a fee, a run whose entries are free has none. -/
theorem entered_eq_zero (hfee : cfg.fee ≠ 0)
    (hfree : StepsMeet (engine.step cfg bars) (FreeEntry cfg) (CandleBacktestEngine.start cfg)
      (CandleBacktestEngine.loopBars cfg bars)) : (engine.loop cfg bars).entered = 0 := by
  refine (always_of_stepsMeet (I := fun s => s.entered = 0) ?_ rfl hfree).final
  rintro s entry - h hentry
  rw [CandleBacktestEngine.step, entered_finishBar]
  rcases enterDue_cases engine cfg s entry.1 entry.2 with
    ⟨-, hsame⟩ | ⟨hdue, -⟩
  · rw [hsame, h]
  · exact absurd (hentry hdue) hfee

theorem reconciled_of_free (hround : roundTo 2 cfg.initialCapital = cfg.initialCapital)
    (hfree : StepsMeet (engine.step cfg bars) (FreeEntry cfg) (CandleBacktestEngine.start cfg)
      (CandleBacktestEngine.loopBars cfg bars))
    (hrun : engine.run cfg bars = .ok result)
    (hclosed : (engine.loop cfg bars).position = none) : Reconciled cfg result := by
  obtain ⟨hjournal, hequity, hdrawdown, hending⟩ := CandleBacktestEngine.run_eq_ok hrun
  have hcharted := charted_loop hround hfree
  have hfees : cfg.fee * result.journal.length = 0 := by
    by_cases hfee : cfg.fee = 0
    · rw [hfee, zero_mul]
    · have hzero := entered_eq_zero hfee hfree
      rw [entered_of_closed hclosed, ← hjournal] at hzero
      rw [hzero, Nat.cast_zero, mul_zero]
  constructor
  · have hnear := ending_near hrun hclosed
    rwa [hfees, sub_zero] at hnear
  · intro last hlast
    rw [hending, hcharted.rounded]
    rw [hequity] at hlast
    rcases hcharted.curve with ⟨hempty, -⟩ | ⟨hend, -⟩
    · rw [hempty] at hlast
      cases hlast
    · exact Option.some.inj (hlast.symm.trans hend)
  · rw [hdrawdown, hequity]
    rcases hcharted.curve with ⟨hempty, -, -, -, hdd⟩ | ⟨-, hcurve⟩
    · simp [hempty, hdd, drawdownOf]
    · rw [hcurve, mul_div_cancel₀ _ (by decide)]

/-- With a fee beyond the room for rounding, only books without a trade reconcile. -/
theorem free_of_reconciled (hfee : 4 / 100 < |cfg.fee|) (hrun : engine.run cfg bars = .ok result)
    (hclosed : (engine.loop cfg bars).position = none) (h : Reconciled cfg result) :
    StepsMeet (engine.step cfg bars) (FreeEntry cfg) (CandleBacktestEngine.start cfg)
      (CandleBacktestEngine.loopBars cfg bars) := by
  refine freeEntry_of_none ledger_start bars ?_
  show (engine.loop cfg bars).entered = 0
  rw [entered_of_closed hclosed, ← (CandleBacktestEngine.run_eq_ok hrun).1]
  have hnear := ending_near hrun hclosed
  have hbooks := h.capital
  by_contra htrades
  have hone : (1 : ℚ) ≤ result.journal.length := by
    exact_mod_cast Nat.one_le_iff_ne_zero.mpr htrades
  have hcost : |cfg.fee * result.journal.length| ≤ 2 * roundingRoom result.journal.length := by
    rw [abs_le] at hnear hbooks ⊢
    constructor <;> linarith
  rw [abs_mul, Nat.abs_cast] at hcost
  unfold roundingRoom at hcost
  have hmul : 4 / 100 * (result.journal.length : ℚ) < |cfg.fee| * result.journal.length :=
    mul_lt_mul_of_pos_right hfee (by linarith)
  linarith

/-- A run that ends without a position has books that reconcile where its entries are free and its
initial capital has no more than two decimals; with a fee above four paise they reconcile only where
nothing is entered. -/
theorem books_reconcile_iff (engine : CandleBacktestEngine π μ) (cfg : CandleBacktestConfig)
    (bars : List Bar) (result : CandleBacktestResult μ) (hrun : engine.run cfg bars = .ok result)
    (hclosed : (engine.loop cfg bars).position = none) :
    (roundTo 2 cfg.initialCapital = cfg.initialCapital →
      StepsMeet (engine.step cfg bars) (FreeEntry cfg) (CandleBacktestEngine.start cfg)
        (CandleBacktestEngine.loopBars cfg bars) → Reconciled cfg result) ∧
    (4 / 100 < |cfg.fee| → Reconciled cfg result →
      StepsMeet (engine.step cfg bars) (FreeEntry cfg) (CandleBacktestEngine.start cfg)
        (CandleBacktestEngine.loopBars cfg bars)) :=
  ⟨fun hround hfree => reconciled_of_free hround hfree hrun hclosed,
    fun hfee => free_of_reconciled hfee hrun hclosed⟩

end Reconcile

/-! ## One trade of the sample engine -/

/-- Raw index points and a wide range, so that the first trade reaches its target at once. -/
def sampleConfig (feePerLot : ℚ) : CandleBacktestConfig :=
  { strictOi := false, useOptionModel := false, feePerLot := feePerLot }

/-- Thirty-seven flat bars, and one that rises to the target of the order entered on it. -/
def oneTradeBars : List Bar :=
  sampleBars 0 36 20000 ++
    [{ timestamp := 36 * 60 * second, openPrice := 20000, highPrice := 20100, lowPrice := 19999
       closePrice := 20050, volume := 1000 }]

/-- Without a fee the books reconcile. -/
theorem free_trade_reconciles :
    ∃ result, sampleEngine.run (sampleConfig 0) oneTradeBars = .ok result ∧
      Reconciled (sampleConfig 0) result := by
  obtain ⟨result, hrun⟩ := sampleEngine.run_returns (sampleConfig 0) oneTradeBars rfl (by decide)
  have hclosed : (sampleEngine.loop (sampleConfig 0) oneTradeBars).position.isNone = true := by
    decide +kernel
  refine ⟨result, hrun, (books_reconcile_iff sampleEngine (sampleConfig 0) oneTradeBars result hrun
    (Option.isNone_iff_eq_none.mp hclosed)).1 (by decide +kernel) ?_⟩
  exact (stepsMeet_true _ _).mono fun _ _ _ _ => by simp [CandleBacktestConfig.fee, sampleConfig]

/-- With the default fee the ending capital is forty below what the journal says. -/
theorem entry_fee_missing_from_journal :
    ∃ result, sampleEngine.run (sampleConfig 40) oneTradeBars = .ok result ∧
      (sampleEngine.loop (sampleConfig 40) oneTradeBars).position = none ∧
      result.endingCapital = 100000 + netTotal result.journal - 40 ∧
      ¬ Reconciled (sampleConfig 40) result := by
  obtain ⟨result, hrun⟩ := sampleEngine.run_returns (sampleConfig 40) oneTradeBars rfl (by decide)
  obtain ⟨hjournal, -, -, hending⟩ := CandleBacktestEngine.run_eq_ok hrun
  have hclosed : (sampleEngine.loop (sampleConfig 40) oneTradeBars).position.isNone = true := by
    decide +kernel
  have hshort : result.endingCapital = 100000 + netTotal result.journal - 40 := by
    rw [hending, hjournal]
    decide +kernel
  have htrades : result.journal.length = 1 := by
    rw [hjournal]
    decide +kernel
  refine ⟨result, hrun, Option.isNone_iff_eq_none.mp hclosed, hshort, fun h => ?_⟩
  have hroom := (abs_le.mp h.capital).1
  rw [hshort, htrades] at hroom
  norm_num [roundingRoom, sampleConfig] at hroom

end AutoTrade.Backtest
