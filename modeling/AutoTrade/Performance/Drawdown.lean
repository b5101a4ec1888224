import AutoTrade.Library.RunningMax
import AutoTrade.Runtime

/-! # Drawdowns

The drawdown of a list of trades is computed in one pass in several places: for
the performance report, for the two simulations and for the empirical validation.
All of them come to the worst loss over a stretch of consecutive trades.
-/

namespace AutoTrade.Performance

open AutoTrade.Library

/-- A row of `trades.db`, with the columns that the metrics read. -/
structure Trade where
  netPnl : Option ℚ := none
  grossPnl : Option ℚ := none
  indexName : Option String := none
  direction : Option String := none
  reason : Option String := none
  regime : Option String := none
  score : Option ℚ := none
deriving DecidableEq, Repr

/-- `float(t.get("net_pnl") or 0)`. -/
def Trade.net (t : Trade) : ℚ := t.netPnl.getD 0

/-! ## The performance report -/

/-- The variables of the pass of `compute_drawdown`. -/
structure DrawdownState where
  equity : ℚ := 0
  peak : ℚ := 0
  maxDd : ℚ := 0
deriving DecidableEq, Repr

def DrawdownState.add (s : DrawdownState) (pnl : ℚ) : DrawdownState :=
  let equity := s.equity + pnl
  let peak := max s.peak equity
  { equity, peak, maxDd := max s.maxDd (peak - equity) }

/-- A recovery factor of none is infinite. -/
structure DrawdownReport where
  maxDrawdown : ℚ
  currentDrawdown : ℚ
  recoveryFactor : Option ℚ
deriving DecidableEq, Repr

def computeDrawdown (trades : List Trade) : DrawdownReport :=
  if trades = [] then ⟨0, 0, some 0⟩
  else
    let s := (trades.map Trade.net).foldl DrawdownState.add {}
    { maxDrawdown := roundTo 2 s.maxDd
      currentDrawdown := roundTo 2 (s.peak - s.equity)
      recoveryFactor := if 0 < s.maxDd then some (roundTo 2 (s.equity / s.maxDd)) else none }

/-! ## The simulations -/

/-- The one pass over an equity curve, from zero. -/
def absoluteDrawdown (equity : List ℚ) : ℚ :=
  ((⟨0, 0⟩ : Watermark ℚ ℚ).pass (· - ·) equity).worst

namespace MonteCarlo

def equityCurve (pnls : List ℚ) : List ℚ := sumsFrom 0 pnls

def maxDrawdown (equity : List ℚ) : ℚ := absoluteDrawdown equity

end MonteCarlo

namespace TailRisk

def equityCurve (pnls : List ℚ) : List ℚ := sumsFrom 0 pnls

def maxDrawdown (equity : List ℚ) : ℚ := absoluteDrawdown equity

end TailRisk

/-! ## The empirical validation -/

/-- The pass of the empirical validator, which assigns where the others take a maximum. -/
def validatorAdd (s : DrawdownState) (pnl : ℚ) : DrawdownState :=
  let running := s.equity + pnl
  let peak := if s.peak < running then running else s.peak
  let dd := peak - running
  { equity := running, peak, maxDd := if s.maxDd < dd then dd else s.maxDd }

def validatorDrawdown (pnls : List ℚ) : ℚ := (pnls.foldl validatorAdd {}).maxDd

/-! ## Certification -/

/-- `max_drawdown_pct`: the worst drop, in percent of the last peak. -/
def maxDrawdownPct (pnls : List ℚ) : ℚ :=
  if pnls = [] then 0
  else
    let s := pnls.foldl DrawdownState.add {}
    if s.peak = 0 then 0 else s.maxDd / s.peak * 100

/-! ## One pass -/

/-- The pass with its equity is a pass over the running sums. -/
theorem foldl_add_eq (pnls : List ℚ) (s : DrawdownState) :
    pnls.foldl DrawdownState.add s =
      { equity := s.equity + pnls.sum
        peak := (sumsFrom s.equity pnls).foldl max s.peak
        maxDd := ((⟨s.peak, s.maxDd⟩ : Watermark ℚ ℚ).pass (· - ·) (sumsFrom s.equity pnls)).worst } := by
  induction pnls generalizing s with
  | nil => simp [sumsFrom]
  | cons pnl rest ih =>
      rw [List.foldl_cons, ih]
      simp [DrawdownState.add, sumsFrom, Watermark.see, add_assoc]

theorem validatorAdd_eq (s : DrawdownState) (pnl : ℚ) : validatorAdd s pnl = s.add pnl := by
  have hmax : ∀ a b : ℚ, (if a < b then b else a) = max a b := by
    intro a b
    rw [max_def_lt]
  simp only [validatorAdd, DrawdownState.add, hmax]

/-- The state at the end of the pass from zero. -/
theorem foldl_add_start (pnls : List ℚ) :
    pnls.foldl DrawdownState.add {} =
      { equity := pnls.sum
        peak := (sumsFrom 0 pnls).foldl max 0
        maxDd := absoluteDrawdown (sumsFrom 0 pnls) } := by
  rw [foldl_add_eq, absoluteDrawdown, zero_add]

theorem absoluteDrawdown_le_iff (pnls : List ℚ) (bound : ℚ) :
    absoluteDrawdown (sumsFrom 0 pnls) ≤ bound ↔
      ∀ stretch, stretch <:+: pnls → -stretch.sum ≤ bound :=
  worst_pass_sumsFrom_le_iff

theorem validatorDrawdown_eq (pnls : List ℚ) :
    validatorDrawdown pnls = absoluteDrawdown (sumsFrom 0 pnls) := by
  have hstep : validatorAdd = DrawdownState.add := by
    funext s pnl
    exact validatorAdd_eq s pnl
  rw [validatorDrawdown, hstep, foldl_add_start]

/-- The report rounds what the pass from zero comes to. -/
theorem computeDrawdown_eq (trades : List Trade) :
    (computeDrawdown trades).maxDrawdown =
        roundTo 2 (absoluteDrawdown (sumsFrom 0 (trades.map Trade.net))) ∧
      (computeDrawdown trades).currentDrawdown =
        roundTo 2 ((sumsFrom 0 (trades.map Trade.net)).foldl max 0 -
          (0 + (trades.map Trade.net).sum)) := by
  unfold computeDrawdown
  split
  · rename_i hempty
    subst hempty
    exact ⟨by decide +kernel, by decide +kernel⟩
  · dsimp only
    rw [foldl_add_start, zero_add]
    exact ⟨rfl, rfl⟩

/-- The last peak of a pass is zero exactly when the trades never made a profit. -/
theorem peak_eq_zero_iff (pnls : List ℚ) :
    (sumsFrom 0 pnls).foldl max 0 = 0 ↔ ∀ start, start <+: pnls → start.sum ≤ 0 := by
  rw [← (le_foldl_max 0 (sumsFrom 0 pnls)).ge_iff_eq', foldl_max_le_iff, forall_mem_sumsFrom]
  simp only [le_refl, true_and, zero_add]
  refine ⟨fun h start hprefix => ?_, fun h start hprefix _ => h start hprefix⟩
  by_cases hnil : start = []
  · simp [hnil]
  · exact h start hprefix hnil

theorem maxDrawdownPct_eq_zero_iff (pnls : List ℚ) :
    maxDrawdownPct pnls = 0 ↔
      absoluteDrawdown (sumsFrom 0 pnls) = 0 ∨ ∀ start, start <+: pnls → start.sum ≤ 0 := by
  unfold maxDrawdownPct
  split
  · rename_i hempty
    subst hempty
    exact iff_of_true rfl (.inl (by decide +kernel))
  · dsimp only
    rw [foldl_add_start, ← peak_eq_zero_iff]
    split
    · rename_i hzero
      exact iff_of_true rfl (.inr hzero)
    · rename_i hpeak
      rw [mul_eq_zero, div_eq_zero_iff]
      simp [hpeak]

/-- The drawdown of a list of trades is the worst loss over a stretch of consecutive trades, by each
of the computations; the current one is the worst loss over a stretch up to the last trade. The
certified percentage is zero without a drawdown, and also where the trades never made a profit. -/
theorem drawdown_worst_stretch (trades : List Trade) :
    let pnls := trades.map Trade.net
    let worst := MonteCarlo.maxDrawdown (MonteCarlo.equityCurve pnls)
    (∀ bound, worst ≤ bound ↔ ∀ stretch, stretch <:+: pnls → -stretch.sum ≤ bound) ∧
      TailRisk.maxDrawdown (TailRisk.equityCurve pnls) = worst ∧
      validatorDrawdown pnls = worst ∧
      (computeDrawdown trades).maxDrawdown = roundTo 2 worst ∧
      (∃ current, (computeDrawdown trades).currentDrawdown = roundTo 2 current ∧
        ∀ bound, current ≤ bound ↔ ∀ stretch, stretch <:+ pnls → -stretch.sum ≤ bound) ∧
      (maxDrawdownPct pnls = 0 ↔ worst = 0 ∨ ∀ start, start <+: pnls → start.sum ≤ 0) := by
  intro pnls worst
  have hreport := computeDrawdown_eq trades
  exact ⟨absoluteDrawdown_le_iff pnls, rfl, validatorDrawdown_eq pnls, hreport.1,
    ⟨_, hreport.2, fun _ => peak_sub_last_le_iff⟩, maxDrawdownPct_eq_zero_iff pnls⟩

end AutoTrade.Performance
