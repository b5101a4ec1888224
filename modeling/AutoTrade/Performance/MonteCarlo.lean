import AutoTrade.Library.Quantiles
import AutoTrade.Performance.Drawdown
import Mathlib.Data.Rat.Floor

/-! # The simulation of trade orders

`core/monte_carlo.py` shuffles the profits and losses of the closed trades and takes
percentiles over the simulations. The generator and the square root are parameters.
-/

namespace AutoTrade.Performance.MonteCarlo

open AutoTrade.Library

inductive SimulationError
  | valueError
  | zeroDivision
deriving DecidableEq, Repr

/-- `MonteCarloResult`. -/
structure SimulationResult where
  nSimulations : Nat
  nTrades : Nat
  medianFinalPnl : ℚ
  p5FinalPnl : ℚ
  p95FinalPnl : ℚ
  meanFinalPnl : ℚ
  medianMaxDrawdown : ℚ
  p95MaxDrawdown : ℚ
  probOfProfit : ℚ
  worstCaseStreakP95 : Int
  medianSharpe : ℚ
  p5Sharpe : ℚ
  equityP5 : List ℚ
  equityP50 : List ℚ
  equityP95 : List ℚ
deriving DecidableEq, Repr

def sharpe (sqrt : ℚ → ℚ) (pnls : List ℚ) : ℚ :=
  if pnls.length < 2 then 0
  else
    let mean := pnls.sum / pnls.length
    let variance := (pnls.map fun p => (p - mean) ^ 2).sum / ((pnls.length : ℚ) - 1)
    let std := if 0 < variance then sqrt variance else 0
    if 0 < std then roundTo 4 (mean / std) else 0

def maxConsecLosses (pnls : List ℚ) : Nat := (Streak.pass (fun p : ℚ => decide (p < 0)) {} pnls).longest

/-- The percentile, of a fraction between 0 and 1. -/
def percentile (sortedVals : List ℚ) (pct : ℚ) : ℚ :=
  if sortedVals = [] then 0
  else
    let idx := pct * ((sortedVals.length - 1 : Nat) : ℚ)
    let lo := (truncate idx).toNat
    let hi := min (lo + 1) (sortedVals.length - 1)
    let frac := idx - lo
    sortedVals.getD lo 0 * (1 - frac) + sortedVals.getD hi 0 * frac

/-- Each simulation shuffles the list anew. -/
def simulatedOrders (shuffle : Nat → List ℚ → List ℚ) (pnlList : List ℚ) (nSimulations : Nat) :
    List (List ℚ) :=
  (List.range nSimulations).map fun i => shuffle i pnlList

/-- One of the bands, point by point across the simulations. -/
def equityBand (allCurves : List (List ℚ)) (n : Nat) (pct : ℚ) : List ℚ :=
  if 2 ≤ n ∧ allCurves ≠ [] then
    (List.range n).map fun step => percentile (ascending (allCurves.map fun c => c.getD step 0)) pct
  else []

def runSimulation (sqrt : ℚ → ℚ) (shuffle : Nat → List ℚ → List ℚ) (pnlList : List ℚ)
    (nSimulations : Nat) (confidence : ℚ) : Except SimulationError SimulationResult :=
  if pnlList = [] then .error .valueError
  else
    let loPct := (1 - confidence) / 2
    let hiPct := 1 - loPct
    let sims := simulatedOrders shuffle pnlList nSimulations
    let curves := sims.map equityCurve
    let finalPnls := ascending (curves.map fun eq => (eq.getLast?).getD 0)
    let maxDds := ascending (curves.map maxDrawdown)
    let sharpes := ascending (sims.map (sharpe sqrt))
    let streaks := ascending (sims.map fun sim => (maxConsecLosses sim : ℚ))
    if nSimulations = 0 then .error .zeroDivision
    else .ok {
      nSimulations
      nTrades := pnlList.length
      medianFinalPnl := roundTo 2 (percentile finalPnls (1 / 2))
      p5FinalPnl := roundTo 2 (percentile finalPnls loPct)
      p95FinalPnl := roundTo 2 (percentile finalPnls hiPct)
      meanFinalPnl := roundTo 2 (finalPnls.sum / nSimulations)
      medianMaxDrawdown := roundTo 2 (percentile maxDds (1 / 2))
      p95MaxDrawdown := roundTo 2 (percentile maxDds hiPct)
      probOfProfit := roundTo 4 ((finalPnls.countP fun v => decide (0 < v)) / nSimulations)
      worstCaseStreakP95 := truncate (percentile streaks hiPct)
      medianSharpe := roundTo 4 (percentile sharpes (1 / 2))
      p5Sharpe := roundTo 4 (percentile sharpes loPct)
      equityP5 := equityBand curves pnlList.length loPct
      equityP50 := equityBand curves pnlList.length (1 / 2)
      equityP95 := equityBand curves pnlList.length hiPct }

/-! ## Percentiles -/

theorem toNat_truncate {x : ℚ} (hx : 0 ≤ x) : (truncate x).toNat = ⌊x⌋₊ := by
  rw [truncate, if_pos hx]
  rfl

/-- The two ways to write the line between the neighbours are one. -/
theorem percentile_eq_quantile {xs : List ℚ} (hne : xs ≠ []) {pct : ℚ} (hpct : 0 ≤ pct ∧ pct ≤ 1) :
    percentile xs pct = quantile xs pct := by
  have hlast : (0 : ℚ) ≤ ((xs.length - 1 : Nat) : ℚ) := Nat.cast_nonneg _
  have hplace : pct * ((xs.length - 1 : Nat) : ℚ) ≤ ((xs.length - 1 : Nat) : ℚ) :=
    mul_le_of_le_one_left hlast hpct.2
  have hpos := mul_nonneg hpct.1 hlast
  unfold percentile quantile valueAt
  rw [if_neg hne]
  dsimp only
  rw [toNat_truncate hpos]
  rcases (Nat.floor_le_of_le hplace).lt_or_eq with hinner | hend
  · rw [min_eq_left (by omega)]
    ring
  · -- At the last place the neighbour has no weight.
    have hfloor := Nat.floor_le hpos
    rw [hend] at hfloor
    have hexact := le_antisymm hplace hfloor
    rw [hend, hexact]
    ring

theorem percentile_mono {xs : List ℚ} (hsorted : xs.Pairwise (· ≤ ·)) {p q : ℚ} (hp : 0 ≤ p)
    (hpq : p ≤ q) (hq : q ≤ 1) : percentile xs p ≤ percentile xs q := by
  by_cases hne : xs = []
  · simp [percentile, hne]
  · rw [percentile_eq_quantile hne ⟨hp, hpq.trans hq⟩, percentile_eq_quantile hne ⟨hp.trans hpq, hq⟩]
    exact quantile_mono hsorted hp hpq hq

/-- The percentile of values that all lie within bounds does too. -/
theorem percentile_ascending_bounds {xs : List ℚ} (hne : xs ≠ []) {pct low high : ℚ}
    (hpct : 0 ≤ pct ∧ pct ≤ 1) (hbounds : ∀ x ∈ xs, low ≤ x ∧ x ≤ high) :
    low ≤ percentile (ascending xs) pct ∧ percentile (ascending xs) pct ≤ high := by
  have hperm := ascending_perm xs
  have hsome : ascending xs ≠ [] := fun h => hne (List.nil_perm.mp (h ▸ hperm))
  rw [percentile_eq_quantile hsome hpct]
  exact quantile_mem_bounds (pairwise_ascending xs) hsome hpct
    fun x hx => hbounds x (hperm.mem_iff.mp hx)

theorem percentile_ascending_const {xs : List ℚ} (hne : xs ≠ []) {pct c : ℚ}
    (hpct : 0 ≤ pct ∧ pct ≤ 1) (hconst : ∀ x ∈ xs, x = c) : percentile (ascending xs) pct = c := by
  have hwithin := percentile_ascending_bounds hne hpct fun x hx =>
    ⟨(hconst x hx).ge, (hconst x hx).le⟩
  exact le_antisymm hwithin.2 hwithin.1

/-! ## What an order can change -/

/-- The total of the losing trades. -/
def totalLoss (pnls : List ℚ) : ℚ := (pnls.map fun p => max 0 (-p)).sum

theorem neg_sum_le_totalLoss {stretch pnls : List ℚ} (hsub : stretch.Sublist pnls) :
    -stretch.sum ≤ totalLoss pnls := by
  have hown : -stretch.sum ≤ totalLoss stretch := by
    unfold totalLoss
    induction stretch with
    | nil => exact le_rfl
    | cons p rest ih =>
        have hrest := ih ((List.sublist_cons_self p rest).trans hsub)
        have hp := le_max_right 0 (-p)
        rw [List.map_cons, List.sum_cons, List.sum_cons]
        linarith
  refine hown.trans ((hsub.map fun p => max 0 (-p)).sum_le_sum fun x hx => ?_)
  obtain ⟨p, -, rfl⟩ := List.mem_map.mp hx
  exact le_max_left 0 (-p)

theorem totalLoss_of_perm {sim pnls : List ℚ} (hperm : sim.Perm pnls) :
    totalLoss sim = totalLoss pnls := (hperm.map _).sum_eq

/-- In any order the drawdown is between the net loss and the total of the losing trades. -/
theorem maxDrawdown_bounds {sim pnls : List ℚ} (hperm : sim.Perm pnls) :
    max 0 (-pnls.sum) ≤ maxDrawdown (equityCurve sim) ∧
      maxDrawdown (equityCurve sim) ≤ totalLoss pnls := by
  have hstretch := (absoluteDrawdown_le_iff sim (maxDrawdown (equityCurve sim))).mp le_rfl
  refine ⟨max_le ?_ ?_, ?_⟩
  · simpa using hstretch [] List.nil_infix
  · rw [← hperm.sum_eq]
    exact hstretch sim List.infix_rfl
  · rw [← totalLoss_of_perm hperm]
    exact (absoluteDrawdown_le_iff sim _).mpr fun s hs => neg_sum_le_totalLoss hs.sublist

def losingTrades (pnls : List ℚ) : Nat := pnls.countP fun p => decide (p < 0)

/-- In any order a streak has at most the losing trades, and at least one of them. -/
theorem maxConsecLosses_bounds {sim pnls : List ℚ} (hperm : sim.Perm pnls) :
    min 1 (losingTrades pnls) ≤ maxConsecLosses sim ∧ maxConsecLosses sim ≤ losingTrades pnls := by
  have hcount : losingTrades sim = losingTrades pnls := hperm.countP_eq _
  rw [← hcount]
  constructor
  · by_cases hnone : losingTrades sim = 0
    · simp [hnone]
    · obtain ⟨p, hmem, hloss⟩ := List.countP_pos_iff.mp (Nat.pos_of_ne_zero hnone)
      obtain ⟨before, after, hsplit⟩ := List.append_of_mem hmem
      have hinfix : [p] <:+: sim := ⟨before, after, by rw [hsplit]; simp⟩
      have hone := Streak.longest_le_iff.mp (le_refl (maxConsecLosses sim)) [p] hinfix
        (by simpa using hloss)
      exact (min_le_left _ _).trans hone
  · refine Streak.longest_le_iff.mpr fun stretch hinfix hall => ?_
    rw [← List.countP_eq_length.mpr hall]
    exact hinfix.sublist.countP_le

theorem truncate_within {x : ℚ} {low high : Nat} (h : (low : ℚ) ≤ x ∧ x ≤ high) :
    (low : Int) ≤ truncate x ∧ truncate x ≤ high := by
  have hpos : 0 ≤ x := (Nat.cast_nonneg low).trans h.1
  rw [truncate, if_pos hpos]
  refine ⟨Rat.le_floor_iff.mpr (by exact_mod_cast h.1), ?_⟩
  have hfloor := Rat.floor_monotone h.2
  rwa [← Int.cast_natCast, Rat.floor_intCast] at hfloor

theorem sharpe_of_perm (sqrt : ℚ → ℚ) {sim pnls : List ℚ} (hperm : sim.Perm pnls) :
    sharpe sqrt sim = sharpe sqrt pnls := by
  have hvariance : ∀ mean : ℚ, (sim.map fun p => (p - mean) ^ 2).sum =
      (pnls.map fun p => (p - mean) ^ 2).sum := fun mean => (hperm.map _).sum_eq
  unfold sharpe
  simp only [hperm.length_eq, hperm.sum_eq, hvariance]

theorem getLast?_equityCurve {sim pnls : List ℚ} (hperm : sim.Perm pnls) (hne : pnls ≠ []) :
    (equityCurve sim).getLast? = some pnls.sum := by
  have hsim : sim ≠ [] := fun h => hne (List.nil_perm.mp (h ▸ hperm))
  rw [equityCurve, getLast?_sumsFrom 0 hsim, zero_add, hperm.sum_eq]

/-! ## The result -/

section Simulations

variable {shuffle : Nat → List ℚ → List ℚ} {pnls : List ℚ} {n : Nat}

theorem simulatedOrders_ne_nil (hn : 0 < n) : simulatedOrders shuffle pnls n ≠ [] := by
  intro h
  have hlength := congrArg List.length h
  rw [simulatedOrders, List.length_map, List.length_range] at hlength
  exact hn.ne' hlength

theorem perm_of_mem_simulatedOrders (hshuffle : ∀ i xs, (shuffle i xs).Perm xs) {sim : List ℚ}
    (h : sim ∈ simulatedOrders shuffle pnls n) : sim.Perm pnls := by
  obtain ⟨i, -, rfl⟩ := List.mem_map.mp h
  exact hshuffle i pnls

/-- Percentiles of what no order changes are its value. -/
theorem percentile_fixed (hshuffle : ∀ i xs, (shuffle i xs).Perm xs) (hn : 0 < n)
    {f : List ℚ → ℚ} {c : ℚ} (hfixed : ∀ sim : List ℚ, sim.Perm pnls → f sim = c) {pct : ℚ}
    (hpct : 0 ≤ pct ∧ pct ≤ 1) :
    percentile (ascending ((simulatedOrders shuffle pnls n).map f)) pct = c := by
  refine percentile_ascending_const (mt List.map_eq_nil_iff.mp (simulatedOrders_ne_nil hn)) hpct ?_
  intro x hx
  obtain ⟨sim, hsim, rfl⟩ := List.mem_map.mp hx
  exact hfixed sim (perm_of_mem_simulatedOrders hshuffle hsim)

theorem percentile_within (hshuffle : ∀ i xs, (shuffle i xs).Perm xs) (hn : 0 < n)
    {f : List ℚ → ℚ} {low high : ℚ}
    (hwithin : ∀ sim : List ℚ, sim.Perm pnls → low ≤ f sim ∧ f sim ≤ high) {pct : ℚ}
    (hpct : 0 ≤ pct ∧ pct ≤ 1) :
    low ≤ percentile (ascending ((simulatedOrders shuffle pnls n).map f)) pct ∧
      percentile (ascending ((simulatedOrders shuffle pnls n).map f)) pct ≤ high := by
  refine percentile_ascending_bounds (mt List.map_eq_nil_iff.mp (simulatedOrders_ne_nil hn)) hpct ?_
  intro x hx
  obtain ⟨sim, hsim, rfl⟩ := List.mem_map.mp hx
  exact hwithin sim (perm_of_mem_simulatedOrders hshuffle hsim)

theorem getElem?_equityBand (hn : 0 < n) (hlength : 2 ≤ pnls.length) {step : Nat}
    (hstep : step < pnls.length) (pct : ℚ) :
    (equityBand ((simulatedOrders shuffle pnls n).map equityCurve) pnls.length pct)[step]? =
      some (percentile (ascending ((simulatedOrders shuffle pnls n).map
        fun sim => (equityCurve sim).getD step 0)) pct) := by
  have hcurves : (simulatedOrders shuffle pnls n).map equityCurve ≠ [] :=
    mt List.map_eq_nil_iff.mp (simulatedOrders_ne_nil hn)
  rw [equityBand, if_pos ⟨hlength, hcurves⟩, List.getElem?_map, List.getElem?_range hstep,
    Option.map_some, List.map_map]
  rfl

theorem getD_equityCurve_last {sim : List ℚ} (hperm : sim.Perm pnls) (hne : pnls ≠ []) :
    (equityCurve sim).getD (pnls.length - 1) 0 = pnls.sum := by
  have hlast := getLast?_equityCurve hperm hne
  rw [List.getLast?_eq_getElem?, equityCurve, length_sumsFrom, hperm.length_eq] at hlast
  rw [List.getD_eq_getElem?_getD, equityCurve, hlast]
  rfl

/-- Sorted, what no order changes is there once for each simulation. -/
theorem ascending_fixed_perm (hshuffle : ∀ i xs, (shuffle i xs).Perm xs) {f : List ℚ → ℚ} {c : ℚ}
    (hfixed : ∀ sim : List ℚ, sim.Perm pnls → f sim = c) :
    (ascending ((simulatedOrders shuffle pnls n).map f)).Perm (List.replicate n c) := by
  refine (ascending_perm _).trans (.of_eq (List.eq_replicate_iff.mpr ⟨?_, fun x hx => ?_⟩))
  · rw [List.length_map, simulatedOrders, List.length_map, List.length_range]
  · obtain ⟨sim, hsim, rfl⟩ := List.mem_map.mp hx
    exact hfixed sim (perm_of_mem_simulatedOrders hshuffle hsim)

end Simulations

/-- What the orders of the trades leave fixed, and what they spread. -/
structure SpreadOver (sqrt : ℚ → ℚ) (pnls : List ℚ) (r : SimulationResult) : Prop where
  final : r.p5FinalPnl = roundTo 2 pnls.sum ∧ r.medianFinalPnl = roundTo 2 pnls.sum ∧
    r.p95FinalPnl = roundTo 2 pnls.sum ∧ r.meanFinalPnl = roundTo 2 pnls.sum
  profit : r.probOfProfit = if 0 < pnls.sum then 1 else 0
  sharpe : r.p5Sharpe = roundTo 4 (sharpe sqrt pnls) ∧ r.medianSharpe = roundTo 4 (sharpe sqrt pnls)
  drawdown : roundTo 2 (max 0 (-pnls.sum)) ≤ r.medianMaxDrawdown ∧
    r.medianMaxDrawdown ≤ r.p95MaxDrawdown ∧ r.p95MaxDrawdown ≤ roundTo 2 (totalLoss pnls)
  streak : (min 1 (losingTrades pnls) : Nat) ≤ r.worstCaseStreakP95 ∧
    r.worstCaseStreakP95 ≤ losingTrades pnls
  bands : 2 ≤ pnls.length → ∀ step < pnls.length, ∃ low mid high,
    r.equityP5[step]? = some low ∧ r.equityP50[step]? = some mid ∧ r.equityP95[step]? = some high ∧
      low ≤ mid ∧ mid ≤ high ∧ (step + 1 = pnls.length → low = pnls.sum ∧ high = pnls.sum)

/-- The simulations only reorder the trades, so the final profit and loss and the Sharpe ratio
have no spread: their percentiles are the ones of the list itself, and the probability of a profit is
one or zero. What the orders spread is the drawdown, between the net loss and the total of
the losing trades, the worst streak and the bands, which are in order at every
step and meet at the last one. -/
theorem simulation_spread (sqrt : ℚ → ℚ) {shuffle : Nat → List ℚ → List ℚ}
    (hshuffle : ∀ i xs, (shuffle i xs).Perm xs) {pnls : List ℚ} (hne : pnls ≠ []) {n : Nat}
    (hn : 0 < n) {confidence : ℚ} (hconfidence : 0 ≤ confidence ∧ confidence ≤ 1) :
    ∃ r, runSimulation sqrt shuffle pnls n confidence = .ok r ∧ SpreadOver sqrt pnls r := by
  have hlo : 0 ≤ (1 - confidence) / 2 ∧ (1 - confidence) / 2 ≤ 1 / 2 := by
    constructor <;> linarith [hconfidence.1, hconfidence.2]
  have hhi : 1 / 2 ≤ 1 - (1 - confidence) / 2 ∧ 1 - (1 - confidence) / 2 ≤ 1 := by
    constructor <;> linarith [hlo.1, hlo.2]
  have hlow : 0 ≤ (1 - confidence) / 2 ∧ (1 - confidence) / 2 ≤ 1 := ⟨hlo.1, by linarith [hlo.2]⟩
  have hhigh : 0 ≤ 1 - (1 - confidence) / 2 ∧ 1 - (1 - confidence) / 2 ≤ 1 :=
    ⟨by linarith [hhi.1], hhi.2⟩
  have hhalf : (0 : ℚ) ≤ 1 / 2 ∧ (1 / 2 : ℚ) ≤ 1 := by norm_num
  have hfinal : ∀ sim : List ℚ, sim.Perm pnls → ((equityCurve sim).getLast?).getD 0 = pnls.sum := by
    intro sim hperm
    rw [getLast?_equityCurve hperm hne]
    rfl
  have hfinals := ascending_fixed_perm (n := n) hshuffle hfinal
  have hcast : (n : ℚ) ≠ 0 := Nat.cast_ne_zero.mpr hn.ne'
  have hone : roundTo 4 1 = 1 := by decide +kernel
  have hzero : roundTo 4 0 = 0 := by decide +kernel
  have hcount : ∀ sim : List ℚ, sim.Perm pnls →
      ((min 1 (losingTrades pnls) : Nat) : ℚ) ≤ maxConsecLosses sim ∧
        (maxConsecLosses sim : ℚ) ≤ losingTrades pnls := fun sim hperm =>
    ⟨Nat.cast_le.mpr (maxConsecLosses_bounds hperm).1, Nat.cast_le.mpr (maxConsecLosses_bounds hperm).2⟩
  have hstreak := truncate_within (percentile_within hshuffle hn hcount hhigh)
  unfold runSimulation
  rw [if_neg hne, if_neg hn.ne']
  simp only [List.map_map, Function.comp_def]
  refine ⟨_, rfl, ⟨?_, ?_, ?_, ?_⟩, ?_, ⟨?_, ?_⟩, ⟨?_, ?_, ?_⟩, ⟨?_, ?_⟩, ?_⟩
  · rw [percentile_fixed hshuffle hn hfinal hlow]
  · rw [percentile_fixed hshuffle hn hfinal hhalf]
  · rw [percentile_fixed hshuffle hn hfinal hhigh]
  · rw [hfinals.sum_eq, List.sum_replicate, nsmul_eq_mul, mul_div_cancel_left₀ _ hcast]
  · rw [hfinals.countP_eq, List.countP_replicate]
    split
    · rename_i hpos
      rw [if_pos (of_decide_eq_true hpos), div_self hcast]
      exact hone
    · rename_i hpos
      rw [if_neg fun h => hpos (decide_eq_true h), Nat.cast_zero, zero_div]
      exact hzero
  · rw [percentile_fixed hshuffle hn (fun _ hperm => sharpe_of_perm sqrt hperm) hlow]
  · rw [percentile_fixed hshuffle hn (fun _ hperm => sharpe_of_perm sqrt hperm) hhalf]
  · exact roundTo_mono 2 (percentile_within hshuffle hn (fun _ hperm => maxDrawdown_bounds hperm)
      hhalf).1
  · exact roundTo_mono 2 (percentile_mono (pairwise_ascending _) hhalf.1 hhi.1 hhi.2)
  · exact roundTo_mono 2 (percentile_within hshuffle hn (fun _ hperm => maxDrawdown_bounds hperm)
      hhigh).2
  · exact hstreak.1
  · exact hstreak.2
  · intro hlength step hstep
    refine ⟨_, _, _, getElem?_equityBand hn hlength hstep _, getElem?_equityBand hn hlength hstep _,
      getElem?_equityBand hn hlength hstep _, ?_, ?_, fun hlast => ?_⟩
    · exact percentile_mono (pairwise_ascending _) hlo.1 hlo.2 hhalf.2
    · exact percentile_mono (pairwise_ascending _) hhalf.1 hhi.1 hhi.2
    · have hmeet : ∀ sim : List ℚ, sim.Perm pnls → (equityCurve sim).getD step 0 = pnls.sum := by
        intro sim hperm
        rw [← getD_equityCurve_last hperm hne, ← hlast, Nat.add_sub_cancel]
      exact ⟨percentile_fixed hshuffle hn hmeet hlow, percentile_fixed hshuffle hn hmeet hhigh⟩

/-- Three trades, of which one lost, in a thousand orders. -/
theorem simulation_spread_three :
    ∃ r, runSimulation (fun v => (v.num.toNat.sqrt : ℚ) / v.den.sqrt) (fun _ xs => xs.reverse)
        [200, 50, -100] 1000 (95 / 100) = .ok r ∧
      SpreadOver (fun v => (v.num.toNat.sqrt : ℚ) / v.den.sqrt) [200, 50, -100] r :=
  simulation_spread _ (fun _ xs => xs.reverse_perm) (by decide) (by decide) (by norm_num)

end AutoTrade.Performance.MonteCarlo
