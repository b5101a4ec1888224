import AutoTrade.Library.Grouping
import AutoTrade.Performance.Drawdown
import Mathlib.Algebra.BigOperators.Ring.Finset
import Mathlib.Tactic.FieldSimp
import Mathlib.Tactic.LinearCombination
import Mathlib.Tactic.Ring

/-! # The performance report

`compute_metrics` and the breakdowns of `core/performance_metrics.py`. Every trade
is in the one group of its label, so the groups of a breakdown account for all
trades; the expectancy is the mean, and the streaks are the longest runs.
-/

namespace AutoTrade.Performance

open AutoTrade.Library

/-! ## Streaks -/

def isHit (positive : Bool) (v : ℚ) : Bool := if positive then decide (0 ≤ v) else decide (v < 0)

def maxConsecutive (values : List ℚ) (positive : Bool) : Nat :=
  (Streak.pass (isHit positive) {} values).longest

/-! ## Metrics -/

/-- `compute_metrics`; a ratio of none is infinite. -/
structure TradeMetrics where
  trades : Nat
  winners : Nat
  losers : Nat
  winRate : ℚ
  avgWin : ℚ
  avgLoss : ℚ
  winLossRatio : Option ℚ
  expectancy : ℚ
  profitFactor : Option ℚ
  totalNetPnl : ℚ
  totalGrossPnl : ℚ
  largestWin : ℚ
  largestLoss : ℚ
  stdPnl : ℚ
  sharpePerTrade : ℚ
  maxConsecWins : Nat
  maxConsecLosses : Nat
  drawdown : DrawdownReport
deriving DecidableEq, Repr

def Trade.gross (t : Trade) : ℚ := t.grossPnl.getD 0

/-- A mean, or zero of nothing. -/
def meanOr (values : List ℚ) : ℚ := if values = [] then 0 else values.sum / values.length

def variance (values : List ℚ) : ℚ :=
  let mean := values.sum / values.length
  (values.map fun p => (p - mean) ^ 2).sum / (values.length - 1)

/-- `math.sqrt` is the parameter. -/
def stdOf (sqrt : ℚ → ℚ) (values : List ℚ) : ℚ :=
  if 1 < values.length ∧ 0 < variance values then sqrt (variance values) else 0

def expectancyOf (pnls : List ℚ) : ℚ :=
  let winners := pnls.filter fun p => decide (0 ≤ p)
  let losers := pnls.filter fun p => decide (p < 0)
  let winRate : ℚ := winners.length / pnls.length
  winRate * meanOr winners + (1 - winRate) * meanOr losers

/-- No metrics are computed of no trades. -/
def computeMetrics (sqrt : ℚ → ℚ) (trades : List Trade) : Option TradeMetrics :=
  if trades = [] then none
  else
    let net := trades.map Trade.net
    let gross := trades.map Trade.gross
    let winners := net.filter fun p => decide (0 ≤ p)
    let losers := net.filter fun p => decide (p < 0)
    let avgWin := meanOr winners
    let avgLoss := meanOr losers
    let grossWins := (gross.filter fun p => decide (0 < p)).sum
    let grossLosses := |(gross.filter fun p => decide (p < 0)).sum|
    let std := stdOf sqrt net
    some
      { trades := trades.length
        winners := winners.length
        losers := losers.length
        winRate := roundTo 1 ((winners.length : ℚ) / trades.length * 100)
        avgWin := roundTo 2 avgWin
        avgLoss := roundTo 2 avgLoss
        winLossRatio := if avgLoss = 0 then none else some (roundTo 2 |avgWin / avgLoss|)
        expectancy := roundTo 2 (expectancyOf net)
        profitFactor :=
          if 0 < grossLosses then some (roundTo 2 (grossWins / grossLosses)) else none
        totalNetPnl := roundTo 2 net.sum
        totalGrossPnl := roundTo 2 gross.sum
        largestWin := roundTo 2 (net.tail.foldl max (net.headD 0))
        largestLoss := roundTo 2 (net.tail.foldl min (net.headD 0))
        stdPnl := roundTo 2 std
        sharpePerTrade := roundTo 3 (if 0 < std then net.sum / net.length / std else 0)
        maxConsecWins := maxConsecutive net true
        maxConsecLosses := maxConsecutive net false
        drawdown := computeDrawdown trades }

/-! ## Breakdowns -/

/-- What is said of each group. -/
structure GroupMetrics where
  trades : Nat
  winRate : ℚ
  avgPnl : ℚ
  totalPnl : ℚ
deriving DecidableEq, Repr

def groupMetrics (group : List Trade) : GroupMetrics :=
  let pnls := group.map Trade.net
  { trades := group.length
    winRate := roundTo 1 (((pnls.filter fun p => decide (0 ≤ p)).length : ℚ) / group.length * 100)
    avgPnl := roundTo 2 (pnls.sum / group.length)
    totalPnl := roundTo 2 pnls.sum }

/-- A group by the reason of the exit has its share in place of its total. -/
structure ReasonMetrics where
  trades : Nat
  winRate : ℚ
  avgPnl : ℚ
  pctOfTotal : ℚ
deriving DecidableEq, Repr

/-- `str(text or "UNKNOWN").upper()`. -/
def labelText (text : Option String) : String := (orElse text "UNKNOWN").toUpper

def buckets (label : Trade → String) (trades : List Trade) : Dict String (List Trade) :=
  Dict.groupInto label Table.empty trades

def sortedBuckets (label : Trade → String) (trades : List Trade) :
    List (String × List Trade) :=
  (buckets label trades).rows.mergeSort fun a b => decide (a.1 ≤ b.1)

def metricsBy (label : Trade → String) (trades : List Trade) : List (String × GroupMetrics) :=
  (sortedBuckets label trades).map fun e => (e.1, groupMetrics e.2)

def metricsByRegime (trades : List Trade) : List (String × GroupMetrics) :=
  metricsBy (fun t => labelText t.regime) trades

def metricsByDirection (trades : List Trade) : List (String × GroupMetrics) :=
  metricsBy (fun t => labelText t.direction) trades

def metricsByIndex (trades : List Trade) : List (String × GroupMetrics) :=
  metricsBy (fun t => labelText t.indexName) trades

/-- The largest groups come first. -/
def metricsByExitReason (trades : List Trade) : List (String × ReasonMetrics) :=
  let groups := (buckets (fun t => labelText t.reason) trades).rows.mergeSort
    fun a b => decide (b.2.length ≤ a.2.length)
  groups.map fun e =>
    (e.1,
      { trades := e.2.length
        winRate := (groupMetrics e.2).winRate
        avgPnl := (groupMetrics e.2).avgPnl
        pctOfTotal := roundTo 1 ((e.2.length : ℚ) / trades.length * 100) })

/-- The labels in the order of the report. -/
def scoreBins : List String := ["60-64", "65-69", "70-79", "80-89", "90+", "below_60"]

def scoreBinOf (t : Trade) : String :=
  let s := truncate (t.score.getD 0)
  if 90 ≤ s then "90+"
  else if 80 ≤ s then "80-89"
  else if 70 ≤ s then "70-79"
  else if 65 ≤ s then "65-69"
  else if 60 ≤ s then "60-64"
  else "below_60"

def emptyBins : Dict String (List Trade) := ⟨scoreBins.map fun label => (label, []), by decide⟩

/-- Empty bins are left out. -/
def metricsByScoreBin (trades : List Trade) : List (String × GroupMetrics) :=
  ((Dict.groupInto scoreBinOf emptyBins trades).rows.filter fun e => decide (e.2 ≠ [])).map
    fun e => (e.1, groupMetrics e.2)

/-! ## The expectancy -/

theorem winners_append_losers (pnls : List ℚ) :
    ((pnls.filter fun p => decide (0 ≤ p)) ++ pnls.filter fun p => decide (p < 0)).Perm pnls := by
  have hlosers : (fun p : ℚ => decide (p < 0)) = fun p => !decide (0 ≤ p) := by
    funext p
    rw [← decide_not]
    exact decide_eq_decide.mpr not_le.symm
  rw [hlosers]
  exact List.filter_append_perm _ pnls

theorem meanOr_mul_length (values : List ℚ) : meanOr values * values.length = values.sum := by
  unfold meanOr
  split
  · rename_i hempty
    simp [hempty]
  · rename_i hne
    exact div_mul_cancel₀ _ (by simpa using hne)

/-- The expectancy is the mean. -/
theorem expectancyOf_eq {pnls : List ℚ} (h : pnls ≠ []) :
    expectancyOf pnls = pnls.sum / pnls.length := by
  have hperm := winners_append_losers pnls
  have hlength := congrArg (Nat.cast : Nat → ℚ) hperm.length_eq
  have hsum := hperm.sum_eq
  rw [List.sum_append] at hsum
  rw [List.length_append, Nat.cast_add] at hlength
  have hpos : (0 : ℚ) < pnls.length := by simpa [List.length_pos_iff] using h
  unfold expectancyOf
  dsimp only
  have hwin := meanOr_mul_length (pnls.filter fun p => decide (0 ≤ p))
  have hlose := meanOr_mul_length (pnls.filter fun p => decide (p < 0))
  rw [eq_div_iff hpos.ne']
  field_simp
  linear_combination hwin + hlose + hsum +
    meanOr (pnls.filter fun p => decide (p < 0)) * (-hlength)

/-! ## Breakdowns account for all trades -/

/-- A breakdown has a group for each label, with the trades of the label. -/
structure Accounts (label : Trade → String) (trades : List Trade)
    (breakdown : List (String × GroupMetrics)) : Prop where
  labels : (breakdown.map Prod.fst).Nodup
  groups : ∀ k m, (k, m) ∈ breakdown ↔ ∃ group,
    group = (trades.filter fun t => decide (label t = k)) ∧ group ≠ [] ∧ m = groupMetrics group
  counts : (breakdown.map fun e => e.2.trades).sum = trades.length
  totals : |(breakdown.map fun e => e.2.totalPnl).sum - (trades.map Trade.net).sum| ≤
    5 / 1000 * breakdown.length

theorem sum_filter_nonempty {M : Type} [AddCommGroup M] {f : List Trade → M} (hf : f [] = 0)
    (rows : List (String × List Trade)) :
    ((rows.filter fun e => decide (e.2 ≠ [])).map fun e => f e.2).sum =
      (rows.map fun e => f e.2).sum := by
  induction rows with
  | nil => rfl
  | cons e rest ih =>
      by_cases hempty : e.2 = []
      · rw [List.filter_cons_of_neg (by simp [hempty]), ih, List.map_cons, List.sum_cons, hempty, hf,
          zero_add]
      · rw [List.filter_cons_of_pos (by simpa using hempty), List.map_cons, List.sum_cons, ih,
          List.map_cons, List.sum_cons]

section Groups

variable {label : Trade → String} {trades : List Trade} {d : Dict String (List Trade)}

/-- The groups with a trade, where the groups were empty at the start. -/
theorem get?_groupInto_nonempty (hd : ∀ k group, d.get? k = some group → group = []) (k : String)
    (group : List Trade) :
    (Dict.groupInto label d trades).get? k = some group ∧ group ≠ [] ↔
      group = (trades.filter fun t => decide (label t = k)) ∧ group ≠ [] := by
  have hstart : (d.get? k).getD [] = [] := by
    cases h : d.get? k with
    | none => rfl
    | some group => exact hd k group h
  rw [Dict.get?_groupInto, hstart, List.nil_append]
  refine and_congr_left fun hne => ?_
  split
  · rename_i hnone
    rw [hnone.2]
    exact iff_of_false (by simp) hne
  · rw [Option.some.injEq, eq_comm]

variable {rows : List (String × List Trade)}

theorem sum_rows (hd : ∀ k group, d.get? k = some group → group = [])
    (hrows : rows.Perm ((Dict.groupInto label d trades).rows.filter fun e => decide (e.2 ≠ [])))
    {M : Type} [AddCommGroup M] (c : Trade → M) :
    (rows.map fun e => (e.2.map c).sum).sum = (trades.map c).sum := by
  have hstart : d.total (fun group => (group.map c).sum) = 0 := by
    rw [Dict.total_congr (g := fun _ => (0 : M)) fun k group h => by rw [hd k group h]; rfl]
    simp [Dict.total]
  have htotal := @Dict.total_groupInto _ _ _ label _ _ c d trades
  rw [hstart, zero_add] at htotal
  rw [(hrows.map _).sum_eq, sum_filter_nonempty (f := fun group => (group.map c).sum) rfl]
  exact htotal

theorem sum_lengths (hd : ∀ k group, d.get? k = some group → group = [])
    (hrows : rows.Perm ((Dict.groupInto label d trades).rows.filter fun e => decide (e.2 ≠ []))) :
    (rows.map fun e => e.2.length).sum = trades.length := by
  have hsum := sum_rows hd hrows fun _ => (1 : ℤ)
  have hlength : ∀ group : List Trade, (group.map fun _ => (1 : ℤ)).sum = group.length := by
    intro group
    simp
  simp only [hlength] at hsum
  have hcast : (((rows.map fun e => e.2.length).sum : Nat) : ℤ) =
      (rows.map fun e => (e.2.length : ℤ)).sum := by
    rw [Nat.cast_list_sum, List.map_map]
    rfl
  exact Int.ofNat_inj.mp (hcast.trans hsum)

theorem accounts_of_perm (hd : ∀ k group, d.get? k = some group → group = [])
    (hrows : rows.Perm ((Dict.groupInto label d trades).rows.filter fun e => decide (e.2 ≠ []))) :
    Accounts label trades (rows.map fun e => (e.1, groupMetrics e.2)) where
  labels := by
    rw [List.map_map]
    have hsorted : (rows.map Prod.fst).Nodup :=
      (hrows.map Prod.fst).nodup_iff.mpr
        ((Dict.groupInto label d trades).nodup.sublist (List.filter_sublist.map _))
    exact hsorted
  groups k m := by
    have hmem : ∀ group, (k, group) ∈ rows ↔
        group = (trades.filter fun t => decide (label t = k)) ∧ group ≠ [] := by
      intro group
      rw [hrows.mem_iff, List.mem_filter, ← Dict.get?_eq_some_iff, decide_eq_true_eq]
      exact get?_groupInto_nonempty hd k group
    rw [List.mem_map]
    constructor
    · rintro ⟨⟨k', group⟩, he, heq⟩
      obtain ⟨rfl, rfl⟩ := Prod.mk.inj heq
      obtain ⟨hgroup, hne⟩ := (hmem group).mp he
      exact ⟨group, hgroup, hne, rfl⟩
    · rintro ⟨group, hgroup, hne, rfl⟩
      exact ⟨(k, group), (hmem group).mpr ⟨hgroup, hne⟩, rfl⟩
  counts := by
    rw [List.map_map]
    exact sum_lengths hd hrows
  totals := by
    have hsum := sum_rows hd hrows Trade.net
    rw [List.map_map, List.length_map, ← hsum]
    exact abs_sum_sub_le (fun e : String × List Trade => abs_roundTo_sub_le _) rows

end Groups

theorem nonempty_buckets (label : Trade → String) (trades : List Trade) :
    ((buckets label trades).rows.filter fun e => decide (e.2 ≠ [])) =
      (buckets label trades).rows := by
  refine List.filter_eq_self.mpr fun e he => decide_eq_true fun hempty => ?_
  have hget := ((buckets label trades).get?_eq_some_iff e.1 e.2).mpr he
  rw [buckets, Dict.get?_groupInto] at hget
  split at hget
  · cases hget
  · rename_i hsome
    exact hsome ⟨rfl, by simpa [hempty, Dict.get?, Table.find?, Table.empty] using hget⟩

theorem accounts_metricsBy (label : Trade → String) (trades : List Trade) :
    Accounts label trades (metricsBy label trades) := by
  refine accounts_of_perm (d := Table.empty) (fun k group h => by cases h) ?_
  refine (List.mergeSort_perm _ _).trans ?_
  exact .of_eq (nonempty_buckets label trades).symm

theorem accounts_scoreBins (trades : List Trade) :
    Accounts scoreBinOf trades (metricsByScoreBin trades) := by
  refine accounts_of_perm (d := emptyBins) (fun k group h => ?_) (.refl _)
  obtain ⟨bin, -, hbin⟩ := List.mem_map.mp ((emptyBins.get?_eq_some_iff k group).mp h)
  exact (congrArg Prod.snd hbin).symm

theorem sum_shares (total : ℚ) (groups : List (String × List Trade)) :
    (groups.map fun e => (e.2.length : ℚ) / total * 100).sum =
      (groups.map fun e => e.2.length).sum / total * 100 := by
  induction groups with
  | nil => simp
  | cons e rest ih =>
      simp only [List.map_cons, List.sum_cons, ih, Nat.cast_add]
      ring

/-- The shares of the exit reasons come to all trades, and to a hundred percent up to the rounding of
each. -/
theorem reasons_account (trades : List Trade) :
    ((metricsByExitReason trades).map fun e => e.2.trades).sum = trades.length ∧
      (trades ≠ [] → |((metricsByExitReason trades).map fun e => e.2.pctOfTotal).sum - 100| ≤
        1 / 20 * (metricsByExitReason trades).length) := by
  set groups := (buckets (fun t => labelText t.reason) trades).rows.mergeSort
    fun a b => decide (b.2.length ≤ a.2.length) with hgroups
  have hrows : groups.Perm
      ((buckets (fun t => labelText t.reason) trades).rows.filter fun e => decide (e.2 ≠ [])) :=
    (List.mergeSort_perm _ _).trans (.of_eq (nonempty_buckets _ trades).symm)
  have hcounts : (groups.map fun e => e.2.length).sum = trades.length :=
    sum_lengths (d := Table.empty) (fun k group h => by cases h) hrows
  have htrades : (metricsByExitReason trades).map (fun e => e.2.trades) =
      groups.map fun e => e.2.length := List.map_map ..
  have hpct : (metricsByExitReason trades).map (fun e => e.2.pctOfTotal) =
      groups.map fun e => roundTo 1 ((e.2.length : ℚ) / trades.length * 100) := List.map_map ..
  have hlength : (metricsByExitReason trades).length = groups.length := List.length_map ..
  rw [htrades, hpct, hlength]
  refine ⟨hcounts, fun hne => ?_⟩
  have hpos : (0 : ℚ) < trades.length := by
    rw [Nat.cast_pos, List.length_pos_iff]
    exact hne
  have hshares : (groups.map fun e => (e.2.length : ℚ) / trades.length * 100).sum = 100 := by
    rw [sum_shares, hcounts, div_self hpos.ne', one_mul]
  have hround : ∀ x : ℚ, |roundTo 1 x - x| ≤ 1 / 20 := by
    intro x
    have h := abs_roundTo_sub_le_half 1 x
    linarith
  have hsum := abs_sum_sub_le (fun e : String × List Trade =>
    hround ((e.2.length : ℚ) / trades.length * 100)) groups
  rwa [hshares] at hsum

theorem maxConsecutive_le_iff (pnls : List ℚ) (positive : Bool) (n : Nat) :
    maxConsecutive pnls positive ≤ n ↔ ∀ stretch, stretch <:+: pnls →
      (∀ p ∈ stretch, isHit positive p = true) → stretch.length ≤ n :=
  Streak.longest_le_iff

/-- The breakdowns of a report account for all trades, each in the group of its label. The expectancy
of a report is the mean result, and its streaks are the longest runs of wins and of losses. -/
theorem trade_report_reconciles (sqrt : ℚ → ℚ) (trades : List Trade) :
    let pnls := trades.map Trade.net
    (∀ m, computeMetrics sqrt trades = some m →
      m.winners + m.losers = m.trades ∧
      m.expectancy = roundTo 2 (pnls.sum / pnls.length) ∧
      (∀ n, m.maxConsecWins ≤ n ↔ ∀ stretch, stretch <:+: pnls → (∀ p ∈ stretch, 0 ≤ p) →
        stretch.length ≤ n) ∧
      ∀ n, m.maxConsecLosses ≤ n ↔ ∀ stretch, stretch <:+: pnls → (∀ p ∈ stretch, p < 0) →
        stretch.length ≤ n) ∧
    Accounts (fun t => labelText t.regime) trades (metricsByRegime trades) ∧
    Accounts (fun t => labelText t.direction) trades (metricsByDirection trades) ∧
    Accounts (fun t => labelText t.indexName) trades (metricsByIndex trades) ∧
    Accounts scoreBinOf trades (metricsByScoreBin trades) ∧
    ((metricsByExitReason trades).map fun e => e.2.trades).sum = trades.length ∧
      (trades ≠ [] → |((metricsByExitReason trades).map fun e => e.2.pctOfTotal).sum - 100| ≤
        1 / 20 * (metricsByExitReason trades).length) := by
  intro pnls
  refine ⟨fun m hm => ?_, accounts_metricsBy _ trades, accounts_metricsBy _ trades,
    accounts_metricsBy _ trades, accounts_scoreBins trades, reasons_account trades⟩
  unfold computeMetrics at hm
  split at hm
  · cases hm
  · rename_i hne
    cases hm
    have hpnls : pnls ≠ [] := fun h => hne (List.map_eq_nil_iff.mp h)
    have hlength := (winners_append_losers pnls).length_eq
    rw [List.length_append, List.length_map] at hlength
    refine ⟨hlength, congrArg (roundTo 2) (expectancyOf_eq hpnls), fun n => ?_, fun n => ?_⟩
    · refine (maxConsecutive_le_iff pnls true n).trans ?_
      simp only [isHit, if_true, decide_eq_true_eq]
    · refine (maxConsecutive_le_iff pnls false n).trans ?_
      simp only [isHit, Bool.false_eq_true, if_false, decide_eq_true_eq]

end AutoTrade.Performance
