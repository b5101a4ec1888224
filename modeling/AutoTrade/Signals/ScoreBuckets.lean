import AutoTrade.Library.Grouping
import AutoTrade.Library.Quantiles
import AutoTrade.Runtime
import Mathlib.Data.Rat.Floor

/-! # Score buckets

The report of `core/signals/signal_score_discrimination.py` on how the scores of the
signals relate to their outcomes. A value that is missing or not a number is none,
and the square root is a parameter.
-/

namespace AutoTrade.Signals.ScoreDiscrimination

open AutoTrade.Library

def minInferenceSampleSize : Nat := 10

/-! ## Distributions -/

structure DistributionStats where
  count : Nat := 0
  mean : Option ℚ := none
  median : Option ℚ := none
  std : Option ℚ := none
  min : Option ℚ := none
  max : Option ℚ := none
  q25 : Option ℚ := none
  q75 : Option ℚ := none
  iqr : Option ℚ := none
deriving DecidableEq, Repr

/-- The inner function `percentile`. -/
def percentile (vSorted : List ℚ) (p : ℚ) : ℚ :=
  let n := vSorted.length
  let idx := p * ((n - 1 : Nat) : ℚ)
  let i := (truncate idx).toNat
  let rem := idx - i
  if n - 1 ≤ i then vSorted.getD (n - 1) 0
  else vSorted.getD i 0 + rem * (vSorted.getD (i + 1) 0 - vSorted.getD i 0)

def calculateDistributionStats (sqrt : ℚ → ℚ) (values : List (Option ℚ)) : DistributionStats :=
  let validVals := values.filterMap id
  if validVals = [] then {}
  else
    let vSorted := ascending validVals
    let n := vSorted.length
    let meanVal := vSorted.sum / n
    let medianVal :=
      if n % 2 = 1 then vSorted.getD (n / 2) 0
      else (vSorted.getD (n / 2 - 1) 0 + vSorted.getD (n / 2) 0) / 2
    let stdVal :=
      if 2 ≤ n then sqrt ((vSorted.map fun x => (x - meanVal) ^ 2).sum / ((n : ℚ) - 1)) else 0
    let q25 := percentile vSorted (1 / 4)
    let q75 := percentile vSorted (3 / 4)
    { count := n
      mean := some (roundTo 4 meanVal)
      median := some (roundTo 4 medianVal)
      std := some (roundTo 4 stdVal)
      min := some (roundTo 4 (vSorted.getD 0 0))
      max := some (roundTo 4 (vSorted.getD (n - 1) 0))
      q25 := some (roundTo 4 q25)
      q75 := some (roundTo 4 q75)
      iqr := some (roundTo 4 (q75 - q25)) }

theorem percentile_eq_quantile {xs : List ℚ} {p : ℚ} (hp : 0 ≤ p ∧ p ≤ 1) :
    percentile xs p = quantile xs p := by
  have hlast : (0 : ℚ) ≤ ((xs.length - 1 : Nat) : ℚ) := Nat.cast_nonneg _
  have hplace : p * ((xs.length - 1 : Nat) : ℚ) ≤ ((xs.length - 1 : Nat) : ℚ) :=
    mul_le_of_le_one_left hlast hp.2
  have hpos := mul_nonneg hp.1 hlast
  have hfloor : (truncate (p * ((xs.length - 1 : Nat) : ℚ))).toNat =
      ⌊p * ((xs.length - 1 : Nat) : ℚ)⌋₊ := by
    rw [truncate, if_pos hpos]
    rfl
  unfold percentile quantile valueAt
  dsimp only
  rw [hfloor]
  split
  · rename_i hend
    have heq := le_antisymm (Nat.floor_le_of_le hplace) hend
    have hle := Nat.floor_le hpos
    rw [heq] at hle
    rw [heq, le_antisymm hplace hle]
    ring
  · ring

/-- The statistics are those of the valid values, in whatever order they come. -/
theorem calculateDistributionStats_of_perm (sqrt : ℚ → ℚ) {values other : List (Option ℚ)}
    (h : (values.filterMap id).Perm (other.filterMap id)) :
    calculateDistributionStats sqrt values = calculateDistributionStats sqrt other := by
  have hsorted : ascending (values.filterMap id) = ascending (other.filterMap id) :=
    (((ascending_perm _).trans h).trans (ascending_perm _).symm).eq_of_pairwise
      (fun _ _ _ _ => le_antisymm) (pairwise_ascending _) (pairwise_ascending _)
  have hempty : values.filterMap id = [] ↔ other.filterMap id = [] :=
    ⟨fun hnil => List.nil_perm.mp (hnil ▸ h), fun hnil => List.perm_nil.mp (hnil ▸ h)⟩
  unfold calculateDistributionStats
  simp only [hsorted, hempty]

/-- The value is a quantile of the list: it has its share of the values below it. -/
structure QuantileOf (xs : List ℚ) (p v : ℚ) : Prop where
  below : (xs.countP (fun x => decide (x < v)) : ℚ) < p * ((xs.length - 1 : Nat) : ℚ) + 1
  above : (xs.countP (fun x => decide (v < x)) : ℚ) < (1 - p) * ((xs.length - 1 : Nat) : ℚ) + 1

theorem quantileOf_ascending {xs : List ℚ} (hne : xs ≠ []) {p : ℚ} (hp : 0 ≤ p ∧ p ≤ 1) :
    QuantileOf xs p (quantile (ascending xs) p) := by
  have hperm := ascending_perm xs
  have hsome : ascending xs ≠ [] := fun h => hne (List.nil_perm.mp (h ▸ hperm))
  obtain ⟨hbelow, habove⟩ := countP_quantile (pairwise_ascending xs) hsome hp
  rw [hperm.countP_eq, hperm.length_eq] at hbelow habove
  exact ⟨hbelow, habove⟩

/-- The statistics are those of the valid values: the smallest and the largest, the quartiles between
them in order, each with its share of the values on either side, and the mean, all rounded. -/
structure Describes (s : DistributionStats) (valid : List ℚ) (low q1 mid q3 high mean : ℚ) :
    Prop where
  ends : s.min = some (roundTo 4 low) ∧ s.max = some (roundTo 4 high)
  quartiles : s.q25 = some (roundTo 4 q1) ∧ s.median = some (roundTo 4 mid) ∧
    s.q75 = some (roundTo 4 q3)
  average : s.mean = some (roundTo 4 mean)
  range : s.iqr = some (roundTo 4 (q3 - q1))
  attained : low ∈ valid ∧ high ∈ valid ∧ ∀ v ∈ valid, low ≤ v ∧ v ≤ high
  inOrder : low ≤ q1 ∧ q1 ≤ mid ∧ mid ≤ q3 ∧ q3 ≤ high
  shares : QuantileOf valid (1 / 4) q1 ∧ QuantileOf valid (1 / 2) mid ∧ QuantileOf valid (3 / 4) q3
  balanced : low ≤ mean ∧ mean ≤ high ∧ mean * valid.length = valid.sum

theorem exists_describes (sqrt : ℚ → ℚ) {values : List (Option ℚ)} (hne : values.filterMap id ≠ []) :
    ∃ low q1 mid q3 high mean, Describes (calculateDistributionStats sqrt values)
      (values.filterMap id) low q1 mid q3 high mean := by
  set valid := values.filterMap id with hvalid
  have hperm := ascending_perm valid
  have hsorted := pairwise_ascending valid
  have hsome : ascending valid ≠ [] := fun h => hne (List.nil_perm.mp (h ▸ hperm))
  have hlength := List.length_pos_of_ne_nil hsome
  have hmem : ∀ i < (ascending valid).length, (ascending valid).getD i 0 ∈ valid := by
    intro i hi
    rw [List.getD_eq_getElem _ _ hi]
    exact hperm.mem_iff.mp (List.getElem_mem hi)
  have hbounds : ∀ v ∈ valid, (ascending valid).getD 0 0 ≤ v ∧
      v ≤ (ascending valid).getD ((ascending valid).length - 1) 0 :=
    fun v hv => ends_bound hsorted (hperm.mem_iff.mpr hv)
  have hmean := mean_bounds hne hbounds
  have hs : calculateDistributionStats sqrt values = _ := if_neg hne
  refine ⟨(ascending valid).getD 0 0, quantile (ascending valid) (1 / 4),
    quantile (ascending valid) (1 / 2), quantile (ascending valid) (3 / 4),
    (ascending valid).getD ((ascending valid).length - 1) 0, valid.sum / valid.length, ?_⟩
  rw [hs]
  refine ⟨⟨rfl, rfl⟩, ⟨?_, ?_, ?_⟩, ?_, ?_, ⟨hmem 0 hlength, hmem _ (by omega), hbounds⟩,
    ⟨?_, ?_, ?_, ?_⟩, ⟨quantileOf_ascending hne (by norm_num), quantileOf_ascending hne (by norm_num),
      quantileOf_ascending hne (by norm_num)⟩, hmean.1, hmean.2, ?_⟩
  · exact congrArg (fun q => some (roundTo 4 q)) (percentile_eq_quantile (by norm_num))
  · exact congrArg (fun q => some (roundTo 4 q)) (quantile_half hsome).symm
  · exact congrArg (fun q => some (roundTo 4 q)) (percentile_eq_quantile (by norm_num))
  · rw [← hvalid, hperm.sum_eq, hperm.length_eq]
  · rw [← hvalid, percentile_eq_quantile (by norm_num), percentile_eq_quantile (by norm_num)]
  · rw [← quantile_zero]
    exact quantile_mono hsorted le_rfl (by norm_num) (by norm_num)
  · exact quantile_mono hsorted (by norm_num) (by norm_num) (by norm_num)
  · exact quantile_mono hsorted (by norm_num) (by norm_num) (by norm_num)
  · rw [← quantile_one]
    exact quantile_mono hsorted (by norm_num) (by norm_num) le_rfl
  · exact div_mul_cancel₀ _ (Nat.cast_ne_zero.mpr (List.length_pos_of_ne_nil hne).ne')

/-- The statistics of a distribution describe its valid values, in whatever order they come;
without any, every field is empty. -/
theorem distribution_in_order (sqrt : ℚ → ℚ) (values : List (Option ℚ)) :
    (calculateDistributionStats sqrt values).count = (values.filterMap id).length ∧
      (values.filterMap id = [] → calculateDistributionStats sqrt values = {}) ∧
      (values.filterMap id ≠ [] → ∃ low q1 mid q3 high mean,
        Describes (calculateDistributionStats sqrt values) (values.filterMap id)
          low q1 mid q3 high mean) ∧
      ∀ other : List (Option ℚ), (values.filterMap id).Perm (other.filterMap id) →
        calculateDistributionStats sqrt values = calculateDistributionStats sqrt other := by
  refine ⟨?_, fun hnil => if_pos hnil, exists_describes sqrt, fun other h =>
    calculateDistributionStats_of_perm sqrt h⟩
  by_cases hnil : values.filterMap id = []
  · have hs : calculateDistributionStats sqrt values = {} := if_pos hnil
    rw [hs, hnil]
    rfl
  · have hs : (calculateDistributionStats sqrt values).count =
        (ascending (values.filterMap id)).length := congrArg DistributionStats.count (if_neg hnil)
    rw [hs, (ascending_perm _).length_eq]

end AutoTrade.Signals.ScoreDiscrimination
