import Mathlib.Algebra.BigOperators.Group.List.Basic
import Mathlib.Algebra.Order.BigOperators.Group.List
import Mathlib.Algebra.Order.Floor.Semiring
import Mathlib.Data.List.GetD
import Mathlib.Data.List.Sort
import Mathlib.Tactic.Linarith
import Mathlib.Tactic.Ring

/-! # Quantiles

The value at a fractional place of a sorted list lies on the line between its two
neighbours. It grows with the place, so the quantiles of a list are in order, from
its first value to its last.
-/

namespace AutoTrade.Library

variable {K : Type*} [Field K] [LinearOrder K] [IsStrictOrderedRing K] [FloorSemiring K]

/-- The value at a fractional place. -/
def valueAt (xs : List K) (place : K) : K :=
  let lower := ⌊place⌋₊
  (1 - (place - lower)) * xs.getD lower 0 + (place - lower) * xs.getD (lower + 1) 0

/-- The quantile of a sorted list. -/
def quantile (xs : List K) (p : K) : K := valueAt xs (p * ((xs.length - 1 : Nat) : K))

theorem valueAt_natCast (xs : List K) (i : Nat) : valueAt xs (i : K) = xs.getD i 0 := by
  simp [valueAt]

/-- Halfway between two places the value is the mean of the two. -/
theorem valueAt_natCast_add_half (xs : List K) (i : Nat) :
    valueAt xs ((i : K) + 1 / 2) = (xs.getD i 0 + xs.getD (i + 1) 0) / 2 := by
  have hfloor : ⌊(i : K) + 1 / 2⌋₊ = i := by
    rw [Nat.floor_eq_iff (by positivity)]
    constructor <;> linarith
  rw [valueAt, hfloor]
  ring

/-- A list in ascending order. -/
def ascending (xs : List K) : List K := xs.mergeSort fun x y => decide (x ≤ y)

omit [Field K] [IsStrictOrderedRing K] [FloorSemiring K] in
theorem ascending_perm (xs : List K) : (ascending xs).Perm xs := List.mergeSort_perm xs _

omit [Field K] [IsStrictOrderedRing K] [FloorSemiring K] in
theorem pairwise_ascending (xs : List K) : (ascending xs).Pairwise (· ≤ ·) := by
  refine (List.pairwise_mergeSort (fun x y z hxy hyz => ?_) (fun x y => ?_) xs).imp ?_
  · exact decide_eq_true ((of_decide_eq_true hxy).trans (of_decide_eq_true hyz))
  · simpa using le_total x y
  · exact fun h => of_decide_eq_true h

variable {xs : List K}

omit [Field K] [IsStrictOrderedRing K] [FloorSemiring K] in
theorem getD_mono [Zero K] (hsorted : xs.Pairwise (· ≤ ·)) {i j : Nat} (hij : i ≤ j)
    (hj : j < xs.length) : xs.getD i 0 ≤ xs.getD j 0 := by
  rw [List.getD_eq_getElem _ _ hj, List.getD_eq_getElem _ _ (hij.trans_lt hj)]
  rcases hij.eq_or_lt with rfl | hlt
  · exact le_rfl
  · exact List.pairwise_iff_getElem.mp hsorted i j _ hj hlt

/-- A value lies between its neighbours. -/
theorem valueAt_between (hsorted : xs.Pairwise (· ≤ ·)) {place : K} (hpos : 0 ≤ place)
    (hnext : ⌊place⌋₊ + 1 < xs.length) :
    xs.getD ⌊place⌋₊ 0 ≤ valueAt xs place ∧ valueAt xs place ≤ xs.getD (⌊place⌋₊ + 1) 0 := by
  have hstep := getD_mono hsorted (Nat.le_succ ⌊place⌋₊) hnext
  have hlower := Nat.floor_le hpos
  have hupper := Nat.lt_floor_add_one place
  unfold valueAt
  dsimp only
  constructor <;> nlinarith

theorem valueAt_mono (hsorted : xs.Pairwise (· ≤ ·)) {x y : K} (hx : 0 ≤ x) (hxy : x ≤ y)
    (hy : y ≤ ((xs.length - 1 : Nat) : K)) : valueAt xs x ≤ valueAt xs y := by
  rcases hxy.eq_or_lt with rfl | hlt
  · exact le_rfl
  have hfloors : ⌊x⌋₊ ≤ ⌊y⌋₊ := Nat.floor_mono hxy
  have hylast : ⌊y⌋₊ ≤ xs.length - 1 := Nat.floor_le_of_le hy
  have hxnext : ⌊x⌋₊ < xs.length - 1 := (Nat.floor_lt hx).mpr (hlt.trans_le hy)
  obtain ⟨-, hxupper⟩ := valueAt_between hsorted hx (by omega)
  rcases hfloors.eq_or_lt with heq | hstep
  · -- Both lie on one line, which does not fall.
    have hline := getD_mono hsorted (Nat.le_succ ⌊x⌋₊) (by omega)
    unfold valueAt
    dsimp only
    rw [← heq]
    nlinarith
  · have hylower : xs.getD ⌊y⌋₊ 0 ≤ valueAt xs y := by
      rcases hylast.eq_or_lt with hlast | hinner
      · have hexact : y = (⌊y⌋₊ : K) :=
          le_antisymm (hlast ▸ hy) (Nat.floor_le (hx.trans hxy))
        rw [hexact, valueAt_natCast, ← hexact]
      · exact (valueAt_between hsorted (hx.trans hxy) (by omega)).1
    exact hxupper.trans ((getD_mono hsorted hstep (by omega)).trans hylower)

omit [Field K] [IsStrictOrderedRing K] [FloorSemiring K] in
/-- The ends of a sorted list bound it. -/
theorem ends_bound [Zero K] (hsorted : xs.Pairwise (· ≤ ·)) {x : K} (hx : x ∈ xs) :
    xs.getD 0 0 ≤ x ∧ x ≤ xs.getD (xs.length - 1) 0 := by
  obtain ⟨i, hi, rfl⟩ := List.getElem_of_mem hx
  rw [← List.getD_eq_getElem _ 0 hi]
  exact ⟨getD_mono hsorted (Nat.zero_le i) hi, getD_mono hsorted (by omega) (by omega)⟩

omit [FloorSemiring K] in
/-- The mean of a list is within what bounds its values. -/
theorem mean_bounds (hne : xs ≠ []) {low high : K} (hbounds : ∀ x ∈ xs, low ≤ x ∧ x ≤ high) :
    low ≤ xs.sum / xs.length ∧ xs.sum / xs.length ≤ high := by
  have hlength : (0 : K) < xs.length := Nat.cast_pos.mpr (List.length_pos_of_ne_nil hne)
  have hlow := List.card_nsmul_le_sum xs low fun x hx => (hbounds x hx).1
  have hhigh := List.sum_le_card_nsmul xs high fun x hx => (hbounds x hx).2
  rw [nsmul_eq_mul] at hlow hhigh
  rw [le_div_iff₀ hlength, div_le_iff₀ hlength, mul_comm low, mul_comm high]
  exact ⟨hlow, hhigh⟩

theorem quantile_zero (xs : List K) : quantile xs 0 = xs.getD 0 0 := by
  rw [quantile, zero_mul]
  have hfirst := valueAt_natCast xs 0
  rwa [Nat.cast_zero] at hfirst

theorem quantile_one (xs : List K) : quantile xs 1 = xs.getD (xs.length - 1) 0 := by
  rw [quantile, one_mul, valueAt_natCast]

theorem quantile_mono (hsorted : xs.Pairwise (· ≤ ·)) {p q : K} (hp : 0 ≤ p) (hpq : p ≤ q)
    (hq : q ≤ 1) : quantile xs p ≤ quantile xs q := by
  have hlast : (0 : K) ≤ ((xs.length - 1 : Nat) : K) := Nat.cast_nonneg _
  exact valueAt_mono hsorted (mul_nonneg hp hlast) (mul_le_mul_of_nonneg_right hpq hlast)
    (mul_le_of_le_one_left hlast hq)

/-- A quantile is within what bounds the list. -/
theorem quantile_mem_bounds (hsorted : xs.Pairwise (· ≤ ·)) (hne : xs ≠ []) {p low high : K}
    (hp : 0 ≤ p ∧ p ≤ 1) (hbounds : ∀ x ∈ xs, low ≤ x ∧ x ≤ high) :
    low ≤ quantile xs p ∧ quantile xs p ≤ high := by
  have hlength := List.length_pos_of_ne_nil hne
  have hmem : ∀ i < xs.length, low ≤ xs.getD i 0 ∧ xs.getD i 0 ≤ high := by
    intro i hi
    rw [List.getD_eq_getElem _ _ hi]
    exact hbounds _ (List.getElem_mem hi)
  have hfirst := quantile_mono hsorted le_rfl hp.1 hp.2
  have hlast := quantile_mono hsorted hp.1 hp.2 le_rfl
  rw [quantile_zero] at hfirst
  rw [quantile_one] at hlast
  exact ⟨(hmem 0 hlength).1.trans hfirst, hlast.trans (hmem _ (by omega)).2⟩

omit [Field K] [IsStrictOrderedRing K] [FloorSemiring K] in
/-- Below what the value at a place bounds there are only the values before that place. -/
theorem countP_lt_le [Zero K] (hsorted : xs.Pairwise (· ≤ ·)) {i : Nat} (hi : i < xs.length) {v : K}
    (hv : v ≤ xs.getD i 0) : xs.countP (fun x => decide (x < v)) ≤ i := by
  have hafter : (xs.drop i).countP (fun x => decide (x < v)) = 0 := by
    rw [List.countP_eq_zero]
    intro x hx hlt
    obtain ⟨j, hj, rfl⟩ := List.getElem_of_mem hx
    rw [List.length_drop] at hj
    rw [List.getElem_drop] at hlt
    have hle := getD_mono hsorted (Nat.le_add_right i j) (by omega)
    rw [List.getD_eq_getElem xs 0 (show i + j < xs.length by omega)] at hle
    exact absurd (of_decide_eq_true hlt) (not_lt.mpr (hv.trans hle))
  rw [← List.take_append_drop i xs, List.countP_append, hafter, add_zero]
  exact List.countP_le_length.trans (List.length_take_le i xs)

omit [Field K] [IsStrictOrderedRing K] [FloorSemiring K] in
/-- Above it there are only the values after that place. -/
theorem countP_gt_le [Zero K] (hsorted : xs.Pairwise (· ≤ ·)) {i : Nat} (hi : i < xs.length) {v : K}
    (hv : xs.getD i 0 ≤ v) : xs.countP (fun x => decide (v < x)) ≤ xs.length - 1 - i := by
  have hbefore : (xs.take (i + 1)).countP (fun x => decide (v < x)) = 0 := by
    rw [List.countP_eq_zero]
    intro x hx hlt
    obtain ⟨j, hj, rfl⟩ := List.getElem_of_mem hx
    rw [List.length_take] at hj
    rw [List.getElem_take] at hlt
    have hle := getD_mono hsorted (show j ≤ i by omega) hi
    rw [List.getD_eq_getElem xs 0 (show j < xs.length by omega)] at hle
    exact absurd (of_decide_eq_true hlt) (not_lt.mpr (hle.trans hv))
  have hsplit : xs.countP (fun x => decide (v < x)) =
      (xs.drop (i + 1)).countP fun x => decide (v < x) := by
    conv_lhs => rw [← List.take_append_drop (i + 1) xs, List.countP_append, hbefore, zero_add]
  rw [hsplit]
  refine List.countP_le_length.trans ?_
  rw [List.length_drop]
  omega

/-- A quantile has its share of the list below it, and the rest above. -/
theorem countP_quantile (hsorted : xs.Pairwise (· ≤ ·)) (hne : xs ≠ []) {p : K}
    (hp : 0 ≤ p ∧ p ≤ 1) :
    (xs.countP (fun x => decide (x < quantile xs p)) : K) < p * ((xs.length - 1 : Nat) : K) + 1 ∧
    (xs.countP (fun x => decide (quantile xs p < x)) : K) <
      (1 - p) * ((xs.length - 1 : Nat) : K) + 1 := by
  have hlength := List.length_pos_of_ne_nil hne
  have hlast : (0 : K) ≤ ((xs.length - 1 : Nat) : K) := Nat.cast_nonneg _
  have hpos := mul_nonneg hp.1 hlast
  have hplace : p * ((xs.length - 1 : Nat) : K) ≤ ((xs.length - 1 : Nat) : K) :=
    mul_le_of_le_one_left hlast hp.2
  constructor
  · have hnext : ⌈p * ((xs.length - 1 : Nat) : K)⌉₊ ≤ xs.length - 1 := Nat.ceil_le.mpr hplace
    have hbound : quantile xs p ≤ xs.getD ⌈p * ((xs.length - 1 : Nat) : K)⌉₊ 0 := by
      rw [← valueAt_natCast]
      exact valueAt_mono hsorted hpos (Nat.le_ceil _) (Nat.cast_le.mpr hnext)
    have hcount := countP_lt_le hsorted (by omega) hbound
    exact (Nat.cast_le.mpr hcount).trans_lt (Nat.ceil_lt_add_one hpos)
  · have hprev := Nat.floor_le_of_le hplace
    have hbound : xs.getD ⌊p * ((xs.length - 1 : Nat) : K)⌋₊ 0 ≤ quantile xs p := by
      rw [← valueAt_natCast]
      exact valueAt_mono hsorted (Nat.cast_nonneg _) (Nat.floor_le hpos) hplace
    have hcount := countP_gt_le hsorted (by omega) hbound
    have hcast : (xs.countP (fun x => decide (quantile xs p < x)) : K) ≤
        ((xs.length - 1 : Nat) : K) - (⌊p * ((xs.length - 1 : Nat) : K)⌋₊ : K) := by
      rw [← Nat.cast_sub hprev]
      exact Nat.cast_le.mpr hcount
    have hfloor := Nat.lt_floor_add_one (p * ((xs.length - 1 : Nat) : K))
    linarith

/-- The quantile of one half is the median, as it is usually written. -/
theorem quantile_half (hne : xs ≠ []) :
    quantile xs (1 / 2) =
      if xs.length % 2 = 1 then xs.getD (xs.length / 2) 0
      else (xs.getD (xs.length / 2 - 1) 0 + xs.getD (xs.length / 2) 0) / 2 := by
  have hlength := List.length_pos_of_ne_nil hne
  split
  · have hplace : (1 / 2 : K) * ((xs.length - 1 : Nat) : K) = ((xs.length / 2 : Nat) : K) := by
      have hdouble : xs.length - 1 = 2 * (xs.length / 2) := by omega
      rw [hdouble]
      push_cast
      ring
    rw [quantile, hplace, valueAt_natCast]
  · have hplace : (1 / 2 : K) * ((xs.length - 1 : Nat) : K) =
        ((xs.length / 2 - 1 : Nat) : K) + 1 / 2 := by
      have hdouble : xs.length - 1 = 2 * (xs.length / 2 - 1) + 1 := by omega
      rw [hdouble]
      push_cast
      ring
    have hnext : xs.length / 2 - 1 + 1 = xs.length / 2 := by omega
    rw [quantile, hplace, valueAt_natCast_add_half, hnext]

end AutoTrade.Library
