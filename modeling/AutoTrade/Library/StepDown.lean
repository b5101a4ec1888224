import Mathlib.Algebra.Order.Field.Basic
import Mathlib.Data.List.Sort

/-! # Step-down adjustment

The values of a family, in ascending order, are multiplied by how many have not
been passed yet, cut at one and kept monotone. What a value is adjusted to does
not depend on how ties are ordered: it is the largest of the cut multiples of the
values up to it, each multiplied by how many values are as large.
-/

namespace AutoTrade.Library

variable {K ι : Type*} [Field K] [LinearOrder K] [IsStrictOrderedRing K]

/-- The adjusted values of a sorted family of `m`, from a rank on. -/
def stepDown (m : Nat) : Nat → K → List (ι × K) → List (ι × K)
  | _, _, [] => []
  | rank, cumMax, (i, p) :: rest =>
      let adj := max cumMax (min 1 (((m - rank : Nat) : K) * p))
      (i, adj) :: stepDown m (rank + 1) adj rest

/-- How many values of the family are as large. -/
def countFrom (family : List K) (q : K) : Nat := family.countP fun x => decide (q ≤ x)

/-- The multiple of a value by how many are as large, cut at one. -/
def cutMultiple (family : List K) (q : K) : K := min 1 ((countFrom family q : K) * q)

/-- The value is the largest cut multiple of the members up to `p`. -/
def AdjustedTo (family : List K) (p adjusted : K) : Prop :=
  ∀ bound, adjusted ≤ bound ↔ 0 ≤ bound ∧ ∀ q ∈ family, q ≤ p → cutMultiple family q ≤ bound

omit [IsStrictOrderedRing K] in
theorem map_fst_stepDown (m rank : Nat) (cumMax : K) (xs : List (ι × K)) :
    (stepDown m rank cumMax xs).map Prod.fst = xs.map Prod.fst := by
  induction xs generalizing rank cumMax with
  | nil => rfl
  | cons x rest ih => rw [stepDown, List.map_cons, ih, List.map_cons]

section Ties

variable {before rest : List K} {p : K}

omit [Field K] [IsStrictOrderedRing K] in
/-- All that come after a value are as large. -/
theorem le_countFrom (hsorted : (before ++ p :: rest).Pairwise (· ≤ ·)) :
    (before ++ p :: rest).length - before.length ≤ countFrom (before ++ p :: rest) p := by
  have hafter : ∀ x ∈ p :: rest, p ≤ x := by
    obtain ⟨-, hpart, -⟩ := List.pairwise_append.mp hsorted
    exact List.forall_mem_cons.mpr ⟨le_rfl, (List.pairwise_cons.mp hpart).1⟩
  have hall : (p :: rest).countP (fun x => decide (p ≤ x)) = (p :: rest).length :=
    List.countP_eq_length.mpr fun x hx => decide_eq_true (hafter x hx)
  rw [countFrom, List.countP_append, hall, List.length_append]
  omega

omit [Field K] [IsStrictOrderedRing K] in
/-- Of a value that did not come before, no more are as large. -/
theorem countFrom_of_fresh (hsorted : (before ++ p :: rest).Pairwise (· ≤ ·)) (hfresh : p ∉ before) :
    countFrom (before ++ p :: rest) p = (before ++ p :: rest).length - before.length := by
  refine le_antisymm ?_ (le_countFrom hsorted)
  have hbefore : before.countP (fun x => decide (p ≤ x)) = 0 := by
    rw [List.countP_eq_zero]
    intro x hx hle
    obtain ⟨-, -, hcross⟩ := List.pairwise_append.mp hsorted
    have hxp := le_antisymm (hcross x hx p List.mem_cons_self) (of_decide_eq_true hle)
    exact hfresh (hxp ▸ hx)
  rw [countFrom, List.countP_append, hbefore, List.length_append]
  have hlength := List.countP_le_length (p := fun x => decide (p ≤ x)) (l := p :: rest)
  omega

/-- One step, where the values before have been adjusted. -/
theorem adjustedTo_step (hsorted : (before ++ p :: rest).Pairwise (· ≤ ·)) (hp : 0 ≤ p) {cumMax : K}
    (hcum : ∀ bound, cumMax ≤ bound ↔ 0 ≤ bound ∧ ∀ q ∈ before,
      cutMultiple (before ++ p :: rest) q ≤ bound) :
    (∀ bound, max cumMax (min 1
        ((((before ++ p :: rest).length - before.length : Nat) : K) * p)) ≤ bound ↔
      0 ≤ bound ∧ ∀ q ∈ before ++ [p], cutMultiple (before ++ p :: rest) q ≤ bound) ∧
    AdjustedTo (before ++ p :: rest) p (max cumMax (min 1
      ((((before ++ p :: rest).length - before.length : Nat) : K) * p))) := by
  obtain ⟨-, hpart, hcross⟩ := List.pairwise_append.mp hsorted
  have hstep : ∀ bound, max cumMax (min 1
      ((((before ++ p :: rest).length - before.length : Nat) : K) * p)) ≤ bound ↔
        0 ≤ bound ∧ ∀ q ∈ before ++ [p], cutMultiple (before ++ p :: rest) q ≤ bound := by
    intro bound
    rw [max_le_iff, hcum, and_assoc]
    refine and_congr_right fun _ => ?_
    rw [List.forall_mem_append, List.forall_mem_singleton]
    refine and_congr_right fun hbefore => ⟨fun hmultiple => ?_, fun hcut => ?_⟩
    · by_cases hfresh : p ∈ before
      · exact hbefore p hfresh
      · rwa [cutMultiple, countFrom_of_fresh hsorted hfresh]
    · refine le_trans (min_le_min_left 1 ?_) hcut
      exact mul_le_mul_of_nonneg_right (Nat.cast_le.mpr (le_countFrom hsorted)) hp
  refine ⟨hstep, fun bound => (hstep bound).trans (and_congr_right fun _ => ?_)⟩
  rw [List.forall_mem_append, List.forall_mem_singleton]
  constructor
  · rintro ⟨hbefore, hself⟩ q hq hle
    rcases List.mem_append.mp hq with hq | hq
    · exact hbefore q hq
    · have hpq : p ≤ q := by
        rcases List.mem_cons.mp hq with rfl | hq
        · exact le_rfl
        · exact (List.pairwise_cons.mp hpart).1 q hq
      exact le_antisymm hle hpq ▸ hself
  · intro h
    refine ⟨fun q hq => h q (List.mem_append_left _ hq) (hcross q hq p List.mem_cons_self), ?_⟩
    exact h p (List.mem_append_right _ List.mem_cons_self) le_rfl

end Ties

/-- Every value of a sorted family is adjusted to the largest cut multiple up to it. -/
theorem adjustedTo_of_mem_stepDown {before : List K} {xs : List (ι × K)} {cumMax : K}
    (hsorted : (before ++ xs.map Prod.snd).Pairwise (· ≤ ·)) (hpos : ∀ x ∈ xs, 0 ≤ x.2)
    (hcum : ∀ bound, cumMax ≤ bound ↔ 0 ≤ bound ∧ ∀ q ∈ before,
      cutMultiple (before ++ xs.map Prod.snd) q ≤ bound) {i : ι} {adjusted : K}
    (h : (i, adjusted) ∈ stepDown (before ++ xs.map Prod.snd).length before.length cumMax xs) :
    ∃ p, (i, p) ∈ xs ∧ AdjustedTo (before ++ xs.map Prod.snd) p adjusted := by
  induction xs generalizing before cumMax with
  | nil => cases h
  | cons x rest ih =>
      obtain ⟨j, p⟩ := x
      rw [List.map_cons] at *
      obtain ⟨hnext, hadjusted⟩ := adjustedTo_step hsorted (hpos _ List.mem_cons_self) hcum
      rw [stepDown] at h
      rcases List.mem_cons.mp h with heq | hrest
      · cases heq
        exact ⟨p, List.mem_cons_self, hadjusted⟩
      · have hfamily : before ++ p :: rest.map Prod.snd =
            (before ++ [p]) ++ rest.map Prod.snd := by
          rw [List.append_assoc]
          rfl
        have hrank : before.length + 1 = (before ++ [p]).length := by simp
        rw [hfamily] at hsorted hnext hrest ⊢
        rw [hrank] at hrest
        obtain ⟨q, hq, hto⟩ := ih hsorted (fun y hy => hpos y (List.mem_cons_of_mem _ hy)) hnext hrest
        exact ⟨q, List.mem_cons_of_mem _ hq, hto⟩

end AutoTrade.Library
