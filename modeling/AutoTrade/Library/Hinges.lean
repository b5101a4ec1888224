import Mathlib.Algebra.Order.BigOperators.Group.List
import Mathlib.Algebra.Order.Field.Basic
import Mathlib.Data.Set.Finite.Lemmas
import Mathlib.Data.Set.Finite.List
import Mathlib.Tactic.Linarith
import Mathlib.Tactic.Ring

/-! # Sums of hinges

A hinge grows linearly away from its kink, with a slope of its own on either
side. A sum of hinges is linear between two neighbouring kinks, so where no
slope is negative it is smallest at one of the kinks.
-/

namespace AutoTrade.Library

variable {K : Type} [Field K] [LinearOrder K] [IsStrictOrderedRing K]

structure Hinge (K : Type) where
  kink : K
  above : K
  below : K
deriving DecidableEq, Repr

namespace Hinge

def value (h : Hinge K) (x : K) : K := h.above * max 0 (x - h.kink) + h.below * max 0 (h.kink - x)

/-- Neither slope is negative. -/
def Rising (h : Hinge K) : Prop := 0 ≤ h.above ∧ 0 ≤ h.below

theorem value_of_le {h : Hinge K} {x : K} (hx : h.kink ≤ x) :
    h.value x = h.above * (x - h.kink) := by
  rw [value, max_eq_right (sub_nonneg.mpr hx), max_eq_left (sub_nonpos.mpr hx), mul_zero, add_zero]

theorem value_of_ge {h : Hinge K} {x : K} (hx : x ≤ h.kink) :
    h.value x = h.below * (h.kink - x) := by
  rw [value, max_eq_left (sub_nonpos.mpr hx), max_eq_right (sub_nonneg.mpr hx), mul_zero, zero_add]

/-- Between two points a hinge whose kink is not inside lies on its chord. -/
theorem value_chord {h : Hinge K} {l u x : K} (hlx : l ≤ x) (hxu : x ≤ u)
    (hkink : h.kink ≤ l ∨ u ≤ h.kink) :
    (u - l) * h.value x = (u - x) * h.value l + (x - l) * h.value u := by
  rcases hkink with hkink | hkink
  · rw [value_of_le (hkink.trans hlx), value_of_le hkink,
      value_of_le (hkink.trans (hlx.trans hxu))]
    ring
  · rw [value_of_ge (hxu.trans hkink), value_of_ge ((hlx.trans hxu).trans hkink),
      value_of_ge hkink]
    ring

theorem value_le_of_below {h : Hinge K} {x y : K} (hrising : h.Rising) (hxy : x ≤ y)
    (hkink : y ≤ h.kink) : h.value y ≤ h.value x := by
  rw [value_of_ge hkink, value_of_ge (hxy.trans hkink)]
  exact mul_le_mul_of_nonneg_left (sub_le_sub_left hxy _) hrising.2

theorem value_le_of_above {h : Hinge K} {x y : K} (hrising : h.Rising) (hyx : y ≤ x)
    (hkink : h.kink ≤ y) : h.value y ≤ h.value x := by
  rw [value_of_le hkink, value_of_le (hkink.trans hyx)]
  exact mul_le_mul_of_nonneg_left (sub_le_sub_right hyx _) hrising.1

/-! ## Sums -/

def total (hinges : List (Hinge K)) (x : K) : K := (hinges.map fun h => h.value x).sum

theorem total_chord {hinges : List (Hinge K)} {l u x : K} (hlx : l ≤ x) (hxu : x ≤ u)
    (hkinks : ∀ h ∈ hinges, h.kink ≤ l ∨ u ≤ h.kink) :
    (u - l) * total hinges x = (u - x) * total hinges l + (x - l) * total hinges u := by
  induction hinges with
  | nil => simp [total]
  | cons h rest ih =>
      have hhead := value_chord hlx hxu (hkinks h List.mem_cons_self)
      have hrest := ih fun g hg => hkinks g (List.mem_cons_of_mem h hg)
      simp only [total, List.map_cons, List.sum_cons] at hrest ⊢
      rw [mul_add, hhead, hrest]
      ring

theorem total_le_of_forall {hinges : List (Hinge K)} {x y : K}
    (h : ∀ g ∈ hinges, g.value y ≤ g.value x) : total hinges y ≤ total hinges x :=
  List.sum_le_sum h

/-- Between the two neighbouring kinks of a point the sum is no smaller than at both. -/
theorem total_le_of_between {hinges : List (Hinge K)} {l u x : K} (hlx : l ≤ x) (hxu : x ≤ u)
    (hkinks : ∀ h ∈ hinges, h.kink ≤ l ∨ u ≤ h.kink) :
    total hinges l ≤ total hinges x ∨ total hinges u ≤ total hinges x := by
  by_contra hless
  push Not at hless
  have hchord := total_chord hlx hxu hkinks
  rcases hlx.eq_or_lt with rfl | hlx
  · exact lt_irrefl _ hless.1
  · have hleft := mul_le_mul_of_nonneg_left hless.1.le (sub_nonneg.mpr hxu)
    have hright := mul_lt_mul_of_pos_left hless.2 (sub_pos.mpr hlx)
    linarith

/-- A sum of rising hinges is nowhere smaller than at all of its kinks. -/
theorem exists_kink_le {hinges : List (Hinge K)} (hrising : ∀ h ∈ hinges, h.Rising)
    (hne : hinges ≠ []) (x : K) : ∃ h ∈ hinges, total hinges h.kink ≤ total hinges x := by
  let left : Set (Hinge K) := {h | h ∈ hinges ∧ h.kink ≤ x}
  let right : Set (Hinge K) := {h | h ∈ hinges ∧ x ≤ h.kink}
  have hfinite : Set.Finite {h | h ∈ hinges} := hinges.finite_toSet
  have hgreatest : left.Nonempty → ∃ l ∈ left, ∀ h ∈ left, h.kink ≤ l.kink :=
    Set.exists_max_image left kink (hfinite.subset fun h hh => hh.1)
  have hleast : right.Nonempty → ∃ u ∈ right, ∀ h ∈ right, u.kink ≤ h.kink :=
    Set.exists_min_image right kink (hfinite.subset fun h hh => hh.1)
  by_cases hleft : left.Nonempty
  · obtain ⟨l, ⟨hl, hlx⟩, hlmax⟩ := hgreatest hleft
    by_cases hright : right.Nonempty
    · obtain ⟨u, ⟨hu, hxu⟩, humin⟩ := hleast hright
      have hkinks : ∀ h ∈ hinges, h.kink ≤ l.kink ∨ u.kink ≤ h.kink := by
        intro h hh
        rcases le_total h.kink x with hx | hx
        · exact Or.inl (hlmax h ⟨hh, hx⟩)
        · exact Or.inr (humin h ⟨hh, hx⟩)
      rcases total_le_of_between hlx hxu hkinks with hle | hle
      · exact ⟨l, hl, hle⟩
      · exact ⟨u, hu, hle⟩
    · -- every kink lies below `x`, so the sum only rises from the greatest of them on
      have hbelow : ∀ h ∈ hinges, h.kink ≤ x := fun h hh =>
        (le_total h.kink x).resolve_right fun hx => hright ⟨h, hh, hx⟩
      exact ⟨l, hl, total_le_of_forall fun h hh =>
        value_le_of_above (hrising h hh) hlx (hlmax h ⟨hh, hbelow h hh⟩)⟩
  · have habove : ∀ h ∈ hinges, x ≤ h.kink := fun h hh =>
      (le_total x h.kink).resolve_right fun hx => hleft ⟨h, hh, hx⟩
    obtain ⟨first, hfirst⟩ := List.exists_mem_of_ne_nil hinges hne
    obtain ⟨u, ⟨hu, hxu⟩, humin⟩ := hleast ⟨first, hfirst, habove first hfirst⟩
    exact ⟨u, hu, total_le_of_forall fun h hh =>
      value_le_of_below (hrising h hh) hxu (humin h ⟨hh, habove h hh⟩)⟩

end Hinge

end AutoTrade.Library
