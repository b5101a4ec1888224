import Mathlib.Data.List.Perm.Subperm
import Mathlib.Order.Interval.Finset.Nat

/-! # Choosing from a list

Two ways a program picks an element again and again: a running maximum, which
starts from a score that nothing in the list need reach, and an index that
rotates through the list while it wraps around at a bound of its own.
-/

namespace AutoTrade.Library

/-! ## Running maximum -/

section Lead

variable {α β : Type} [LinearOrder β] (score : α → β)

/-- The choice after the list: an element takes over when it scores strictly more. -/
def leadFrom : α → β → List α → α
  | best, _, [] => best
  | best, bestScore, a :: rest =>
      if bestScore < score a then leadFrom a (score a) rest else leadFrom best bestScore rest

variable {score} {best : α} {bestScore : β} {xs : List α}

theorem leadFrom_of_le (h : ∀ a ∈ xs, score a ≤ bestScore) :
    leadFrom score best bestScore xs = best := by
  induction xs with
  | nil => rfl
  | cons a rest ih =>
      rw [leadFrom, if_neg (not_lt.mpr (h a List.mem_cons_self))]
      exact ih fun b hb => h b (List.mem_cons_of_mem a hb)

/-- Once some element beats the starting score, the choice is a maximal one. -/
theorem leadFrom_of_lt (h : ∃ a ∈ xs, bestScore < score a) :
    leadFrom score best bestScore xs ∈ xs ∧
      bestScore < score (leadFrom score best bestScore xs) ∧
      ∀ a ∈ xs, score a ≤ score (leadFrom score best bestScore xs) := by
  induction xs generalizing best bestScore with
  | nil =>
      obtain ⟨a, ha, -⟩ := h
      cases ha
  | cons x rest ih =>
      unfold leadFrom
      by_cases hx : bestScore < score x
      · rw [if_pos hx]
        by_cases hlater : ∃ a ∈ rest, score x < score a
        · obtain ⟨hmem, hlt, hmax⟩ := @ih x (score x) hlater
          exact ⟨List.mem_cons_of_mem x hmem, hx.trans hlt, List.forall_mem_cons.mpr ⟨hlt.le, hmax⟩⟩
        · push Not at hlater
          rw [leadFrom_of_le hlater]
          exact ⟨List.mem_cons_self, hx, List.forall_mem_cons.mpr ⟨le_rfl, hlater⟩⟩
      · rw [if_neg hx]
        obtain ⟨a, ha, hlt⟩ := h
        have hrest : ∃ a ∈ rest, bestScore < score a := by
          cases ha with
          | head => exact absurd hlt hx
          | tail _ ha => exact ⟨a, ha, hlt⟩
        obtain ⟨hmem, hbeats, hmax⟩ := @ih best bestScore hrest
        exact ⟨List.mem_cons_of_mem x hmem, hbeats,
          List.forall_mem_cons.mpr ⟨(not_lt.mp hx).trans hbeats.le, hmax⟩⟩

theorem leadFrom_mem (h : best ∈ xs) : leadFrom score best bestScore xs ∈ xs := by
  by_cases hbeaten : ∃ a ∈ xs, bestScore < score a
  · exact (leadFrom_of_lt hbeaten).1
  · push Not at hbeaten
    rwa [leadFrom_of_le hbeaten]

/-- The choice is maximal exactly when the starting score is beaten, or the starting element is
maximal itself. -/
theorem leadFrom_max_iff :
    (∀ a ∈ xs, score a ≤ score (leadFrom score best bestScore xs)) ↔
      (∃ a ∈ xs, bestScore < score a) ∨ ∀ a ∈ xs, score a ≤ score best := by
  by_cases hbeaten : ∃ a ∈ xs, bestScore < score a
  · exact ⟨fun _ => .inl hbeaten, fun _ => (leadFrom_of_lt hbeaten).2.2⟩
  · have hle : ∀ a ∈ xs, score a ≤ bestScore := by simpa using hbeaten
    rw [leadFrom_of_le hle]
    exact ⟨.inr, fun h => h.resolve_left hbeaten⟩

variable (score) in
/-- Starting from the first element, the choice is a maximal one. -/
theorem leadFrom_self_spec (a : α) (rest : List α) :
    leadFrom score a (score a) rest ∈ a :: rest ∧
      ∀ x ∈ a :: rest, score x ≤ score (leadFrom score a (score a) rest) := by
  by_cases hbeaten : ∃ x ∈ rest, score a < score x
  · obtain ⟨hmem, hlt, hmax⟩ := @leadFrom_of_lt _ _ _ score a _ _ hbeaten
    exact ⟨List.mem_cons_of_mem a hmem, List.forall_mem_cons.mpr ⟨hlt.le, hmax⟩⟩
  · push Not at hbeaten
    rw [leadFrom_of_le hbeaten]
    exact ⟨List.mem_cons_self, List.forall_mem_cons.mpr ⟨le_rfl, hbeaten⟩⟩

/-- The first element of a list whose key is smallest. -/
def firstMin (key : α → β) (a : α) (rest : List α) : α :=
  leadFrom (fun x => OrderDual.toDual (key x)) a (OrderDual.toDual (key a)) rest

theorem firstMin_spec (key : α → β) (a : α) (rest : List α) :
    firstMin key a rest ∈ a :: rest ∧ ∀ x ∈ a :: rest, key (firstMin key a rest) ≤ key x :=
  leadFrom_self_spec (fun x => OrderDual.toDual (key x)) a rest

end Lead

/-! ## Rotating index -/

section Rotation

variable {wrap n start : Nat}

/-- The indices into a list of `n` that `n` picks in a row take, where the counter wraps around at
`wrap`. -/
def rotation (wrap n start : Nat) : List Nat :=
  (List.range n).map fun j => (start + j) % wrap % n

theorem mem_rotation {i : Nat} :
    i ∈ rotation wrap n start ↔ ∃ j < n, (start + j) % wrap % n = i := by
  simp [rotation]

/-- Picks that take every index take each of them once. -/
theorem rotation_perm_of_forall (h : ∀ i < n, i ∈ rotation wrap n start) :
    (rotation wrap n start).Perm (List.range n) := by
  have hsub : (List.range n).Subperm (rotation wrap n start) :=
    List.nodup_range.subperm fun i hi => h i (List.mem_range.mp hi)
  exact (hsub.perm_of_length_le (by simp [rotation])).symm

/-- A counter that does not wrap within the window, or wraps where the list starts anew. -/
theorem rotation_perm (h : n ∣ wrap ∨ start + n ≤ wrap) :
    (rotation wrap n start).Perm (List.range n) := by
  refine rotation_perm_of_forall fun i hi => ?_
  have himage : i ∈ (Finset.Ico start (start + n)).image (· % n) := by
    rw [Nat.image_Ico_mod]
    exact Finset.mem_range.mpr hi
  obtain ⟨x, hx, hmod⟩ := Finset.mem_image.mp himage
  obtain ⟨hlow, hhigh⟩ := Finset.mem_Ico.mp hx
  refine mem_rotation.mpr ⟨x - start, by omega, ?_⟩
  rw [Nat.add_sub_cancel' hlow]
  cases h with
  | inl hdvd => rw [Nat.mod_mod_of_dvd x hdvd, hmod]
  | inr hfits => rw [Nat.mod_eq_of_lt (show x < wrap by omega), hmod]

/-- Inside the window the counter wraps to 0 at `wrap - start`, so a multiple of `n` before that
gives index 0 twice, and without one the last index is left out. -/
theorem rotation_perm_iff (hstart : start < wrap) :
    (rotation wrap n start).Perm (List.range n) ↔ n ∣ wrap ∨ start + n ≤ wrap := by
  refine ⟨fun hperm => ?_, rotation_perm⟩
  by_contra hneither
  obtain ⟨hdvd, hwraps⟩ := not_or.mp hneither
  have hpos : 0 < n := by omega
  have hinj : ∀ j < n, ∀ j' < n, (start + j) % wrap % n = (start + j') % wrap % n → j = j' := by
    have hnodup : (rotation wrap n start).Nodup := hperm.nodup_iff.mpr List.nodup_range
    intro j hj j' hj' heq
    exact List.inj_on_of_nodup_map hnodup (List.mem_range.mpr hj) (List.mem_range.mpr hj') heq
  have hlast : n - 1 ∈ rotation wrap n start :=
    hperm.mem_iff.mpr (List.mem_range.mpr (by omega))
  obtain ⟨j, hj, hpick⟩ := mem_rotation.mp hlast
  by_cases hwrapped : start + j < wrap
  · -- the index after the last one is a multiple of `n`, and not the one the counter wraps at
    rw [Nat.mod_eq_of_lt hwrapped] at hpick
    have hmultiple : n ∣ start + (j + 1) := by
      have hdiv := Nat.div_add_mod (start + j) n
      rw [hpick] at hdiv
      exact ⟨(start + j) / n + 1, by rw [Nat.mul_add]; omega⟩
    have hbefore : start + (j + 1) < wrap := by
      rcases Nat.lt_or_ge (start + (j + 1)) wrap with hlt | hge
      · exact hlt
      · have heq : start + (j + 1) = wrap := by omega
        exact absurd (heq ▸ hmultiple) hdvd
    have hsame := hinj (j + 1) (by omega) (wrap - start) (by omega) (by
      rw [Nat.mod_eq_of_lt hbefore, Nat.mod_eq_zero_of_dvd hmultiple,
        Nat.add_sub_cancel' hstart.le, Nat.mod_self, Nat.zero_mod])
    omega
  · -- behind the wrap the counter has not come so far
    have hbehind : (start + j) % wrap ≤ start + j - wrap := by
      have hge : wrap ≤ start + j := not_lt.mp hwrapped
      rw [Nat.mod_eq_sub_mod hge]
      exact Nat.mod_le _ _
    have hle : (start + j) % wrap % n ≤ (start + j) % wrap := Nat.mod_le _ _
    omega

/-- What is picked from a list without repeats is the list in some order exactly when the indices
are all of them. -/
theorem map_rotation_perm_iff {α : Type} [DecidableEq α] {xs : List α} (hnodup : xs.Nodup) :
    ((rotation wrap xs.length start).map (xs[·]?)).Perm (xs.map some) ↔
      (rotation wrap xs.length start).Perm (List.range xs.length) := by
  have hall : xs.map some = (List.range xs.length).map (xs[·]?) := by
    refine List.ext_getElem (by simp) fun i hi hi' => ?_
    simp at hi
    simp [hi]
  have hindex : ∀ l : List Nat, (∀ i ∈ l, i < xs.length) →
      (l.map (xs[·]?)).map (fun o => (o.map xs.idxOf).getD 0) = l := by
    intro l hl
    rw [List.map_map]
    conv_rhs => rw [← List.map_id l]
    refine List.map_congr_left fun i hi => ?_
    have hlt := hl i hi
    simp [hlt, hnodup.idxOf_getElem]
  rw [hall]
  refine ⟨fun hperm => ?_, fun hperm => hperm.map _⟩
  have hmapped := hperm.map fun o => (o.map xs.idxOf).getD 0
  rw [hindex _ fun i hi => List.mem_range.mp hi, hindex] at hmapped
  · exact hmapped
  · intro i hi
    obtain ⟨j, hj, rfl⟩ := mem_rotation.mp hi
    exact Nat.mod_lt _ (by omega)

end Rotation

end AutoTrade.Library
