import Mathlib.Data.List.Sort
import Mathlib.Order.Lattice

/-! # Efficient elements by sort and sweep

Elements with a cost and a gain, of which those are wanted that no other one
beats. A stable sort by cost and a sweep that keeps what gains more than
everything before it find them all, and may keep too many: of elements at the
same cost the sweep sees the first before the best.
-/

namespace AutoTrade.Library

/-- Splitting a list at an element that passes the filter splits the filtered list there. -/
theorem exists_split_filter {α : Type} {x : α} {p : α → Bool} {q : α → Prop} (xs : List α)
    (hx : p x = true) :
    (∃ before after, xs = before ++ x :: after ∧ ∀ y ∈ before, p y = true → q y) ↔
      ∃ before after, xs.filter p = before ++ x :: after ∧ ∀ y ∈ before, q y := by
  constructor
  · rintro ⟨before, after, rfl, h⟩
    refine ⟨before.filter p, after.filter p, by simp [hx], fun y hy => ?_⟩
    exact h y (List.mem_filter.mp hy).1 (List.mem_filter.mp hy).2
  · rintro ⟨left, right, hsplit, h⟩
    obtain ⟨before, rest, rfl, hleft, hrest⟩ := List.filter_eq_append_iff.mp hsplit
    obtain ⟨skipped, after, rfl, hskipped, -⟩ := List.filter_eq_cons_iff.mp hrest
    refine ⟨before ++ skipped, after, by simp, fun y hy hp => ?_⟩
    rcases List.mem_append.mp hy with hy | hy
    · exact h y (hleft ▸ List.mem_filter.mpr ⟨hy, hp⟩)
    · exact absurd hp (hskipped y hy)

section Pareto

variable {α κ : Type} [LinearOrder κ] (cost gain : α → κ)

/-- One element gains more at no higher cost, or no less at a lower one. -/
def Dominates (c x : α) : Prop :=
  (cost c ≤ cost x ∧ gain x < gain c) ∨ (cost c < cost x ∧ gain x ≤ gain c)

/-- Keep what gains more than the best so far. -/
def sweep : Option κ → List α → List α
  | _, [] => []
  | best, x :: rest =>
      if best.all fun b => b < gain x then x :: sweep (some (gain x)) rest else sweep best rest

def sortByCost (xs : List α) : List α := xs.insertionSort fun a b => cost a ≤ cost b

def frontier (xs : List α) : List α := sweep gain none (sortByCost cost xs)

/-- No element that gains more than every cheaper one, and than every one listed before it at its
cost, is followed by a better one at that cost. -/
def TiesInOrder (xs : List α) : Prop :=
  ∀ before x after, xs = before ++ x :: after →
    (∀ y ∈ xs, cost y < cost x → gain y < gain x) →
    (∀ y ∈ before, cost y = cost x → gain y < gain x) →
    ∀ y ∈ after, cost y = cost x → gain y ≤ gain x

variable {cost gain} {xs : List α} {x : α}

theorem mem_sweep_iff {best : Option κ} :
    x ∈ sweep gain best xs ↔ ∃ before after, xs = before ++ x :: after ∧
      (∀ b ∈ best, b < gain x) ∧ ∀ y ∈ before, gain y < gain x := by
  induction xs generalizing best with
  | nil => simp [sweep]
  | cons a rest ih =>
      unfold sweep
      by_cases hbest : best.all fun b => b < gain a
      · rw [if_pos hbest, List.mem_cons, ih]
        simp only [Option.all_eq_true, decide_eq_true_eq] at hbest
        constructor
        · rintro (rfl | ⟨before, after, rfl, ha, hbefore⟩)
          · exact ⟨[], rest, rfl, hbest, fun y hy => absurd hy List.not_mem_nil⟩
          · have hgain : gain a < gain x := ha _ rfl
            exact ⟨a :: before, after, rfl, fun b hb => (hbest b hb).trans hgain,
              List.forall_mem_cons.mpr ⟨hgain, hbefore⟩⟩
        · rintro ⟨before, after, hsplit, -, hbefore⟩
          rcases List.cons_eq_append_iff.mp hsplit with ⟨rfl, hsplit⟩ | ⟨before, rfl, rfl⟩
          · exact Or.inl (List.cons.inj hsplit).1.symm
          · obtain ⟨ha, hbefore⟩ := List.forall_mem_cons.mp hbefore
            exact Or.inr ⟨before, after, rfl, by simpa using ha, hbefore⟩
      · rw [if_neg hbest, ih]
        simp only [Option.all_eq_true, decide_eq_true_eq, not_forall, not_lt] at hbest
        obtain ⟨b, hb, hle⟩ := hbest
        constructor
        · rintro ⟨before, after, rfl, hx, hbefore⟩
          exact ⟨a :: before, after, rfl, hx,
            List.forall_mem_cons.mpr ⟨hle.trans_lt (hx b hb), hbefore⟩⟩
        · rintro ⟨before, after, hsplit, hx, hbefore⟩
          rcases List.cons_eq_append_iff.mp hsplit with ⟨rfl, hsplit⟩ | ⟨before, rfl, rfl⟩
          · obtain ⟨rfl, -⟩ := List.cons.inj hsplit
            exact absurd (hx b hb) (not_lt.mpr hle)
          · exact ⟨before, after, rfl, hx, (List.forall_mem_cons.mp hbefore).2⟩

variable (cost) in
theorem mem_sortByCost : x ∈ sortByCost cost xs ↔ x ∈ xs := List.mem_insertionSort _

variable (cost xs) in
theorem pairwise_sortByCost : (sortByCost cost xs).Pairwise fun a b => cost a ≤ cost b := by
  have htotal : Std.Total fun a b : α => cost a ≤ cost b := ⟨fun a b => le_total _ _⟩
  have htrans : IsTrans α fun a b => cost a ≤ cost b := ⟨fun _ _ _ => le_trans⟩
  exact List.pairwise_insertionSort _ xs

/-- The sort leaves elements of one cost in the order they came in. -/
theorem filter_sortByCost (v : κ) :
    (sortByCost cost xs).filter (fun y => cost y = v) = xs.filter fun y => cost y = v := by
  have htotal : Std.Total fun a b : α => cost a ≤ cost b := ⟨fun a b => le_total _ _⟩
  have htrans : IsTrans α fun a b => cost a ≤ cost b := ⟨fun _ _ _ => le_trans⟩
  have hsub : (xs.filter fun y => cost y = v).Sublist (sortByCost cost xs) := by
    refine List.sublist_insertionSort ?_ List.filter_sublist
    refine List.pairwise_of_forall_mem_list fun a ha b hb => ?_
    simp only [List.mem_filter, decide_eq_true_eq] at ha hb
    exact (ha.2.trans hb.2.symm).le
  have hfiltered := hsub.filter fun y => cost y = v
  simp only [List.filter_filter, Bool.and_self] at hfiltered
  exact (hfiltered.eq_of_length ((List.perm_insertionSort _ xs).filter _).length_eq.symm).symm

/-- What is kept gains more than every cheaper element and every earlier one of its cost. -/
theorem mem_frontier_iff :
    x ∈ frontier cost gain xs ↔ (∀ y ∈ xs, cost y < cost x → gain y < gain x) ∧
      ∃ before after, xs = before ++ x :: after ∧
        ∀ y ∈ before, cost y = cost x → gain y < gain x := by
  have hties : (∃ before after, sortByCost cost xs = before ++ x :: after ∧
      ∀ y ∈ before, cost y = cost x → gain y < gain x) ↔
        ∃ before after, xs = before ++ x :: after ∧
          ∀ y ∈ before, cost y = cost x → gain y < gain x := by
    have hself : decide (cost x = cost x) = true := by simp
    have hsorted := exists_split_filter (sortByCost cost xs)
      (p := fun y => decide (cost y = cost x)) (q := fun y => gain y < gain x) hself
    have hgiven := exists_split_filter xs
      (p := fun y => decide (cost y = cost x)) (q := fun y => gain y < gain x) hself
    simp only [decide_eq_true_eq] at hsorted hgiven
    rw [hsorted, hgiven, filter_sortByCost]
  rw [frontier, mem_sweep_iff, ← hties]
  constructor
  · rintro ⟨before, after, hsplit, -, hbefore⟩
    refine ⟨fun y hy hcheaper => hbefore y ?_, before, after, hsplit, fun y hy _ => hbefore y hy⟩
    -- what is cheaper than `x` is sorted before it
    have hpair := hsplit ▸ pairwise_sortByCost cost xs
    have hafter := (List.pairwise_cons.mp (List.pairwise_append.mp hpair).2.1).1
    rw [← mem_sortByCost cost, hsplit] at hy
    rcases List.mem_append.mp hy with hy | hy
    · exact hy
    · rcases List.mem_cons.mp hy with rfl | hy
      · exact absurd hcheaper (lt_irrefl _)
      · exact absurd hcheaper (not_lt.mpr (hafter y hy))
  · rintro ⟨hcheaper, before, after, hsplit, hbefore⟩
    refine ⟨before, after, hsplit, by simp, fun y hy => ?_⟩
    have hpair := hsplit ▸ pairwise_sortByCost cost xs
    have hle : cost y ≤ cost x := (List.pairwise_append.mp hpair).2.2 y hy x List.mem_cons_self
    rcases hle.eq_or_lt with heq | hlt
    · exact hbefore y hy heq
    · refine hcheaper y ((mem_sortByCost cost).mp ?_) hlt
      rw [hsplit]
      exact List.mem_append_left _ hy

/-- The sweep keeps nothing that is dominated exactly when ties come with the best one first. -/
theorem undominated_iff :
    (∀ x ∈ frontier cost gain xs, ∀ y ∈ xs, ¬ Dominates cost gain y x) ↔
      TiesInOrder cost gain xs := by
  constructor
  · intro h before x after hsplit hcheaper hearlier y hy hsame
    have hkept := mem_frontier_iff.mpr ⟨hcheaper, before, after, hsplit, hearlier⟩
    have hmem : y ∈ xs := by simp [hsplit, hy]
    exact not_lt.mp fun hmore => h x hkept y hmem (Or.inl ⟨hsame.le, hmore⟩)
  · rintro h x hx y hy hdominates
    obtain ⟨hcheaper, before, after, hsplit, hearlier⟩ := mem_frontier_iff.mp hx
    rcases hdominates with ⟨hcost, hmore⟩ | ⟨hcost, hgain⟩
    · rcases hcost.eq_or_lt with hsame | hlt
      · rw [hsplit] at hy
        rcases List.mem_append.mp hy with hy | hy
        · exact lt_asymm hmore (hearlier y hy hsame)
        · rcases List.mem_cons.mp hy with rfl | hy
          · exact lt_irrefl _ hmore
          · exact not_lt.mpr (h before x after hsplit hcheaper hearlier y hy hsame) hmore
      · exact lt_asymm hmore (hcheaper y hy hlt)
    · exact not_le.mpr (hcheaper y hy hcost) hgain

end Pareto

end AutoTrade.Library
