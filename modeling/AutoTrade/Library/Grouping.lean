import AutoTrade.Library.Totals
import Mathlib.Algebra.BigOperators.Ring.Finset
import Mathlib.Tactic.Linarith
import Mathlib.Tactic.Ring

/-! # Grouping

A list is put into groups by a key. Each group has the elements of its key in
their order, and the groups together have the sums of the list. A counter of a
pass that goes up for some of the elements comes to their count, and changes of
the terms move a sum by no more than the changes together.
-/

namespace AutoTrade.Library

theorem counter_foldl {σ γ : Type} {counter : σ → Nat} {add : σ → γ → σ} {p : γ → Bool}
    (hadd : ∀ s x, counter (add s x) = counter s + if p x then 1 else 0) (xs : List γ) (s : σ) :
    counter (xs.foldl add s) = counter s + xs.countP p := by
  induction xs generalizing s with
  | nil => rfl
  | cons x rest ih =>
      rw [List.foldl_cons, ih, hadd, List.countP_cons, add_assoc, add_comm (ite _ _ _)]

/-- A change of each term moves the sum by no more than all of the terms. -/
theorem abs_sum_sub_le {α K : Type} [Field K] [LinearOrder K] [IsStrictOrderedRing K] {f g : α → K}
    {error : K} (h : ∀ a, |f a - g a| ≤ error) (xs : List α) :
    |(xs.map f).sum - (xs.map g).sum| ≤ error * xs.length := by
  induction xs with
  | nil => simp
  | cons a rest ih =>
      have htriangle := abs_add_le (f a - g a) ((rest.map f).sum - (rest.map g).sum)
      have hsplit : ((a :: rest).map f).sum - ((a :: rest).map g).sum =
          f a - g a + ((rest.map f).sum - (rest.map g).sum) := by
        simp only [List.map_cons, List.sum_cons]
        ring
      rw [hsplit, List.length_cons, Nat.cast_add, Nat.cast_one]
      linarith [h a]

namespace Dict

variable {κ β : Type} [DecidableEq κ] (keyOf : β → κ)

/-- The last assignment to a key counts; the entries have each key once. -/
theorem get?_foldl_set {ν : Type} (cfg d : Dict κ ν) (k : κ) :
    (cfg.rows.foldl (fun d e => d.set e.1 e.2) d).get? k = (cfg.get? k).or (d.get? k) := by
  obtain ⟨rows, hnodup⟩ := cfg
  induction rows generalizing d with
  | nil => rfl
  | cons e rest ih =>
      have hrest : (rest.map Prod.fst).Nodup := (List.nodup_cons.mp hnodup).2
      have hfresh : e.1 ∉ rest.map Prod.fst := (List.nodup_cons.mp hnodup).1
      rw [List.foldl_cons]
      refine (ih (d.set e.1 e.2) hrest).trans ?_
      rw [get?_set]
      by_cases hk : k = e.1
      · subst hk
        have hnone : get? (⟨rest, hrest⟩ : Dict κ ν) e.1 = none :=
          (get?_eq_none_iff _ _).mpr fun x hx heq => hfresh (heq ▸ List.mem_map_of_mem hx)
        rw [hnone]
        simp [get?, Table.find?]
      · simp [hk, Ne.symm hk, get?, Table.find?]

/-- `d.setdefault(key, []).append(x)`. -/
def appendTo (d : Dict κ (List β)) (x : β) : Dict κ (List β) :=
  addTo keyOf (fun _ => []) (fun group x => group ++ [x]) d x

def groupInto (d : Dict κ (List β)) (xs : List β) : Dict κ (List β) := xs.foldl (appendTo keyOf) d

variable {keyOf}

theorem get?_appendTo (d : Dict κ (List β)) (x : β) (k : κ) :
    (appendTo keyOf d x).get? k =
      if k = keyOf x then some ((d.get? k).getD [] ++ [x]) else d.get? k := by
  unfold appendTo addTo
  rw [get?_set]
  split
  · rename_i hk
    rw [hk]
  · rfl

/-- A group that was there is continued; a new one is there if it has an element. -/
theorem get?_groupInto (d : Dict κ (List β)) (xs : List β) (k : κ) :
    (groupInto keyOf d xs).get? k =
      if d.get? k = none ∧ (xs.filter fun x => decide (keyOf x = k)) = [] then none
      else some ((d.get? k).getD [] ++ xs.filter fun x => decide (keyOf x = k)) := by
  induction xs generalizing d with
  | nil => cases h : d.get? k <;> simp [groupInto, h]
  | cons x rest ih =>
      have hnext : groupInto keyOf d (x :: rest) = groupInto keyOf (appendTo keyOf d x) rest := rfl
      rw [hnext, ih, get?_appendTo]
      by_cases hk : k = keyOf x
      · subst hk
        simp
      · simp [hk, Ne.symm hk]

/-- The groups together have the sum of the list. -/
theorem total_groupInto {M : Type} [AddCommGroup M] (c : β → M) (d : Dict κ (List β))
    (xs : List β) :
    (groupInto keyOf d xs).total (fun group => (group.map c).sum) =
      d.total (fun group => (group.map c).sum) + (xs.map c).sum := by
  have hadd : ∀ (group : List β) (x : β), True →
      True ∧ ((group ++ [x]).map c).sum = (group.map c).sum + c x := by
    intro group x _
    rw [List.map_append, List.sum_append, List.map_singleton, List.sum_singleton]
    exact ⟨trivial, rfl⟩
  have hfold : groupInto keyOf d xs =
      xs.foldl (addTo keyOf (fun _ => []) fun group x => group ++ [x]) d := rfl
  rw [hfold]
  refine total_foldl_addTo (I := fun _ => True) (f := fun group => (group.map c).sum) (c := c) ?_
    hadd xs d fun _ _ _ => trivial
  exact fun _ => ⟨trivial, rfl⟩

/-- The groups together have the count of the list. -/
theorem sum_countP_groupInto (p : β → Bool) (xs : List β) :
    ((groupInto keyOf (Table.empty : Dict κ (List β)) xs).rows.map fun e => e.2.countP p).sum =
      xs.countP p := by
  have hcount : ∀ group : List β, (group.map fun x => if p x then (1 : ℤ) else 0).sum =
      (group.countP p : ℤ) := by
    intro group
    induction group with
    | nil => rfl
    | cons x rest ih =>
        rw [List.map_cons, List.sum_cons, ih, List.countP_cons]
        split <;> simp [add_comm]
  have htotal := @total_groupInto _ _ _ keyOf _ _ (fun x => if p x then (1 : ℤ) else 0)
    (Table.empty : Dict κ (List β)) xs
  rw [total_empty, zero_add] at htotal
  simp only [total, hcount] at htotal
  have hcast : ((((groupInto keyOf (Table.empty : Dict κ (List β)) xs).rows.map
      fun e => e.2.countP p).sum : Nat) : ℤ) = (xs.countP p : ℤ) := by
    rw [← htotal, Nat.cast_list_sum, List.map_map]
    rfl
  exact_mod_cast hcast

end Dict

end AutoTrade.Library
