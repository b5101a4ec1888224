import AutoTrade.Library.Table
import Mathlib.Algebra.Order.BigOperators.Group.List
import Mathlib.Algebra.Order.Group.Abs

/-! # Totals over a dictionary

The sum of a quantity over the values of a dictionary, how an assignment moves
it, and the total of groups: values that are added up group by group have the
same total as those that are added up one by one.
-/

namespace AutoTrade.Library

namespace Dict

section Total

variable {κ ν M : Type} [DecidableEq κ] [AddCommGroup M]

def total (d : Dict κ ν) (f : ν → M) : M := (d.rows.map fun e => f e.2).sum

omit [DecidableEq κ] in
@[simp] theorem total_empty (f : ν → M) : total (Table.empty : Dict κ ν) f = 0 := rfl

/-- What is held under a key, and everything else. -/
theorem total_eq_erase (d : Dict κ ν) (k : κ) (f : ν → M) :
    d.total f = ((d.get? k).map f).getD 0 + total (d.erase k) f := by
  cases h : d.get? k with
  | none =>
      unfold total
      rw [rows_erase_of_get?_none h]
      exact (zero_add _).symm
  | some v =>
      have hperm := rows_perm_cons_erase (d := d) h fun _ _ => rfl
      exact (hperm.map fun e => f e.2).sum_eq.trans List.sum_cons

theorem total_set (d : Dict κ ν) (k : κ) (v : ν) (f : ν → M) :
    (d.set k v).total f = f v + total (d.erase k) f := by
  have hperm := (rows_set_perm d k v).map fun e => f e.2
  exact hperm.sum_eq.trans List.sum_cons

/-- An assignment replaces what was held under its key. -/
theorem total_set_eq (d : Dict κ ν) (k : κ) (v : ν) (f : ν → M) :
    (d.set k v).total f = d.total f - ((d.get? k).map f).getD 0 + f v := by
  rw [total_set, total_eq_erase d k f, add_sub_cancel_left, add_comm]

theorem total_congr {d : Dict κ ν} {f g : ν → M} (h : ∀ k v, d.get? k = some v → f v = g v) :
    d.total f = d.total g := by
  unfold total
  refine congrArg List.sum (List.map_congr_left fun e he => ?_)
  exact h e.1 e.2 ((d.get?_eq_some_iff e.1 e.2).mpr he)

end Total

section Order

variable {κ ν M : Type} [DecidableEq κ] [AddCommGroup M] [LinearOrder M] [IsOrderedAddMonoid M]
  {d : Dict κ ν}

omit [DecidableEq κ] in
theorem abs_total_le (d : Dict κ ν) (f : ν → M) : |d.total f| ≤ d.total fun v => |f v| := by
  unfold total
  have h := List.le_sum_of_subadditive (abs : M → M) abs_zero.le abs_add_le
    (d.rows.map fun e => f e.2)
  rwa [List.map_map] at h

/-- Where every value weighs as much by one quantity as by another or more, the totals are equal only
if every value weighs the same by both. -/
theorem total_eq_iff_of_le {f g : ν → M} (hle : ∀ k v, d.get? k = some v → f v ≤ g v) :
    d.total g = d.total f ↔ ∀ k v, d.get? k = some v → g v = f v := by
  constructor
  · intro htotal k v hk
    by_contra hne
    have hmem : (k, v) ∈ d.rows := (d.get?_eq_some_iff k v).mp hk
    have hall : ∀ e ∈ d.rows, f e.2 ≤ g e.2 := fun e he =>
      hle e.1 e.2 ((d.get?_eq_some_iff e.1 e.2).mpr he)
    have hlt : d.total f < d.total g := List.sum_lt_sum (fun e : κ × ν => f e.2)
      (fun e => g e.2) hall ⟨(k, v), hmem, lt_of_le_of_ne (hle k v hk) (Ne.symm hne)⟩
    exact hlt.ne' htotal
  · exact total_congr

end Order

/-! ## Groups -/

section Groups

variable {κ ν M β : Type} [DecidableEq κ] [AddCommGroup M] (keyOf : β → κ) (init : κ → ν)
  (add : ν → β → ν)

/-- The value of the group of `x`, which may be a new one, takes `x` in. -/
def addTo (d : Dict κ ν) (x : β) : Dict κ ν :=
  d.set (keyOf x) (add ((d.get? (keyOf x)).getD (init (keyOf x))) x)

variable {keyOf init add} {f : ν → M} {c : β → M} {I : ν → Prop}

/-- Where taking `x` in raises the quantity of a group by the share of `x`, the groups together have
the shares of all. -/
theorem total_foldl_addTo (hinit : ∀ k, I (init k) ∧ f (init k) = 0)
    (hadd : ∀ v x, I v → I (add v x) ∧ f (add v x) = f v + c x) (xs : List β) (d : Dict κ ν)
    (hd : ∀ k v, d.get? k = some v → I v) :
    (xs.foldl (addTo keyOf init add) d).total f = d.total f + (xs.map c).sum := by
  induction xs generalizing d with
  | nil => exact (add_zero _).symm
  | cons x rest ih =>
      have hold : I ((d.get? (keyOf x)).getD (init (keyOf x))) ∧
          f ((d.get? (keyOf x)).getD (init (keyOf x))) = ((d.get? (keyOf x)).map f).getD 0 := by
        cases h : d.get? (keyOf x) with
        | none => exact hinit (keyOf x)
        | some v => exact ⟨hd _ v h, rfl⟩
      obtain ⟨hI, hf⟩ := hadd _ x hold.1
      have hnext : ∀ k v, (addTo keyOf init add d x).get? k = some v → I v := by
        intro k v hk
        unfold addTo at hk
        rw [get?_set] at hk
        split at hk
        · exact Option.some.inj hk ▸ hI
        · exact hd k v hk
      rw [List.foldl_cons, ih _ hnext, List.map_cons, List.sum_cons, ← add_assoc]
      congr 1
      unfold addTo
      rw [total_set_eq, hf, hold.2, ← add_assoc, sub_add_cancel]

end Groups

end Dict

end AutoTrade.Library
