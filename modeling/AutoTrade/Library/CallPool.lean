import Mathlib.Algebra.BigOperators.Group.List.Basic
import Mathlib.Data.List.Basic
import Mathlib.Tactic.Abel

/-! # Calls in flight

Any number of calls that run at once are a list of their frames; a turn takes one of them out and
puts back the frames it leads to. A weight added up over the frames then changes by what that one
frame's turn makes of it.
-/

namespace AutoTrade.Library

section CallPool

variable {φ M : Type}

/-- The frame at this place is replaced by those that follow from it. -/
def replaceAt (pool : List φ) (k : Nat) (next : List φ) : List φ :=
  pool.take k ++ next ++ pool.drop (k + 1)

theorem mem_replaceAt {pool next : List φ} {k : Nat} {f : φ} (h : f ∈ replaceAt pool k next) :
    f ∈ pool ∨ f ∈ next := by
  rw [replaceAt, List.mem_append, List.mem_append] at h
  rcases h with (h | h) | h
  · exact .inl (List.mem_of_mem_take h)
  · exact .inr h
  · exact .inl (List.mem_of_mem_drop h)

variable [AddCommMonoid M]

/-- What a property of frames adds up to over all calls in flight. -/
def pooled (weight : φ → M) (pool : List φ) : M := (pool.map weight).sum

@[simp] theorem pooled_nil (weight : φ → M) : pooled weight [] = 0 := rfl

@[simp] theorem pooled_singleton (weight : φ → M) (f : φ) : pooled weight [f] = weight f := by
  simp [pooled]

theorem pooled_append (weight : φ → M) (pool more : List φ) :
    pooled weight (pool ++ more) = pooled weight pool + pooled weight more := by
  simp [pooled]

theorem pooled_replaceAt (weight : φ → M) {pool : List φ} {k : Nat} {f : φ} (h : pool[k]? = some f)
    (next : List φ) :
    pooled weight (replaceAt pool k next) + weight f =
      pooled weight pool + pooled weight next := by
  obtain ⟨hk, hf⟩ := List.getElem?_eq_some_iff.mp h
  have hsplit : pool = pool.take k ++ f :: pool.drop (k + 1) := by
    rw [← hf, List.getElem_cons_drop, List.take_append_drop]
  have hpool : pooled weight pool =
      pooled weight (pool.take k) + (weight f + pooled weight (pool.drop (k + 1))) := by
    conv_lhs => rw [hsplit]
    simp [pooled]
  rw [hpool, replaceAt, pooled_append, pooled_append]
  abel

end CallPool

end AutoTrade.Library
