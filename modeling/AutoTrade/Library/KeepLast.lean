import Mathlib.Data.List.Infix
import Mathlib.Data.List.Chain

/-! # Bounded logs

A log that keeps its latest entries: what it holds after any number of pushes is the end of all that
was pushed, so a property that only later entries have is counted exactly up to the bound.
-/

namespace AutoTrade.Library

section KeepLast

variable {α : Type}

/-- The latest `n` entries. -/
def keepLast (n : Nat) (xs : List α) : List α := xs.drop (xs.length - n)

@[simp] theorem keepLast_nil (n : Nat) : keepLast n ([] : List α) = [] := by simp [keepLast]

theorem length_keepLast (n : Nat) (xs : List α) : (keepLast n xs).length = min n xs.length := by
  rw [keepLast, List.length_drop]
  omega

theorem keepLast_suffix (n : Nat) (xs : List α) : keepLast n xs <:+ xs := List.drop_suffix ..

theorem keepLast_of_length_le {n : Nat} {xs : List α} (h : xs.length ≤ n) : keepLast n xs = xs := by
  rw [keepLast, Nat.sub_eq_zero_of_le h, List.drop_zero]

/-- Pushing onto the bounded log is pushing onto the whole one. -/
theorem keepLast_push (n : Nat) (xs : List α) (x : α) :
    keepLast n (keepLast n xs ++ [x]) = keepLast n (xs ++ [x]) := by
  by_cases h : xs.length ≤ n
  · rw [keepLast_of_length_le h]
  · have hlength : (keepLast n xs).length = n := by rw [length_keepLast]; omega
    unfold keepLast at hlength ⊢
    rw [List.length_append, List.length_append, hlength, ← List.drop_append_of_le_length (by omega),
      List.drop_drop]
    congr 1
    simp only [List.length_cons, List.length_nil]
    omega

/-- Of entries that all come after the others, the bounded log holds as many as fit. -/
theorem countP_keepLast {n : Nat} {p : α → Bool} {xs : List α}
    (later : xs.Pairwise fun a b => p a = true → p b = true) :
    (keepLast n xs).countP p = min n (xs.countP p) := by
  have hsplit : (xs.take (xs.length - n)).countP p + (keepLast n xs).countP p = xs.countP p := by
    rw [← List.countP_append, keepLast, List.take_append_drop]
  have hlength := length_keepLast n xs
  have hle := List.countP_le_length (p := p) (l := keepLast n xs)
  by_cases hdropped : (xs.take (xs.length - n)).countP p = 0
  · omega
  · obtain ⟨a, ha, hpa⟩ := List.countP_pos_iff.mp (Nat.pos_of_ne_zero hdropped)
    have hall : ∀ b ∈ keepLast n xs, p b = true := by
      intro b hb
      rw [← List.take_append_drop (xs.length - n) xs, List.pairwise_append] at later
      exact later.2.2 a ha b hb hpa
    have hcount : (keepLast n xs).countP p = (keepLast n xs).length := List.countP_eq_length.mpr hall
    have htake : (xs.take (xs.length - n)).length = xs.length - n := by
      rw [List.length_take]
      omega
    have hpositive : 0 < (xs.take (xs.length - n)).length := List.length_pos_of_mem ha
    omega

end KeepLast

end AutoTrade.Library
