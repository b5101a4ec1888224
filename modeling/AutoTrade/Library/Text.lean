import Mathlib.Data.List.Basic

/-! # Texts with a separator

A text put together from two parts around a character can be taken apart again
where the character does not occur in the part on one side of it.
-/

namespace AutoTrade.Library

section Separator

variable {α : Type} {s s' t t' : List α} {c : α}

theorem append_cons_inj_of_first (hs : c ∉ s) (hs' : c ∉ s') (h : s ++ c :: t = s' ++ c :: t') :
    s = s' ∧ t = t' := by
  induction s generalizing s' with
  | nil =>
      cases s' with
      | nil => exact ⟨rfl, (List.cons.inj h).2⟩
      | cons b rest => exact absurd (List.cons.inj h).1 fun hb => hs' (hb ▸ List.mem_cons_self)
  | cons a rest ih =>
      cases s' with
      | nil => exact absurd (List.cons.inj h).1 fun ha => hs (ha ▸ List.mem_cons_self)
      | cons b rest' =>
          obtain ⟨hab, hrest⟩ := List.cons.inj h
          have heq := ih (fun hc => hs (List.mem_cons_of_mem a hc))
            (fun hc => hs' (List.mem_cons_of_mem b hc)) hrest
          exact ⟨by rw [hab, heq.1], heq.2⟩

theorem append_cons_inj_of_last (ht : c ∉ t) (ht' : c ∉ t') (h : s ++ c :: t = s' ++ c :: t') :
    s = s' ∧ t = t' := by
  have hreverse : t.reverse ++ c :: s.reverse = t'.reverse ++ c :: s'.reverse := by
    simpa using congrArg List.reverse h
  have heq := append_cons_inj_of_first (by simpa using ht) (by simpa using ht') hreverse
  exact ⟨List.reverse_injective heq.2, List.reverse_injective heq.1⟩

/-- A text without the character ends before the character is met. -/
theorem exists_append_of_notMem {u a b : List α} (hu : c ∉ u) (h : u ++ t = a ++ c :: b) :
    ∃ w, a = u ++ w ∧ t = w ++ c :: b := by
  rcases List.append_eq_append_iff.mp h with ⟨w, ha, ht⟩ | ⟨w, hw, hrest⟩
  · exact ⟨w, ha, ht⟩
  · cases w with
    | nil => exact ⟨[], by simpa using hw.symm, by simpa using hrest.symm⟩
    | cons d w =>
        rw [hw, ← (List.cons.inj hrest).1] at hu
        exact absurd (by simp) hu

end Separator

/-- Around a text whose last character does not occur in what follows. -/
theorem string_append_inj_of_last {s s' t t' separator : String} (c : Char)
    (hlast : separator.toList.getLast? = some c) (ht : c ∉ t.toList) (ht' : c ∉ t'.toList)
    (h : s ++ separator ++ t = s' ++ separator ++ t') : s = s' ∧ t = t' := by
  obtain ⟨before, hbefore⟩ := List.getLast?_eq_some_iff.mp hlast
  have hlists : (s.toList ++ before) ++ c :: t.toList = (s'.toList ++ before) ++ c :: t'.toList := by
    simpa [hbefore] using congrArg String.toList h
  obtain ⟨hfirst, hsecond⟩ := append_cons_inj_of_last ht ht' hlists
  exact ⟨String.toList_inj.mp (List.append_cancel_right hfirst), String.toList_inj.mp hsecond⟩

/-! ## Decimal texts -/

theorem notMem_toString_nat {c : Char} (hdigit : c.isDigit = false) (n : Nat) :
    c ∉ (toString n).toList := by
  intro hc
  rw [show toString n = Nat.repr n from rfl, Nat.toList_repr] at hc
  exact absurd (Nat.isDigit_of_mem_toDigits (by decide) (by decide) hc) (by simp [hdigit])

/-- The decimal text of a whole number has digits, and a minus where it is negative. -/
theorem notMem_toString {c : Char} (hdigit : c.isDigit = false) (hminus : c ≠ '-') (n : Int) :
    c ∉ (toString n).toList := by
  cases n with
  | ofNat n => exact notMem_toString_nat hdigit n
  | negSucc n =>
      show c ∉ ("-" ++ Nat.repr (n + 1)).toList
      rw [String.toList_append, List.mem_append, not_or]
      exact ⟨by simpa using hminus, notMem_toString_nat hdigit (n + 1)⟩

theorem underscore_notMem_toString (n : Int) : '_' ∉ (toString n).toList :=
  notMem_toString (by decide) (by decide) n

theorem toString_nat_inj {m n : Nat} (h : toString m = toString n) : m = n := by
  have hdigits : Nat.toDigits 10 m = Nat.toDigits 10 n := by
    rw [← Nat.toList_repr, ← Nat.toList_repr]
    exact congrArg String.toList h
  rw [← Nat.ofDigitChars_ten_toDigits (n := m), hdigits, Nat.ofDigitChars_ten_toDigits]

private theorem toString_ofNat_ne_negSucc (m n : Nat) :
    toString (Int.ofNat m) ≠ toString (Int.negSucc n) := by
  intro h
  have hminus : '-' ∈ (toString m).toList := by
    rw [show toString m = toString (Int.negSucc n) from h]
    show '-' ∈ ("-" ++ Nat.repr (n + 1)).toList
    simp
  exact notMem_toString_nat (by decide) m hminus

theorem toString_inj {m n : Int} (h : toString m = toString n) : m = n := by
  cases m with
  | ofNat m =>
      cases n with
      | ofNat n => rw [toString_nat_inj h]
      | negSucc n => exact absurd h (toString_ofNat_ne_negSucc m n)
  | negSucc m =>
      cases n with
      | ofNat n => exact absurd h.symm (toString_ofNat_ne_negSucc n m)
      | negSucc n =>
          have hsucc : toString (m + 1) = toString (n + 1) := by
            have hlists := congrArg String.toList (show "-" ++ Nat.repr (m + 1) =
              "-" ++ Nat.repr (n + 1) from h)
            rw [String.toList_append, String.toList_append] at hlists
            exact String.toList_inj.mp (List.append_cancel_left hlists)
          have := toString_nat_inj hsucc
          rw [Nat.succ.inj this]

end AutoTrade.Library
