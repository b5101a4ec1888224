import Mathlib.Data.List.Induction

/-! # Hash chains

Every entry of a chain names the hash of the entry before it, the first one a
fixed genesis value, and is sealed: its own hash is the hash of what it holds.
Where a sealed hash determines what it was computed from, the last hash and the
length determine the whole chain.
-/

namespace AutoTrade.Library

section HashChain

variable {ε η κ : Type} (prev hash : ε → η) (sealed : ε → Prop)

def Chained : η → List ε → Prop
  | _, [] => True
  | expected, e :: rest => prev e = expected ∧ sealed e ∧ Chained (hash e) rest

/-- The hash the next entry has to name. -/
def headHash (genesis : η) (log : List ε) : η := (log.getLast?.map hash).getD genesis

variable {prev hash sealed}

theorem headHash_append (genesis : η) (log : List ε) (e : ε) :
    headHash hash genesis (log ++ [e]) = hash e := by
  simp [headHash]

theorem headHash_cons (genesis : η) (e : ε) (rest : List ε) :
    headHash hash genesis (e :: rest) = headHash hash (hash e) rest := by
  cases rest using List.reverseRecOn with
  | nil => rfl
  | append_singleton init last =>
      rw [← List.cons_append, headHash_append, headHash_append]

/-- A chain grows by a sealed entry that names its head. -/
theorem chained_append (genesis : η) (log : List ε) (e : ε) :
    Chained prev hash sealed genesis (log ++ [e]) ↔
      Chained prev hash sealed genesis log ∧ prev e = headHash hash genesis log ∧ sealed e := by
  induction log generalizing genesis with
  | nil => simp [Chained, headHash]
  | cons x rest ih =>
      rw [List.cons_append, Chained, Chained, ih, headHash_cons]
      constructor
      · rintro ⟨hprev, hsealed, hrest, hlast⟩
        exact ⟨⟨hprev, hsealed, hrest⟩, hlast⟩
      · rintro ⟨⟨hprev, hsealed, hrest⟩, hlast⟩
        exact ⟨hprev, hsealed, hrest, hlast⟩

/-- Two chains of one length with one head agree entry by entry, from the end back. -/
theorem Chained.agree {content : ε → κ} {genesis : η} {log log' : List ε}
    (binding : ∀ e ∈ log, ∀ f ∈ log', sealed e → sealed f → hash e = hash f →
      content e = content f ∧ prev e = prev f) (h : Chained prev hash sealed genesis log)
    (h' : Chained prev hash sealed genesis log') (hlength : log.length = log'.length)
    (hhead : headHash hash genesis log = headHash hash genesis log') :
    log.map content = log'.map content := by
  induction log using List.reverseRecOn generalizing log' with
  | nil => rw [List.length_eq_zero_iff.mp hlength.symm]
  | append_singleton init last ih =>
      cases log' using List.reverseRecOn with
      | nil => simp at hlength
      | append_singleton init' last' =>
          rw [headHash_append, headHash_append] at hhead
          obtain ⟨hinit, hprev, hsealed⟩ := (chained_append genesis init last).mp h
          obtain ⟨hinit', hprev', hsealed'⟩ := (chained_append genesis init' last').mp h'
          obtain ⟨hcontent, hsame⟩ := binding last (by simp) last' (by simp) hsealed hsealed' hhead
          have hheads : headHash hash genesis init = headHash hash genesis init' := by
            rw [← hprev, ← hprev', hsame]
          have hrest := ih (fun e he f hf => binding e (by simp [he]) f (by simp [hf])) hinit hinit'
            (by simpa using hlength) hheads
          rw [List.map_append, List.map_append, hrest, List.map_singleton, List.map_singleton,
            hcontent]

/-- What is left of a chain without its first entries names a hash of the chain. -/
theorem Chained.prev_of_drop {genesis : η} {log : List ε} (h : Chained prev hash sealed genesis log)
    {k : Nat} {e : ε} {rest : List ε} (hdrop : log.drop (k + 1) = e :: rest) :
    ∃ x, sealed x ∧ prev e = hash x := by
  induction log generalizing genesis k with
  | nil => simp at hdrop
  | cons x later ih =>
      rw [List.drop_succ_cons] at hdrop
      cases k with
      | zero =>
          have hlater := h.2.2
          rw [List.drop_zero] at hdrop
          rw [hdrop] at hlater
          exact ⟨x, h.2.1, hlater.1⟩
      | succ k => exact ih h.2.2 hdrop

end HashChain

end AutoTrade.Library
