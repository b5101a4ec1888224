import AutoTrade.Library.Run

/-! # Guarded transactions

A connection has at most one open transaction, and `saved` is what a rollback
gives back. A guarded body runs in a transaction of its own: a handled error
rolls the transaction back before it goes on, any other leaves it open. A loop
of guarded bodies stops at the first error, with every body before it committed.
-/

namespace AutoTrade.Library

structure Connection (α : Type) where
  live : α
  saved : Option α
  deriving DecidableEq

namespace Connection

variable {α β ε : Type}

/-- A transaction starts only where none is open. -/
def begin? (c : Connection α) : Option (Connection α) :=
  match c.saved with
  | none => some { c with saved := some c.live }
  | some _ => none

def commit (c : Connection α) : Connection α := { c with saved := none }

def rollback (c : Connection α) : Connection α := { live := c.saved.getD c.live, saved := none }

section Guarded

variable (handled : ε → Bool) (nested : ε) (body : α → β → α × Option ε)

def raise (c : Connection α) (e : ε) : Connection α × Option ε :=
  (if handled e then c.rollback else c, some e)

/-- `nested` is the error of a transaction inside a transaction. -/
def guarded (c : Connection α) (x : β) : Connection α × Option ε :=
  match c.begin? with
  | none => c.raise handled nested
  | some opened =>
      match body opened.live x with
      | (a, none) => ({ opened with live := a }.commit, none)
      | (a, some e) => { opened with live := a }.raise handled e

end Guarded

/-- The elements at which the body ends well, up to the first at which it raises. -/
def finished (err : β → Option ε) (xs : List β) : List β := xs.takeWhile fun x => (err x).isNone

def firstError (err : β → Option ε) (xs : List β) : Option ε := xs.findSome? err

section Laws

variable {handled : ε → Bool} {nested : ε} {body : α → β → α × Option ε} {err : β → Option ε}

theorem guarded_of_none (hbody : ∀ a x, (body a x).2 = err x) {x : β} (hx : err x = none) (a : α) :
    guarded handled nested body ⟨a, none⟩ x = (⟨(body a x).1, none⟩, none) := by
  have hnone : body a x = ((body a x).1, none) := by rw [← hx, ← hbody a x]
  simp only [guarded, begin?]
  rw [hnone]
  rfl

theorem guarded_of_handled (hbody : ∀ a x, (body a x).2 = err x) {x : β} {e : ε}
    (hx : err x = some e) (he : handled e = true) (a : α) :
    guarded handled nested body ⟨a, none⟩ x = (⟨a, none⟩, some e) := by
  have hsome : body a x = ((body a x).1, some e) := by rw [← hx, ← hbody a x]
  simp only [guarded, begin?]
  rw [hsome]
  simp [raise, he, rollback]

theorem guarded_of_unhandled (hbody : ∀ a x, (body a x).2 = err x) {x : β} {e : ε}
    (hx : err x = some e) (he : handled e = false) (a : α) :
    guarded handled nested body ⟨a, none⟩ x = (⟨(body a x).1, some a⟩, some e) := by
  have hsome : body a x = ((body a x).1, some e) := by rw [← hx, ← hbody a x]
  simp only [guarded, begin?]
  rw [hsome]
  simp [raise, he]

variable (nested)

/-- Where the first error is handled, a loop of guarded bodies ends with no transaction open and the
invariant at what is left to do, which is nothing where no body raises. -/
theorem loop_guarded {C : β → Prop} {I : α → List β → Prop} (hbody : ∀ a x, (body a x).2 = err x)
    (next : ∀ a x rest, I a (x :: rest) → err x = none → C x → I (body a x).1 rest) {a : α}
    {xs : List β} (initial : I a xs) (hhandled : ∀ e ∈ firstError err xs, handled e = true)
    (hfinished : ∀ x ∈ finished err xs, C x) :
    ∃ a' rest, loop (guarded handled nested body) ⟨a, none⟩ xs = (⟨a', none⟩, firstError err xs) ∧
      I a' rest ∧ finished err xs ++ rest = xs ∧ (firstError err xs = none → rest = []) := by
  induction xs generalizing a with
  | nil => exact ⟨a, [], rfl, initial, rfl, fun _ => rfl⟩
  | cons x rest ih =>
      unfold loop
      cases hx : err x with
      | none =>
          have hfirst : firstError err (x :: rest) = firstError err rest := by
            simp [firstError, hx]
          have hfin : finished err (x :: rest) = x :: finished err rest := by
            simp [finished, hx]
          rw [hfirst] at hhandled ⊢
          rw [hfin] at hfinished ⊢
          obtain ⟨hC, hlater⟩ := List.forall_mem_cons.mp hfinished
          rw [guarded_of_none hbody hx]
          obtain ⟨a', left, hloop, hI, hsplit, hend⟩ :=
            ih (next a x rest initial hx hC) hhandled hlater
          exact ⟨a', left, hloop, hI, congrArg (x :: ·) hsplit, hend⟩
      | some e =>
          have hfirst : firstError err (x :: rest) = some e := by simp [firstError, hx]
          have hfin : finished err (x :: rest) = [] := by simp [finished, hx]
          rw [hfirst] at hhandled ⊢
          rw [guarded_of_handled hbody hx (hhandled e rfl), hfin]
          exact ⟨a, x :: rest, rfl, initial, rfl, fun h => absurd h (Option.some_ne_none e)⟩

/-- An error that is not handled leaves its transaction open. -/
theorem loop_guarded_open (hbody : ∀ a x, (body a x).2 = err x) {xs : List β} {e : ε}
    (hfirst : firstError err xs = some e) (he : handled e = false) (a : α) :
    (loop (guarded handled nested body) ⟨a, none⟩ xs).1.saved ≠ none := by
  induction xs generalizing a with
  | nil => cases hfirst
  | cons x rest ih =>
      unfold loop
      cases hx : err x with
      | none =>
          rw [guarded_of_none hbody hx]
          exact ih (by simpa [firstError, hx] using hfirst) _
      | some e' =>
          obtain rfl : e' = e := by simpa [firstError, hx] using hfirst
          rw [guarded_of_unhandled hbody hx he]
          exact Option.some_ne_none _

end Laws

end Connection

end AutoTrade.Library
