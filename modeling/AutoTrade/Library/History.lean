import AutoTrade.Library.Run

/-! # What a run leaves of its history

A cell that operations overwrite holds the last write of a run, and a latch that
is set once holds the first event. Which event an operation is may depend on the
state it starts from.
-/

namespace AutoTrade.Library

section History

variable {σ ω α ε : Type} {step : σ → ω → σ}

/-- The last write counts. -/
theorem run_last_write {read : σ → α} {write : ω → Option α}
    (h : ∀ s op, read (step s op) = (write op).getD (read s)) (s : σ) (ops : List ω) :
    read (run step s ops) = (ops.filterMap write).getLast?.getD (read s) := by
  induction ops generalizing s with
  | nil => rfl
  | cons op rest ih =>
      have hnext : run step s (op :: rest) = run step (step s op) rest := rfl
      rw [hnext, ih, h]
      cases hw : write op with
      | none => rw [List.filterMap_cons_none hw, Option.getD_none]
      | some a =>
          rw [List.filterMap_cons_some hw, List.getLast?_cons]
          rfl

variable (step) in
/-- The first event of a run. -/
def firstEvent (event : σ → ω → Option ε) : σ → List ω → Option ε
  | _, [] => none
  | s, op :: rest => (event s op).or (firstEvent event (step s op) rest)

/-- A latch keeps what it is set to. -/
theorem latch_run {read : σ → Option ε} {event : σ → ω → Option ε}
    (h : ∀ s op, read (step s op) = (read s).or (event s op)) (s : σ) (ops : List ω) :
    read (run step s ops) = (read s).or (firstEvent step event s ops) := by
  induction ops generalizing s with
  | nil => exact (Option.or_none).symm
  | cons op rest ih =>
      have hnext : run step s (op :: rest) = run step (step s op) rest := rfl
      rw [hnext, ih, h, Option.or_assoc]
      rfl

end History

end AutoTrade.Library
