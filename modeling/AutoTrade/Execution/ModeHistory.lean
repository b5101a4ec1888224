import AutoTrade.Execution.ModeGate
import Mathlib.Data.List.Chain

/-! # The history of the operating mode

`OperatingModeManager` of `core/operating_mode.py`. `set_mode` assigns the new
mode before it calls `_record_transition`, which takes `from_mode` from the mode
it finds: an entry names the new mode twice.
-/

namespace AutoTrade.Execution

open AutoTrade.Library

structure ModeTransition where
  timestamp : Time
  fromMode : OperatingMode
  toMode : OperatingMode
  reason : String
  authorizedBy : String := "system"
deriving DecidableEq, Repr

structure OperatingModeManager where
  mode : OperatingMode := .signalOnly
  enableFullAuto : Bool := false
  history : List ModeTransition := []
  maxHistory : Int := 100
  frozen : Bool := false
deriving DecidableEq, Repr

namespace OperatingModeManager

def recordTransition (now : Time) (toMode : OperatingMode) (reason authorizedBy : String)
    (m : OperatingModeManager) : OperatingModeManager :=
  let history := m.history ++ [{ timestamp := now, fromMode := m.mode, toMode, reason, authorizedBy }]
  { m with history := if (history.length : Int) > m.maxHistory then history.tail else history }

/-- The manager after `set_mode`, or the text of the `OperatingModeViolationError` it raises. -/
def setMode (now : Time) (mode : OperatingMode) (reason authorizedBy : String)
    (m : OperatingModeManager) : Except String OperatingModeManager :=
  if m.frozen then .error ("Cannot change mode: manager is frozen at " ++ m.mode.value)
  else if mode = .fullAuto ∧ ¬ m.enableFullAuto then
    .error "FULL_AUTO mode requires --enable-full-auto flag or ENABLE_FULL_AUTO=true"
  else .ok (recordTransition now mode reason authorizedBy { m with mode })

def freeze (m : OperatingModeManager) : OperatingModeManager := { m with frozen := true }

/-- `set_mode` refuses the mode. -/
def Refuses (m : OperatingModeManager) (mode : OperatingMode) : Prop :=
  m.frozen = true ∨ mode = .fullAuto ∧ m.enableFullAuto = false

instance (m : OperatingModeManager) (mode : OperatingMode) : Decidable (m.Refuses mode) :=
  inferInstanceAs (Decidable (_ ∨ _))

theorem setMode_refused {m : OperatingModeManager} {mode : OperatingMode} (h : m.Refuses mode)
    (now : Time) (reason authorizedBy : String) :
    ∃ message, m.setMode now mode reason authorizedBy = .error message := by
  unfold setMode
  rcases h with hfrozen | ⟨hmode, hdisabled⟩
  · exact ⟨_, if_pos hfrozen⟩
  · split
    · exact ⟨_, rfl⟩
    · exact ⟨_, if_pos ⟨hmode, by simp [hdisabled]⟩⟩

theorem setMode_accepted {m : OperatingModeManager} {mode : OperatingMode} (h : ¬ m.Refuses mode)
    (now : Time) (reason authorizedBy : String) :
    m.setMode now mode reason authorizedBy =
      .ok (recordTransition now mode reason authorizedBy { m with mode }) := by
  obtain ⟨hfrozen, hallowed⟩ := not_or.mp h
  unfold setMode
  rw [if_neg hfrozen, if_neg]
  rintro ⟨hmode, hdisabled⟩
  exact hallowed ⟨hmode, by simpa using hdisabled⟩

end OperatingModeManager

open OperatingModeManager

/-! ## What the history should say -/

inductive OperatingModeOp
  | setMode (now : Time) (mode : OperatingMode) (reason authorizedBy : String)
  | freeze
deriving DecidableEq, Repr

/-- A manager, with the modes in force before and after each transition it took, the oldest
first. -/
structure ModeRecord where
  manager : OperatingModeManager
  taken : List (OperatingMode × OperatingMode) := []
deriving DecidableEq, Repr

namespace ModeRecord

def start (initialMode : OperatingMode) (enableFullAuto : Bool) (maxHistory : Int) : ModeRecord :=
  { manager := { mode := initialMode, enableFullAuto, maxHistory } }

def step (r : ModeRecord) : OperatingModeOp → ModeRecord
  | .setMode now mode reason authorizedBy =>
      match r.manager.setMode now mode reason authorizedBy with
      | .ok manager => { manager, taken := r.taken ++ [(r.manager.mode, manager.mode)] }
      | .error _ => r
  | .freeze => { r with manager := r.manager.freeze }

/-- The history is what is left of the transitions taken, each entry starts where the one before it
ended, and the last one leads to the mode in force. -/
structure IsChain (r : ModeRecord) : Prop where
  truthful : r.manager.history.map (fun t => (t.fromMode, t.toMode)) <:+ r.taken
  linked : r.manager.history.IsChain fun t u => u.fromMode = t.toMode
  current : ∀ t ∈ r.manager.history.getLast?, t.toMode = r.manager.mode

def RefusalChangesNothing (r : ModeRecord) : OperatingModeOp → Prop
  | .setMode now mode reason authorizedBy => r.manager.Refuses mode →
      (r.step (.setMode now mode reason authorizedBy)).manager.mode = r.manager.mode ∧
        (r.step (.setMode now mode reason authorizedBy)).manager.history = r.manager.history
  | .freeze => True

/-- A `set_mode` that is not refused names the mode already in force, or no history is kept. -/
def StaysInMode (r : ModeRecord) : OperatingModeOp → Prop
  | .setMode _ mode _ _ => r.manager.Refuses mode ∨ mode = r.manager.mode ∨ r.manager.maxHistory ≤ 0
  | .freeze => True

instance (r : ModeRecord) (op : OperatingModeOp) : Decidable (r.StaysInMode op) := by
  cases op <;> unfold StaysInMode <;> infer_instance

theorem step_refused {r : ModeRecord} {mode : OperatingMode} (h : r.manager.Refuses mode)
    (now : Time) (reason authorizedBy : String) :
    r.step (.setMode now mode reason authorizedBy) = r := by
  obtain ⟨message, hmessage⟩ := setMode_refused h now reason authorizedBy
  simp [step, hmessage]

theorem step_accepted {r : ModeRecord} {mode : OperatingMode} (h : ¬ r.manager.Refuses mode)
    (now : Time) (reason authorizedBy : String) :
    r.step (.setMode now mode reason authorizedBy) =
      { manager := recordTransition now mode reason authorizedBy { r.manager with mode }
        taken := r.taken ++ [(r.manager.mode, mode)] } := by
  simp only [step, setMode_accepted h]
  rfl

theorem refusalChangesNothing (r : ModeRecord) (op : OperatingModeOp) :
    r.RefusalChangesNothing op := by
  cases op with
  | setMode now mode reason authorizedBy =>
      intro hrefused
      rw [step_refused hrefused]
      exact ⟨rfl, rfl⟩
  | freeze => trivial

/-! ## One transition -/

/-- The chain, with an empty history where none is kept. -/
structure Kept (r : ModeRecord) : Prop where
  chain : r.IsChain
  unkept : r.manager.maxHistory ≤ 0 → r.manager.history = []

/-- The entry `_record_transition` writes for a mode already assigned. -/
def entryOf (now : Time) (mode : OperatingMode) (reason authorizedBy : String) : ModeTransition :=
  { timestamp := now, fromMode := mode, toMode := mode, reason, authorizedBy }

theorem history_recordTransition (m : OperatingModeManager) (now : Time) (mode : OperatingMode)
    (reason authorizedBy : String) :
    (recordTransition now mode reason authorizedBy { m with mode }).history =
      if m.maxHistory < m.history.length + 1 then
        (m.history ++ [entryOf now mode reason authorizedBy]).tail
      else m.history ++ [entryOf now mode reason authorizedBy] := by
  simp [recordTransition, entryOf]

/-- Where a history is kept, the new entry is its last. -/
theorem getLast?_recordTransition {m : OperatingModeManager} (hkept : 0 < m.maxHistory) (now : Time)
    (mode : OperatingMode) (reason authorizedBy : String) :
    (recordTransition now mode reason authorizedBy { m with mode }).history.getLast? =
      some (entryOf now mode reason authorizedBy) := by
  rw [history_recordTransition]
  split
  · rename_i hfull
    cases hold : m.history with
    | nil =>
        rw [hold] at hfull
        simp only [List.length_nil, Nat.cast_zero, zero_add] at hfull
        omega
    | cons t rest => simp
  · simp

/-- What is kept is what was there with the new entry at its end, or all of it but the oldest. -/
theorem history_suffix (m : OperatingModeManager) (now : Time) (mode : OperatingMode)
    (reason authorizedBy : String) :
    (recordTransition now mode reason authorizedBy { m with mode }).history <:+
      m.history ++ [entryOf now mode reason authorizedBy] := by
  rw [history_recordTransition]
  split
  · exact List.tail_suffix _
  · exact List.suffix_rfl

theorem IsChain.stay {r : ModeRecord} (h : r.IsChain) (now : Time) (reason authorizedBy : String) :
    IsChain
      { manager := recordTransition now r.manager.mode reason authorizedBy r.manager
        taken := r.taken ++ [(r.manager.mode, r.manager.mode)] } := by
  have hkept := history_suffix r.manager now r.manager.mode reason authorizedBy
  constructor
  · refine (hkept.map fun t => (t.fromMode, t.toMode)).trans ?_
    obtain ⟨older, holder⟩ := h.truthful
    exact ⟨older, by simp [← holder, entryOf]⟩
  · refine List.IsChain.suffix (List.isChain_append.mpr ⟨h.linked, List.isChain_singleton _, ?_⟩) hkept
    intro t ht u hu
    obtain rfl := Option.some.inj hu
    exact (h.current t ht).symm
  · intro t ht
    obtain ⟨older, holder⟩ := hkept
    have hlast := congrArg List.getLast? holder
    rw [List.getLast?_append, Option.mem_def.mp ht, List.getLast?_append] at hlast
    obtain rfl : t = entryOf now r.manager.mode reason authorizedBy := by simpa using hlast
    rfl

theorem Kept.step {r : ModeRecord} (h : r.Kept) {op : OperatingModeOp} (hstays : r.StaysInMode op) :
    (r.step op).Kept := by
  cases op with
  | freeze => exact ⟨⟨h.chain.truthful, h.chain.linked, h.chain.current⟩, h.unkept⟩
  | setMode now mode reason authorizedBy =>
      by_cases hrefused : r.manager.Refuses mode
      · rw [step_refused hrefused]
        exact h
      · rw [step_accepted hrefused]
        by_cases hnone : r.manager.maxHistory ≤ 0
        · -- what is appended is popped at once
          have hempty : (recordTransition now mode reason authorizedBy
              { r.manager with mode }).history = [] := by
            rw [history_recordTransition, h.unkept hnone]
            simp only [List.length_nil, Nat.cast_zero, zero_add, List.nil_append, List.tail_cons]
            rw [if_pos (by omega)]
          refine ⟨⟨?_, ?_, ?_⟩, fun _ => hempty⟩
          · simp only [hempty, List.map_nil]
            exact List.nil_suffix
          · simp only [hempty, List.isChain_nil]
          · simp [hempty]
        · have hmode : mode = r.manager.mode :=
            (hstays.resolve_left hrefused).resolve_right hnone
          subst hmode
          exact ⟨h.chain.stay now reason authorizedBy, fun hle => absurd hle hnone⟩

theorem staysInMode_of_isChain {r : ModeRecord} {op : OperatingModeOp}
    (hnext : (r.step op).IsChain) : r.StaysInMode op := by
  cases op with
  | freeze => trivial
  | setMode now mode reason authorizedBy =>
      by_cases hrefused : r.manager.Refuses mode
      · exact .inl hrefused
      · refine .inr ?_
        by_contra hmoves
        rw [not_or] at hmoves
        obtain ⟨hmode, hkept⟩ := hmoves
        rw [step_accepted hrefused] at hnext
        obtain ⟨older, holder⟩ := hnext.truthful
        -- the entry says where the call led, twice; the transition started elsewhere
        have hlast := congrArg List.getLast? holder
        rw [List.getLast?_append, List.getLast?_map,
          getLast?_recordTransition (by omega) now mode reason authorizedBy] at hlast
        simp only [entryOf, Option.map_some, Option.some_or, List.getLast?_append,
          List.getLast?_singleton, Option.some.injEq, Prod.mk.injEq, and_true] at hlast
        exact hmode hlast

/-- In a run of `set_mode` and `freeze` calls the history is the chain of the modes in force, and a
refusal changes nothing, exactly when every accepted call names the mode already in force, or no
history is kept. -/
theorem history_is_chain_iff (initialMode : OperatingMode) (enableFullAuto : Bool)
    (maxHistory : Int) (ops : List OperatingModeOp) :
    Always step IsChain (start initialMode enableFullAuto maxHistory) ops ∧
        StepsMeet step RefusalChangesNothing (start initialMode enableFullAuto maxHistory) ops ↔
      StepsMeet step StaysInMode (start initialMode enableFullAuto maxHistory) ops := by
  apply always_and_stepsMeet_iff (J := Kept)
  · intro r h
    exact h.chain
  · intro r op _ h hstays
    exact ⟨h.step hstays, r.refusalChangesNothing op⟩
  · intro r op _ _ hnext _
    exact staysInMode_of_isChain hnext
  · exact ⟨⟨List.nil_suffix, List.isChain_nil, by simp [start]⟩, fun _ => rfl⟩

/-- The first transition out of `SIGNAL_ONLY`: its entry says it started in `PAPER`. -/
theorem history_forgets_signal_only :
    ¬ Always step IsChain (start .signalOnly false 100) [.setMode 0 .paper "go" "ops"] := by
  intro always
  exact absurd always.final.truthful (by decide)

end ModeRecord

end AutoTrade.Execution
