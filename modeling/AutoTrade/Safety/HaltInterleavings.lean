import AutoTrade.Safety.HardHalt

/-! # The halt under every order of turns

Between the test of the flag in `trip_hard_halt` and its setting, other threads may trip the halt
themselves or clear it. A trip is never lost for all that: once the call has returned the flag is
set, unless a clear has lowered it meanwhile. The reason stands on weaker ground, since a clear may
reset it after a trip has stored its own.
-/

namespace AutoTrade.Safety

open AutoTrade.Library

namespace World

/-! ## A trip is not lost -/

/-- The turn executes `_HARD_HALT.clear()`. -/
def Lowers (w : World) (t : Turn) : Prop := (w.positions t.thread).isLowering = true

instance (w : World) (t : Turn) : Decidable (w.Lowers t) := inferInstanceAs (Decidable (_ = _))

/-- The reason of the halt a turn calls for: it starts a trip, finds the stop file, or finds the
limit breached. -/
def calledText? (w : World) (t : Turn) : Option String :=
  match w.positions t.thread, t.call with
  | .idle, .tripHardHalt reason source => some (haltText reason source)
  | .idle, .checkKillFileAndHalt =>
      if t.around.stopFile then some (haltText stopFileReason "kill_file_check") else none
  | .idle, .killFileWatcher =>
      if !w.shared.shutdown && t.around.stopFile then
        some (haltText stopFileReason "kill_file_watcher")
      else none
  | .comparing source limit, _ =>
      if w.shared.intradayPnl < limit then
        some (haltText (breachReason w.shared.intradayPnl limit) source)
      else none
  | _, _ => none

def CallsHalt (w : World) (t : Turn) : Prop := (w.calledText? t).isSome = true

/-- The flag is set, or the thread is on its way to set it. -/
def Bound (w : World) (i : Nat) : Prop :=
  w.shared.hardHalt = true ∨ (w.positions i).tripping = true

/-- A call for a halt finds the flag set, or makes its thread trip with the text it called with. -/
theorem access_of_calledText? {w : World} {t : Turn} {text : String}
    (h : w.calledText? t = some text) :
    (w.access t).shared = w.shared ∧
      (w.shared.hardHalt = true ∧ (w.access t).position = .idle ∨
        (w.access t).position.text? = some text) := by
  unfold calledText? at h
  split at h
  · rename_i hidle hcall
    cases h
    rw [access_idle hidle, hcall, begin]
    by_cases hset : w.shared.hardHalt = true <;> simp [hset, Position.text?]
  · rename_i hidle hcall
    rw [access_idle hidle, hcall, begin]
    split at h
    · rename_i hfile
      cases h
      simp [hfile, Position.text?]
    · cases h
  · rename_i hidle hcall
    rw [access_idle hidle, hcall, begin]
    split at h
    · rename_i hfile
      cases h
      simp [hfile, Position.text?]
    · cases h
  · rename_i hcomparing
    rw [access_busy hcomparing (by simp), advance]
    split at h
    · rename_i hbreach
      cases h
      simp [hbreach, Position.text?]
    · cases h
  · cases h

theorem tripping_of_text? {p : Position} {text : String} (h : p.text? = some text) :
    p.tripping = true := by
  cases p <;> first | rfl | cases h

theorem bound_of_callsHalt {w : World} {t : Turn} (h : w.CallsHalt t) :
    (w.turn t).Bound t.thread := by
  obtain ⟨text, htext⟩ := Option.isSome_iff_exists.mp h
  obtain ⟨hshared, ⟨hset, -⟩ | hposition⟩ := access_of_calledText? htext
  · left
    rw [turn_shared, hshared, hset]
  · right
    rw [turn_positions_self]
    exact tripping_of_text? hposition

theorem begin_hardHalt (i : Nat) (s : SafetyState) (around : Surroundings) (call : HaltCall) :
    (begin i s around call).shared.hardHalt = s.hardHalt := by
  cases call <;> simp only [begin] <;> (try split) <;> (try split) <;> rfl

theorem advance_hardHalt {s : SafetyState} {around : Surroundings} {p : Position}
    (hset : s.hardHalt = true) (hkept : p.isLowering = false) :
    (advance s around p).shared.hardHalt = true := by
  cases p with
  | testing text after =>
      rw [advance, if_pos hset]
      cases after <;> exact hset
  | setting after => cases after <;> rfl
  | readingLimit source =>
      simp only [advance]
      split <;> exact hset
  | comparing source limit =>
      simp only [advance]
      split <;> exact hset
  | lowering now source reason previous => simp [Position.isLowering] at hkept
  | _ => exact hset

theorem advance_tripping {s : SafetyState} {around : Surroundings} {p : Position}
    (h : p.tripping = true) :
    (advance s around p).shared.hardHalt = true ∨ (advance s around p).position.tripping = true := by
  cases p with
  | testing text after =>
      by_cases hset : s.hardHalt = true
      · exact .inl (advance_hardHalt hset rfl)
      · rw [advance, if_neg hset]
        exact .inr rfl
  | storing text after => exact .inr rfl
  | setting after =>
      left
      cases after <;> rfl
  | _ => simp [Position.tripping] at h

theorem access_hardHalt {w : World} {t : Turn} (hset : w.shared.hardHalt = true)
    (hkept : ¬ w.Lowers t) : (w.access t).shared.hardHalt = true := by
  by_cases hidle : w.positions t.thread = .idle
  · rw [access_idle hidle, begin_hardHalt, hset]
  · rw [access_busy rfl hidle]
    exact advance_hardHalt hset (by simpa [Lowers] using hkept)

theorem bound_turn {w : World} {t : Turn} {i : Nat} (hbound : w.Bound i) (hkept : ¬ w.Lowers t) :
    (w.turn t).Bound i := by
  rcases hbound with hset | htripping
  · exact .inl (access_hardHalt hset hkept)
  by_cases hi : i = t.thread
  · subst hi
    have hbusy : w.positions t.thread ≠ .idle := by
      intro hidle
      simp [hidle, Position.tripping] at htripping
    rw [Bound, turn_shared, turn_positions_self, access_busy rfl hbusy]
    exact advance_tripping htripping
  · right
    rw [turn_positions_other w hi]
    exact htripping

/-- The shutdown is requested, or the watcher is on its way to request it. -/
def BringsShutdown (w : World) (i : Nat) : Prop :=
  w.shared.shutdown = true ∨ (w.positions i).bringsShutdown = true

theorem access_shutdown {w : World} {t : Turn} (h : w.shared.shutdown = true) :
    (w.access t).shared.shutdown = true := by
  by_cases hidle : w.positions t.thread = .idle
  · rw [access_idle hidle]
    cases hcall : t.call with
    | requestShutdown => rfl
    | _ =>
        simp only [begin]
        (try split) <;> (try split) <;> exact h
  · rw [access_busy rfl hidle]
    cases hp : w.positions t.thread with
    | testing text after =>
        simp only [advance]
        split
        · cases after <;> exact h
        · exact h
    | setting after => cases after <;> exact h
    | requesting => rfl
    | readingLimit source =>
        simp only [advance]
        split <;> exact h
    | comparing source limit =>
        simp only [advance]
        split <;> exact h
    | _ => exact h

theorem advance_bringsShutdown {s : SafetyState} {around : Surroundings} {p : Position}
    (h : p.bringsShutdown = true) :
    (advance s around p).shared.shutdown = true ∨
      (advance s around p).position.bringsShutdown = true := by
  cases p with
  | testing text after =>
      have hafter : after = .requestsShutdown := by simpa [Position.bringsShutdown] using h
      subst hafter
      right
      simp only [advance]
      split <;> rfl
  | storing text after => exact .inr h
  | setting after =>
      have hafter : after = .requestsShutdown := by simpa [Position.bringsShutdown] using h
      subst hafter
      exact .inr rfl
  | requesting => exact .inl rfl
  | _ => simp [Position.bringsShutdown] at h

theorem bringsShutdown_turn {w : World} {t : Turn} {i : Nat} (h : w.BringsShutdown i) :
    (w.turn t).BringsShutdown i := by
  rcases h with hset | hbrings
  · exact .inl (access_shutdown hset)
  by_cases hi : i = t.thread
  · subst hi
    have hbusy : w.positions t.thread ≠ .idle := by
      intro hidle
      simp [hidle, Position.bringsShutdown] at hbrings
    rw [BringsShutdown, turn_shared, turn_positions_self, access_busy rfl hbusy]
    exact advance_bringsShutdown hbrings
  · right
    rw [turn_positions_other w hi]
    exact hbrings

/-- The watcher's pass that finds the file. -/
def FindsStopFile (w : World) (t : Turn) : Prop :=
  w.positions t.thread = .idle ∧ t.call = .killFileWatcher ∧ w.CallsHalt t

theorem bringsShutdown_of_findsStopFile {w : World} {t : Turn} (h : w.FindsStopFile t) :
    (w.turn t).BringsShutdown t.thread := by
  obtain ⟨hidle, hcall, hcalls⟩ := h
  have hfile : w.shared.shutdown = false ∧ t.around.stopFile = true := by
    simpa [CallsHalt, calledText?, hidle, hcall] using hcalls
  right
  rw [turn_positions_self, access_idle hidle, hcall, begin]
  simp [hfile, Position.bringsShutdown]

/-- Whatever the other threads do meanwhile, and in whatever order: once the thread that called for
a halt is no longer tripping it, the flag is set, unless a clear has lowered it since the call. The
watcher that found the stop file has also requested the shutdown when its pass is over. -/
theorem called_halt_stands {w : World} {t : Turn} {turns : List Turn} (hcalls : w.CallsHalt t)
    (hkept : StepsMeet turn (fun w t => ¬ w.Lowers t) (w.turn t) turns) :
    let after := run turn (w.turn t) turns
    ((after.positions t.thread).tripping = false → after.shared.hardHalt = true) ∧
      (w.FindsStopFile t → after.positions t.thread = .idle → after.shared.shutdown = true) := by
  intro after
  constructor
  · intro hdone
    have hbound : after.Bound t.thread := by
      have halways := always_of_stepsMeet (I := fun w => Bound w t.thread)
        (fun w _ _ hI hC => bound_turn hI hC) (bound_of_callsHalt hcalls) hkept
      exact halways.final
    rcases hbound with hset | htripping
    · exact hset
    · rw [hdone] at htripping
      exact absurd htripping (by decide)
  · intro hfinds hidle
    have hbrings : after.BringsShutdown t.thread :=
      run_invariant (I := fun w => BringsShutdown w t.thread)
        (fun w _ hI => bringsShutdown_turn hI) (bringsShutdown_of_findsStopFile hfinds) turns
    rcases hbrings with hset | hpending
    · exact hset
    · rw [hidle] at hpending
      exact absurd hpending (by decide)

/-- A clear that was accepted before the trip lowers the flag before the trip sets it. -/
theorem called_halt_stands_in_turns :
    (run turn (turn {} ⟨0, .tripHardHalt "breach" "risk", ⟨90000000, 0, false⟩⟩)
      [⟨1, .clearHardHalt "operator" "reviewed", ⟨91000000, 1, false⟩⟩,
        ⟨0, .resetIntradayPnl, ⟨92000000, 2, false⟩⟩,
        ⟨0, .resetIntradayPnl, ⟨93000000, 3, false⟩⟩]).shared.hardHalt = true :=
  (called_halt_stands (w := {}) (t := ⟨0, .tripHardHalt "breach" "risk", ⟨90000000, 0, false⟩⟩)
    rfl (by decide)).1 (by decide)

/-! ## The reason of a halt -/

/-- The reason a turn stores. -/
def storedText? (w : World) (t : Turn) : Option String :=
  match w.positions t.thread with
  | .storing text _ => some text
  | _ => none

/-- What a turn can do to the flag, to its reason and to a trip under way. -/
inductive TripStep (w : World) (t : Turn) (after : Access) : Prop
  | elsewhere (stays : after.position.text? = none ∧ after.position.isSetting = false)
      (flag : after.shared.hardHalt = true → w.shared.hardHalt = true)
      (reason : after.shared.hardHaltReason = w.shared.hardHaltReason)
      (position : w.storedText? t = none ∧ (w.positions t.thread).isRecording = false)
  | calls {text : String} (called : w.calledText? t = some text)
      (position : after.position.text? = some text) (shared : after.shared = w.shared)
  | passes {text : String} {next : AfterTrip} (before : w.positions t.thread = .testing text next)
      (passed : after = ⟨.storing text next, w.shared, none⟩)
  | stores {text : String} {next : AfterTrip} (before : w.positions t.thread = .storing text next)
      (stored : after = ⟨.setting next, { w.shared with hardHaltReason := text }, none⟩)
  | sets {next : AfterTrip} (before : w.positions t.thread = .setting next)
      (stays : after.position.text? = none ∧ after.position.isSetting = false)
      (shared : after.shared = { w.shared with hardHalt := true })
  | resets (before : (w.positions t.thread).isRecording = true)
      (position : after.position = .idle) (flag : after.shared.hardHalt = w.shared.hardHalt)
      (reason : after.shared.hardHaltReason = "")

theorem resume_position (s : SafetyState) (after : AfterTrip) :
    ((after.resume s).position.text? = none ∧ (after.resume s).position.isSetting = false) ∧
      (after.resume s).shared = s := by
  cases after <;> exact ⟨⟨rfl, rfl⟩, rfl⟩

theorem tripStep_begin {w : World} {t : Turn} (hidle : w.positions t.thread = .idle) :
    TripStep w t (w.access t) := by
  have hnone : w.storedText? t = none ∧ (w.positions t.thread).isRecording = false := by
    simp [storedText?, hidle, Position.isRecording]
  cases hcalled : w.calledText? t with
  | some text =>
      obtain ⟨hshared, ⟨-, hposition⟩ | hposition⟩ := access_of_calledText? hcalled
      · exact .elsewhere (by rw [hposition]; exact ⟨rfl, rfl⟩) (by rw [hshared]; exact id)
          (by rw [hshared]) hnone
      · exact .calls hcalled hposition hshared
  | none =>
      rw [access_idle hidle]
      unfold calledText? at hcalled
      rw [hidle] at hcalled
      cases hcall : t.call with
      | tripHardHalt reason source => simp [hcall] at hcalled
      | checkKillFileAndHalt =>
          have hfile : t.around.stopFile = false := by simpa [hcall] using hcalled
          simp only [begin, hfile]
          exact .elsewhere ⟨rfl, rfl⟩ id rfl hnone
      | killFileWatcher =>
          have hfile : ¬ (!w.shared.shutdown && t.around.stopFile) = true := by
            intro h
            simp [hcall, h] at hcalled
          simp only [begin, if_neg hfile]
          exact .elsewhere ⟨rfl, rfl⟩ id rfl hnone
      | checkIntradayPnlAndHalt source =>
          simp only [begin]
          split <;> exact .elsewhere ⟨rfl, rfl⟩ id rfl hnone
      | clearHardHalt source reason =>
          simp only [begin]
          split
          · exact .elsewhere ⟨rfl, rfl⟩ id rfl hnone
          · split <;> exact .elsewhere ⟨rfl, rfl⟩ id rfl hnone
      | _ => exact .elsewhere ⟨rfl, rfl⟩ id rfl hnone

theorem tripStep (w : World) (t : Turn) : TripStep w t (w.access t) := by
  by_cases hidle : w.positions t.thread = .idle
  · exact tripStep_begin hidle
  cases hp : w.positions t.thread with
  | idle => exact absurd hp hidle
  | testing text next =>
      obtain ⟨hstays, hshared⟩ := resume_position w.shared next
      rw [access_busy hp (by simp), advance]
      split
      · exact .elsewhere hstays (by rw [hshared]; exact id) (by rw [hshared])
          (by simp [storedText?, hp, Position.isRecording])
      · exact .passes hp rfl
  | storing text next =>
      rw [access_busy hp (by simp)]
      exact .stores hp rfl
  | setting next =>
      obtain ⟨hstays, hshared⟩ := resume_position { w.shared with hardHalt := true } next
      rw [access_busy hp (by simp)]
      exact .sets hp hstays hshared
  | recording now source reason previous =>
      rw [access_busy hp (by simp)]
      exact .resets (by rw [hp]; rfl) rfl rfl rfl
  | lowering now source reason previous =>
      rw [access_busy hp (by simp)]
      exact .elsewhere ⟨rfl, rfl⟩ (fun h => nomatch h) rfl
        (by simp [storedText?, hp, Position.isRecording])
  | comparing source limit =>
      cases hcalled : w.calledText? t with
      | some text =>
          obtain ⟨hshared, ⟨-, hposition⟩ | hposition⟩ := access_of_calledText? hcalled
          · exact .elsewhere (by rw [hposition]; exact ⟨rfl, rfl⟩) (by rw [hshared]; exact id)
              (by rw [hshared]) (by simp [storedText?, hp, Position.isRecording])
          · exact .calls hcalled hposition hshared
      | none =>
          have hbreach : ¬ w.shared.intradayPnl < limit := by
            intro h
            simp [calledText?, hp, h] at hcalled
          rw [access_busy hp (by simp), advance, if_neg hbreach]
          exact .elsewhere ⟨rfl, rfl⟩ id rfl (by simp [storedText?, hp, Position.isRecording])
  | readingLimit source =>
      rw [access_busy hp (by simp), advance]
      split <;>
        exact .elsewhere ⟨rfl, rfl⟩ id rfl (by simp [storedText?, hp, Position.isRecording])
  | _ =>
      rw [access_busy hp (by simp)]
      exact .elsewhere ⟨rfl, rfl⟩ id rfl (by simp [storedText?, hp, Position.isRecording])

/-- The reasons a run calls for halts with, in their order. -/
def calledTexts : World → List Turn → List String
  | _, [] => []
  | w, t :: rest => (w.calledText? t).toList ++ calledTexts (w.turn t) rest

/-- The reason stored last, after a turn that may store one or reset it. -/
def storedAfter (latest : Option String) (w : World) (t : Turn) : Option String :=
  if (w.positions t.thread).isRecording then none else (w.storedText? t).or latest

/-- The reason stored last since the latest clear. -/
def storedSinceClear : Option String → World → List Turn → Option String
  | latest, _, [] => latest
  | latest, w, t :: rest => storedSinceClear (storedAfter latest w t) (w.turn t) rest

/-- A clear resets the reason only while no thread has got past storing its own. -/
def ResetsAlone (w : World) (t : Turn) : Prop :=
  (w.positions t.thread).isRecording = true →
    w.shared.hardHalt = false ∧ ∀ i, (w.positions i).isSetting = false

/-- The flag is set, or about to be. -/
def Halting (w : World) : Prop :=
  w.shared.hardHalt = true ∨ ∃ i, (w.positions i).isSetting = true

/-- How the reason and the trips under way follow from what the run called for and stored. -/
structure Explained (texts : List String) (latest : Option String) (w : World) : Prop where
  trips : ∀ i text, (w.positions i).text? = some text → text ∈ texts
  stored : ∀ text, latest = some text → text ∈ texts
  reason : w.shared.hardHaltReason = latest.getD ""
  called : w.Halting → texts ≠ []

theorem isSetting_of_text? {p : Position} {text : String} (h : p.text? = some text) :
    p.isSetting = false := by
  cases p with
  | setting after => cases h
  | _ => rfl

theorem exists_turn_positions {w : World} {t : Turn} {P : Position → Prop}
    (h : ∃ i, P ((w.turn t).positions i)) :
    P (w.access t).position ∨ ∃ i, i ≠ t.thread ∧ P (w.positions i) := by
  obtain ⟨i, hi⟩ := h
  by_cases hthread : i = t.thread
  · subst hthread
    rw [turn_positions_self] at hi
    exact .inl hi
  · rw [turn_positions_other w hthread] at hi
    exact .inr ⟨i, hthread, hi⟩

theorem halting_turn {w : World} {t : Turn} (h : (w.turn t).Halting) :
    w.Halting ∨ (w.storedText? t).isSome = true := by
  rcases h with hflag | hsetting
  · rw [turn_shared] at hflag
    cases tripStep w t with
    | elsewhere stays flag reason position => exact .inl (.inl (flag hflag))
    | calls called position shared => exact .inl (.inl (shared ▸ hflag))
    | passes before passed => exact .inl (.inl (by rw [passed] at hflag; exact hflag))
    | stores before stored => exact .inl (.inl (by rw [stored] at hflag; exact hflag))
    | sets before stays shared => exact .inl (.inr ⟨t.thread, by rw [before]; rfl⟩)
    | resets before position flag reason => exact .inl (.inl (flag ▸ hflag))
  · rcases exists_turn_positions (P := fun p => p.isSetting = true) hsetting with hself | hother
    · cases tripStep w t with
      | elsewhere stays flag reason position => rw [stays.2] at hself; cases hself
      | calls called position shared =>
          rw [isSetting_of_text? position] at hself
          cases hself
      | passes before passed => rw [passed] at hself; cases hself
      | stores before stored => exact .inr (by simp [storedText?, before])
      | sets before stays shared => rw [stays.2] at hself; cases hself
      | resets before position flag reason => rw [position] at hself; cases hself
    · obtain ⟨i, -, hi⟩ := hother
      exact .inl (.inr ⟨i, hi⟩)

theorem text?_of_storedText? {w : World} {t : Turn} {text : String}
    (h : w.storedText? t = some text) : (w.positions t.thread).text? = some text := by
  unfold storedText? at h
  split at h
  · rename_i hp
    rw [hp]
    exact h
  · cases h

theorem text?_turn {w : World} {t : Turn} {i : Nat} {text : String}
    (h : ((w.turn t).positions i).text? = some text) :
    w.calledText? t = some text ∨ (w.positions i).text? = some text := by
  by_cases hi : i = t.thread
  · subst hi
    rw [turn_positions_self] at h
    cases tripStep w t with
    | elsewhere stays flag reason position => rw [stays.1] at h; cases h
    | calls called position shared => exact .inl (by rw [called, ← position, h])
    | passes before passed =>
        rw [passed] at h
        rw [before]
        exact .inr h
    | stores before stored => rw [stored] at h; cases h
    | sets before stays shared => rw [stays.1] at h; cases h
    | resets before position flag reason => rw [position] at h; cases h
  · rw [turn_positions_other w hi] at h
    exact .inr h

theorem atRest_of_calledText? {w : World} {t : Turn} {text : String}
    (h : w.calledText? t = some text) :
    w.storedText? t = none ∧ (w.positions t.thread).isRecording = false := by
  cases hp : w.positions t.thread with
  | idle => simp [storedText?, hp, Position.isRecording]
  | comparing source limit => simp [storedText?, hp, Position.isRecording]
  | _ => simp [calledText?, hp] at h

theorem reason_turn {w : World} {latest : Option String}
    (h : w.shared.hardHaltReason = latest.getD "") (t : Turn) :
    (w.turn t).shared.hardHaltReason = (storedAfter latest w t).getD "" := by
  rw [turn_shared, storedAfter]
  cases tripStep w t with
  | elsewhere stays flag reason position => simp [reason, position.1, position.2, h]
  | calls called position shared => simp [shared, atRest_of_calledText? called, h]
  | passes before passed => simp [passed, storedText?, before, Position.isRecording, h]
  | stores before stored => simp [stored, storedText?, before, Position.isRecording]
  | sets before stays shared => simp [shared, storedText?, before, Position.isRecording, h]
  | resets before position flag reason => simp [reason, before]

theorem Explained.turn {texts : List String} {latest : Option String} {w : World}
    (h : Explained texts latest w) (t : Turn) :
    Explained (texts ++ (w.calledText? t).toList) (storedAfter latest w t) (w.turn t) := by
  have hold : ∀ text, text ∈ texts → text ∈ texts ++ (w.calledText? t).toList :=
    fun text htext => List.mem_append_left _ htext
  have hstored : ∀ text, w.storedText? t = some text → text ∈ texts :=
    fun text htext => h.trips t.thread text (text?_of_storedText? htext)
  refine ⟨?_, ?_, reason_turn h.reason t, ?_⟩
  · intro i text htext
    rcases text?_turn htext with hcalled | hbefore
    · exact List.mem_append_right _ (by simp [hcalled])
    · exact hold text (h.trips i text hbefore)
  · intro text htext
    unfold storedAfter at htext
    split at htext
    · cases htext
    · rcases Option.or_eq_some_iff.mp htext with hnew | ⟨-, hlatest⟩
      · exact hold text (hstored text hnew)
      · exact hold text (h.stored text hlatest)
  · intro hhalting hempty
    have htexts : texts = [] := (List.append_eq_nil_iff.mp hempty).1
    rcases halting_turn hhalting with hbefore | hnew
    · exact h.called hbefore htexts
    · obtain ⟨text, htext⟩ := Option.isSome_iff_exists.mp hnew
      exact List.ne_nil_of_mem (hstored text htext) htexts

theorem explained_run {texts : List String} {latest : Option String} {w : World}
    (h : Explained texts latest w) (turns : List Turn) :
    Explained (texts ++ w.calledTexts turns) (storedSinceClear latest w turns)
      (run turn w turns) := by
  induction turns generalizing texts latest w with
  | nil => simpa [calledTexts, storedSinceClear, run] using h
  | cons t rest ih =>
      have hrest := ih (h.turn t)
      rw [List.append_assoc] at hrest
      exact hrest

/-- While resets come alone, a set flag has a stored reason. -/
theorem stored_turn {w : World} {latest : Option String} {t : Turn}
    (h : w.Halting → latest.isSome = true) (halone : w.ResetsAlone t) :
    (w.turn t).Halting → (storedAfter latest w t).isSome = true := by
  intro hhalting
  unfold storedAfter
  split
  · rename_i hrecording
    obtain ⟨hflag, hsetting⟩ := halone hrecording
    have hnone : w.storedText? t = none := by
      cases hp : w.positions t.thread with
      | storing text next => simp [hp, Position.isRecording] at hrecording
      | _ => simp [storedText?, hp]
    rcases halting_turn hhalting with (hset | ⟨i, hi⟩) | hnew
    · rw [hflag] at hset
      cases hset
    · rw [hsetting i] at hi
      cases hi
    · rw [hnone] at hnew
      cases hnew
  · rcases halting_turn hhalting with hbefore | hnew
    · simp [h hbefore]
    · simp [hnew]

theorem stored_run {w : World} {latest : Option String} (h : w.Halting → latest.isSome = true)
    {turns : List Turn} (halone : StepsMeet turn ResetsAlone w turns) :
    (run turn w turns).Halting → (storedSinceClear latest w turns).isSome = true := by
  induction turns generalizing w latest with
  | nil => exact h
  | cons t rest ih => exact ih (stored_turn h halone.1) halone.2

/-- The flag is never set unless the run called for a halt. Where each clear resets the reason
before any trip has got past storing its own, a set flag carries the reason that was stored last
since the latest clear, and that is one the run called for a halt with. -/
theorem halt_explained (turns : List Turn)
    (hset : (run turn {} turns).shared.hardHalt = true) :
    calledTexts {} turns ≠ [] ∧
      (StepsMeet turn ResetsAlone {} turns →
        ∃ text ∈ calledTexts {} turns, storedSinceClear none {} turns = some text ∧
          (run turn {} turns).shared.hardHaltReason = text) := by
  have hstart : Explained [] none {} :=
    ⟨fun i text h => (by cases h), fun text h => (by cases h), rfl,
      fun h => (by rcases h with h | ⟨i, hi⟩ <;> contradiction)⟩
  have hrun := explained_run hstart turns
  rw [List.nil_append] at hrun
  refine ⟨hrun.called (.inl hset), ?_⟩
  intro halone
  have hidle : World.Halting {} → (none : Option String).isSome = true := by
    rintro (h | ⟨i, hi⟩) <;> contradiction
  have hstored := stored_run hidle halone (.inl hset)
  obtain ⟨text, htext⟩ := Option.isSome_iff_exists.mp hstored
  refine ⟨text, hrun.stored text htext, htext, ?_⟩
  rw [hrun.reason, htext]
  rfl

/-- An operator clears the halt, and after that one thread trips it. -/
def clearThenTrip : List Turn :=
  [⟨1, .clearHardHalt "operator" "reviewed", ⟨91000000, 1, false⟩⟩,
    ⟨1, .resetIntradayPnl, ⟨92000000, 2, false⟩⟩,
    ⟨1, .resetIntradayPnl, ⟨93000000, 3, false⟩⟩,
    ⟨1, .resetIntradayPnl, ⟨94000000, 4, false⟩⟩,
    ⟨0, .tripHardHalt "breach" "risk", ⟨95000000, 5, false⟩⟩,
    ⟨0, .resetIntradayPnl, ⟨96000000, 6, false⟩⟩,
    ⟨0, .resetIntradayPnl, ⟨97000000, 7, false⟩⟩]

theorem halt_explained_after_clear :
    ∃ text ∈ calledTexts {} clearThenTrip, storedSinceClear none {} clearThenTrip = some text ∧
      (run turn {} clearThenTrip).shared.hardHaltReason = text :=
  (halt_explained clearThenTrip (by decide)).2
    ⟨nofun, nofun, nofun,
      fun _ => ⟨rfl, fun i => by rcases i with _ | _ | i <;> rfl⟩, nofun, nofun, nofun, trivial⟩

/-- A clear that resets the reason late leaves a halt without one. -/
example :
    let after := run turn {}
      [⟨0, .tripHardHalt "breach" "risk", ⟨90000000, 0, false⟩⟩,
        ⟨1, .clearHardHalt "operator" "reviewed", ⟨91000000, 1, false⟩⟩,
        ⟨1, .resetIntradayPnl, ⟨92000000, 2, false⟩⟩,
        ⟨1, .resetIntradayPnl, ⟨93000000, 3, false⟩⟩,
        ⟨0, .resetIntradayPnl, ⟨94000000, 4, false⟩⟩,
        ⟨0, .resetIntradayPnl, ⟨95000000, 5, false⟩⟩,
        ⟨1, .resetIntradayPnl, ⟨96000000, 6, false⟩⟩]
    after.shared.hardHalt = true ∧ after.shared.hardHaltReason = "" := by
  decide

end World

end AutoTrade.Safety
