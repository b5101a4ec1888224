import AutoTrade.Signals.GradingLaws
import Mathlib.Logic.Function.Basic

/-! # First touches under interleavings

The transactions of grading passes, sweeps and resolvers in any order. A sweep
writes for signals it classified before and a resolver for signals it read
before; a first touch stands as long as neither finds a signal that was touched
or settled since.
-/

namespace AutoTrade.Signals

open AutoTrade.Library

/-- What a sweep read: the signals to expire, and its time. -/
structure Sweep where
  candidates : List String := []
  now : Time := 0

/-- The signals, and what sweeps and resolvers hold of earlier reads. -/
structure Writers where
  tracker : SignalOutcomeTracker
  sweeps : Nat → Sweep := fun _ => {}
  pending : Nat → List SystemSignal := fun _ => []

inductive WriterStep
  | update (observe : String → Observation) (now : Time)
  | classify (sweep : Nat) (now : Time)
  | expire (sweep : Nat)
  | readPending (resolver : Nat) (limit : Option Nat)
  | resolveNext (resolver : Nat) (bars : List SignalBar) (now : Time)

namespace WriterStep

variable (rt : SignalRuntime)

def step (w : Writers) : WriterStep → Writers
  | update observe now => { w with tracker := updateActiveSignalOutcomes rt w.tracker observe now }
  | classify sweep now =>
      match candidatesToExpire rt w.tracker.signals now with
      | .error _ => w
      | .ok candidates => { w with sweeps := Function.update w.sweeps sweep { candidates, now } }
  | expire sweep =>
      { w with
        tracker.signals :=
          expireCandidates rt w.tracker.signals (w.sweeps sweep).candidates (w.sweeps sweep).now
        sweeps := Function.update w.sweeps sweep {} }
  | readPending resolver limit =>
      { w with
        pending := Function.update w.pending resolver (pendingSignals w.tracker.signals limit) }
  | resolveNext resolver bars now =>
      match w.pending resolver with
      | [] => w
      | read :: rest =>
          { w with
            tracker.signals := resolveSignal rt w.tracker.signals read bars now
            pending := Function.update w.pending resolver rest }

/-- The signal is at its second target or stopped. -/
def Reached (s : SystemSignal) : Prop := s.status ∈ [.target2Hit, .slHit]

/-- The step writes over no touch and no such signal: a pass grades none that has no touch, a sweep
finds none and no touch without its time and price, and a resolver with an outcome to write finds
none and no touch but the one it read. -/
def Rechecked (w : Writers) : WriterStep → Prop
  | update observe now =>
      LoopMeets (gradeRow rt observe now)
        (fun u s => Reached s → s.firstTouch = .absent →
          ¬ RowGrades rt u.evaluatedCandles s (observe s.signalId) now)
        w.tracker w.tracker.signals.graded
  | classify .. => True
  | expire sweep =>
      ∀ id ∈ (w.sweeps sweep).candidates, ∀ s, w.tracker.signals.find? id = some s →
        s.passedOver = false → s.status ≠ .target2Hit ∧
          (Touched s → s.firstTouchAt ≠ "" ∧ s.firstTouchPrice ≠ 0)
  | readPending .. => True
  | resolveNext resolver bars now =>
      ∀ read rest, w.pending resolver = read :: rest → (resolution rt read bars now).isSome = true →
        ∀ s, w.tracker.signals.find? read.signalId = some s →
          ¬ Reached s ∧ (Touched s → SameTouch read s)

end WriterStep

open WriterStep (Reached)

/-- The touch of the signal stands, and its status if it is at its second target or stopped. -/
structure Stands (s s' : SystemSignal) : Prop where
  touch : Touched s → SameTouch s s'
  reached : Reached s → s'.status = s.status ∧ SameTouch s s'

def TouchesStand (t t' : SystemSignals) : Prop :=
  ∀ id s, t.find? id = some s → ∃ s', t'.find? id = some s' ∧ Stands s s'

theorem Stands.refl (s : SystemSignal) : Stands s s :=
  ⟨fun _ => SameTouch.refl s, fun _ => ⟨rfl, SameTouch.refl s⟩⟩

theorem Stands.trans {s s' s'' : SystemSignal} (h : Stands s s') (h' : Stands s' s'') :
    Stands s s'' := by
  refine ⟨?_, ?_⟩
  · intro htouched
    have hsame := h.touch htouched
    have htouched' : Touched s' := by
      rw [Touched, hsame.firstTouch]
      exact htouched
    exact hsame.trans (h'.touch htouched')
  · intro hreached
    obtain ⟨hstatus, hsame⟩ := h.reached hreached
    have hreached' : Reached s' := by
      rw [Reached, hstatus]
      exact hreached
    obtain ⟨hstatus', hsame'⟩ := h'.reached hreached'
    exact ⟨hstatus'.trans hstatus, hsame.trans hsame'⟩

theorem TouchesStand.refl (t : SystemSignals) : TouchesStand t t :=
  fun _ s hs => ⟨s, hs, Stands.refl s⟩

theorem TouchesStand.trans {t t' t'' : SystemSignals} (h : TouchesStand t t')
    (h' : TouchesStand t' t'') : TouchesStand t t'' := by
  intro id s hs
  obtain ⟨s', hs', hstands⟩ := h id s hs
  obtain ⟨s'', hs'', hstands'⟩ := h' id s' hs'
  exact ⟨s'', hs'', hstands.trans hstands'⟩

theorem Touched.ne_absent {s : SystemSignal} (h : Touched s) : s.firstTouch ≠ .absent := by
  intro habsent
  simp [Touched, habsent] at h

section Runtime

variable {rt : SignalRuntime}

theorem touchesStand_update {w : Writers} {observe : String → Observation} {now : Time}
    (h : WriterStep.Rechecked rt w (.update observe now)) :
    TouchesStand w.tracker.signals
      (updateActiveSignalOutcomes rt w.tracker observe now).signals := by
  intro id s hs
  refine updateActive_rows (P := Stands) Stands.refl (fun u r hr after e hagain hevaluated => ?_) h hs
  refine ⟨?_, ?_⟩
  · intro htouched
    exact (evaluateRow_keeps htouched.ne_absent hevaluated).persist (SameTouch.refl r)
  · intro hreached
    have hregraded : r.regraded = true := by
      unfold Reached at hreached
      unfold SystemSignal.regraded
      cases hstatus : r.status <;> simp_all
    have hsame := (evaluateRow_keepsAll hregraded (hagain hreached) hevaluated).persist
    exact ⟨hsame.status, hsame.toSameTouch⟩

theorem stands_expireRow {s : SystemSignal} (hstatus : s.status ≠ .target2Hit)
    (hpassed : s.passedOver = false)
    (hdated : Touched s → s.firstTouchAt ≠ "" ∧ s.firstTouchPrice ≠ 0)
    (now : Time) : Stands s (expireRow rt s now) := by
  refine ⟨?_, ?_⟩
  · intro htouched
    obtain ⟨hat, hprice⟩ := hdated htouched
    have hswept : s.sweptTouch = s.firstTouch := if_neg fun h => htouched.ne_absent h.1
    have hphysical : s.firstTouch ∈ [.t1, .t2, .sl] := htouched
    unfold expireRow
    rw [hswept, if_pos hphysical]
    exact ⟨rfl, orElse_some hat _, if_neg hprice⟩
  · intro hreached
    unfold Reached at hreached
    unfold SystemSignal.passedOver at hpassed
    cases h : s.status <;> simp_all

theorem touchesStand_expire {w : Writers} {sweep : Nat}
    (h : WriterStep.Rechecked rt w (.expire sweep)) :
    TouchesStand w.tracker.signals (expireCandidates rt w.tracker.signals
      (w.sweeps sweep).candidates (w.sweeps sweep).now) := by
  intro id s hs
  rw [find?_expireCandidates]
  by_cases hid : id ∈ (w.sweeps sweep).candidates
  · rw [if_pos hid, hs, Option.map_some]
    refine ⟨_, rfl, ?_⟩
    unfold expireIfOpen
    by_cases hpassed : s.passedOver = true
    · rw [if_pos hpassed]
      exact Stands.refl s
    · rw [if_neg hpassed]
      rw [Bool.not_eq_true] at hpassed
      obtain ⟨hstatus, hdated⟩ := h id hid s hs hpassed
      exact stands_expireRow hstatus hpassed hdated (w.sweeps sweep).now
  · rw [if_neg hid]
    exact ⟨s, hs, Stands.refl s⟩

/-- A replay keeps the touch it starts from. -/
theorem replayBars_keeps {r s : SystemSignal} (htouch : r.firstTouch ≠ .absent)
    (hsame : ∀ status, s.keep status = r.keep status) {now : Time}
    {last : Option SignalEvaluationResult} (hlast : ∀ e, last = some e → Keeps r e)
    {bars : List SignalBar} {e : SignalEvaluationResult}
    (h : replayBars rt now s last bars = some e) : Keeps r e := by
  induction bars generalizing s last with
  | nil => exact hlast e h
  | cons bar rest ih =>
      have hs : s.firstTouch ≠ .absent := by
        rw [show s.firstTouch = r.firstTouch from congrArg Transition.firstTouch (hsame none)]
        exact htouch
      obtain ⟨status, hstatus⟩ := evaluateBar_keeps rt hs bar (barClose rt bar now) false
      have hkeeps : Keeps r (evaluateBar rt s bar (barClose rt bar now) false) :=
        ⟨status, hstatus.trans (hsame status)⟩
      unfold replayBars at h
      dsimp only at h
      split at h
      · cases h
        exact hkeeps
      · have hnext : ∀ x, some (evaluateBar rt s bar (barClose rt bar now) false) = some x →
            Keeps r x := by
          intro x hx
          cases hx
          exact hkeeps
        split at h
        · refine ih (fun next => ?_) hnext h
          have htransition := hstatus.trans (hsame status)
          have htouch' := congrArg Transition.firstTouch htransition
          have hat := congrArg Transition.firstTouchAt htransition
          have hprice := congrArg Transition.firstTouchPrice htransition
          have hconfidence := congrArg Transition.outcomeConfidence htransition
          simp only [SystemSignal.keep] at htouch' hat hprice hconfidence ⊢
          rw [htouch', hat, hprice, hconfidence]
        · exact ih hsame hnext h

theorem resolution_keeps {r : SystemSignal} (htouch : r.firstTouch ≠ .absent)
    {bars : List SignalBar} {now : Time} {e : SignalEvaluationResult}
    (h : resolution rt r bars now = some e) : Keeps r e := by
  obtain ⟨hreplay, -⟩ := Option.filter_eq_some_iff.mp h
  exact replayBars_keeps htouch (fun _ => rfl) (fun _ hnone => by cases hnone) hreplay

theorem touchesStand_resolve {t : SystemSignals} {read : SystemSignal} {bars : List SignalBar}
    {now : Time}
    (h : (resolution rt read bars now).isSome = true → ∀ s, t.find? read.signalId = some s →
      ¬ Reached s ∧ (Touched s → SameTouch read s)) :
    TouchesStand t (resolveSignal rt t read bars now) := by
  intro id s hs
  unfold resolveSignal
  cases hresolution : resolution rt read bars now with
  | none => exact ⟨s, hs, Stands.refl s⟩
  | some e =>
      show ∃ s', (writeEvaluation t read.signalId e).find? id = some s' ∧ Stands s s'
      rw [find?_writeEvaluation]
      by_cases hid : id = read.signalId
      · subst hid
        obtain ⟨hreached, htouched⟩ := h (by rw [hresolution]; rfl) s hs
        rw [if_pos rfl, hs, Option.map_some]
        refine ⟨s.persist e, rfl, ?_, fun hnow => absurd hnow hreached⟩
        intro hnow
        have hsame := htouched hnow
        have hread : read.firstTouch ≠ .absent := by
          rw [← hsame.firstTouch]
          exact hnow.ne_absent
        exact (resolution_keeps hread hresolution).persist hsame
      · rw [if_neg hid]
        exact ⟨s, hs, Stands.refl s⟩

theorem touchesStand_step {w : Writers} {op : WriterStep} (h : op.Rechecked rt w) :
    TouchesStand w.tracker.signals (op.step rt w).tracker.signals := by
  cases op with
  | update observe now => exact touchesStand_update h
  | classify sweep now =>
      unfold WriterStep.step
      dsimp only
      split <;> exact TouchesStand.refl _
  | expire sweep => exact touchesStand_expire h
  | readPending resolver limit => exact TouchesStand.refl _
  | resolveNext resolver bars now =>
      unfold WriterStep.step
      dsimp only
      split
      · exact TouchesStand.refl _
      · rename_i read rest hpending
        exact touchesStand_resolve (h read rest hpending)

/-- Once stored, a first touch stands in every later state of a run whose writers find nothing
touched or settled since they read, and so does the status of a signal at its second target or
stopped. -/
theorem first_touch_stands {w : Writers} {ops later : List WriterStep}
    (meet : StepsMeet (WriterStep.step rt) (WriterStep.Rechecked rt) w (ops ++ later)) {id : String}
    {s : SystemSignal} (hs : (run (WriterStep.step rt) w ops).tracker.signals.find? id = some s) :
    ∃ s', (run (WriterStep.step rt) w (ops ++ later)).tracker.signals.find? id = some s' ∧
      (Touched s → SameTouch s s') ∧ (Reached s → s'.status = s.status ∧ SameTouch s s') := by
  obtain ⟨s', hs', hstands⟩ := related_of_stepsMeet
    (R := fun w w' : Writers => TouchesStand w.tracker.signals w'.tracker.signals)
    (fun w => TouchesStand.refl w.tracker.signals) (fun _ _ _ h h' => h.trans h')
    (fun _ _ h => touchesStand_step h) meet id s hs
  exact ⟨s', hs', hstands.touch, hstands.reached⟩

/-- A resolver that finds the signal as it read it, in flight. -/
theorem rechecked_resolve_of_unchanged {w : Writers} {resolver : Nat} {read : SystemSignal}
    {rest : List SystemSignal} (hpending : w.pending resolver = read :: rest)
    (hfound : w.tracker.signals.find? read.signalId = some read) (hopen : ¬ Reached read)
    (bars : List SignalBar) (now : Time) :
    WriterStep.Rechecked rt w (.resolveNext resolver bars now) := by
  intro first later hfirst _ s hs
  obtain rfl : read = first := (List.cons.inj (hpending.symm.trans hfirst)).1
  obtain rfl : read = s := Option.some.inj (hfound.symm.trans hs)
  exact ⟨hopen, fun _ => SameTouch.refl read⟩

end Runtime

/-! ## A resolver and a pass -/

def firstTarget : SystemSignal :=
  { sampleSignal with
    currentPrice := 111
    status := .target1Hit
    pnlPct := 11
    firstTouch := .t1
    firstTouchAt := "2024-01-05T10:10:00+05:30"
    firstTouchPrice := 110
    outcomeConfidence := .exactObservation }

/-- The Friday's bar, through the second target or through the stop. -/
def dailyBar (high low : ℚ) : SignalBar := ⟨100, high, low, 105, "2024-01-05", some (738890 * day)⟩

def hitFirstTarget : WriterStep := .update (priced 111) (fridayAt 70)

def readAll : WriterStep := .readPending 0 none

def resolveFrom (bar : SignalBar) : WriterStep := .resolveNext 0 [bar] (fridayAt 400)

/-- The touch stands when a resolver that read it finds the second target. -/
theorem first_touch_stands_secondTarget :
    ∃ s', (run (WriterStep.step sampleRuntime) { tracker := sampleTracker }
        ([hitFirstTarget] ++ [readAll, resolveFrom (dailyBar 125 95)])).tracker.signals.find?
          sampleSignal.signalId = some s' ∧
      (Touched firstTarget → SameTouch firstTarget s') ∧
        (Reached firstTarget → s'.status = firstTarget.status ∧ SameTouch firstTarget s') := by
  have hmeet : StepsMeet (WriterStep.step sampleRuntime) (WriterStep.Rechecked sampleRuntime)
      { tracker := sampleTracker }
      ([hitFirstTarget] ++ [readAll, resolveFrom (dailyBar 125 95)]) := by
    refine ⟨?_, trivial, ?_, trivial⟩
    · refine loopMeets_of_forall (fun u s hs hreached => ?_) sampleTracker
      obtain rfl : s = sampleSignal := List.mem_singleton.mp (List.mem_of_mem_filter hs)
      exact absurd hreached (by unfold Reached; decide)
    · exact rechecked_resolve_of_unchanged (show _ = [firstTarget] by decide +kernel)
        (by decide +kernel) (by unfold Reached; decide) _ _
  exact first_touch_stands hmeet (by decide +kernel)

/-- A resolver that read the signal before its first target was hit writes the stop over it. -/
theorem first_touch_overwritten :
    ¬ TouchesStand
      (run (WriterStep.step sampleRuntime) { tracker := sampleTracker }
        [readAll, hitFirstTarget]).tracker.signals
      (run (WriterStep.step sampleRuntime) { tracker := sampleTracker }
        [readAll, hitFirstTarget, resolveFrom (dailyBar 105 85)]).tracker.signals := by
  intro hstands
  obtain ⟨s', hs', hkept⟩ := hstands sampleSignal.signalId firstTarget (by decide +kernel)
  have htouch : ((run (WriterStep.step sampleRuntime) { tracker := sampleTracker }
      [readAll, hitFirstTarget, resolveFrom (dailyBar 105 85)]).tracker.signals.find?
        sampleSignal.signalId).map SystemSignal.firstTouch = some .t1 := by
    rw [hs', Option.map_some, (hkept.touch (by unfold Touched; decide)).firstTouch]
    rfl
  revert htouch
  decide +kernel

end AutoTrade.Signals
