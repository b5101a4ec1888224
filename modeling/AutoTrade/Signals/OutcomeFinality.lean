import AutoTrade.Signals.GradingLaws

/-! # Final outcomes

Over runs of grading passes, sweeps, resolvers and recorded signals, a final
outcome stands as long as no quarantined, stopped or second-target signal
without a touch is graded again and no sweep finds a reversed one past its
horizon.
-/

namespace AutoTrade.Signals

open AutoTrade.Library

def SystemSignal.isFinal (s : SystemSignal) : Bool :=
  decide (s.status ∈ [.slHit, .target2Hit, .ambiguous, .expired, .closedOnReversal])

inductive OutcomeOp
  | update (observe : String → Observation) (now : Time)
  | expireStale (now : Time)
  | resolvePending (limit : Option Nat) (bars : String → List SignalBar) (now sweepNow : Time)
  | record (g : GeneratedSignal) (signalId : String) (now : Time)

namespace OutcomeOp

variable (rt : SignalRuntime)

def step (t : SignalOutcomeTracker) : OutcomeOp → SignalOutcomeTracker
  | update observe now => updateActiveSignalOutcomes rt t observe now
  | expireStale now => { t with signals := (expireStaleSignals rt t.signals now).1 }
  | resolvePending limit bars now sweepNow =>
      { t with signals := resolveAllPending rt t.signals limit bars now sweepNow }
  | record g signalId now =>
      { t with signals := (recordGeneratedSignal rt t.signals g signalId now).1 }

/-- No signal closed on a reversal is a candidate of the sweep. -/
def SweepSparesReversals (t : SystemSignals) (now : Time) : Prop :=
  ∀ ids, candidatesToExpire rt t now = .ok ids → ∀ id ∈ ids, ∀ s, t.find? id = some s →
    s.status ≠ .closedOnReversal

/-- A signal without a touch that is stopped, quarantined or at its second target is not graded. -/
def NotGradedAgain (observe : String → Observation) (now : Time) (t : SignalOutcomeTracker)
    (s : SystemSignal) : Prop :=
  s.regraded = true → s.firstTouch = .absent →
    ¬ RowGrades rt t.evaluatedCandles s (observe s.signalId) now

/-- The step grades no final signal again and expires none. -/
def LeavesFinal (t : SignalOutcomeTracker) : OutcomeOp → Prop
  | update observe now =>
      LoopMeets (gradeRow rt observe now) (NotGradedAgain rt observe now) t t.signals.graded
  | expireStale now => SweepSparesReversals rt t.signals now
  | resolvePending limit bars now sweepNow =>
      SweepSparesReversals rt (resolveSignals rt t.signals (pendingSignals t.signals limit) bars now)
        sweepNow
  | record .. => True

end OutcomeOp

section Runtime

variable {rt : SignalRuntime}

/-- Every final outcome stands. -/
def FinalStands (t t' : SystemSignals) : Prop :=
  ∀ id s, t.find? id = some s → s.isFinal = true → ∃ s', t'.find? id = some s' ∧ SameOutcome s s'

theorem FinalStands.refl (t : SystemSignals) : FinalStands t t :=
  fun _ s hs _ => ⟨s, hs, SameOutcome.refl s⟩

theorem FinalStands.trans {t t' t'' : SystemSignals} (h : FinalStands t t')
    (h' : FinalStands t' t'') : FinalStands t t'' := by
  intro id s hs hfinal
  obtain ⟨s', hs', hsame⟩ := h id s hs hfinal
  have hfinal' : s'.isFinal = true := by
    rw [SystemSignal.isFinal, hsame.status]
    exact hfinal
  obtain ⟨s'', hs'', hsame'⟩ := h' id s' hs' hfinal'
  exact ⟨s'', hs'', hsame.trans hsame'⟩

theorem finalStands_update {t : SignalOutcomeTracker} {observe : String → Observation} {now : Time}
    (h : LoopMeets (gradeRow rt observe now) (OutcomeOp.NotGradedAgain rt observe now) t
      t.signals.graded) :
    FinalStands t.signals (updateActiveSignalOutcomes rt t observe now).signals := by
  intro id s hs hfinal
  obtain ⟨s', hs', hsame⟩ := updateActive_rows
    (P := fun s s' => s.isFinal = true → SameOutcome s s') (fun s _ => SameOutcome.refl s)
    (fun u r hr after e hagain hevaluated hrfinal => by
      have hregraded : r.regraded = true := by
        have hgraded := of_decide_eq_true (List.mem_filter.mp hr).2
        unfold SystemSignal.isFinal at hrfinal
        unfold SystemSignal.regraded
        cases hstatus : r.status <;> simp_all
      exact (evaluateRow_keepsAll hregraded (hagain hregraded) hevaluated).persist) h hs
  exact ⟨s', hs', hsame hfinal⟩

theorem finalStands_sweep {t : SystemSignals} {now : Time}
    (h : OutcomeOp.SweepSparesReversals rt t now) :
    FinalStands t (expireStaleSignals rt t now).1 := by
  intro id s hs hfinal
  unfold expireStaleSignals
  split
  · exact ⟨s, hs, SameOutcome.refl s⟩
  · rename_i ids hids
    rw [find?_expireCandidates]
    by_cases hid : id ∈ ids
    · have hopen := open_of_mem_candidates hids hid hs
      have hspared := h ids hids id hid s hs
      have hpassed : s.passedOver = true := by
        unfold SystemSignal.isFinal at hfinal
        unfold SystemSignal.alreadyTerminal at hopen
        cases hstatus : s.status <;> simp_all
      rw [if_pos hid, hs, Option.map_some, expireIfOpen, if_pos hpassed]
      exact ⟨s, rfl, SameOutcome.refl s⟩
    · rw [if_neg hid]
      exact ⟨s, hs, SameOutcome.refl s⟩

theorem mem_pendingSignals {t : SystemSignals} {limit : Option Nat} {s : SystemSignal}
    (h : s ∈ pendingSignals t limit) :
    t.find? s.signalId = some s ∧ s.status ∈ [.active, .opened, .target1Hit] := by
  have hrows : s ∈ t.rows.filter fun s => decide (s.status ∈ [.active, .opened, .target1Hit]) := by
    unfold pendingSignals at h
    dsimp only at h
    split at h
    · exact List.mem_mergeSort.mp (List.mem_of_mem_take h)
    · exact List.mem_mergeSort.mp h
  obtain ⟨hmem, hstatus⟩ := List.mem_filter.mp hrows
  exact ⟨Table.find?_of_mem hmem, of_decide_eq_true hstatus⟩

/-- A resolver writes the signals it read, and no others. -/
theorem find?_resolveSignals_of_ne {t : SystemSignals} {pending : List SystemSignal} {id : String}
    (hid : ∀ s ∈ pending, id ≠ s.signalId) (bars : String → List SignalBar) (now : Time) :
    (resolveSignals rt t pending bars now).find? id = t.find? id := by
  induction pending generalizing t with
  | nil => rfl
  | cons s rest ih =>
      refine (ih fun r hr => hid r (List.mem_cons_of_mem s hr)).trans ?_
      exact find?_resolveSignal_of_ne (hid s List.mem_cons_self) (bars s.symbol) now

theorem finalStands_resolve (t : SystemSignals) (limit : Option Nat)
    (bars : String → List SignalBar) (now : Time) :
    FinalStands t (resolveSignals rt t (pendingSignals t limit) bars now) := by
  intro id s hs hfinal
  refine ⟨s, (find?_resolveSignals_of_ne ?_ bars now).trans hs, SameOutcome.refl s⟩
  intro r hr hid
  obtain ⟨hfound, hstatus⟩ := mem_pendingSignals hr
  obtain rfl : r = s := Option.some.inj (hfound.symm.trans (hid ▸ hs))
  unfold SystemSignal.isFinal at hfinal
  cases hr : r.status <;> simp_all

theorem finalStands_close (t : SystemSignals) (id : String) (now : Time) :
    FinalStands t (t.update id (fun s => closeOnReversal rt s now) fun s =>
      closeOnReversal_signalId rt s now) := by
  intro j s hs hfinal
  have hclosed : closeOnReversal rt s now = s := by
    refine if_neg fun hactive => ?_
    simp [SystemSignal.isFinal, hactive] at hfinal
  refine ⟨s, ?_, SameOutcome.refl s⟩
  rw [Table.find?_update, hs, Option.map_some, hclosed]
  split <;> rfl

theorem FinalStands.insert {t u : SystemSignals} (h : FinalStands t u) (s : SystemSignal) :
    FinalStands t (u.insertOrIgnore s) := by
  intro id r hr hfinal
  obtain ⟨r', hr', hsame⟩ := h id r hr hfinal
  exact ⟨r', Table.find?_insertOrIgnore_of_some hr', hsame⟩

theorem finalStands_record (t : SystemSignals) (g : GeneratedSignal) (signalId : String)
    (now : Time) : FinalStands t (recordGeneratedSignal rt t g signalId now).1 := by
  have hinserted : ∀ u, FinalStands t u → FinalStands t
      (if u.contains signalId then (t, "")
        else (u.insertOrIgnore (g.row rt signalId now), signalId)).1 := by
    intro u hu
    split
    · exact FinalStands.refl t
    · exact hu.insert _
  unfold recordGeneratedSignal
  split
  · exact FinalStands.refl t
  · dsimp only
    split
    · exact hinserted t (FinalStands.refl t)
    · split
      · exact hinserted t (FinalStands.refl t)
      · split
        · exact FinalStands.refl t
        · exact hinserted _ (finalStands_close t _ now)

theorem finalStands_step {t : SignalOutcomeTracker} {op : OutcomeOp}
    (h : OutcomeOp.LeavesFinal rt t op) : FinalStands t.signals (OutcomeOp.step rt t op).signals := by
  cases op with
  | update observe now => exact finalStands_update h
  | expireStale now => exact finalStands_sweep h
  | resolvePending limit bars now sweepNow =>
      exact (finalStands_resolve t.signals limit bars now).trans (finalStands_sweep h)
  | record g signalId now => exact finalStands_record t.signals g signalId now

/-- Once a signal has a final outcome, every later state of a run that grades no final signal again
and expires none has it with that outcome. -/
theorem outcome_final {t : SignalOutcomeTracker} {ops later : List OutcomeOp}
    (meet : StepsMeet (OutcomeOp.step rt) (OutcomeOp.LeavesFinal rt) t (ops ++ later)) {id : String}
    {s : SystemSignal} (hs : (run (OutcomeOp.step rt) t ops).signals.find? id = some s)
    (hfinal : s.isFinal = true) :
    ∃ s', (run (OutcomeOp.step rt) t (ops ++ later)).signals.find? id = some s' ∧ SameOutcome s s' :=
  related_of_stepsMeet (R := fun t t' : SignalOutcomeTracker => FinalStands t.signals t'.signals)
    (fun t => FinalStands.refl t.signals) (fun _ _ _ h h' => h.trans h')
    (fun _ _ h => finalStands_step h) meet id s hs hfinal

/-- While every such signal has its touch, a grading pass leaves the final outcomes alone. -/
theorem leavesFinal_update_of_touch {t : SignalOutcomeTracker}
    (h : ∀ s ∈ t.signals.graded, s.regraded = true → s.firstTouch ≠ .absent)
    (observe : String → Observation) (now : Time) :
    OutcomeOp.LeavesFinal rt t (.update observe now) :=
  loopMeets_of_forall (fun _ s hs hregraded habsent => absurd habsent (h s hs hregraded)) t

end Runtime

/-! ## A stop and a quarantine -/

def stopped : SystemSignal :=
  { sampleSignal with
    currentPrice := 89
    status := .slHit
    pnlPct := -11
    firstTouch := .sl
    firstTouchAt := "2024-01-05T10:05:00+05:30"
    firstTouchPrice := 90
    outcomeConfidence := .exactObservation }

def stop : OutcomeOp := .update (priced 89) (fridayAt 65)

def rise : OutcomeOp := .update (priced 111) (fridayAt 70)

/-- The stop stands when the price rises beyond the first target. -/
theorem outcome_final_stopped :
    ∃ s', (run (OutcomeOp.step sampleRuntime) sampleTracker ([stop] ++ [rise])).signals.find?
      sampleSignal.signalId = some s' ∧ SameOutcome stopped s' := by
  have hmeet : StepsMeet (OutcomeOp.step sampleRuntime) (OutcomeOp.LeavesFinal sampleRuntime)
      sampleTracker ([stop] ++ [rise]) :=
    ⟨leavesFinal_update_of_touch (by decide +kernel) (priced 89) (fridayAt 65),
      leavesFinal_update_of_touch (by decide +kernel) (priced 111) (fridayAt 70), trivial⟩
  exact outcome_final hmeet (by decide +kernel) (by decide)

/-- A bar through the stop and the first target. -/
def conflictBar : String → Observation := fun _ =>
  { bar := some ⟨100, 112, 88, 105, "2024-01-05T10:05:00+05:30", some (fridayAt 65)⟩ }

def quarantine : OutcomeOp := .update conflictBar (fridayAt 65)

def quarantined : SystemSignal :=
  { sampleSignal with
    currentPrice := 105
    status := .ambiguous
    pnlPct := 5
    outcomeConfidence := .ambiguous }

/-- A signal in quarantine counts as a first target when the price rises. -/
theorem quarantine_left :
    ¬ FinalStands (run (OutcomeOp.step sampleRuntime) sampleTracker [quarantine]).signals
      (run (OutcomeOp.step sampleRuntime) sampleTracker [quarantine, rise]).signals := by
  intro hstands
  obtain ⟨s', hs', hsame⟩ := hstands sampleSignal.signalId quarantined (by decide +kernel)
    (by decide)
  have hstatus : ((run (OutcomeOp.step sampleRuntime) sampleTracker [quarantine, rise]).signals.find?
      sampleSignal.signalId).map SystemSignal.status = some .ambiguous := by
    rw [hs', Option.map_some, hsame.status]
    rfl
  revert hstatus
  decide +kernel

end AutoTrade.Signals
