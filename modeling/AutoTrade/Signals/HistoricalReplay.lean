import AutoTrade.Signals.OutcomeFinality

/-! # What a historical replay stores

The resolver replays the daily bars on a copy of the signal and stores the last
evaluation of the replay. Beside it stand the bars graded one by one, each
outcome stored as it occurs. The two differ where a first target is followed by
bars that decide nothing.
-/

namespace AutoTrade.Signals

open AutoTrade.Library

section Runtime

variable (rt : SignalRuntime)

/-- The bars a replay looks at. -/
def relevantBars (s : SystemSignal) (bars : List SignalBar) : List SignalBar :=
  bars.filter fun bar =>
    decide (dateText (orElse (some s.createdDate) s.timestamp) ≤ dateText bar.timestamp)

/-- Every evaluation up to the first terminal one, stored as it occurs. -/
def gradeOneByOne (now : Time) : SystemSignal → List SignalBar → SystemSignal
  | s, [] => s
  | s, bar :: rest =>
      let e := evaluateBar rt s bar (barClose rt bar now) false
      if e.isTerminal then s.persist e else gradeOneByOne now (s.persist e) rest

/-- The row a replay leaves of the signal it read. -/
def storedRow (s : SystemSignal) (last : Option SignalEvaluationResult) : SystemSignal :=
  match last.filter fun e => e.newStatus.any fun status => decide (status ≠ s.status) with
  | some e => s.persist e
  | none => s

/-- The status and the first touch, with its time and price. -/
def SystemSignal.outcome (s : SystemSignal) : OutcomeState × FirstTouch × String × ℚ :=
  (s.status, s.firstTouch, s.firstTouchAt, s.firstTouchPrice)

/-- The bar touches the first target and no other barrier. -/
def TouchesFirstTarget (s : SystemSignal) (bar : SignalBar) (now : Time) : Prop :=
  acceptsBar s bar now false = true ∧ (barrierHits s bar).sl = false ∧
    (barrierHits s bar).t1 = true ∧ (barrierHits s bar).t2 = false

/-- The bar decides nothing about a signal at its first target. -/
def LeavesFirstTarget (s : SystemSignal) (bar : SignalBar) (now : Time) : Prop :=
  acceptsBar s bar now false = true →
    (barrierHits s bar).sl = false ∧ (barrierHits s bar).t2 = false ∧ horizonOver rt s now = false

/-- An untouched signal whose first target is touched by one bar, after bars that decide nothing and
before bars that decide nothing, and not by the last one unless the row is at its first target
already. -/
def LosesTouch (now : Time) (s : SystemSignal) (bars : List SignalBar) : Prop :=
  s.firstTouch = .absent ∧ ∃ before bar after, bars = before ++ bar :: after ∧
    (∀ b ∈ before, ¬ BarGrades rt s b (barClose rt b now)) ∧
    TouchesFirstTarget s bar (barClose rt bar now) ∧
    (∀ b ∈ after, LeavesFirstTarget rt s b (barClose rt b now)) ∧
    (after ≠ [] ∨ s.status = .target1Hit)

variable {rt}

/-! ## Evaluations of rows that differ in their price alone -/

/-- The rows differ in the current price and the profit alone. -/
def Alike (s s' : SystemSignal) : Prop :=
  ∃ currentPrice pnlPct, s' = { s with currentPrice, pnlPct }

theorem Alike.refl (s : SystemSignal) : Alike s s := ⟨s.currentPrice, s.pnlPct, rfl⟩

theorem Alike.outcome {s s' : SystemSignal} (h : Alike s s') : s'.outcome = s.outcome := by
  obtain ⟨_, _, rfl⟩ := h
  rfl

/-- An evaluation without a status writes the prices alone. -/
theorem Alike.persist_of_none {s s' : SystemSignal} (h : Alike s s') {e : SignalEvaluationResult}
    (he : e.newStatus = none) : Alike s (s'.persist e) := by
  obtain ⟨_, _, rfl⟩ := h
  rw [SystemSignal.persist, he]
  exact ⟨e.currentPrice, e.pnlPct, rfl⟩

theorem Alike.transition {s s' : SystemSignal} (h : Alike s s') (bar : SignalBar) (now : Time) :
    (evaluateBar rt s' bar now false).toTransition =
      (evaluateBar rt s bar now false).toTransition := by
  obtain ⟨_, _, rfl⟩ := h
  rw [evaluateBar_transition, evaluateBar_transition]
  rfl

theorem Alike.isTerminal {s s' : SystemSignal} (h : Alike s s') (bar : SignalBar) (now : Time) :
    (evaluateBar rt s' bar now false).isTerminal = (evaluateBar rt s bar now false).isTerminal := by
  rw [evaluateBar_isTerminal, evaluateBar_isTerminal, h.transition]

/-- Of evaluations with the same outcome the rows store the same. -/
theorem Alike.outcome_persist {s s' : SystemSignal} (h : Alike s s') {e e' : SignalEvaluationResult}
    (he : e'.toTransition = e.toTransition) : (s'.persist e').outcome = (s.persist e).outcome := by
  obtain ⟨_, _, rfl⟩ := h
  have hstatus := congrArg Transition.newStatus he
  cases hnew : e.newStatus with
  | none =>
      rw [SystemSignal.persist, SystemSignal.persist, hstatus.trans hnew, hnew]
      rfl
  | some status =>
      rw [SystemSignal.persist, SystemSignal.persist, hstatus.trans hnew, hnew]
      show (status, _, _, _) = (status, _, _, _)
      rw [congrArg Transition.firstTouch he, congrArg Transition.firstTouchAt he,
        congrArg Transition.firstTouchPrice he]

/-- What is stored of an evaluation with a status. -/
theorem outcome_persist_of_some {s : SystemSignal} {e : SignalEvaluationResult}
    {status : OutcomeState} (he : e.newStatus = some status) :
    (s.persist e).outcome = (status, e.firstTouch, e.firstTouchAt, e.firstTouchPrice) := by
  rw [SystemSignal.persist, he]
  rfl

theorem storedRow_of_none {s : SystemSignal} {last : Option SignalEvaluationResult}
    (h : ∀ e ∈ last, e.newStatus = none) : storedRow s last = s := by
  cases last with
  | none => rfl
  | some e =>
      rw [storedRow, Option.filter_some, h e rfl]
      rfl

theorem storedRow_of_some {s : SystemSignal} {e : SignalEvaluationResult} {status : OutcomeState}
    (he : e.newStatus = some status) (hne : status ≠ s.status) : storedRow s (some e) = s.persist e := by
  rw [storedRow, Option.filter_some, he, if_pos (by simpa using hne)]

theorem storedRow_of_same {s : SystemSignal} {e : SignalEvaluationResult}
    (he : e.newStatus = some s.status) : storedRow s (some e) = s := by
  rw [storedRow, Option.filter_some, he, if_neg (by simp)]

/-! ## Replays -/

/-- The copy of the signal after its first target. -/
def SystemSignal.atFirstTarget (s : SystemSignal) (e : SignalEvaluationResult) : SystemSignal :=
  { s with
    status := .target1Hit
    firstTouch := e.firstTouch
    firstTouchAt := e.firstTouchAt
    firstTouchPrice := e.firstTouchPrice
    outcomeConfidence := e.outcomeConfidence }

section Cons

variable {now : Time} {s : SystemSignal} {bar : SignalBar} {e : SignalEvaluationResult}

theorem replayBars_of_terminal (he : evaluateBar rt s bar (barClose rt bar now) false = e)
    (hterminal : e.isTerminal = true) (last : Option SignalEvaluationResult)
    (rest : List SignalBar) : replayBars rt now s last (bar :: rest) = some e := by
  rw [replayBars, he]
  exact if_pos hterminal

theorem replayBars_of_none (he : evaluateBar rt s bar (barClose rt bar now) false = e)
    (hopen : e.isTerminal = false) (hnone : e.newStatus = none)
    (last : Option SignalEvaluationResult) (rest : List SignalBar) :
    replayBars rt now s last (bar :: rest) = replayBars rt now s (some e) rest := by
  rw [replayBars, he]
  simp [hopen, hnone]

theorem replayBars_of_firstTarget (he : evaluateBar rt s bar (barClose rt bar now) false = e)
    (hopen : e.isTerminal = false) (hhit : e.hits.t1 = true)
    (hstatus : e.newStatus = some .target1Hit) (last : Option SignalEvaluationResult)
    (rest : List SignalBar) :
    replayBars rt now s last (bar :: rest) =
      replayBars rt now (s.atFirstTarget e) (some e) rest := by
  rw [replayBars, he]
  simp [hopen, hhit, hstatus, SystemSignal.atFirstTarget]

theorem gradeOneByOne_of_terminal (he : evaluateBar rt s bar (barClose rt bar now) false = e)
    (hterminal : e.isTerminal = true) (rest : List SignalBar) :
    gradeOneByOne rt now s (bar :: rest) = s.persist e := by
  rw [gradeOneByOne, he]
  exact if_pos hterminal

theorem gradeOneByOne_of_open (he : evaluateBar rt s bar (barClose rt bar now) false = e)
    (hopen : e.isTerminal = false) (rest : List SignalBar) :
    gradeOneByOne rt now s (bar :: rest) = gradeOneByOne rt now (s.persist e) rest := by
  rw [gradeOneByOne, he]
  exact if_neg (by rw [hopen]; exact Bool.false_ne_true)

end Cons

/-- An evaluation of a touched signal that is not terminal comes without a status. -/
theorem newStatus_of_touched {s : SystemSignal} (htouch : s.firstTouch ≠ .absent)
    {hits : BarrierHits} {now : Time} (h : (transition rt s hits now).isTerminal = false) :
    (transition rt s hits now).newStatus = none := by
  revert h
  unfold transition
  rw [if_neg htouch]
  by_cases hprogress : s.firstTouch = .t1 ∧ s.status = .target1Hit
  · rw [if_pos hprogress]
    repeat' split
    all_goals
      intro h
      first
      | rfl
      | cases h
  · rw [if_neg hprogress]
    by_cases hsettled : s.firstTouch ∈ [.sl, .ambiguous, .expired, .ambiguousSameBar]
    · rw [if_pos hsettled]
      intro h
      have hterminal : terminalTouch s.firstTouch = true := decide_eq_true hsettled
      simp [Transition.isTerminal, SystemSignal.keep, hterminal] at h
    · rw [if_neg hsettled]
      exact fun _ => rfl

theorem newStatus_of_open {s : SystemSignal} (htouch : s.firstTouch ≠ .absent) {bar : SignalBar}
    {now : Time} (h : (evaluateBar rt s bar now false).isTerminal = false) :
    (evaluateBar rt s bar now false).newStatus = none := by
  rw [evaluateBar_isTerminal] at h
  refine (congrArg Transition.newStatus (evaluateBar_transition ..)).trans ?_
  rw [evaluateBar_transition] at h
  split
  · rename_i haccepts
    rw [if_pos haccepts] at h
    exact newStatus_of_touched htouch h
  · rfl

/-- A replay of a touched signal comes to its first terminal evaluation, and so do the bars one by
one; without one both leave the signal as it is. -/
theorem replay_touched {s : SystemSignal} (htouch : s.firstTouch ≠ .absent) (now : Time)
    {s' : SystemSignal} (halike : Alike s s') (last : Option SignalEvaluationResult)
    (bars : List SignalBar) :
    ((∀ b ∈ bars, (evaluateBar rt s b (barClose rt b now) false).isTerminal = false) ∧
      (gradeOneByOne rt now s' bars).outcome = s.outcome ∧
      if bars = [] then replayBars rt now s last bars = last
      else ∃ e, replayBars rt now s last bars = some e ∧ e.newStatus = none) ∨
    ∃ b ∈ bars, (evaluateBar rt s b (barClose rt b now) false).isTerminal = true ∧
      replayBars rt now s last bars = some (evaluateBar rt s b (barClose rt b now) false) ∧
      (gradeOneByOne rt now s' bars).outcome =
        (s.persist (evaluateBar rt s b (barClose rt b now) false)).outcome := by
  induction bars generalizing s' last with
  | nil => exact .inl ⟨by simp, halike.outcome, rfl⟩
  | cons b rest ih =>
      have hsame := @Alike.transition rt _ _ halike b (barClose rt b now)
      have hterm := @Alike.isTerminal rt _ _ halike b (barClose rt b now)
      cases hterminal : (evaluateBar rt s b (barClose rt b now) false).isTerminal with
      | true =>
          refine .inr ⟨b, List.mem_cons_self, hterminal, replayBars_of_terminal rfl hterminal .., ?_⟩
          rw [gradeOneByOne_of_terminal rfl (hterm.trans hterminal)]
          exact halike.outcome_persist hsame
      | false =>
          have hnone : (evaluateBar rt s b (barClose rt b now) false).newStatus = none :=
            newStatus_of_open htouch hterminal
          have hlater := halike.persist_of_none
            ((congrArg Transition.newStatus hsame).trans hnone)
          rw [replayBars_of_none rfl hterminal hnone,
            gradeOneByOne_of_open rfl (hterm.trans hterminal)]
          rcases ih hlater (some _) with ⟨hall, hgraded, hreplayed⟩ | ⟨c, hc, hstop⟩
          · refine .inl ⟨?_, hgraded, ?_⟩
            · rintro c (_ | ⟨_, hc⟩)
              · exact hterminal
              · exact hall c hc
            · rw [if_neg (List.cons_ne_nil b rest)]
              split at hreplayed
              · exact ⟨_, hreplayed, hnone⟩
              · exact hreplayed
          · exact .inr ⟨c, List.mem_cons_of_mem b hc, hstop⟩

theorem storedRow_of_keeps {s : SystemSignal} {e : SignalEvaluationResult} (h : Keeps s e) :
    (storedRow s (some e)).outcome = (s.persist e).outcome := by
  obtain ⟨status, he⟩ := h
  have hnew : e.newStatus = status := congrArg Transition.newStatus he
  cases status with
  | none =>
      rw [storedRow_of_none fun x hx => (Option.some.inj hx) ▸ hnew]
      exact ((Alike.refl s).persist_of_none hnew).outcome.symm
  | some status =>
      by_cases hsame : status = s.status
      · subst hsame
        rw [storedRow_of_same hnew, outcome_persist_of_some hnew,
          congrArg Transition.firstTouch he, congrArg Transition.firstTouchAt he,
          congrArg Transition.firstTouchPrice he]
        rfl
      · rw [storedRow_of_some hnew hsame]

/-- Of a touched signal nothing is lost. -/
theorem stores_touched {s s' : SystemSignal} (htouch : s.firstTouch ≠ .absent) (now : Time)
    (halike : Alike s s') {last : Option SignalEvaluationResult}
    (hlast : ∀ e ∈ last, e.newStatus = none) (bars : List SignalBar) :
    (gradeOneByOne rt now s' bars).outcome =
      (storedRow s (replayBars rt now s last bars)).outcome := by
  rcases replay_touched htouch now halike last bars with ⟨-, hgraded, hreplayed⟩ |
    ⟨b, -, -, hreplayed, hgraded⟩
  · rw [hgraded]
    split at hreplayed
    · rw [hreplayed, storedRow_of_none hlast]
    · obtain ⟨e, he, hnone⟩ := hreplayed
      rw [he, storedRow_of_none fun x hx => (Option.some.inj hx) ▸ hnone]
  · rw [hreplayed, hgraded, storedRow_of_keeps (evaluateBar_keeps rt htouch ..)]

/-! ## After a first target -/

/-- The statuses a resolver looks for. -/
def Pending (status : OutcomeState) : Prop := status ∈ [.active, .opened, .target1Hit]

/-- Where a signal at its first target goes. -/
def pastFirstTarget (rt : SignalRuntime) (s : SystemSignal) (bar : SignalBar) (now : Time) :
    Option OutcomeState :=
  if (barrierHits s bar).t2 && !(barrierHits s bar).sl then some .target2Hit
  else if (barrierHits s bar).sl then some .slHit
  else if horizonOver rt s now then some .expired
  else none

section FirstTarget

variable {s : SystemSignal} (htouch : s.firstTouch = .t1) (hstatus : s.status = .target1Hit)
  (bar : SignalBar) (now : Time)
include htouch hstatus

theorem evaluateBar_firstTarget :
    (evaluateBar rt s bar now false).toTransition =
      s.keep (if acceptsBar s bar now false then pastFirstTarget rt s bar now else none) := by
  rw [evaluateBar_transition]
  split
  · unfold transition pastFirstTarget
    rw [if_neg (by simp [htouch]), if_pos ⟨htouch, hstatus⟩]
    repeat' split
    all_goals rfl
  · rfl

theorem firstTarget_isTerminal :
    (evaluateBar rt s bar now false).isTerminal =
      (acceptsBar s bar now false && (pastFirstTarget rt s bar now).isSome) := by
  rw [evaluateBar_isTerminal, evaluateBar_firstTarget htouch hstatus]
  cases acceptsBar s bar now false
  · simp [Transition.isTerminal, SystemSignal.keep, terminalTouch, htouch]
  · rw [if_pos rfl]
    unfold pastFirstTarget
    repeat' split
    all_goals simp [Transition.isTerminal, SystemSignal.keep, terminalTouch, htouch]

theorem leavesFirstTarget_iff :
    LeavesFirstTarget rt s bar now ↔ (evaluateBar rt s bar now false).isTerminal = false := by
  rw [firstTarget_isTerminal htouch hstatus]
  unfold LeavesFirstTarget pastFirstTarget
  cases acceptsBar s bar now false <;> cases (barrierHits s bar).sl <;>
    cases (barrierHits s bar).t2 <;> cases horizonOver rt s now <;> simp

/-- Past its first target a signal comes to an end that no resolver looks for. -/
theorem firstTarget_newStatus (h : (evaluateBar rt s bar now false).isTerminal = true) :
    ∃ status, (evaluateBar rt s bar now false).toTransition = s.keep (some status) ∧
      ¬ Pending status := by
  rw [firstTarget_isTerminal htouch hstatus, Bool.and_eq_true] at h
  rw [evaluateBar_firstTarget htouch hstatus, if_pos h.1]
  obtain ⟨status, hpast⟩ := Option.isSome_iff_exists.mp h.2
  rw [hpast]
  refine ⟨status, rfl, ?_⟩
  unfold pastFirstTarget at hpast
  split at hpast
  · cases hpast
    simp [Pending]
  · split at hpast
    · cases hpast
      simp [Pending]
    · split at hpast
      · cases hpast
        simp [Pending]
      · cases hpast

end FirstTarget

/-! ## Untouched signals -/

theorem evaluateBar_of_touchesFirstTarget {s : SystemSignal} (habsent : s.firstTouch = .absent)
    {bar : SignalBar} {now : Time} (h : TouchesFirstTarget s bar now) :
    (evaluateBar rt s bar now false).toTransition =
      touched .target1Hit .t1 (rt.isoformat now) s.target1 := by
  obtain ⟨haccepts, hsl, ht1, ht2⟩ := h
  rw [evaluateBar_transition, if_pos haccepts, transition, if_pos habsent, hsl, ht1, ht2]
  rfl

theorem hits_of_touchesFirstTarget {s : SystemSignal} {bar : SignalBar} {now : Time}
    (h : TouchesFirstTarget s bar now) : (evaluateBar rt s bar now false).hits.t1 = true := by
  obtain ⟨haccepts, -, ht1, -⟩ := h
  rw [evaluateBar, if_pos haccepts]
  exact ht1

/-- A bar that grades an untouched signal otherwise ends it. -/
theorem transition_ends {s : SystemSignal} (habsent : s.firstTouch = .absent) {hits : BarrierHits}
    {now : Time}
    (hgrades : hits.sl = true ∨ hits.t1 = true ∨ hits.t2 = true ∨
      rt.isMarketDay (dayOf now) = true ∧ horizonOver rt s now = true)
    (hother : ¬ (hits.sl = false ∧ hits.t1 = true ∧ hits.t2 = false)) :
    (transition rt s hits now).isTerminal = true ∧
      ∃ status, (transition rt s hits now).newStatus = some status ∧ ¬ Pending status := by
  obtain ⟨sl, t1, t2⟩ := hits
  unfold transition
  rw [if_pos habsent]
  cases sl <;> cases t1 <;> cases t2
  case false.false.false =>
    have hover : rt.isMarketDay (dayOf now) = true ∧ horizonOver rt s now = true := by
      simpa using hgrades
    simp [hover, untouched, Transition.isTerminal, Pending]
  case false.true.false => exact absurd ⟨rfl, rfl, rfl⟩ hother
  all_goals simp [untouched, touched, Transition.isTerminal, Pending]

theorem evaluateBar_ends {s : SystemSignal} (habsent : s.firstTouch = .absent) {bar : SignalBar}
    {now : Time} (h : BarGrades rt s bar now) (hother : ¬ TouchesFirstTarget s bar now) :
    (evaluateBar rt s bar now false).isTerminal = true ∧
      ∃ status, (evaluateBar rt s bar now false).newStatus = some status ∧ ¬ Pending status := by
  have htransition := @evaluateBar_transition rt s bar now false
  rw [if_pos h.1] at htransition
  obtain ⟨hterminal, status, hstatus, hpending⟩ :=
    transition_ends habsent h.2 fun hhits => hother ⟨h.1, hhits⟩
  refine ⟨?_, status, ?_, hpending⟩
  · rw [evaluateBar_isTerminal, htransition]
    exact hterminal
  · exact (congrArg Transition.newStatus htransition).trans hstatus

theorem losesTouch_cons_of_not_barGrades {now : Time} {s : SystemSignal} {bar : SignalBar}
    (h : ¬ BarGrades rt s bar (barClose rt bar now)) (rest : List SignalBar) :
    LosesTouch rt now s (bar :: rest) ↔ LosesTouch rt now s rest := by
  constructor
  · rintro ⟨habsent, before, hit, after, hsplit, hbefore, hhit, hafter, hlast⟩
    cases before with
    | nil =>
        obtain ⟨rfl, rfl⟩ := List.cons.inj hsplit
        exact absurd ⟨hhit.1, .inr (.inl hhit.2.2.1)⟩ h
    | cons first before =>
        obtain ⟨rfl, rfl⟩ := List.cons.inj hsplit
        exact ⟨habsent, before, hit, after, rfl,
          fun b hb => hbefore b (List.mem_cons_of_mem _ hb), hhit, hafter, hlast⟩
  · rintro ⟨habsent, before, hit, after, rfl, hbefore, hhit, hafter, hlast⟩
    refine ⟨habsent, bar :: before, hit, after, rfl, ?_, hhit, hafter, hlast⟩
    rintro b (_ | ⟨_, hb⟩)
    · exact h
    · exact hbefore b hb

theorem losesTouch_cons_of_barGrades {now : Time} {s : SystemSignal} {bar : SignalBar}
    (h : BarGrades rt s bar (barClose rt bar now)) (rest : List SignalBar) :
    LosesTouch rt now s (bar :: rest) ↔ s.firstTouch = .absent ∧
      TouchesFirstTarget s bar (barClose rt bar now) ∧
      (∀ b ∈ rest, LeavesFirstTarget rt s b (barClose rt b now)) ∧
      (rest ≠ [] ∨ s.status = .target1Hit) := by
  constructor
  · rintro ⟨habsent, before, hit, after, hsplit, hbefore, hhit, hafter, hlast⟩
    cases before with
    | nil =>
        obtain ⟨rfl, rfl⟩ := List.cons.inj hsplit
        exact ⟨habsent, hhit, hafter, hlast⟩
    | cons first before =>
        obtain ⟨rfl, -⟩ := List.cons.inj hsplit
        exact absurd h (hbefore _ List.mem_cons_self)
  · rintro ⟨habsent, hhit, hafter, hlast⟩
    exact ⟨habsent, [], bar, rest, rfl, by simp, hhit, hafter, hlast⟩

theorem Alike.atFirstTarget {s s' : SystemSignal} (h : Alike s s') {e e' : SignalEvaluationResult}
    (hsame : e'.toTransition = e.toTransition) (hstatus : e.newStatus = some .target1Hit) :
    Alike (s.atFirstTarget e) (s'.persist e') := by
  obtain ⟨_, _, rfl⟩ := h
  refine ⟨e'.currentPrice, e'.pnlPct, ?_⟩
  rw [SystemSignal.persist, (congrArg Transition.newStatus hsame).trans hstatus,
    SystemSignal.atFirstTarget, ← congrArg Transition.firstTouch hsame,
    ← congrArg Transition.firstTouchAt hsame, ← congrArg Transition.firstTouchPrice hsame,
    ← congrArg Transition.outcomeConfidence hsame]

/-- The bar that touches the first target alone: the two agree unless the rest of the bars decides
nothing and either hides the touch or finds the row with that status. -/
theorem stores_firstTarget_iff {s s' : SystemSignal} (hpending : Pending s.status)
    (habsent : s.firstTouch = .absent) {now : Time} (halike : Alike s s') {bar : SignalBar}
    (hhit : TouchesFirstTarget s bar (barClose rt bar now)) (last : Option SignalEvaluationResult)
    (rest : List SignalBar) :
    (gradeOneByOne rt now s' (bar :: rest)).outcome =
        (storedRow s (replayBars rt now s last (bar :: rest))).outcome ↔
      ¬ ((∀ b ∈ rest, LeavesFirstTarget rt s b (barClose rt b now)) ∧
        (rest ≠ [] ∨ s.status = .target1Hit)) := by
  have htransition := @evaluateBar_of_touchesFirstTarget rt _ habsent _ _ hhit
  have hsame := @Alike.transition rt _ _ halike bar (barClose rt bar now)
  have hterm := @Alike.isTerminal rt _ _ halike bar (barClose rt bar now)
  have hhits := @hits_of_touchesFirstTarget rt _ _ _ hhit
  generalize he : evaluateBar rt s bar (barClose rt bar now) false = e at *
  have hstatus : e.newStatus = some .target1Hit := congrArg Transition.newStatus htransition
  have htouch : e.firstTouch = .t1 := congrArg Transition.firstTouch htransition
  have hopen : e.isTerminal = false := by
    rw [← he, evaluateBar_isTerminal, he, htransition]
    rfl
  have hnext := halike.atFirstTarget hsame hstatus
  rw [replayBars_of_firstTarget he hopen hhits hstatus,
    gradeOneByOne_of_open rfl (hterm.trans hopen)]
  have hleaves : ∀ b, LeavesFirstTarget rt s b (barClose rt b now) ↔
      (evaluateBar rt (s.atFirstTarget e) b (barClose rt b now) false).isTerminal = false := by
    intro b
    exact leavesFirstTarget_iff (s := s.atFirstTarget e) htouch rfl b (barClose rt b now)
  have hne : (s.atFirstTarget e).firstTouch ≠ .absent := by
    show e.firstTouch ≠ .absent
    rw [htouch]
    exact fun h => nomatch h
  have hdiffer : (s.atFirstTarget e).outcome ≠ s.outcome := fun h =>
    hne ((congrArg (fun o => o.2.1) h).trans habsent)
  simp only [hleaves]
  rcases replay_touched hne now hnext (some e) rest with ⟨hall, hgraded, hreplayed⟩ |
    ⟨b, hb, hterminal, hreplayed, hgraded⟩
  · rw [hgraded]
    split at hreplayed
    · subst rest
      rw [hreplayed]
      by_cases hread : s.status = .target1Hit
      · rw [storedRow_of_same (hstatus.trans (congrArg some hread.symm))]
        simp [hdiffer, hread]
      · rw [storedRow_of_some hstatus (Ne.symm hread), outcome_persist_of_some hstatus]
        simp [SystemSignal.outcome, SystemSignal.atFirstTarget, hread]
    · obtain ⟨x, hx, hnone⟩ := hreplayed
      rename_i hrest
      rw [hx, storedRow_of_none fun y hy => (Option.some.inj hy) ▸ hnone]
      exact iff_of_false hdiffer fun h => h ⟨hall, .inl hrest⟩
  · obtain ⟨status, hb', hover⟩ :=
      firstTarget_newStatus (s := s.atFirstTarget e) htouch rfl b (barClose rt b now) hterminal
    have hnew := congrArg Transition.newStatus hb'
    rw [hgraded, hreplayed, outcome_persist_of_some hnew,
      storedRow_of_some hnew fun h => hover (h ▸ hpending), outcome_persist_of_some hnew]
    refine iff_of_true rfl fun h => ?_
    rw [h.1 b hb] at hterminal
    cases hterminal

/-- What is stored at the end is what is stored bar by bar, unless a touch is lost. -/
theorem stores_iff {s s' : SystemSignal} (hpending : Pending s.status) (now : Time)
    (halike : Alike s s') {last : Option SignalEvaluationResult}
    (hlast : ∀ e ∈ last, e.newStatus = none) (bars : List SignalBar) :
    (gradeOneByOne rt now s' bars).outcome =
        (storedRow s (replayBars rt now s last bars)).outcome ↔
      ¬ LosesTouch rt now s bars := by
  by_cases habsent : s.firstTouch = .absent
  · induction bars generalizing s' last with
    | nil =>
        have hnone : replayBars rt now s last [] = last := rfl
        rw [hnone, storedRow_of_none hlast]
        refine iff_of_true halike.outcome ?_
        rintro ⟨-, before, bar, after, hsplit, -⟩
        simp at hsplit
    | cons bar rest ih =>
        by_cases hgrades : BarGrades rt s bar (barClose rt bar now)
        · rw [losesTouch_cons_of_barGrades hgrades]
          by_cases hhit : TouchesFirstTarget s bar (barClose rt bar now)
          · rw [stores_firstTarget_iff hpending habsent halike hhit]
            simp only [habsent, hhit, true_and]
          · obtain ⟨hterminal, status, hstatus, hover⟩ := evaluateBar_ends habsent hgrades hhit
            have hterm := @Alike.isTerminal rt _ _ halike bar (barClose rt bar now)
            rw [replayBars_of_terminal rfl hterminal,
              gradeOneByOne_of_terminal rfl (hterm.trans hterminal),
              storedRow_of_some hstatus fun h => hover (h ▸ hpending)]
            exact iff_of_true (halike.outcome_persist (halike.transition ..)) fun h => hhit h.2.1
        · have hkept := evaluateBar_of_not_barGrades habsent hgrades
          have hnone := congrArg Transition.newStatus hkept
          have hterm := @Alike.isTerminal rt _ _ halike bar (barClose rt bar now)
          have hopen : (evaluateBar rt s bar (barClose rt bar now) false).isTerminal = false := by
            rw [evaluateBar_isTerminal, hkept]
            simp [Transition.isTerminal, SystemSignal.keep, terminalTouch, habsent]
          have hnone' := (congrArg Transition.newStatus
            (@Alike.transition rt _ _ halike bar (barClose rt bar now))).trans hnone
          rw [losesTouch_cons_of_not_barGrades hgrades, replayBars_of_none rfl hopen hnone,
            gradeOneByOne_of_open rfl (hterm.trans hopen)]
          exact ih (halike.persist_of_none hnone') fun e he => (Option.some.inj he) ▸ hnone
  · exact iff_of_true (stores_touched habsent now halike hlast bars) fun h => habsent h.1

/-! ## Rows -/

theorem nodup_pendingSignals (t : SystemSignals) (limit : Option Nat) :
    ((pendingSignals t limit).map SystemSignal.signalId).Nodup := by
  have hrows : (((t.rows.filter fun s =>
      decide (s.status ∈ [.active, .opened, .target1Hit])).mergeSort fun r s =>
        decide (r.createdDate < s.createdDate) || (decide (r.createdDate = s.createdDate) &&
          decide (r.signalId ≤ s.signalId))).map SystemSignal.signalId).Nodup :=
    ((List.mergeSort_perm _ _).map _).nodup_iff.mpr (t.nodup.sublist (List.filter_sublist.map _))
  unfold pendingSignals
  dsimp only
  split
  · exact hrows.sublist ((List.take_sublist _ _).map _)
  · exact hrows

theorem find?_resolveSignal {t : SystemSignals} {s : SystemSignal} (bars : List SignalBar)
    (now : Time) (hs : t.find? s.signalId = some s) :
    (resolveSignal rt t s bars now).find? s.signalId =
      some (storedRow s (evaluateSignalAgainstBars rt s bars now)) := by
  cases hresolution : resolution rt s bars now with
  | none =>
      have hrow : storedRow s (evaluateSignalAgainstBars rt s bars now) = s := by
        unfold resolution at hresolution
        rw [storedRow, hresolution]
      rw [resolveSignal, hresolution, hrow]
      exact hs
  | some e =>
      have hrow : storedRow s (evaluateSignalAgainstBars rt s bars now) = s.persist e := by
        unfold resolution at hresolution
        rw [storedRow, hresolution]
      rw [resolveSignal, hresolution, hrow]
      dsimp only
      rw [find?_writeEvaluation, if_pos rfl, hs, Option.map_some]

/-- Every signal of the batch has what its replay stores. -/
theorem find?_resolveSignals {t : SystemSignals} {pending : List SystemSignal}
    (hnodup : (pending.map SystemSignal.signalId).Nodup)
    (hread : ∀ s ∈ pending, t.find? s.signalId = some s) (bars : String → List SignalBar)
    (now : Time) {s : SystemSignal} (hs : s ∈ pending) :
    (resolveSignals rt t pending bars now).find? s.signalId =
      some (storedRow s (evaluateSignalAgainstBars rt s (bars s.symbol) now)) := by
  induction pending generalizing t with
  | nil => cases hs
  | cons first rest ih =>
      obtain ⟨hfirst, hrest⟩ := List.nodup_cons.mp hnodup
      have happart : ∀ r ∈ rest, first.signalId ≠ r.signalId := fun r hr hid =>
        hfirst (hid ▸ List.mem_map_of_mem hr)
      cases hs with
      | head =>
          refine (find?_resolveSignals_of_ne happart bars now).trans ?_
          exact find?_resolveSignal (bars s.symbol) now (hread s List.mem_cons_self)
      | tail _ hs =>
          refine ih hrest (fun r hr => ?_) hs
          refine (find?_resolveSignal_of_ne (happart r hr).symm (bars first.symbol) now).trans ?_
          exact hread r (List.mem_cons_of_mem first hr)

/-- The resolver stores the outcome that grading the bars one by one stores, exactly where no touch
is lost. -/
theorem replay_stores_outcome_iff {t : SystemSignals} {limit : Option Nat} {s : SystemSignal}
    (hs : s ∈ pendingSignals t limit) (bars : String → List SignalBar) (now : Time) :
    ((resolveSignals rt t (pendingSignals t limit) bars now).find? s.signalId).map
        SystemSignal.outcome =
        some (gradeOneByOne rt now s (relevantBars s (bars s.symbol))).outcome ↔
      ¬ LosesTouch rt now s (relevantBars s (bars s.symbol)) := by
  rw [find?_resolveSignals (nodup_pendingSignals t limit)
    (fun r hr => (mem_pendingSignals hr).1) bars now hs, Option.map_some, Option.some.injEq, eq_comm]
  exact stores_iff (mem_pendingSignals hs).2 now (Alike.refl s) (by simp)
    (relevantBars s (bars s.symbol))

end Runtime

/-! ## A touch and a quiet day -/

def fridayBar (high : ℚ) : SignalBar := ⟨100, high, 95, 105, "2024-01-05", none⟩

def mondayBar : SignalBar := ⟨105, 106, 95, 104, "2024-01-08", none⟩

/-- The first target on the last day of the replay is stored. -/
theorem replay_stores_outcome_iff_friday :
    ((resolveSignals sampleRuntime sampleTracker.signals (pendingSignals sampleTracker.signals none)
        (fun _ => [fridayBar 112]) (fridayAt 400)).find? sampleSignal.signalId).map
        SystemSignal.outcome =
      some (gradeOneByOne sampleRuntime (fridayAt 400) sampleSignal
        (relevantBars sampleSignal [fridayBar 112])).outcome := by
  refine (replay_stores_outcome_iff (by decide +kernel) (fun _ => [fridayBar 112])
    (fridayAt 400)).mpr ?_
  have hrelevant : relevantBars sampleSignal [fridayBar 112] = [fridayBar 112] := by
    decide +kernel
  rw [hrelevant]
  rintro ⟨-, before, bar, after, hsplit, -, -, -, hlater | hstatus⟩
  · have hlength := congrArg List.length hsplit
    have hpositive := List.length_pos_of_ne_nil hlater
    simp only [List.length_append, List.length_cons, List.length_nil] at hlength
    omega
  · exact absurd hstatus (by decide)

/-- The first target of the Friday is gone once the replay has seen the Monday. -/
theorem friday_touch_lost :
    ((resolveSignals sampleRuntime sampleTracker.signals (pendingSignals sampleTracker.signals none)
        (fun _ => [fridayBar 112, mondayBar]) (fridayAt 400)).find? sampleSignal.signalId).map
        SystemSignal.outcome ≠
      some (gradeOneByOne sampleRuntime (fridayAt 400) sampleSignal
        (relevantBars sampleSignal [fridayBar 112, mondayBar])).outcome := by
  decide +kernel

end AutoTrade.Signals
