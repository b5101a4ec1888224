import AutoTrade.Signals.OutcomeTracker

/-! # What the writers do to a signal

A grading keeps the touch of a signal that has one. A signal without one is
graded anew wherever an accepted observation crosses a barrier or finds the
horizon over, and that is so for quarantined and stopped signals too.
-/

namespace AutoTrade.Signals

open AutoTrade.Library

def Touched (s : SystemSignal) : Prop := s.firstTouch ∈ [.t1, .t2, .sl]

structure SameTouch (s s' : SystemSignal) : Prop where
  firstTouch : s'.firstTouch = s.firstTouch
  firstTouchAt : s'.firstTouchAt = s.firstTouchAt
  firstTouchPrice : s'.firstTouchPrice = s.firstTouchPrice

structure SameOutcome (s s' : SystemSignal) : Prop extends SameTouch s s' where
  status : s'.status = s.status
  outcomeConfidence : s'.outcomeConfidence = s.outcomeConfidence

theorem SameTouch.refl (s : SystemSignal) : SameTouch s s := ⟨rfl, rfl, rfl⟩

theorem SameTouch.trans {s s' s'' : SystemSignal} (h : SameTouch s s') (h' : SameTouch s' s'') :
    SameTouch s s'' :=
  ⟨h'.firstTouch.trans h.firstTouch, h'.firstTouchAt.trans h.firstTouchAt,
    h'.firstTouchPrice.trans h.firstTouchPrice⟩

theorem SameOutcome.refl (s : SystemSignal) : SameOutcome s s := ⟨SameTouch.refl s, rfl, rfl⟩

theorem SameOutcome.trans {s s' s'' : SystemSignal} (h : SameOutcome s s') (h' : SameOutcome s' s'') :
    SameOutcome s s'' :=
  ⟨h.toSameTouch.trans h'.toSameTouch, h'.status.trans h.status,
    h'.outcomeConfidence.trans h.outcomeConfidence⟩

/-! ## Evaluations -/

/-- The evaluation leaves the touch and its confidence alone. -/
def Keeps (s : SystemSignal) (e : SignalEvaluationResult) : Prop :=
  ∃ status, e.toTransition = s.keep status

/-- It leaves the status alone as well. -/
def KeepsAll (s : SystemSignal) (e : SignalEvaluationResult) : Prop :=
  e.toTransition = s.keep none ∨ e.toTransition = s.keep (some s.status)

/-- An evaluation of a signal, written to one with the same touch. -/
theorem Keeps.persist {r s : SystemSignal} {e : SignalEvaluationResult} (h : Keeps r e)
    (hsame : SameTouch r s) : SameTouch s (s.persist e) := by
  obtain ⟨status, he⟩ := h
  unfold SystemSignal.persist
  split
  · exact ⟨(congrArg Transition.firstTouch he).trans hsame.firstTouch.symm,
      (congrArg Transition.firstTouchAt he).trans hsame.firstTouchAt.symm,
      (congrArg Transition.firstTouchPrice he).trans hsame.firstTouchPrice.symm⟩
  · exact ⟨rfl, rfl, rfl⟩

theorem KeepsAll.persist {s : SystemSignal} {e : SignalEvaluationResult} (h : KeepsAll s e) :
    SameOutcome s (s.persist e) := by
  rcases h with he | he
  · refine ⟨Keeps.persist ⟨none, he⟩ (SameTouch.refl s), ?_, ?_⟩
    · rw [SystemSignal.persist, show e.newStatus = none from congrArg Transition.newStatus he]
    · rw [SystemSignal.persist, show e.newStatus = none from congrArg Transition.newStatus he]
  · refine ⟨Keeps.persist ⟨some s.status, he⟩ (SameTouch.refl s), ?_, ?_⟩
    · rw [SystemSignal.persist,
        show e.newStatus = some s.status from congrArg Transition.newStatus he]
    · rw [SystemSignal.persist,
        show e.newStatus = some s.status from congrArg Transition.newStatus he]
      exact congrArg Transition.outcomeConfidence he

section Runtime

variable (rt : SignalRuntime)

/-- The bar is accepted, and it crosses a barrier or is the first to find the horizon over. -/
def BarGrades (s : SystemSignal) (bar : SignalBar) (now : Time) : Prop :=
  acceptsBar s bar now false = true ∧
    ((barrierHits s bar).sl = true ∨ (barrierHits s bar).t1 = true ∨ (barrierHits s bar).t2 = true ∨
      rt.isMarketDay (dayOf now) = true ∧ horizonOver rt s now = true)

/-- The price is beyond several barriers, or its bar grades the signal. -/
def PriceGrades (s : SystemSignal) (price : Option ℚ) (now : Time) : Prop :=
  ∃ p, price = some p ∧ 0 < p ∧
    (crossesSeveral s p = true ∨ BarGrades rt s (tickBar rt p now) now)

/-- What is observed of an untouched signal in the pass grades it. -/
def RowGrades (candles : List String) (s : SystemSignal) (o : Observation) (now : Time) : Prop :=
  match o.bar with
  | some bar => candleKey s bar ∉ candles ∧ BarGrades rt s bar now
  | none =>
      match o.futuresBar.filter (fun bar => decide (candleKey s bar ∉ candles)) with
      | some bar => BarGrades rt s bar now
      | none => PriceGrades rt s o.price now

variable {rt}

theorem transition_of_touch {s : SystemSignal} (h : s.firstTouch ≠ .absent) (hits : BarrierHits)
    (now : Time) : ∃ status, transition rt s hits now = s.keep status := by
  unfold transition
  rw [if_neg h]
  repeat' split
  all_goals exact ⟨_, rfl⟩

/-- Past a first target on the way to the second, a touched signal keeps its status. -/
theorem transition_of_settled {s : SystemSignal} (h : s.firstTouch ≠ .absent)
    (hstatus : s.status ≠ .target1Hit) (hits : BarrierHits) (now : Time) :
    transition rt s hits now = s.keep none ∨ transition rt s hits now = s.keep (some s.status) := by
  unfold transition
  rw [if_neg h, if_neg fun hprogress => hstatus hprogress.2]
  split
  · exact .inr rfl
  · exact .inl rfl

/-- Without a new status the outcome is left alone. -/
theorem transition_of_none {s : SystemSignal} {hits : BarrierHits} {now : Time}
    (h : (transition rt s hits now).newStatus = none) :
    transition rt s hits now = s.keep none := by
  revert h
  unfold transition
  repeat' split
  all_goals
    intro h
    first
    | rfl
    | cases h

theorem evaluateBar_transition (s : SystemSignal) (bar : SignalBar) (now : Time)
    (checkStaleness : Bool) :
    (evaluateBar rt s bar now checkStaleness).toTransition =
      if acceptsBar s bar now checkStaleness then transition rt s (barrierHits s bar) now
      else s.keep none := by
  unfold evaluateBar
  split <;> rfl

/-- An outcome after which a signal is not graded further. -/
def Transition.isTerminal (t : Transition) : Bool :=
  t.newStatus.any (fun st => decide (st ∈ [.slHit, .ambiguous, .expired, .target2Hit])) ||
    terminalTouch t.firstTouch

theorem evaluateBar_isTerminal (s : SystemSignal) (bar : SignalBar) (now : Time)
    (checkStaleness : Bool) :
    (evaluateBar rt s bar now checkStaleness).isTerminal =
      (evaluateBar rt s bar now checkStaleness).toTransition.isTerminal := by
  unfold evaluateBar
  split <;> rfl

theorem evaluateBar_of_none {s : SystemSignal} {bar : SignalBar} {now : Time} {checkStaleness : Bool}
    (h : (evaluateBar rt s bar now checkStaleness).newStatus = none) :
    (evaluateBar rt s bar now checkStaleness).toTransition = s.keep none := by
  rw [evaluateBar_transition] at h ⊢
  split
  · rename_i haccepts
    rw [if_pos haccepts] at h
    exact transition_of_none h
  · rfl

/-- The row has the touch its evaluation came to. -/
theorem persist_evaluateBar_firstTouch (s : SystemSignal) (bar : SignalBar) (now : Time)
    (checkStaleness : Bool) :
    (s.persist (evaluateBar rt s bar now checkStaleness)).firstTouch =
      (evaluateBar rt s bar now checkStaleness).firstTouch := by
  unfold SystemSignal.persist
  split
  · rfl
  · rename_i hnone
    exact (congrArg Transition.firstTouch (evaluateBar_of_none hnone)).symm

variable (rt) in
theorem evaluateBar_keeps {s : SystemSignal} (h : s.firstTouch ≠ .absent) (bar : SignalBar)
    (now : Time) (checkStaleness : Bool) : Keeps s (evaluateBar rt s bar now checkStaleness) := by
  unfold Keeps
  rw [evaluateBar_transition]
  split
  · exact transition_of_touch h (barrierHits s bar) now
  · exact ⟨none, rfl⟩

theorem evaluateBar_of_not_barGrades {s : SystemSignal} (habsent : s.firstTouch = .absent)
    {bar : SignalBar} {now : Time} (h : ¬ BarGrades rt s bar now) :
    (evaluateBar rt s bar now false).toTransition = s.keep none := by
  rw [evaluateBar_transition]
  by_cases haccepts : acceptsBar s bar now false = true
  · unfold BarGrades at h
    simp only [haccepts, true_and, not_or, not_and, Bool.not_eq_true] at h
    obtain ⟨hsl, ht1, ht2, hhorizon⟩ := h
    have hopen : (rt.isMarketDay (dayOf now) && horizonOver rt s now) = false := by
      rw [Bool.and_eq_false_imp]
      exact hhorizon
    unfold transition
    rw [if_pos haccepts, if_pos habsent, hsl, ht1, ht2, hopen]
    rfl
  · exact if_neg haccepts

theorem evaluateBar_keepsAll {s : SystemSignal} (hstatus : s.status ≠ .target1Hit) (bar : SignalBar)
    (now : Time) (h : s.firstTouch = .absent → ¬ BarGrades rt s bar now) :
    KeepsAll s (evaluateBar rt s bar now false) := by
  by_cases habsent : s.firstTouch = .absent
  · exact .inl (evaluateBar_of_not_barGrades habsent (h habsent))
  · unfold KeepsAll
    rw [evaluateBar_transition]
    split
    · exact transition_of_settled habsent hstatus (barrierHits s bar) now
    · exact .inl rfl

theorem not_alreadyTerminal_of_wouldExpire {s : SystemSignal} {now : Time}
    (h : checkSignalExpiry rt s now = .ok .wouldExpire) : s.alreadyTerminal = false := by
  unfold checkSignalExpiry at h
  cases hcreated : createdOn rt s with
  | none => simp [hcreated] at h
  | some created =>
      rw [hcreated] at h
      dsimp only at h
      cases hlast : expiryDay rt s created with
      | none => simp [hlast] at h
      | some last =>
          rw [hlast] at h
          dsimp only at h
          by_contra hterminal
          rw [Bool.not_eq_false] at hterminal
          rw [if_pos hterminal] at h
          cases h

/-- The three ways to an evaluation, and when the first two grade an untouched signal. -/
theorem evaluateRow_cases {candles after : List String} {s : SystemSignal} {o : Observation}
    {now : Time} {e : SignalEvaluationResult}
    (h : evaluateRow rt candles s o now = (after, .ok (some e))) :
    (∃ bar, e = evaluateBar rt s bar now false ∧
      (BarGrades rt s bar now → RowGrades rt candles s o now)) ∨
    (∃ p, e = evaluatePoll rt s p now ∧
      (crossesSeveral s p = true ∨ BarGrades rt s (tickBar rt p now) now →
        RowGrades rt candles s o now)) ∨
    e = expiredWithoutPrice s ∧ s.alreadyTerminal = false := by
  unfold evaluateRow at h
  unfold RowGrades
  cases hbar : o.bar with
  | some bar =>
      rw [hbar] at h
      dsimp only at h ⊢
      split at h
      · cases h
      · rename_i hseen
        cases h
        exact .inl ⟨bar, rfl, fun hgrades => ⟨hseen, hgrades⟩⟩
  | none =>
      rw [hbar] at h
      dsimp only at h ⊢
      cases hfutures : o.futuresBar.filter fun bar => decide (candleKey s bar ∉ candles) with
      | some bar =>
          rw [hfutures] at h
          cases h
          exact .inl ⟨bar, rfl, fun hgrades => hgrades⟩
      | none =>
          rw [hfutures] at h
          have hprice : evaluatePrice rt s o.price now = .ok (some e) := congrArg Prod.snd h
          refine .inr ?_
          unfold evaluatePrice at hprice
          cases hfilter : o.price.filter fun p => decide (0 < p) with
          | some p =>
              rw [hfilter] at hprice
              cases hprice
              obtain ⟨hp, hpositive⟩ := Option.filter_eq_some_iff.mp hfilter
              exact .inl ⟨p, rfl, fun hgrades => ⟨p, hp, by simpa using hpositive, hgrades⟩⟩
          | none =>
              rw [hfilter] at hprice
              dsimp only at hprice
              split at hprice
              · cases hprice
              · rename_i hcheck
                cases hprice
                exact .inr ⟨rfl, not_alreadyTerminal_of_wouldExpire hcheck⟩
              · cases hprice

/-- A touch is kept by every grading. -/
theorem evaluateRow_keeps {candles after : List String} {s : SystemSignal} {o : Observation}
    {now : Time} {e : SignalEvaluationResult} (htouch : s.firstTouch ≠ .absent)
    (h : evaluateRow rt candles s o now = (after, .ok (some e))) : Keeps s e := by
  rcases evaluateRow_cases h with ⟨bar, rfl, _⟩ | ⟨p, rfl, _⟩ | ⟨rfl, hopen⟩
  · exact evaluateBar_keeps rt htouch bar now false
  · unfold evaluatePoll
    dsimp only
    rw [if_neg fun hseveral => htouch hseveral.1]
    exact evaluateBar_keeps rt htouch (tickBar rt p now) now false
  · have hphysical : s.firstTouch ∈ [.t1, .t2, .sl] := by
      unfold SystemSignal.alreadyTerminal at hopen
      cases htouches : s.firstTouch <;> simp_all
    unfold Keeps expiredWithoutPrice
    rw [if_pos hphysical]
    exact ⟨some .expired, rfl⟩

/-- The statuses a grading pass should leave alone but reads. -/
def SystemSignal.regraded (s : SystemSignal) : Bool :=
  decide (s.status ∈ [.slHit, .ambiguous, .target2Hit])

/-- A stopped or quarantined signal, or one at its second target, keeps its outcome unless it has no
touch and is graded again. -/
theorem evaluateRow_keepsAll {candles after : List String} {s : SystemSignal} {o : Observation}
    {now : Time} {e : SignalEvaluationResult} (hstatus : s.regraded = true)
    (hagain : s.firstTouch = .absent → ¬ RowGrades rt candles s o now)
    (h : evaluateRow rt candles s o now = (after, .ok (some e))) : KeepsAll s e := by
  have hlater : s.status ≠ .target1Hit := by
    intro hprogress
    simp [SystemSignal.regraded, hprogress] at hstatus
  rcases evaluateRow_cases h with ⟨bar, rfl, hgrades⟩ | ⟨p, rfl, hgrades⟩ | ⟨rfl, hopen⟩
  · exact evaluateBar_keepsAll hlater bar now fun habsent hbar => hagain habsent (hgrades hbar)
  · unfold evaluatePoll
    dsimp only
    rw [if_neg fun hseveral => hagain hseveral.1 (hgrades (.inl hseveral.2))]
    exact evaluateBar_keepsAll hlater (tickBar rt p now) now fun habsent hbar =>
      hagain habsent (hgrades (.inr hbar))
  · unfold SystemSignal.alreadyTerminal at hopen
    unfold SystemSignal.regraded at hstatus
    simp_all

/-! ## Passes -/

theorem find?_writeEvaluation (t : SystemSignals) (id j : String) (e : SignalEvaluationResult) :
    (writeEvaluation t id e).find? j =
      if j = id then (t.find? j).map (fun s => s.persist e) else t.find? j :=
  t.find?_update id (fun s => s.persist e) (fun s => s.persist_signalId e) j

theorem gradeRow_frame (observe : String → Observation) (now : Time) (t : SignalOutcomeTracker)
    (s : SystemSignal) (id : String) (hid : id ≠ s.signalId) :
    (gradeRow rt observe now t s).1.signals.find? id = t.signals.find? id := by
  unfold gradeRow
  split
  · rfl
  · exact (find?_writeEvaluation ..).trans (if_neg hid)
  · rfl

theorem gradeRow_row {observe : String → Observation} {now : Time} {t : SignalOutcomeTracker}
    {s : SystemSignal} (hs : t.signals.find? s.signalId = some s) :
    (gradeRow rt observe now t s).1.signals.find? s.signalId = some s ∨
      ∃ after e, evaluateRow rt t.evaluatedCandles s (observe s.signalId) now =
          (after, .ok (some e)) ∧
        (gradeRow rt observe now t s).1.signals.find? s.signalId = some (s.persist e) := by
  unfold gradeRow
  split
  · exact .inl hs
  · rename_i after e hevaluated
    refine .inr ⟨after, e, hevaluated, ?_⟩
    show (writeEvaluation t.signals s.signalId e).find? s.signalId = _
    rw [find?_writeEvaluation, if_pos rfl, hs, Option.map_some]
  · exact .inl hs

theorem mem_graded {t : SystemSignals} {s : SystemSignal} (h : s ∈ t.graded) :
    t.find? s.signalId = some s :=
  Table.find?_of_mem (List.mem_of_mem_filter h)

/-- What a grading does to a row it still finds as it was read, the pass does to every row. -/
theorem updateActive_rows {C : SignalOutcomeTracker → SystemSignal → Prop}
    {P : SystemSignal → SystemSignal → Prop} {t : SignalOutcomeTracker}
    {observe : String → Observation} {now : Time} (refl : ∀ s, P s s)
    (one : ∀ u, ∀ s ∈ t.signals.graded, ∀ after e, C u s →
      evaluateRow rt u.evaluatedCandles s (observe s.signalId) now = (after, .ok (some e)) →
        P s (s.persist e))
    (meet : LoopMeets (gradeRow rt observe now) C t t.signals.graded) {id : String}
    {s : SystemSignal} (hs : t.signals.find? id = some s) :
    ∃ s', (updateActiveSignalOutcomes rt t observe now).signals.find? id = some s' ∧ P s s' := by
  have hnodup : (t.signals.graded.map SystemSignal.signalId).Nodup :=
    t.signals.nodup.sublist (List.filter_sublist.map _)
  obtain ⟨hread, hother⟩ := loop_rows (fun u : SignalOutcomeTracker => Table.find? u.signals) refl
    (fun u r j hj => gradeRow_frame observe now u r j hj)
    (fun u r hr hfound hC => by
      rcases gradeRow_row hfound with hsame | ⟨after, e, hevaluated, hwritten⟩
      · exact ⟨r, hsame, refl r⟩
      · exact ⟨r.persist e, hwritten, one u r hr after e hC hevaluated⟩)
    hnodup (fun r hr => mem_graded hr) meet
  obtain rfl : s.signalId = id := Table.find?_key hs
  unfold updateActiveSignalOutcomes
  split
  · rename_i t' hloop
    rw [hloop] at hread hother
    by_cases hmem : s.signalId ∈ t.signals.graded.map SystemSignal.signalId
    · obtain ⟨r, hr, hid⟩ := List.mem_map.mp hmem
      obtain rfl : r = s := Option.some.inj ((mem_graded hr).symm.trans (hid ▸ hs))
      exact hread r hr
    · exact ⟨s, (hother s.signalId hmem).trans hs, refl s⟩
  · exact ⟨s, hs, refl s⟩

theorem expireIfOpen_again (s : SystemSignal) (now : Time) :
    expireIfOpen rt (expireIfOpen rt s now) now = expireIfOpen rt s now := by
  have hpassed : (expireIfOpen rt s now).passedOver = true := by
    unfold expireIfOpen
    split
    · assumption
    · unfold expireRow SystemSignal.passedOver
      split <;> simp
  exact if_pos hpassed

/-- The update pass acts on the signals found before, as they are now. -/
theorem find?_expireCandidates (t : SystemSignals) (ids : List String) (now : Time) (id : String) :
    (expireCandidates rt t ids now).find? id =
      if id ∈ ids then (t.find? id).map fun s => expireIfOpen rt s now else t.find? id := by
  induction ids generalizing t with
  | nil => rfl
  | cons x rest ih =>
      have hrest := ih (t.update x (fun s => expireIfOpen rt s now) fun s =>
        expireIfOpen_signalId rt s now)
      rw [Table.find?_update] at hrest
      refine hrest.trans ?_
      by_cases hx : id = x
      · subst hx
        simp [Option.map_map, Function.comp_def, expireIfOpen_again]
      · simp [hx]

theorem find?_resolveSignal_of_ne {t : SystemSignals} {s : SystemSignal} {id : String}
    (hid : id ≠ s.signalId) (bars : List SignalBar) (now : Time) :
    (resolveSignal rt t s bars now).find? id = t.find? id := by
  unfold resolveSignal
  split
  · exact (find?_writeEvaluation ..).trans (if_neg hid)
  · rfl

theorem mem_classifyAll {now : Time} {rows : List SystemSignal} {cs : List (String × Classification)}
    (h : classifyAll rt now rows = .ok cs) {c : String × Classification} (hc : c ∈ cs) :
    ∃ s ∈ rows, s.signalId = c.1 ∧ checkSignalExpiry rt s now = .ok c.2 := by
  induction rows generalizing cs with
  | nil =>
      cases h
      cases hc
  | cons s rest ih =>
      unfold classifyAll at h
      cases hcheck : checkSignalExpiry rt s now with
      | error e => simp [hcheck] at h
      | ok found =>
          cases hrest : classifyAll rt now rest with
          | error e => simp [hcheck, hrest] at h
          | ok later =>
              rw [hcheck, hrest] at h
              cases h
              cases hc with
              | head => exact ⟨s, List.mem_cons_self, rfl, hcheck⟩
              | tail _ hlater =>
                  obtain ⟨r, hr, hid, hr'⟩ := ih hrest hlater
                  exact ⟨r, List.mem_cons_of_mem s hr, hid, hr'⟩

/-- What the classification counts as terminal is no candidate. -/
theorem open_of_mem_candidates {t : SystemSignals} {now : Time} {ids : List String}
    (h : candidatesToExpire rt t now = .ok ids) {id : String} (hid : id ∈ ids) {s : SystemSignal}
    (hs : t.find? id = some s) : s.alreadyTerminal = false := by
  unfold candidatesToExpire at h
  split at h
  · cases h
  · rename_i cs hcs
    cases h
    obtain ⟨c, hc, rfl⟩ := List.mem_map.mp hid
    obtain ⟨hmem, hexpire⟩ := List.mem_filter.mp hc
    obtain ⟨r, hr, hrid, hcheck⟩ := mem_classifyAll hcs hmem
    have hfound := Table.find?_of_mem (List.mem_mergeSort.mp hr)
    rw [hrid] at hfound
    obtain rfl : r = s := Option.some.inj (hfound.symm.trans hs)
    rw [of_decide_eq_true hexpire] at hcheck
    exact not_alreadyTerminal_of_wouldExpire hcheck

end Runtime

end AutoTrade.Signals
