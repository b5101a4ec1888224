import AutoTrade.Library.Run
import AutoTrade.Services.CircuitBreaker
import Mathlib.Tactic.Positivity

/-! # When a breaker opens, waits and closes

The history of a breaker lists the operations on it with the breaker before and
after each. Openings in a row and the calls of a trial are counted on the
history alone, and each entry is held against the counts of those before it.
-/

namespace AutoTrade.Services

open AutoTrade.Library CircuitBreaker

/-! ## Histories -/

structure BreakerEvent where
  op : BreakerOp
  before : CircuitBreaker
  executed : Bool
  after : CircuitBreaker

structure BreakerHistory where
  breaker : CircuitBreaker := {}
  log : List BreakerEvent := []

/-- Whether the protected function runs. -/
def CircuitBreaker.executes (b : CircuitBreaker) : BreakerOp → Bool
  | .call outcome attempt done => (b.callWithKey outcome attempt done).2.executed
  | _ => false

def CircuitBreaker.event (b : CircuitBreaker) (op : BreakerOp) : BreakerEvent :=
  { op, before := b, executed := b.executes op, after := b.step op }

namespace BreakerEvent

/-- Forced open, or left OPEN by a call whose function ran. -/
def opens (e : BreakerEvent) : Bool :=
  match e.op with
  | .forceOpen _ => true
  | .call _ _ _ => e.executed && decide (e.after.state = .opened)
  | _ => false

end BreakerEvent

/-- The openings since the breaker was last CLOSED. -/
def countOpening (k : Nat) (e : BreakerEvent) : Nat :=
  match e.after.state with
  | .closed => 0
  | _ => if e.opens then k + 1 else k

def openingsInARow (log : List BreakerEvent) : Nat := log.foldl countOpening 0

/-- The calls that ran since the breaker became HALF_OPEN. -/
structure Trial where
  succeeded : Nat := 0
  failed : Nat := 0
deriving DecidableEq, Repr

def Trial.count (t : Trial) : CallOutcome → Trial
  | .returned => { t with succeeded := t.succeeded + 1 }
  | .raised => { t with failed := t.failed + 1 }
  | .aborted => t

/-- A call that runs on an OPEN breaker is the first of a new trial. -/
def Trial.before (t : Trial) : CircuitState → Trial
  | .opened => {}
  | _ => t

def followTrial (t : Trial) (e : BreakerEvent) : Trial :=
  match e.op with
  | .call outcome _ _ => if e.executed then (t.before e.before.state).count outcome else t
  | _ => t

def trial (log : List BreakerEvent) : Trial := log.foldl followTrial {}

theorem openingsInARow_append (log : List BreakerEvent) (e : BreakerEvent) :
    openingsInARow (log ++ [e]) = countOpening (openingsInARow log) e := by
  simp [openingsInARow]

theorem countOpening_of_closed (k : Nat) {e : BreakerEvent} (h : e.after.state = .closed) :
    countOpening k e = 0 := by
  unfold countOpening
  rw [h]

theorem countOpening_of_not_closed (k : Nat) {e : BreakerEvent} (h : e.after.state ≠ .closed) :
    countOpening k e = if e.opens then k + 1 else k := by
  unfold countOpening
  cases hstate : e.after.state with
  | closed => exact absurd hstate h
  | _ => rfl

theorem trial_append (log : List BreakerEvent) (e : BreakerEvent) :
    trial (log ++ [e]) = followTrial (trial log) e := by
  simp [trial]

/-! ## The law -/

/-- The `k`-th opening in a row waits `min(timeout * base^(k-1), 28800)` seconds from its moment. -/
def SetsNextAttempt (log : List BreakerEvent) (e : BreakerEvent) (moment : Time) : Prop :=
  e.after.nextAttemptTime =
    some (moment + openingDelay e.before.config (openingsInARow (log ++ [e])))

/-- The protected function does not run in OPEN before the next attempt time, an opening sets that
time, and a call on trial closes the breaker exactly when it is a success that reaches the
threshold, with no failure in the trial. -/
structure LawfulCall (log : List BreakerEvent) (e : BreakerEvent) (outcome : CallOutcome)
    (attempt done : Time) : Prop where
  waits : e.executed = true → e.before.state = .opened →
    ∃ next, e.before.nextAttemptTime = some next ∧ next ≤ attempt
  opening : e.opens = true → SetsNextAttempt log e done
  closing : e.executed = true → e.before.state ≠ .closed →
    (e.after.state = .closed ↔ outcome = .returned ∧
      e.before.config.successThreshold ≤ (trial (log ++ [e])).succeeded ∧
        (trial (log ++ [e])).failed = 0)
  refused : e.executed = false → e.after.state = e.before.state

def Lawful (log : List BreakerEvent) (e : BreakerEvent) : Prop :=
  match e.op with
  | .call outcome attempt done => LawfulCall log e outcome attempt done
  | .forceOpen now => SetsNextAttempt log e now
  | .updateConfig _ => e.after.state = e.before.state
  | .forceClose => True
  | .reset => True

namespace BreakerHistory

def step (h : BreakerHistory) (op : BreakerOp) : BreakerHistory :=
  { breaker := h.breaker.step op, log := h.log ++ [h.breaker.event op] }

def ObeysLaw (h : BreakerHistory) : Prop := EachAfter Lawful h.log

end BreakerHistory

namespace CircuitBreaker

/-- The call's own opening fits, and a call on trial does not end under a window that cannot be
trimmed. -/
structure CallFits (b : CircuitBreaker) (outcome : CallOutcome) (done : Time) : Prop where
  opening : outcome = .raised → b.config.WindowTrims → b.TripsOn done → b.OpeningFits done
  window : outcome ≠ .aborted → b.state = .halfOpen → b.config.WindowTrims

def StepFits (b : CircuitBreaker) : BreakerOp → Prop
  | .call outcome attempt done => (b.shouldAttemptCall attempt).2 = true →
      (b.shouldAttemptCall attempt).1.CallFits outcome done
  | .forceOpen now => b.OpeningFits now
  | _ => True

end CircuitBreaker

namespace BreakerHistory

/-- The counters of the breaker are the counts of its history. -/
structure Followed (h : BreakerHistory) : Prop where
  law : h.ObeysLaw
  openings : openingsInARow h.log = h.breaker.consecutiveOpenCount
  closed : h.breaker.state = .closed → h.breaker.consecutiveOpenCount = 0
  onTrial : h.breaker.state = .halfOpen → trial h.log = ⟨h.breaker.successCount, 0⟩

theorem followed_initial : Followed {} :=
  ⟨eachAfter_nil _, rfl, fun _ => rfl, by simp⟩

/-- The entry of an opening, by a failed call or by force. -/
theorem setsNextAttempt_of_trip {h : BreakerHistory} (hf : h.Followed) {op : BreakerOp}
    (hopens : (h.breaker.event op).opens = true) {b : CircuitBreaker} {moment : Time}
    (hconfig : b.config = h.breaker.config)
    (hcount : b.consecutiveOpenCount = h.breaker.consecutiveOpenCount)
    (hfits : b.OpeningFits moment) (hafter : h.breaker.step op = (b.trip moment).1) :
    SetsNextAttempt h.log (h.breaker.event op) moment ∧
      openingsInARow (h.step op).log = (h.step op).breaker.consecutiveOpenCount ∧
        (h.step op).breaker.state = .opened := by
  rw [trip_of_fits hfits] at hafter
  have hopened : (h.breaker.step op).state = .opened := by rw [hafter]
  have hrow : openingsInARow (h.log ++ [h.breaker.event op]) = b.consecutiveOpenCount + 1 := by
    have hnotClosed : (h.breaker.event op).after.state ≠ .closed := by
      show (h.breaker.step op).state ≠ .closed
      rw [hopened]
      simp
    rw [openingsInARow_append, hf.openings, hcount, countOpening_of_not_closed _ hnotClosed,
      if_pos hopens]
  refine ⟨?_, ?_, hopened⟩
  · show (h.breaker.step op).nextAttemptTime = _
    rw [hrow, hafter]
    show _ = some (moment + openingDelay h.breaker.config _)
    rw [← hconfig]
  · show openingsInARow (h.log ++ [h.breaker.event op]) = (h.breaker.step op).consecutiveOpenCount
    rw [hrow, hafter]

theorem followed_forceOpen {h : BreakerHistory} (hf : h.Followed) {now : Time}
    (hfits : h.breaker.OpeningFits now) : (h.step (.forceOpen now)).Followed := by
  obtain ⟨hsets, hopenings, hstate⟩ :=
    setsNextAttempt_of_trip hf (show (h.breaker.event (.forceOpen now)).opens = true from rfl)
      rfl rfl hfits rfl
  refine ⟨hf.law.append hsets, hopenings, ?_, ?_⟩
  · intro hclosed
    rw [hstate] at hclosed
    cases hclosed
  · intro hhalf
    rw [hstate] at hhalf
    cases hhalf

theorem followed_reset {h : BreakerHistory} (hf : h.Followed) {op : BreakerOp}
    (hlaw : Lawful h.log (h.breaker.event op)) (hafter : h.breaker.step op = h.breaker.reset) :
    (h.step op).Followed := by
  have hbreaker : (h.step op).breaker = h.breaker.reset := hafter
  refine ⟨hf.law.append hlaw, ?_, ?_, ?_⟩
  · show openingsInARow (h.log ++ [h.breaker.event op]) = _
    rw [openingsInARow_append, countOpening_of_closed _ (congrArg CircuitBreaker.state hafter),
      hbreaker]
    rfl
  · intro _
    rw [hbreaker]
    rfl
  · intro hhalf
    rw [hbreaker] at hhalf
    cases hhalf

theorem followed_updateConfig {h : BreakerHistory} (hf : h.Followed)
    (config : CircuitBreakerConfig) : (h.step (.updateConfig config)).Followed := by
  refine ⟨hf.law.append rfl, ?_, hf.closed, ?_⟩
  · show openingsInARow (h.log ++ [_]) = h.breaker.consecutiveOpenCount
    rw [openingsInARow_append, hf.openings]
    by_cases hstate : h.breaker.state = .closed
    · rw [countOpening_of_closed _ hstate]
      exact (hf.closed hstate).symm
    · exact countOpening_of_not_closed _ hstate
  · intro hhalf
    show trial (h.log ++ [_]) = _
    rw [trial_append]
    exact hf.onTrial hhalf

/-- A refused call is entered in the history and changes nothing. -/
theorem followed_refused {h : BreakerHistory} (hf : h.Followed) {attempt : Time}
    (hrefused : h.breaker.shouldAttemptCall attempt = (h.breaker, false))
    (hstate : h.breaker.state ≠ .closed) (outcome : CallOutcome) (done : Time) :
    (h.step (.call outcome attempt done)).Followed := by
  obtain ⟨hafter, hexecuted⟩ := callWithKey_refused hrefused outcome done
  have hbreaker : h.breaker.step (.call outcome attempt done) = h.breaker := hafter
  have hnot : (h.breaker.event (.call outcome attempt done)).executed = false := hexecuted
  have hopens : (h.breaker.event (.call outcome attempt done)).opens = false := by
    show ((h.breaker.event (.call outcome attempt done)).executed && _) = false
    rw [hnot]
    rfl
  refine ⟨hf.law.append ?_, ?_, ?_, ?_⟩
  · refine ⟨?_, ?_, ?_, ?_⟩
    · intro hexec
      rw [hnot] at hexec
      cases hexec
    · intro hopen
      rw [hopens] at hopen
      cases hopen
    · intro hexec
      rw [hnot] at hexec
      cases hexec
    · intro _
      exact congrArg CircuitBreaker.state hbreaker
  · show openingsInARow (h.log ++ [_]) = (h.breaker.step _).consecutiveOpenCount
    have hnotClosed : (h.breaker.event (.call outcome attempt done)).after.state ≠ .closed := by
      show (h.breaker.step _).state ≠ .closed
      rwa [hbreaker]
    rw [openingsInARow_append, hf.openings, hbreaker, countOpening_of_not_closed _ hnotClosed,
      hopens]
    rfl
  · intro hclosed
    rw [step, hbreaker] at hclosed
    exact absurd hclosed hstate
  · intro hhalf
    show trial (h.log ++ [_]) = ⟨(h.breaker.step _).successCount, 0⟩
    rw [hbreaker, trial_append]
    show (if (h.breaker.event _).executed then _ else trial h.log) = _
    rw [hnot]
    refine hf.onTrial ?_
    rwa [step, hbreaker] at hhalf

/-! ## Calls whose function runs -/

/-- The breaker a call finds when its function is let through. -/
structure Admitted (h : BreakerHistory) (attempt : Time) (b : CircuitBreaker) : Prop where
  attempted : h.breaker.shouldAttemptCall attempt = (b, true)
  config : b.config = h.breaker.config
  count : b.consecutiveOpenCount = h.breaker.consecutiveOpenCount
  closed : b.state = .closed ↔ h.breaker.state = .closed
  notOpened : b.state ≠ .opened
  onTrial : b.state = .halfOpen → (trial h.log).before h.breaker.state = ⟨b.successCount, 0⟩
  waits : h.breaker.state = .opened →
    ∃ next, h.breaker.nextAttemptTime = some next ∧ next ≤ attempt

theorem admitted_or_refused {h : BreakerHistory} (hf : h.Followed) (attempt : Time) :
    h.breaker.shouldAttemptCall attempt = (h.breaker, false) ∧ h.breaker.state ≠ .closed ∨
      ∃ b, h.Admitted attempt b := by
  rcases h.breaker.shouldAttemptCall_cases attempt with
    hrefused | ⟨hsame, hstate⟩ | ⟨htrial, hstate, hnext⟩
  · exact .inl hrefused
  · refine .inr ⟨h.breaker, hsame, rfl, rfl, Iff.rfl, hstate, ?_, fun hopened => ?_⟩
    · intro hhalf
      rw [hhalf]
      exact hf.onTrial hhalf
    · exact absurd hopened hstate
  · refine .inr ⟨h.breaker.beginTrial, htrial, rfl, rfl, ?_, by simp [beginTrial], ?_, ?_⟩
    · rw [hstate]
      simp [beginTrial]
    · intro _
      rw [hstate]
      rfl
    · intro _
      exact hnext

variable {h : BreakerHistory} {attempt : Time} {b : CircuitBreaker}

theorem Admitted.after (ha : h.Admitted attempt b) (outcome : CallOutcome) (done : Time) :
    h.breaker.step (.call outcome attempt done) = (b.complete outcome done).1 ∧
      (h.breaker.event (.call outcome attempt done)).executed = true := by
  have hcall := callWithKey_attempted ha.attempted outcome done
  refine ⟨congrArg Prod.fst hcall, ?_⟩
  show (h.breaker.callWithKey outcome attempt done).2.executed = true
  rw [hcall]
  exact complete_executed b outcome done

theorem Admitted.trial_append (ha : h.Admitted attempt b) (outcome : CallOutcome) (done : Time) :
    trial (h.log ++ [h.breaker.event (.call outcome attempt done)]) =
      ((trial h.log).before h.breaker.state).count outcome := by
  rw [Services.trial_append]
  show (if (h.breaker.event _).executed then _ else trial h.log) = _
  rw [(ha.after outcome done).2]
  rfl

/-- A call on trial closes the breaker, or keeps it on trial, exactly as the law says. -/
theorem followed_kept (hf : h.Followed) (ha : h.Admitted attempt b) {outcome : CallOutcome}
    {done : Time} (hstate : (b.complete outcome done).1.state ≠ .opened)
    (hcount : (b.complete outcome done).1.consecutiveOpenCount =
      if (b.complete outcome done).1.state = .closed then 0 else b.consecutiveOpenCount)
    (hclosing : b.state = .halfOpen → ((b.complete outcome done).1.state = .closed ↔
      outcome = .returned ∧ b.config.successThreshold ≤ (b.successCount + 1 : Nat)))
    (hnotFailed : b.state = .halfOpen → outcome ≠ .raised)
    (hsucceeded : (b.complete outcome done).1.state = .halfOpen → b.state = .halfOpen ∧
      (⟨b.successCount, 0⟩ : Trial).count outcome =
        ⟨(b.complete outcome done).1.successCount, 0⟩) :
    (h.step (.call outcome attempt done)).Followed := by
  obtain ⟨hafter, hexecuted⟩ := ha.after outcome done
  have hopens : (h.breaker.event (.call outcome attempt done)).opens = false := by
    show ((h.breaker.event _).executed && decide ((h.breaker.step _).state = .opened)) = false
    rw [hafter, decide_eq_false hstate, Bool.and_false]
  refine ⟨hf.law.append ⟨?_, ?_, ?_, ?_⟩, ?_, ?_, ?_⟩
  · intro _ hopened
    exact ha.waits hopened
  · intro hopen
    rw [hopens] at hopen
    cases hopen
  · intro _ hbefore
    have hhalf : b.state = .halfOpen := by
      cases hb : b.state with
      | closed => exact absurd (ha.closed.mp hb) hbefore
      | opened => exact absurd hb ha.notOpened
      | halfOpen => rfl
    show (h.breaker.step _).state = .closed ↔ _ ∧ h.breaker.config.successThreshold ≤ _ ∧ _
    rw [hafter, hclosing hhalf, ha.trial_append, ha.onTrial hhalf, ha.config]
    cases outcome with
    | returned => simp [Trial.count]
    | raised => simp
    | aborted => simp
  · intro hexec
    rw [hexecuted] at hexec
    cases hexec
  · show openingsInARow (h.log ++ [_]) = (h.breaker.step _).consecutiveOpenCount
    rw [openingsInARow_append, hf.openings, hafter, hcount]
    have hstep : (h.breaker.event (.call outcome attempt done)).after.state =
        (b.complete outcome done).1.state := congrArg CircuitBreaker.state hafter
    split
    · next hclosed => exact countOpening_of_closed _ (hstep.trans hclosed)
    · next hopen =>
        rw [countOpening_of_not_closed _ (hstep ▸ hopen), hopens]
        exact ha.count.symm
  · intro hclosed
    rw [step, hafter] at hclosed ⊢
    rw [hcount, if_pos hclosed]
  · intro hhalf
    rw [step, hafter] at hhalf
    obtain ⟨hb, hsuccesses⟩ := hsucceeded hhalf
    show trial (h.log ++ [_]) = ⟨(h.breaker.step _).successCount, 0⟩
    rw [ha.trial_append, ha.onTrial hb, hafter]
    exact hsuccesses

/-- A failed call opens the breaker. -/
theorem followed_tripped (hf : h.Followed) (ha : h.Admitted attempt b) {done : Time}
    (htrip : (b.complete .raised done).1 = ((b.recordFailure done).trip done).1)
    (hfits : b.OpeningFits done) : (h.step (.call .raised attempt done)).Followed := by
  obtain ⟨hafter, hexecuted⟩ := ha.after .raised done
  rw [htrip] at hafter
  have hfits' : (b.recordFailure done).OpeningFits done := ⟨hfits.1, hfits.2, hfits.3, hfits.4⟩
  have hopened : (h.breaker.step (.call .raised attempt done)).state = .opened := by
    rw [hafter, trip_of_fits hfits']
  have hopens : (h.breaker.event (.call .raised attempt done)).opens = true := by
    show ((h.breaker.event _).executed && decide ((h.breaker.step _).state = .opened)) = true
    rw [hexecuted, hopened]
    rfl
  obtain ⟨hsets, hopenings, hstate⟩ :=
    setsNextAttempt_of_trip hf hopens (b := b.recordFailure done) ha.config ha.count hfits' hafter
  refine ⟨hf.law.append ⟨?_, ?_, ?_, ?_⟩, hopenings, ?_, ?_⟩
  · intro _ hbefore
    exact ha.waits hbefore
  · intro _
    exact hsets
  · intro _ _
    show (h.breaker.step _).state = .closed ↔ _
    rw [hopened]
    simp
  · intro hexec
    rw [hexecuted] at hexec
    cases hexec
  · intro hclosed
    rw [hstate] at hclosed
    cases hclosed
  · intro hhalf
    rw [hstate] at hhalf
    cases hhalf

/-- A call that ends outside a trial and leaves the breaker in its state. -/
theorem followed_unmoved (hf : h.Followed) (ha : h.Admitted attempt b) {outcome : CallOutcome}
    {done : Time} (hnotHalf : b.state ≠ .halfOpen)
    (hstate : (b.complete outcome done).1.state = b.state)
    (hcount : (b.complete outcome done).1.consecutiveOpenCount = b.consecutiveOpenCount) :
    (h.step (.call outcome attempt done)).Followed := by
  have hclosed : b.state = .closed := by
    cases hb : b.state with
    | closed => rfl
    | opened => exact absurd hb ha.notOpened
    | halfOpen => exact absurd hb hnotHalf
  refine followed_kept hf ha ?_ ?_ ?_ ?_ ?_
  · rw [hstate]
    exact ha.notOpened
  · rw [hstate, if_pos hclosed, hcount, ha.count]
    exact hf.closed (ha.closed.mp hclosed)
  · exact fun hhalf => absurd hhalf hnotHalf
  · exact fun hhalf => absurd hhalf hnotHalf
  · exact fun hhalf => absurd (hstate.symm.trans hhalf) hnotHalf

/-- A call that ends on trial and leaves the breaker there. -/
theorem followed_onTrial (hf : h.Followed) (ha : h.Admitted attempt b) {outcome : CallOutcome}
    {done : Time} (hhalf : (b.complete outcome done).1.state = .halfOpen)
    (hbefore : b.state = .halfOpen)
    (hcount : (b.complete outcome done).1.consecutiveOpenCount = b.consecutiveOpenCount)
    (hshort : ¬ (outcome = .returned ∧ b.config.successThreshold ≤ (b.successCount + 1 : Nat)))
    (hnotFailed : outcome ≠ .raised)
    (hsucceeded : (⟨b.successCount, 0⟩ : Trial).count outcome =
      ⟨(b.complete outcome done).1.successCount, 0⟩) :
    (h.step (.call outcome attempt done)).Followed := by
  refine followed_kept hf ha ?_ ?_ ?_ ?_ ?_
  · rw [hhalf]
    simp
  · rw [hhalf, hcount]
    rfl
  · intro _
    rw [hhalf]
    exact iff_of_false (by simp) hshort
  · exact fun _ => hnotFailed
  · exact fun _ => ⟨hbefore, hsucceeded⟩

theorem followed_admitted (hf : h.Followed) (ha : h.Admitted attempt b) {outcome : CallOutcome}
    {done : Time} (hfits : b.CallFits outcome done) :
    (h.step (.call outcome attempt done)).Followed := by
  have hcompletes := completes ha.notOpened outcome done
  generalize hafter : (b.complete outcome done).1 = after at hcompletes
  cases hcompletes with
  | aborted =>
      by_cases hhalf : b.state = .halfOpen
      · exact followed_onTrial hf ha (by rw [hafter, hhalf]) hhalf (by rw [hafter]) (by simp)
          (by simp) (by rw [hafter]; rfl)
      · exact followed_unmoved hf ha hhalf (by rw [hafter]) (by rw [hafter])
  | succeeds hclosed htrims =>
      exact followed_unmoved hf ha (by simp [hclosed]) (by rw [hafter]; rfl) (by rw [hafter]; rfl)
  | recovers hhalf htrims hreached =>
      refine followed_kept hf ha ?_ ?_ ?_ (by simp) ?_
      · rw [hafter]
        simp
      · rw [hafter]
        rfl
      · intro _
        rw [hafter]
        exact iff_of_true rfl ⟨rfl, hreached⟩
      · intro hopen
        rw [hafter] at hopen
        cases hopen
  | counts hhalf htrims hshort =>
      exact followed_onTrial hf ha (by rw [hafter]; exact hhalf) hhalf (by rw [hafter]; rfl)
        (fun hclosing => hshort hclosing.2) (by simp) (by rw [hafter]; rfl)
  | untrimmed hstuck =>
      have hnotHalf : b.state ≠ .halfOpen := fun hhalf => hstuck (hfits.window (by simp) hhalf)
      exact followed_unmoved hf ha hnotHalf (by rw [hafter]; rfl) (by rw [hafter]; rfl)
  | trips htrims hopening =>
      exact followed_tripped hf ha hafter (hfits.opening rfl htrims hopening)
  | fails hkept =>
      have hnotHalf : b.state ≠ .halfOpen := fun hhalf =>
        hkept (hfits.window (by simp) hhalf) (.inl hhalf)
      exact followed_unmoved hf ha hnotHalf (by rw [hafter]; rfl) (by rw [hafter]; rfl)

/-- One step: the history obeys the law after it if its opening and its trial fit. -/
theorem followed_step {op : BreakerOp} (hf : h.Followed) (hfits : h.breaker.StepFits op) :
    (h.step op).Followed := by
  cases op with
  | call outcome attempt done =>
      rcases admitted_or_refused hf attempt with ⟨hrefused, hstate⟩ | ⟨b, ha⟩
      · exact followed_refused hf hrefused hstate outcome done
      · have hcall := hfits (by rw [ha.attempted])
        rw [ha.attempted] at hcall
        exact followed_admitted hf ha hcall
  | forceOpen now => exact followed_forceOpen hf hfits
  | forceClose => exact followed_reset hf trivial rfl
  | reset => exact followed_reset hf trivial rfl
  | updateConfig config => exact followed_updateConfig hf config

/-- Over every run whose openings fit and whose trials end under a window that can be trimmed, the
breaker waits, opens and closes by the law. -/
theorem opening_law (ops : List BreakerOp)
    (hfits : StepsMeet step (fun h op => h.breaker.StepFits op) {} ops) :
    Always step ObeysLaw {} ops := by
  have hall : Always step Followed {} ops :=
    always_of_stepsMeet (fun _ _ _ hf hop => followed_step hf hop) followed_initial hfits
  exact hall.mono fun _ hf => hf.law

theorem two_pow_lt_floatLimit {k : Nat} (hk : k ≤ 1023) : (2 : ℚ) ^ k < floatLimit := by
  have hle : (2 : ℚ) ^ k ≤ 2 ^ 1023 := pow_le_pow_right₀ (by norm_num) hk
  have hhalf : (2 : ℚ) ^ 970 < 2 ^ 1023 := pow_lt_pow_right₀ (by norm_num) (by norm_num)
  have hdouble : (2 : ℚ) ^ 1024 = 2 ^ 1023 * 2 := pow_succ 2 1023
  unfold floatLimit
  rw [hdouble]
  generalize (2 : ℚ) ^ 1023 = top at *
  generalize (2 : ℚ) ^ 970 = half at *
  linarith

theorem floatLimit_le : floatLimit ≤ 2 ^ 1024 := by
  unfold floatLimit
  exact sub_le_self _ (by positivity)

theorem default_timeout_lt_floatLimit : |(({} : CircuitBreakerConfig).timeout : ℚ)| < floatLimit := by
  have hsixtyFour := two_pow_lt_floatLimit (k := 6) (by decide)
  show |((60 : Int) : ℚ)| < floatLimit
  norm_num at hsixtyFour ⊢
  linarith

/-- A first opening waits a minute; the next call is the first of a trial. -/
theorem opening_law_first_opening :
    Always step ObeysLaw {} [.forceOpen 0, .call .returned (60 * second) (60 * second)] := by
  have hpower : |(2 : ℚ) ^ 0| < floatLimit := by
    simpa using two_pow_lt_floatLimit (k := 0) (by decide)
  refine opening_law _ ⟨⟨default_timeout_lt_floatLimit, hpower, ?_, ?_⟩, ?_, trivial⟩
  · decide +kernel
  · decide +kernel
  · intro _
    exact ⟨by simp, by decide +kernel⟩

/-! ## An operator forces the breaker open every hour -/

def forcedHourly (n : Nat) : List BreakerOp :=
  (List.range n).map fun i => .forceOpen (i * hour)

theorem run_forcedHourly_succ (n : Nat) :
    run step {} (forcedHourly (n + 1)) =
      (run step {} (forcedHourly n)).step (.forceOpen (n * hour)) := by
  simp [run, forcedHourly, List.range_succ]

theorem roundHalfEven_le {x : ℚ} {n : Int} (h : x ≤ n) : roundHalfEven x ≤ n + 1 := by
  have hfloor : x.floor ≤ n := by
    by_contra hover
    have hnext : ((n + 1 : Int) : ℚ) ≤ x := Rat.le_floor_iff.mp (not_le.mp hover)
    push_cast at hnext
    linarith
  unfold roundHalfEven
  dsimp only
  split
  · omega
  · omega

theorem openingDelay_bounds (k : Nat) :
    0 ≤ openingDelay {} k ∧ openingDelay {} k ≤ 28800 * second + 1 := by
  have hpower : (0 : ℚ) ≤ 2 ^ (k - 1) := by positivity
  have hcap := min_le_right ((60 : Int) * (2 : ℚ) ^ (k - 1)) 28800
  constructor
  · refine roundHalfEven_nonneg (mul_nonneg (le_min ?_ (by norm_num)) (by norm_num))
    exact mul_nonneg (by norm_num) hpower
  · refine roundHalfEven_le ?_
    show min ((60 : Int) * (2 : ℚ) ^ (k - 1)) 28800 * 1000000 ≤ _
    unfold second
    push_cast
    push_cast at hcap
    linarith

theorem isTimedelta_of_le {d : Int} (hlow : 0 ≤ d) (hhigh : d ≤ 28800000001) : IsTimedelta d :=
  abs_le.mpr ⟨show -999999999 ≤ d / 86400000000 by omega,
    show d / 86400000000 ≤ 999999999 by omega⟩

theorem isDatetime_of_le {k : Nat} (hk : k ≤ 1023) {d : Int} (hlow : 0 ≤ d)
    (hhigh : d ≤ 28800000001) : IsDatetime (k * hour + d) :=
  ⟨show -62135596800 * 1000000 ≤ (k : Int) * (3600 * 1000000) + d by omega,
    show (k : Int) * (3600 * 1000000) + d < 253402300800 * 1000000 by omega⟩

/-- Up to a thousand and twenty-four openings in a row the power of two is a double. -/
theorem forcedHourly_fits {k : Nat} (hk : k ≤ 1023) {b : CircuitBreaker} (hconfig : b.config = {})
    (hcount : b.consecutiveOpenCount = k) : b.OpeningFits (k * hour) := by
  obtain ⟨hlow, hhigh⟩ := openingDelay_bounds (k + 1)
  refine ⟨?_, ?_, ?_, ?_⟩
  · rw [hconfig]
    exact default_timeout_lt_floatLimit
  · rw [hconfig, hcount]
    show |(2 : ℚ) ^ k| < floatLimit
    rw [abs_of_nonneg (by positivity)]
    exact two_pow_lt_floatLimit hk
  · rw [hconfig, hcount]
    exact isTimedelta_of_le hlow hhigh
  · rw [hconfig, hcount]
    exact isDatetime_of_le hk hlow hhigh

theorem forcedHourly_state {n : Nat} (hn : n ≤ 1024) :
    (run step {} (forcedHourly n)).Followed ∧
      (run step {} (forcedHourly n)).breaker.config = {} ∧
        (run step {} (forcedHourly n)).breaker.consecutiveOpenCount = n ∧
          (0 < n → (run step {} (forcedHourly n)).breaker.nextAttemptTime =
            some ((n - 1 : Nat) * hour + openingDelay {} n)) := by
  induction n with
  | zero => exact ⟨followed_initial, rfl, rfl, by simp⟩
  | succ n ih =>
      obtain ⟨hf, hconfig, hcount, -⟩ := ih (by omega)
      have hfits := forcedHourly_fits (by omega) hconfig hcount
      have htrip := trip_of_fits hfits
      rw [run_forcedHourly_succ]
      refine ⟨followed_step hf hfits, ?_, ?_, fun _ => ?_⟩
      · show (CircuitBreaker.trip _ _).1.config = {}
        rw [htrip]
        exact hconfig
      · show (CircuitBreaker.trip _ _).1.consecutiveOpenCount = n + 1
        rw [htrip]
        exact congrArg Nat.succ hcount
      · show (CircuitBreaker.trip _ _).1.nextAttemptTime = _
        rw [htrip, hconfig, hcount]
        rfl

theorem openingDelay_capped {k : Nat} (hk : 11 ≤ k) : openingDelay {} k = 28800 * second := by
  have hpower : (2 : ℚ) ^ 10 ≤ 2 ^ (k - 1) := pow_le_pow_right₀ (by norm_num) (by omega)
  have hcap : min ((60 : Int) * (2 : ℚ) ^ (k - 1)) 28800 = 28800 := by
    refine min_eq_right ?_
    norm_num at hpower ⊢
    linarith
  show microseconds (min ((60 : Int) * (2 : ℚ) ^ (k - 1)) 28800) = _
  rw [hcap]
  decide +kernel

/-- An opening that overflows leaves the time of the opening an hour before it. -/
theorem forcedHourly_breaks {n : Nat} (hn : n = 1024) :
    ¬ (run step {} (forcedHourly (n + 1))).ObeysLaw := by
  intro hlaw
  obtain ⟨hf, hconfig, hcount, hnext⟩ := forcedHourly_state (le_of_eq hn)
  rw [run_forcedHourly_succ] at hlaw
  have hentry := hlaw _ _ [] rfl
  generalize run step {} (forcedHourly n) = h at hf hconfig hcount hnext hentry
  have hover : ¬ h.breaker.OpeningFits (n * hour) := by
    intro hfits
    have hpower := hfits.power
    rw [hconfig, hcount, hn] at hpower
    exact absurd (lt_of_le_of_lt (le_abs_self _) hpower) (not_lt.mpr floatLimit_le)
  obtain ⟨k, next, htrip, hstale⟩ := h.breaker.trip_frame (n * hour)
  have hafter : h.breaker.step (.forceOpen (n * hour)) = _ := htrip
  have hrow : openingsInARow (h.log ++ [h.breaker.event (.forceOpen (n * hour))]) = n + 1 := by
    have hnotClosed : (h.breaker.event (.forceOpen (n * hour))).after.state ≠ .closed := by
      show (h.breaker.step (.forceOpen (n * hour))).state ≠ .closed
      rw [hafter]
      simp
    rw [openingsInARow_append, hf.openings, hcount]
    exact countOpening_of_not_closed _ hnotClosed
  have hset : (h.breaker.step (.forceOpen (n * hour))).nextAttemptTime =
      some (n * hour + openingDelay h.breaker.config
        (openingsInARow (h.log ++ [h.breaker.event (.forceOpen (n * hour))]))) := hentry
  rw [hrow, hconfig, hafter, openingDelay_capped (by omega)] at hset
  have hkept := (hstale hover).symm.trans hset
  rw [hnext (by omega), openingDelay_capped (by omega)] at hkept
  have hequal := Option.some.inj hkept
  change ((n - 1 : Nat) : Int) * (3600 * 1000000) + 28800 * 1000000 =
    (n : Int) * (3600 * 1000000) + 28800 * 1000000 at hequal
  omega

/-- The thousand and twenty-fifth opening in a row raises an `OverflowError` before its wait is
capped. -/
theorem opening_overflows : ¬ Always step ObeysLaw {} (forcedHourly (1024 + 1)) :=
  mt Always.final (forcedHourly_breaks rfl)

end BreakerHistory

end AutoTrade.Services
