import AutoTrade.Library.Run
import AutoTrade.Services.CircuitBreaker

/-! # Whether a breaker can recover

A breaker can recover if later calls, all of them successful, close it. In
HALF_OPEN no clock helps: the calls let through on trial have to reach the
threshold before they reach the cap.
-/

namespace AutoTrade.Services

open AutoTrade.Library

namespace CircuitBreaker

/-- A call at one instant whose function returns. -/
def succeedAt (t : Time) : BreakerOp := .call .returned t t

/-- From every reading of the clock, later calls that succeed can close the breaker. -/
def Recoverable (b : CircuitBreaker) : Prop :=
  ∀ clock : Time, ∃ times : List Time, (clock :: times).Pairwise (· ≤ ·) ∧
    (run step b (times.map succeedAt)).state = .closed

/-! ## What recovery needs -/

/-- A trial without a cap, or with one that leaves room for the threshold. -/
def CapReaches (c : CircuitBreakerConfig) : Prop :=
  c.halfOpenMaxRequests ≤ 0 ∨ c.successThreshold ≤ c.halfOpenMaxRequests

def HasRoom (c : CircuitBreakerConfig) (requests : Nat) : Prop :=
  c.halfOpenMaxRequests ≤ 0 ∨ requests < c.halfOpenMaxRequests

/-- A breaker that is not CLOSED can be closed by successes. -/
structure CanRetry (b : CircuitBreaker) : Prop where
  window : b.config.WindowTrims
  cap : CapReaches b.config
  room : b.state = .halfOpen → HasRoom b.config b.halfOpenRequests
  time : b.state = .opened → b.nextAttemptTime ≠ none

def WayBack (b : CircuitBreaker) : Prop := b.state = .closed ∨ b.CanRetry

/-- On trial the successes are the requests counted against the cap, and the time that let the
trial begin is kept; a CLOSED breaker has no such time. -/
structure Tracked (b : CircuitBreaker) : Prop where
  counts : b.state = .halfOpen → b.successCount = b.halfOpenRequests
  timed : b.state = .halfOpen → b.nextAttemptTime ≠ none
  untimed : b.state = .closed → b.nextAttemptTime = none

theorem tracked_initial : Tracked {} := ⟨by simp, by simp, fun _ => rfl⟩

theorem tracked_beginTrial {b : CircuitBreaker} {next : Time} (h : b.nextAttemptTime = some next) :
    b.beginTrial.Tracked := by
  refine ⟨fun _ => rfl, fun _ => ?_, by simp [beginTrial]⟩
  show b.nextAttemptTime ≠ none
  rw [h]
  simp

theorem tracked_trip (b : CircuitBreaker) (now : Time) : (b.trip now).1.Tracked := by
  obtain ⟨k, next, hframe, -⟩ := b.trip_frame now
  rw [hframe]
  exact ⟨by simp, by simp, by simp⟩

theorem tracked_recordSuccess {b : CircuitBreaker} (h : b.Tracked) (now : Time) :
    (b.recordSuccess now).Tracked := by
  refine ⟨?_, h.timed, h.untimed⟩
  intro hhalf
  have hstate : b.state = .halfOpen := hhalf
  rw [recordSuccess_halfOpenRequests hstate]
  exact congrArg Nat.succ (h.counts hstate)

theorem tracked_completes {b after : CircuitBreaker} {outcome : CallOutcome} {done : Time}
    (h : b.Tracked) (hcompletes : Completes b done outcome after) : after.Tracked := by
  have hsuccess := tracked_recordSuccess h done
  cases hcompletes with
  | aborted => exact h
  | succeeds hclosed htrims => exact ⟨hsuccess.counts, hsuccess.timed, hsuccess.untimed⟩
  | recovers hhalf htrims hreached => exact ⟨by simp, by simp, fun _ => rfl⟩
  | counts hhalf htrims hshort => exact hsuccess
  | untrimmed hstuck => exact ⟨hsuccess.counts, hsuccess.timed, hsuccess.untimed⟩
  | trips htrims hopening => exact tracked_trip _ done
  | fails hkept => exact ⟨h.counts, h.timed, h.untimed⟩

theorem shouldAttemptCall_halfOpen {b : CircuitBreaker} (h : b.state = .halfOpen) (now : Time) :
    b.shouldAttemptCall now = (b, true) ↔ HasRoom b.config b.halfOpenRequests := by
  unfold shouldAttemptCall HasRoom
  rw [h]
  simp only [Prod.mk.injEq, true_and, Bool.not_eq_true', Bool.and_eq_false_iff,
    decide_eq_false_iff_not, not_lt, not_le]

/-- What a call does: nothing, or what its function leaves on the breaker it found. -/
theorem call_cases (b : CircuitBreaker) (outcome : CallOutcome) (attempt done : Time) :
    b.step (.call outcome attempt done) = b ∧ b.state ≠ .closed ∧
        b.shouldAttemptCall attempt = (b, false) ∨
      b.state ≠ .opened ∧ (b.state = .halfOpen → HasRoom b.config b.halfOpenRequests) ∧
          Completes b done outcome (b.step (.call outcome attempt done)) ∨
        (∃ next, b.nextAttemptTime = some next) ∧ b.state = .opened ∧
          Completes b.beginTrial done outcome (b.step (.call outcome attempt done)) := by
  rcases b.shouldAttemptCall_cases attempt with
    ⟨hrefused, hstate⟩ | ⟨hsame, hstate⟩ | ⟨htrial, hstate, next, hnext, -⟩
  · exact .inl ⟨(callWithKey_refused hrefused outcome done).1, hstate, hrefused⟩
  · refine .inr (.inl ⟨hstate, fun hhalf => (shouldAttemptCall_halfOpen hhalf _).mp hsame, ?_⟩)
    show Completes b done outcome (b.callWithKey outcome attempt done).1
    rw [callWithKey_attempted hsame]
    exact completes hstate outcome done
  · refine .inr (.inr ⟨⟨next, hnext⟩, hstate, ?_⟩)
    show Completes b.beginTrial done outcome (b.callWithKey outcome attempt done).1
    rw [callWithKey_attempted htrial]
    exact completes (by simp [beginTrial]) outcome done

theorem tracked_step (b : CircuitBreaker) (op : BreakerOp) (h : b.Tracked) :
    (b.step op).Tracked := by
  cases op with
  | call outcome attempt done =>
      rcases b.call_cases outcome attempt done with
        ⟨hsame, -, -⟩ | ⟨-, -, hcompletes⟩ | ⟨⟨next, hnext⟩, -, hcompletes⟩
      · rw [hsame]
        exact h
      · exact tracked_completes h hcompletes
      · exact tracked_completes (tracked_beginTrial hnext) hcompletes
  | forceOpen now => exact tracked_trip b now
  | forceClose =>
      exact ⟨by simp [step, forceClose, reset], by simp [step, forceClose, reset], fun _ => rfl⟩
  | reset => exact ⟨by simp [step, reset], by simp [step, reset], fun _ => rfl⟩
  | updateConfig config => exact ⟨h.counts, h.timed, h.untimed⟩

/-! ## Successes that close -/

theorem canRetry_beginTrial {b : CircuitBreaker} (hwindow : b.config.WindowTrims)
    (hcap : CapReaches b.config) : b.beginTrial.CanRetry := by
  refine ⟨hwindow, hcap, fun _ => ?_, by simp [beginTrial]⟩
  show b.config.halfOpenMaxRequests ≤ 0 ∨ ((0 : Nat) : Int) < b.config.halfOpenMaxRequests
  omega

/-- A trial that can succeed ends in CLOSED, goes on, or begins again. -/
theorem wayBack_completes {b after : CircuitBreaker} {outcome : CallOutcome} {done : Time}
    (hstate : b.state = .halfOpen) (htracked : b.Tracked) (hretry : b.CanRetry)
    (hcompletes : Completes b done outcome after) : after.WayBack := by
  cases hcompletes with
  | aborted => exact .inr hretry
  | succeeds hclosed htrims => exact .inl hclosed
  | recovers hhalf htrims hreached => exact .inl rfl
  | counts hhalf htrims hshort =>
      refine .inr ⟨hretry.window, hretry.cap, fun _ => ?_, ?_⟩
      · have hroom := hretry.room hstate
        have hcap := hretry.cap
        have hcount := htracked.counts hstate
        rw [recordSuccess_halfOpenRequests hstate]
        show b.config.halfOpenMaxRequests ≤ 0 ∨
          ((b.halfOpenRequests + 1 : Nat) : Int) < b.config.halfOpenMaxRequests
        unfold HasRoom at hroom
        unfold CapReaches at hcap
        omega
      · intro hopened
        cases hstate.symm.trans hopened
  | untrimmed hstuck => exact absurd hretry.window hstuck
  | trips htrims hopening =>
      obtain ⟨k, next, hframe, hnext⟩ := (b.recordFailure done).trip_frame done
      have htime : ((b.recordFailure done).trip done).1.nextAttemptTime ≠ none := by
        by_cases hfits : (b.recordFailure done).OpeningFits done
        · rw [trip_of_fits hfits]
          simp
        · rw [hframe]
          show next ≠ none
          rw [hnext hfits]
          exact htracked.timed hstate
      rw [hframe] at htime ⊢
      exact .inr ⟨hretry.window, hretry.cap, by simp, fun _ => htime⟩
  | fails hkept => exact absurd (.inl hstate) (hkept hretry.window)

/-- How many successes are still needed, one more before the trial has begun. -/
def remaining (b : CircuitBreaker) : Nat :=
  match b.state with
  | .opened => b.config.successThreshold.toNat + 1
  | _ => (b.config.successThreshold - b.successCount).toNat

theorem remaining_opened {b : CircuitBreaker} (h : b.state = .opened) :
    b.remaining = b.config.successThreshold.toNat + 1 := by
  unfold remaining
  rw [h]

theorem remaining_halfOpen {b : CircuitBreaker} (h : b.state = .halfOpen) :
    b.remaining = (b.config.successThreshold - b.successCount).toNat := by
  unfold remaining
  rw [h]

/-- On trial, or OPEN with its time come by `t`. -/
structure Retrying (t : Time) (b : CircuitBreaker) : Prop where
  tracked : b.Tracked
  retry : b.CanRetry
  open_ : b.state ≠ .closed
  due : b.state = .opened → ∃ next, b.nextAttemptTime = some next ∧ next ≤ t

theorem retrying_completes {b after : CircuitBreaker} {t : Time} (hstate : b.state = .halfOpen)
    (htracked : b.Tracked) (hretry : b.CanRetry) (hcompletes : Completes b t .returned after) :
    after.state = .closed ∨ Retrying t after ∧ after.remaining < b.remaining := by
  have hback := wayBack_completes hstate htracked hretry hcompletes
  have htrack := tracked_completes htracked hcompletes
  cases hcompletes with
  | succeeds hclosed htrims => exact .inl hclosed
  | recovers hhalf htrims hreached => exact .inl rfl
  | counts hhalf htrims hshort =>
      have hkept : (b.recordSuccess t).state = .halfOpen := hstate
      rcases hback with hclosed | hcan
      · exact .inl hclosed
      · refine .inr ⟨⟨htrack, hcan, ?_, ?_⟩, ?_⟩
        · rw [hkept]
          simp
        · rw [hkept]
          simp
        · rw [remaining_halfOpen hkept, remaining_halfOpen hstate]
          show (b.config.successThreshold - (b.successCount + 1 : Nat)).toNat < _
          omega
  | untrimmed hstuck => exact absurd hretry.window hstuck

theorem retrying_progress (t : Time) (b : CircuitBreaker) (h : Retrying t b) :
    (b.step (succeedAt t)).state = .closed ∨
      Retrying t (b.step (succeedAt t)) ∧ (b.step (succeedAt t)).remaining < b.remaining := by
  have hcall : b.step (succeedAt t) = (b.callWithKey .returned t t).1 := rfl
  cases hstate : b.state with
  | closed => exact absurd hstate h.open_
  | halfOpen =>
      have hattempt := (shouldAttemptCall_halfOpen hstate t).mpr (h.retry.room hstate)
      rw [hcall, callWithKey_attempted hattempt]
      exact retrying_completes hstate h.tracked h.retry (completes (by simp [hstate]) .returned t)
  | opened =>
      obtain ⟨next, hnext, hdue⟩ := h.due hstate
      have hattempt := shouldAttemptCall_opened hstate hnext hdue
      have hprogress := retrying_completes (t := t) rfl (tracked_beginTrial hnext)
        (canRetry_beginTrial h.retry.window h.retry.cap)
        (completes (b := b.beginTrial) (by simp [beginTrial]) .returned t)
      rw [hcall, callWithKey_attempted hattempt]
      rcases hprogress with hclosed | ⟨hretrying, hlower⟩
      · exact .inl hclosed
      · refine .inr ⟨hretrying, lt_trans hlower ?_⟩
        rw [remaining_halfOpen rfl, remaining_opened hstate]
        show (b.config.successThreshold - (0 : Nat)).toNat < b.config.successThreshold.toNat + 1
        omega

theorem recoverable_of_wayBack {b : CircuitBreaker} (htracked : b.Tracked) (h : b.WayBack) :
    b.Recoverable := by
  intro clock
  rcases h with hclosed | hretry
  · exact ⟨[], by simp, hclosed⟩
  · have hdue : ∃ t, clock ≤ t ∧
        (b.state = .opened → ∃ next, b.nextAttemptTime = some next ∧ next ≤ t) := by
      cases hnext : b.nextAttemptTime with
      | none => exact ⟨clock, le_refl clock, fun hopened => absurd hnext (hretry.time hopened)⟩
      | some next => exact ⟨max clock next, le_max_left _ _, fun _ => ⟨next, rfl, le_max_right _ _⟩⟩
    obtain ⟨t, hclock, hdue⟩ := hdue
    by_cases hclosed : b.state = .closed
    · exact ⟨[], by simp, hclosed⟩
    · obtain ⟨n, hn⟩ := @exists_run_of_rank _ _ step (Retrying t) (fun b => b.state = .closed)
        remaining (succeedAt t) (retrying_progress t) b ⟨htracked, hretry, hclosed, hdue⟩
      refine ⟨List.replicate n t, ?_, ?_⟩
      · rw [List.pairwise_cons]
        refine ⟨fun x hx => ?_, List.pairwise_replicate.mpr (.inr (le_refl t))⟩
        rw [List.eq_of_mem_replicate hx]
        exact hclock
      · rw [List.map_replicate]
        exact hn

/-! ## Traps -/

/-- On trial with no way back a success changes nothing for the better. -/
theorem trapped_completes {b after : CircuitBreaker} {done : Time} (hstate : b.state = .halfOpen)
    (htracked : b.Tracked) (hroom : HasRoom b.config b.halfOpenRequests) (htrap : ¬ b.CanRetry)
    (hcompletes : Completes b done .returned after) : ¬ after.WayBack := by
  have hshut : ¬ (b.config.WindowTrims ∧ CapReaches b.config) := by
    rintro ⟨hwindow, hcap⟩
    exact htrap ⟨hwindow, hcap, fun _ => hroom, by simp [hstate]⟩
  cases hcompletes with
  | succeeds hclosed htrims => cases hclosed.symm.trans hstate
  | recovers hhalf htrims hreached =>
      refine absurd ⟨htrims, ?_⟩ hshut
      have hcount := htracked.counts hstate
      unfold HasRoom at hroom
      unfold CapReaches
      omega
  | counts hhalf htrims hshort =>
      rintro (hclosed | hretry)
      · cases hclosed.symm.trans hstate
      · exact hshut ⟨hretry.window, hretry.cap⟩
  | untrimmed hstuck =>
      rintro (hclosed | hretry)
      · cases hclosed.symm.trans hstate
      · exact hshut ⟨hretry.window, hretry.cap⟩

theorem trapped_step {b : CircuitBreaker} (htracked : b.Tracked) (htrap : ¬ b.WayBack) (t : Time) :
    ¬ (b.step (succeedAt t)).WayBack := by
  have hopen : b.state ≠ .closed := fun hclosed => htrap (.inl hclosed)
  rcases b.call_cases .returned t t with
    ⟨hsame, -, -⟩ | ⟨hnotOpened, hroom, hcompletes⟩ | ⟨⟨next, hnext⟩, hopened, hcompletes⟩
  · rw [succeedAt, hsame]
    exact htrap
  · have hhalf : b.state = .halfOpen := by
      cases hstate : b.state with
      | closed => exact absurd hstate hopen
      | opened => exact absurd hstate hnotOpened
      | halfOpen => rfl
    exact trapped_completes hhalf htracked (hroom hhalf) (fun hretry => htrap (.inr hretry))
      hcompletes
  · have htrial : ¬ b.beginTrial.CanRetry := by
      intro hretry
      refine htrap (.inr ⟨hretry.window, hretry.cap, ?_, ?_⟩)
      · intro hhalf
        cases hopened.symm.trans hhalf
      · intro _
        rw [hnext]
        simp
    refine trapped_completes rfl (tracked_beginTrial hnext) ?_ htrial hcompletes
    show b.config.halfOpenMaxRequests ≤ 0 ∨ ((0 : Nat) : Int) < b.config.halfOpenMaxRequests
    omega

theorem trapped_run {b : CircuitBreaker} (htracked : b.Tracked) (htrap : ¬ b.WayBack)
    (times : List Time) : ¬ (run step b (times.map succeedAt)).WayBack := by
  induction times generalizing b with
  | nil => exact htrap
  | cons t rest ih => exact ih (tracked_step b (succeedAt t) htracked) (trapped_step htracked htrap t)

/-- Successes close the breaker exactly when it is CLOSED, or its window can be trimmed, its cap
leaves room for the threshold, and it has a time at which an attempt is made. -/
theorem recoverable_iff_wayBack {b : CircuitBreaker} (htracked : b.Tracked) :
    b.Recoverable ↔ b.WayBack := by
  refine ⟨fun hrecoverable => ?_, recoverable_of_wayBack htracked⟩
  obtain ⟨times, -, hclosed⟩ := hrecoverable 0
  by_contra htrap
  exact trapped_run htracked htrap times (.inl hclosed)

/-! ## Runs -/

/-- The step leaves no trap: a failure that opens a CLOSED breaker, and an opening by force, find a
cap that leaves room for the threshold and set a time, and a new configuration of a breaker that is
not CLOSED leaves room for what its trial still needs. -/
def LeavesNoTrap (b : CircuitBreaker) : BreakerOp → Prop
  | .call outcome _ done => outcome = .raised → b.state = .closed → b.config.WindowTrims →
      b.TripsOn done → CapReaches b.config ∧ b.OpeningFits done
  | .forceOpen now => b.config.WindowTrims ∧ CapReaches b.config ∧
      (b.nextAttemptTime = none → b.OpeningFits now)
  | .updateConfig c => b.state ≠ .closed → c.WindowTrims ∧ CapReaches c ∧
      (b.state = .halfOpen → HasRoom c b.halfOpenRequests)
  | .forceClose => True
  | .reset => True

theorem wayBack_trip_iff (b : CircuitBreaker) (now : Time) :
    (b.trip now).1.WayBack ↔ b.config.WindowTrims ∧ CapReaches b.config ∧
      (b.nextAttemptTime = none → b.OpeningFits now) := by
  obtain ⟨k, next, hframe, hnext⟩ := b.trip_frame now
  have htime : (b.trip now).1.nextAttemptTime ≠ none ↔
      (b.nextAttemptTime = none → b.OpeningFits now) := by
    by_cases hfits : b.OpeningFits now
    · rw [trip_of_fits hfits]
      simp [hfits]
    · rw [hframe]
      show next ≠ none ↔ _
      rw [hnext hfits]
      simp [hfits]
  rw [← htime, hframe]
  constructor
  · rintro (hclosed | hretry)
    · cases hclosed
    · exact ⟨hretry.window, hretry.cap, hretry.time rfl⟩
  · rintro ⟨hwindow, hcap, hsome⟩
    exact .inr ⟨hwindow, hcap, by simp, fun _ => hsome⟩

theorem wayBack_call_closed {b after : CircuitBreaker} {outcome : CallOutcome} {done : Time}
    (hstate : b.state = .closed) (htracked : b.Tracked)
    (hcompletes : Completes b done outcome after) :
    after.WayBack ↔ (outcome = .raised → b.state = .closed → b.config.WindowTrims →
      b.TripsOn done → CapReaches b.config ∧ b.OpeningFits done) := by
  cases hcompletes with
  | aborted => exact iff_of_true (.inl hstate) (by simp)
  | succeeds hclosed htrims => exact iff_of_true (.inl hclosed) (by simp)
  | recovers hhalf htrims hreached => cases hstate.symm.trans hhalf
  | counts hhalf htrims hshort => cases hstate.symm.trans hhalf
  | untrimmed hstuck => exact iff_of_true (.inl hstate) (by simp)
  | fails hkept =>
      exact iff_of_true (.inl hstate) fun _ _ htrims htrips => absurd htrips (hkept htrims)
  | trips htrims hopening =>
      have huntimed : (b.recordFailure done).nextAttemptTime = none := htracked.untimed hstate
      rw [wayBack_trip_iff, huntimed]
      constructor
      · rintro ⟨-, hcap, hfits⟩ _ _ _ _
        have hopens := hfits rfl
        exact ⟨hcap, hopens.1, hopens.2, hopens.3, hopens.4⟩
      · intro h
        obtain ⟨hcap, hopens⟩ := h rfl hstate htrims hopening
        exact ⟨htrims, hcap, fun _ => ⟨hopens.1, hopens.2, hopens.3, hopens.4⟩⟩

theorem wayBack_step_iff {b : CircuitBreaker} {op : BreakerOp} (htracked : b.Tracked)
    (hback : b.WayBack) : (b.step op).WayBack ↔ b.LeavesNoTrap op := by
  cases op with
  | call outcome attempt done =>
      rcases b.call_cases outcome attempt done with
        ⟨hsame, hopen, -⟩ | ⟨hnotOpened, -, hcompletes⟩ | ⟨⟨next, hnext⟩, hopened, hcompletes⟩
      · rw [hsame]
        exact iff_of_true hback fun _ hclosed => absurd hclosed hopen
      · cases hstate : b.state with
        | closed => exact wayBack_call_closed hstate htracked hcompletes
        | opened => exact absurd hstate hnotOpened
        | halfOpen =>
            rcases hback with hclosed | hretry
            · cases hclosed.symm.trans hstate
            · exact iff_of_true (wayBack_completes hstate htracked hretry hcompletes)
                fun _ hclosed => absurd (hclosed.symm.trans hstate) (by simp)
      · rcases hback with hclosed | hretry
        · cases hclosed.symm.trans hopened
        · refine iff_of_true ?_ fun _ hclosed => absurd (hclosed.symm.trans hopened) (by simp)
          exact wayBack_completes rfl (tracked_beginTrial hnext)
            (canRetry_beginTrial hretry.window hretry.cap) hcompletes
  | forceOpen now => exact wayBack_trip_iff b now
  | forceClose => exact iff_of_true (.inl rfl) trivial
  | reset => exact iff_of_true (.inl rfl) trivial
  | updateConfig c =>
      constructor
      · rintro (hclosed | hretry) hopen
        · exact absurd hclosed hopen
        · exact ⟨hretry.window, hretry.cap, hretry.room⟩
      · intro h
        by_cases hclosed : b.state = .closed
        · exact .inl hclosed
        · obtain ⟨hwindow, hcap, hroom⟩ := h hclosed
          rcases hback with hclosed' | hretry
          · exact absurd hclosed' hclosed
          · exact .inr ⟨hwindow, hcap, hroom, hretry.time⟩

/-- Over every run, a breaker can recover from every state it passes through exactly when no step
of the run leaves a trap. -/
theorem always_recoverable_iff (ops : List BreakerOp) :
    Always step Recoverable {} ops ↔ StepsMeet step LeavesNoTrap {} ops := by
  refine always_iff_stepsMeet_of_stronger (J := fun b => b.Tracked ∧ b.WayBack) ?_ ?_ ?_ ?_
  · intro b hb
    exact recoverable_of_wayBack hb.1 hb.2
  · intro b op _ hb hop
    exact ⟨tracked_step b op hb.1, (wayBack_step_iff hb.1 hb.2).mpr hop⟩
  · intro b op _ hb hrecoverable
    have hnext := tracked_step b op hb.1
    exact (wayBack_step_iff hb.1 hb.2).mp ((recoverable_iff_wayBack hnext).mp hrecoverable)
  · exact ⟨tracked_initial, .inl rfl⟩

/-- The broker's breaker as the shipped settings configure it: two calls on trial, three
successes. -/
def brokerConfig : CircuitBreakerConfig :=
  { failureThreshold := 3, successThreshold := 3, timeout := 30, halfOpenMaxRequests := 2 }

/-- An order fails; a minute later two orders on trial succeed. -/
def brokerOutage : List BreakerOp :=
  [.updateConfig brokerConfig, .call .raised 0 0, succeedAt (60 * second), succeedAt (60 * second)]

/-- The two successes are all that the trial lets through; every later order is refused. -/
theorem broker_trapped : ¬ Always step Recoverable {} brokerOutage := by
  intro always
  have htracked : (run step {} brokerOutage).Tracked := run_invariant tracked_step tracked_initial _
  have hfinal : (run step {} brokerOutage).state = .halfOpen ∧
      (run step {} brokerOutage).config = brokerConfig := by decide +kernel
  rcases (recoverable_iff_wayBack htracked).mp always.final with hclosed | hretry
  · cases hclosed.symm.trans hfinal.1
  · have hcap := hretry.cap
    rw [hfinal.2] at hcap
    rcases hcap with huncapped | hreaches
    · exact absurd huncapped (by decide)
    · exact absurd hreaches (by decide)

end CircuitBreaker

end AutoTrade.Services
