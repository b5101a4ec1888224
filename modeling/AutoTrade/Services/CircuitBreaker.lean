import AutoTrade.Runtime
import Mathlib.Tactic.NormNum
import Mathlib.Tactic.Linarith

/-! # The circuit breaker service

Every key has a breaker of its own; a key the service has not seen before starts
with the defaults. A breaker that is OPEN refuses calls until its next attempt
time, then lets calls through on trial in HALF_OPEN. The wait doubles with every
opening that follows another without a recovery between them.
-/

namespace AutoTrade.Services

/-! ## Arithmetic that may raise -/

/-- The first magnitude that rounds to no double. -/
@[irreducible] def floatLimit : ℚ := 2 ^ 1024 - 2 ^ 970

/-- `float(n)`. -/
def toFloat (n : Int) : Except PyExc ℚ :=
  if floatLimit ≤ |(n : ℚ)| then .error ⟨.other, "int too large to convert to float"⟩ else .ok n

/-- `base ** exponent` on a float. -/
def floatPow (base : ℚ) (exponent : Nat) : Except PyExc ℚ :=
  if floatLimit ≤ |base ^ exponent| then .error ⟨.other, "(34, 'Numerical result out of range')"⟩
  else .ok (base ^ exponent)

def microseconds (seconds : ℚ) : Time := roundHalfEven (seconds * 1000000)

def day : Time := 24 * hour

def IsTimedelta (d : Time) : Prop := |d / day| ≤ 999999999

instance (d : Time) : Decidable (IsTimedelta d) := inferInstanceAs (Decidable (_ ≤ _))

/-- The years 1 to 9999. -/
def IsDatetime (t : Time) : Prop := -62135596800 * second ≤ t ∧ t < 253402300800 * second

instance (t : Time) : Decidable (IsDatetime t) := inferInstanceAs (Decidable (_ ∧ _))

/-- `timedelta(seconds=seconds)`. -/
def timedelta (seconds : ℚ) : Except PyExc Time :=
  if IsTimedelta (microseconds seconds) then .ok (microseconds seconds)
  else .error ⟨.other, s!"days={microseconds seconds / day}; must have magnitude <= 999999999"⟩

def addTimedelta (t d : Time) : Except PyExc Time :=
  if IsDatetime (t + d) then .ok (t + d) else .error ⟨.other, "date value out of range"⟩

/-! ## State -/

inductive CircuitState
  | closed
  | opened
  | halfOpen
deriving DecidableEq, Repr

/-- Any other `sliding_window_type` than `"time"` counts. -/
inductive WindowType
  | time
  | count
deriving DecidableEq, Repr

structure CircuitBreakerConfig where
  failureThreshold : Int := 5
  successThreshold : Int := 3
  timeout : Int := 60
  slidingWindowSize : Int := 10
  slidingWindowType : WindowType := .time
  failureRateThreshold : ℚ := 1 / 2
  halfOpenMaxRequests : Int := 0
  timeoutExponentialBase : ℚ := 2
deriving DecidableEq, Repr

structure CircuitBreaker where
  config : CircuitBreakerConfig := {}
  state : CircuitState := .closed
  failureCount : Nat := 0
  successCount : Nat := 0
  lastFailureTime : Option Time := none
  lastSuccessTime : Option Time := none
  nextAttemptTime : Option Time := none
  failureTimestamps : List Time := []
  successTimestamps : List Time := []
  consecutiveOpenCount : Nat := 0
  halfOpenRequests : Nat := 0
deriving DecidableEq, Repr

/-- What the protected function does: it returns, raises an `Exception`, or raises what
`except Exception` does not handle. -/
inductive CallOutcome
  | returned
  | raised
  | aborted
deriving DecidableEq, Repr

/-- How a call ends: refused with `CircuitBreakerOpenException`, or as the function ended, or with
an error of the bookkeeping after it. -/
inductive CallResult
  | refusedOpen (nextAttemptTime : Option Time)
  | refusedHalfOpen
  | ended (outcome : CallOutcome)
  | failed (e : PyExc)
deriving DecidableEq, Repr

namespace CircuitBreaker

/-! ## Opening -/

/-- `_compute_timeout`; the count is raised before the power is taken. -/
def computeTimeout (b : CircuitBreaker) : CircuitBreaker × Except PyExc Time :=
  match toFloat b.config.timeout with
  | .error e => (b, .error e)
  | .ok base =>
      let consecutiveOpen := b.consecutiveOpenCount + 1
      let b := { b with consecutiveOpenCount := consecutiveOpen }
      match floatPow b.config.timeoutExponentialBase (consecutiveOpen - 1) with
      | .error e => (b, .error e)
      | .ok power => (b, timedelta (min (base * power) 28800))

/-- `breaker.state = OPEN; breaker.next_attempt_time = now_ist() + self._compute_timeout(breaker)`. -/
def trip (b : CircuitBreaker) (now : Time) : CircuitBreaker × Option PyExc :=
  match computeTimeout { b with state := .opened } with
  | (b, .error e) => (b, some e)
  | (b, .ok delay) =>
      match addTimedelta now delay with
      | .error e => (b, some e)
      | .ok next => ({ b with nextAttemptTime := some next }, none)

/-! ## Sliding windows -/

/-- `_trim_timestamps`; a count window of negative size pops from an empty deque. -/
def trimTimestamps (c : CircuitBreakerConfig) (now : Time) (timestamps : List Time) :
    List Time × Option PyExc :=
  match c.slidingWindowType with
  | .time => (timestamps.dropWhile (· < now - c.slidingWindowSize * second), none)
  | .count =>
      if c.slidingWindowSize < 0 then ([], some ⟨.other, "pop from an empty deque"⟩)
      else (timestamps.drop (timestamps.length - c.slidingWindowSize.toNat), none)

def ratio (failures successes : Nat) : ℚ :=
  if failures + successes = 0 then 0 else failures / (failures + successes : Nat)

/-- `_calculate_failure_rate`. -/
def calculateFailureRate (b : CircuitBreaker) (now : Time) : ℚ :=
  if b.config.slidingWindowSize ≤ 0 then ratio b.failureCount b.successCount
  else
    match b.config.slidingWindowType with
    | .time =>
        let cutoffTime := now - b.config.slidingWindowSize * second
        ratio (b.failureTimestamps.countP (cutoffTime ≤ ·))
          (b.successTimestamps.countP (cutoffTime ≤ ·))
    | .count => ratio b.failureTimestamps.length b.successTimestamps.length

/-- `_should_trip_breaker`. -/
def shouldTripBreaker (b : CircuitBreaker) (now : Time) : Bool :=
  decide (b.config.failureThreshold ≤ b.failureCount) ||
    (decide (0 < b.config.slidingWindowSize) &&
      decide (b.config.failureRateThreshold < b.calculateFailureRate now))

/-! ## Calls -/

/-- `_should_attempt_call`; an OPEN breaker whose time has come becomes HALF_OPEN here. -/
def shouldAttemptCall (b : CircuitBreaker) (now : Time) : CircuitBreaker × Bool :=
  match b.state with
  | .closed => (b, true)
  | .opened =>
      if b.nextAttemptTime.any (· ≤ now) then
        ({ b with state := .halfOpen, successCount := 0, halfOpenRequests := 0 }, true)
      else (b, false)
  | .halfOpen =>
      (b, !(decide (0 < b.config.halfOpenMaxRequests) &&
        decide (b.config.halfOpenMaxRequests ≤ b.halfOpenRequests)))

/-- `_on_failure` up to the trimming of its window. -/
def recordFailure (b : CircuitBreaker) (now : Time) : CircuitBreaker :=
  { b with
    lastFailureTime := some now
    failureCount := b.failureCount + 1
    failureTimestamps := (trimTimestamps b.config now (b.failureTimestamps ++ [now])).1 }

/-- `_on_failure`. -/
def onFailure (b : CircuitBreaker) (now : Time) : CircuitBreaker × Option PyExc :=
  match (trimTimestamps b.config now (b.failureTimestamps ++ [now])).2 with
  | some e => (b.recordFailure now, some e)
  | none =>
      let b := b.recordFailure now
      match b.state with
      | .halfOpen => b.trip now
      | .closed => if b.shouldTripBreaker now then b.trip now else (b, none)
      | .opened => (b, none)

/-- `_on_success` up to the trimming of its window. -/
def recordSuccess (b : CircuitBreaker) (now : Time) : CircuitBreaker :=
  { b with
    lastSuccessTime := some now
    successCount := b.successCount + 1
    halfOpenRequests :=
      match b.state with
      | .halfOpen => b.halfOpenRequests + 1
      | _ => b.halfOpenRequests
    successTimestamps := (trimTimestamps b.config now (b.successTimestamps ++ [now])).1 }

/-- `_on_success`. -/
def onSuccess (b : CircuitBreaker) (now : Time) : CircuitBreaker × Option PyExc :=
  match (trimTimestamps b.config now (b.successTimestamps ++ [now])).2 with
  | some e => (b.recordSuccess now, some e)
  | none =>
      let b := b.recordSuccess now
      match b.state with
      | .halfOpen =>
          if b.config.successThreshold ≤ b.successCount then
            ({ b with
                state := .closed
                failureCount := 0
                nextAttemptTime := none
                consecutiveOpenCount := 0 }, none)
          else (b, none)
      | .closed => ({ b with failureCount := 0 }, none)
      | .opened => (b, none)

/-- What `call_with_key` does once the function has ended. An error of `_on_success` is raised
inside the `try`, so the success is counted as a failure too. -/
def complete (b : CircuitBreaker) (outcome : CallOutcome) (done : Time) :
    CircuitBreaker × CallResult :=
  match outcome with
  | .returned =>
      match b.onSuccess done with
      | (b, none) => (b, .ended .returned)
      | (b, some e) =>
          match b.onFailure done with
          | (b, none) => (b, .failed e)
          | (b, some e') => (b, .failed e')
  | .raised =>
      match b.onFailure done with
      | (b, none) => (b, .ended .raised)
      | (b, some e) => (b, .failed e)
  | .aborted => (b, .ended .aborted)

/-- `call_with_key`. -/
def callWithKey (b : CircuitBreaker) (outcome : CallOutcome) (attempt done : Time) :
    CircuitBreaker × CallResult :=
  match b.shouldAttemptCall attempt with
  | (b, true) => b.complete outcome done
  | (b, false) =>
      match b.state with
      | .opened => (b, .refusedOpen b.nextAttemptTime)
      | _ => (b, .refusedHalfOpen)

/-- `reset`; `force_close` does the same. -/
def reset (b : CircuitBreaker) : CircuitBreaker := { config := b.config }

def forceClose (b : CircuitBreaker) : CircuitBreaker := b.reset

def forceOpen (b : CircuitBreaker) (now : Time) : CircuitBreaker × Option PyExc := b.trip now

def updateConfig (b : CircuitBreaker) (c : CircuitBreakerConfig) : CircuitBreaker :=
  { b with config := c }

end CircuitBreaker

/-! ## What a call does -/

def CallResult.executed : CallResult → Bool
  | .refusedOpen _ => false
  | .refusedHalfOpen => false
  | .ended _ => true
  | .failed _ => true

/-- A count window of negative size cannot be trimmed. -/
def CircuitBreakerConfig.WindowTrims (c : CircuitBreakerConfig) : Prop :=
  c.slidingWindowType = .count → 0 ≤ c.slidingWindowSize

instance (c : CircuitBreakerConfig) : Decidable c.WindowTrims :=
  inferInstanceAs (Decidable (_ → _))

/-- The wait the `k`-th opening in a row sets. -/
def openingDelay (c : CircuitBreakerConfig) (k : Nat) : Time :=
  microseconds (min (c.timeout * c.timeoutExponentialBase ^ (k - 1)) 28800)

namespace CircuitBreaker

/-- The next opening's power of the base, its wait and its moment exist as Python values. -/
structure OpeningFits (b : CircuitBreaker) (now : Time) : Prop where
  timeout : |(b.config.timeout : ℚ)| < floatLimit
  power : |b.config.timeoutExponentialBase ^ b.consecutiveOpenCount| < floatLimit
  delay : IsTimedelta (openingDelay b.config (b.consecutiveOpenCount + 1))
  moment : IsDatetime (now + openingDelay b.config (b.consecutiveOpenCount + 1))

/-- A delay that does not exist leaves the breaker's count where it was, or one higher. -/
theorem computeTimeout_frame (b : CircuitBreaker) :
    ∃ k, b.computeTimeout.1 = { b with consecutiveOpenCount := k } := by
  unfold computeTimeout
  cases toFloat b.config.timeout with
  | error e => exact ⟨b.consecutiveOpenCount, rfl⟩
  | ok base =>
      dsimp only
      cases floatPow b.config.timeoutExponentialBase (b.consecutiveOpenCount + 1 - 1) with
      | error e => exact ⟨b.consecutiveOpenCount + 1, rfl⟩
      | ok power => exact ⟨b.consecutiveOpenCount + 1, rfl⟩

theorem computeTimeout_of_fits {b : CircuitBreaker}
    (htimeout : |(b.config.timeout : ℚ)| < floatLimit)
    (hpower : |b.config.timeoutExponentialBase ^ b.consecutiveOpenCount| < floatLimit)
    (hdelay : IsTimedelta (openingDelay b.config (b.consecutiveOpenCount + 1))) :
    b.computeTimeout =
      ({ b with consecutiveOpenCount := b.consecutiveOpenCount + 1 },
        .ok (openingDelay b.config (b.consecutiveOpenCount + 1))) := by
  have hbase : toFloat b.config.timeout = .ok (b.config.timeout : ℚ) := by
    unfold toFloat
    exact if_neg (not_le.mpr htimeout)
  have hpow : floatPow b.config.timeoutExponentialBase (b.consecutiveOpenCount + 1 - 1) =
      .ok (b.config.timeoutExponentialBase ^ b.consecutiveOpenCount) := by
    rw [Nat.add_sub_cancel]
    unfold floatPow
    exact if_neg (not_le.mpr hpower)
  unfold computeTimeout
  rw [hbase]
  dsimp only
  rw [hpow]
  unfold timedelta openingDelay at *
  rw [Nat.add_sub_cancel] at hdelay ⊢
  dsimp only
  rw [if_pos hdelay]

theorem trip_of_fits {b : CircuitBreaker} {now : Time} (h : b.OpeningFits now) :
    b.trip now =
      ({ b with
          state := .opened
          consecutiveOpenCount := b.consecutiveOpenCount + 1
          nextAttemptTime :=
            some (now + openingDelay b.config (b.consecutiveOpenCount + 1)) }, none) := by
  have hdelay := computeTimeout_of_fits (b := { b with state := .opened }) h.timeout h.power h.delay
  unfold trip
  rw [hdelay]
  unfold addTimedelta
  dsimp only
  rw [if_pos h.moment]

theorem computeTimeout_ok {b : CircuitBreaker} {delay : Time}
    (h : b.computeTimeout.2 = .ok delay) :
    |(b.config.timeout : ℚ)| < floatLimit ∧
      |b.config.timeoutExponentialBase ^ b.consecutiveOpenCount| < floatLimit ∧
        IsTimedelta (openingDelay b.config (b.consecutiveOpenCount + 1)) := by
  unfold computeTimeout at h
  by_cases htimeout : floatLimit ≤ |(b.config.timeout : ℚ)|
  · rw [toFloat, if_pos htimeout] at h
    cases h
  · rw [toFloat, if_neg htimeout] at h
    dsimp only at h
    rw [Nat.add_sub_cancel] at h
    by_cases hpower : floatLimit ≤ |b.config.timeoutExponentialBase ^ b.consecutiveOpenCount|
    · rw [floatPow, if_pos hpower] at h
      cases h
    · rw [floatPow, if_neg hpower] at h
      dsimp only at h
      refine ⟨not_le.mp htimeout, not_le.mp hpower, ?_⟩
      unfold openingDelay
      rw [Nat.add_sub_cancel]
      refine not_not.mp fun hdelay => ?_
      rw [timedelta, if_neg hdelay] at h
      cases h

/-- An opening changes the state, the count and, where it fits, the next attempt time. -/
theorem trip_frame (b : CircuitBreaker) (now : Time) :
    ∃ k next, (b.trip now).1 =
      { b with state := .opened, consecutiveOpenCount := k, nextAttemptTime := next } ∧
        (¬ b.OpeningFits now → next = b.nextAttemptTime) := by
  by_cases hfits : b.OpeningFits now
  · rw [trip_of_fits hfits]
    exact ⟨_, _, rfl, fun hnot => absurd hfits hnot⟩
  · obtain ⟨k, hframe⟩ := computeTimeout_frame { b with state := .opened }
    have hok := @computeTimeout_ok { b with state := .opened }
    refine ⟨k, b.nextAttemptTime, ?_, fun _ => rfl⟩
    unfold trip
    cases hcompute : computeTimeout { b with state := .opened } with
    | mk opened result =>
        rw [hcompute] at hframe hok
        cases result with
        | error e => exact hframe
        | ok delay =>
            obtain ⟨htimeout, hpower, hdelay⟩ := hok rfl
            have hvalue := computeTimeout_of_fits (b := { b with state := .opened })
              htimeout hpower hdelay
            rw [hcompute] at hvalue
            obtain ⟨-, hdelayValue⟩ := Prod.mk.inj hvalue
            cases hdelayValue
            have hmoment : ¬ IsDatetime
                (now + openingDelay b.config (b.consecutiveOpenCount + 1)) := by
              intro hmoment
              exact hfits ⟨htimeout, hpower, hdelay, hmoment⟩
            dsimp only
            rw [addTimedelta, if_neg hmoment]
            exact hframe

/-! ### The window -/

theorem trimTimestamps_eq_none_iff (c : CircuitBreakerConfig) (now : Time)
    (timestamps : List Time) : (trimTimestamps c now timestamps).2 = none ↔ c.WindowTrims := by
  unfold trimTimestamps CircuitBreakerConfig.WindowTrims
  cases c.slidingWindowType with
  | time => simp
  | count =>
      dsimp only
      split
      · simp_all
      · simp_all

theorem recordSuccess_halfOpenRequests {b : CircuitBreaker} (h : b.state = .halfOpen)
    (now : Time) : (b.recordSuccess now).halfOpenRequests = b.halfOpenRequests + 1 := by
  unfold recordSuccess
  rw [h]

theorem onSuccess_eq {b : CircuitBreaker} (h : b.config.WindowTrims) (now : Time) :
    b.onSuccess now =
      match b.state with
      | .halfOpen =>
          if b.config.successThreshold ≤ (b.successCount + 1 : Nat) then
            ({ b.recordSuccess now with
                state := .closed
                failureCount := 0
                nextAttemptTime := none
                consecutiveOpenCount := 0 }, none)
          else (b.recordSuccess now, none)
      | .closed => ({ b.recordSuccess now with failureCount := 0 }, none)
      | .opened => (b.recordSuccess now, none) := by
  unfold onSuccess
  rw [(trimTimestamps_eq_none_iff b.config now (b.successTimestamps ++ [now])).mpr h]
  rfl

theorem onFailure_eq {b : CircuitBreaker} (h : b.config.WindowTrims) (now : Time) :
    b.onFailure now =
      match b.state with
      | .halfOpen => (b.recordFailure now).trip now
      | .closed =>
          if (b.recordFailure now).shouldTripBreaker now then (b.recordFailure now).trip now
          else (b.recordFailure now, none)
      | .opened => (b.recordFailure now, none) := by
  unfold onFailure
  rw [(trimTimestamps_eq_none_iff b.config now (b.failureTimestamps ++ [now])).mpr h]
  rfl

/-- Under a window that cannot be trimmed a failure is recorded and nothing else happens. -/
theorem onFailure_of_not_trims {b : CircuitBreaker} (h : ¬ b.config.WindowTrims) (now : Time) :
    (b.onFailure now).1 = b.recordFailure now := by
  unfold onFailure
  cases htrim : (trimTimestamps b.config now (b.failureTimestamps ++ [now])).2 with
  | none => exact absurd ((trimTimestamps_eq_none_iff _ _ _).mp htrim) h
  | some e => rfl

theorem onSuccess_of_not_trims {b : CircuitBreaker} (h : ¬ b.config.WindowTrims) (now : Time) :
    ∃ e, b.onSuccess now = (b.recordSuccess now, some e) := by
  unfold onSuccess
  cases htrim : (trimTimestamps b.config now (b.successTimestamps ++ [now])).2 with
  | none => exact absurd ((trimTimestamps_eq_none_iff _ _ _).mp htrim) h
  | some e => exact ⟨e, rfl⟩

/-! ### Calls -/

theorem shouldAttemptCall_closed {b : CircuitBreaker} (h : b.state = .closed) (now : Time) :
    b.shouldAttemptCall now = (b, true) := by
  rw [shouldAttemptCall, h]

/-- A breaker as its trial begins. -/
def beginTrial (b : CircuitBreaker) : CircuitBreaker :=
  { b with state := .halfOpen, successCount := 0, halfOpenRequests := 0 }

theorem shouldAttemptCall_opened {b : CircuitBreaker} (h : b.state = .opened) {next now : Time}
    (hnext : b.nextAttemptTime = some next) (hnow : next ≤ now) :
    b.shouldAttemptCall now = (b.beginTrial, true) := by
  simp [shouldAttemptCall, h, hnext, hnow, beginTrial]

/-- A call goes through in CLOSED, on trial in HALF_OPEN, and in OPEN once its time has come. -/
theorem shouldAttemptCall_cases (b : CircuitBreaker) (now : Time) :
    b.shouldAttemptCall now = (b, false) ∧ b.state ≠ .closed ∨
      b.shouldAttemptCall now = (b, true) ∧ b.state ≠ .opened ∨
        b.shouldAttemptCall now = (b.beginTrial, true) ∧ b.state = .opened ∧
          ∃ next, b.nextAttemptTime = some next ∧ next ≤ now := by
  cases hstate : b.state with
  | closed => exact .inr (.inl ⟨shouldAttemptCall_closed hstate now, by simp⟩)
  | opened =>
      cases hnext : b.nextAttemptTime with
      | none => exact .inl ⟨by simp [shouldAttemptCall, hstate, hnext], by simp⟩
      | some next =>
          by_cases hnow : next ≤ now
          · exact .inr (.inr ⟨shouldAttemptCall_opened hstate hnext hnow, rfl, next, rfl, hnow⟩)
          · exact .inl ⟨by simp [shouldAttemptCall, hstate, hnext, hnow], by simp⟩
  | halfOpen =>
      simp only [shouldAttemptCall, hstate]
      cases decide (0 < b.config.halfOpenMaxRequests) &&
        decide (b.config.halfOpenMaxRequests ≤ b.halfOpenRequests) with
      | true => exact .inl ⟨rfl, by simp⟩
      | false => exact .inr (.inl ⟨rfl, by simp⟩)

theorem complete_executed (b : CircuitBreaker) (outcome : CallOutcome) (done : Time) :
    (b.complete outcome done).2.executed = true := by
  unfold complete
  cases outcome with
  | returned =>
      dsimp only
      cases b.onSuccess done with
      | mk b' err =>
          cases err with
          | none => rfl
          | some e =>
              dsimp only
              cases b'.onFailure done with
              | mk b'' err' => cases err' <;> rfl
  | raised =>
      dsimp only
      cases b.onFailure done with
      | mk b' err => cases err <;> rfl
  | aborted => rfl

theorem callWithKey_refused {b : CircuitBreaker} {attempt : Time}
    (h : b.shouldAttemptCall attempt = (b, false)) (outcome : CallOutcome) (done : Time) :
    (b.callWithKey outcome attempt done).1 = b ∧
      (b.callWithKey outcome attempt done).2.executed = false := by
  unfold callWithKey
  rw [h]
  dsimp only
  cases b.state <;> exact ⟨rfl, rfl⟩

theorem callWithKey_attempted {b b' : CircuitBreaker} {attempt : Time}
    (h : b.shouldAttemptCall attempt = (b', true)) (outcome : CallOutcome) (done : Time) :
    b.callWithKey outcome attempt done = b'.complete outcome done := by
  unfold callWithKey
  rw [h]

/-- Whether a recorded failure opens the breaker. -/
def TripsOn (b : CircuitBreaker) (done : Time) : Prop :=
  b.state = .halfOpen ∨ b.state = .closed ∧ (b.recordFailure done).shouldTripBreaker done = true

/-- What a call that went through can leave, by how its function ended. -/
inductive Completes (b : CircuitBreaker) (done : Time) : CallOutcome → CircuitBreaker → Prop
  | aborted : Completes b done .aborted b
  | succeeds (closed : b.state = .closed) (trims : b.config.WindowTrims) :
      Completes b done .returned { b.recordSuccess done with failureCount := 0 }
  | recovers (onTrial : b.state = .halfOpen) (trims : b.config.WindowTrims)
      (reached : b.config.successThreshold ≤ (b.successCount + 1 : Nat)) :
      Completes b done .returned
        { b.recordSuccess done with
          state := .closed
          failureCount := 0
          nextAttemptTime := none
          consecutiveOpenCount := 0 }
  | counts (onTrial : b.state = .halfOpen) (trims : b.config.WindowTrims)
      (short : ¬ b.config.successThreshold ≤ (b.successCount + 1 : Nat)) :
      Completes b done .returned (b.recordSuccess done)
  | untrimmed (stuck : ¬ b.config.WindowTrims) :
      Completes b done .returned ((b.recordSuccess done).recordFailure done)
  | trips (trims : b.config.WindowTrims) (opening : b.TripsOn done) :
      Completes b done .raised ((b.recordFailure done).trip done).1
  | fails (kept : b.config.WindowTrims → ¬ b.TripsOn done) :
      Completes b done .raised (b.recordFailure done)

theorem completes_returned {b : CircuitBreaker} (h : b.state ≠ .opened) (done : Time) :
    Completes b done .returned (b.complete .returned done).1 := by
  by_cases htrims : b.config.WindowTrims
  · have hsuccess := onSuccess_eq htrims done
    unfold complete
    rw [hsuccess]
    cases hstate : b.state with
    | closed => exact .succeeds hstate htrims
    | opened => exact absurd hstate h
    | halfOpen =>
        dsimp only
        by_cases hreached : b.config.successThreshold ≤ (b.successCount + 1 : Nat)
        · rw [if_pos hreached]
          exact .recovers hstate htrims hreached
        · rw [if_neg hreached]
          exact .counts hstate htrims hreached
  · obtain ⟨e, hsuccess⟩ := onSuccess_of_not_trims htrims done
    have hfailure := onFailure_of_not_trims (b := b.recordSuccess done) htrims done
    unfold complete
    rw [hsuccess]
    dsimp only
    cases hresult : (b.recordSuccess done).onFailure done with
    | mk b' err =>
        rw [hresult] at hfailure
        cases hfailure
        cases err with
        | none => exact .untrimmed htrims
        | some e' => exact .untrimmed htrims

theorem completes_raised {b : CircuitBreaker} (h : b.state ≠ .opened) (done : Time) :
    Completes b done .raised (b.complete .raised done).1 := by
  have hcomplete : (b.complete .raised done).1 = (b.onFailure done).1 := by
    unfold complete
    cases b.onFailure done with
    | mk b' err => cases err <;> rfl
  rw [hcomplete]
  by_cases htrims : b.config.WindowTrims
  · rw [onFailure_eq htrims]
    cases hstate : b.state with
    | opened => exact absurd hstate h
    | halfOpen => exact .trips htrims (.inl hstate)
    | closed =>
        dsimp only
        split
        · rename_i htrip
          exact .trips htrims (.inr ⟨hstate, htrip⟩)
        · rename_i htrip
          refine .fails fun _ htrips => ?_
          rcases htrips with hhalf | ⟨-, hopens⟩
          · rw [hstate] at hhalf
            cases hhalf
          · exact htrip hopens
  · rw [onFailure_of_not_trims htrims]
    exact .fails fun trims => absurd trims htrims

theorem completes {b : CircuitBreaker} (h : b.state ≠ .opened) (outcome : CallOutcome)
    (done : Time) : Completes b done outcome (b.complete outcome done).1 := by
  cases outcome with
  | returned => exact completes_returned h done
  | raised => exact completes_raised h done
  | aborted => exact .aborted

end CircuitBreaker

/-! ## Operations on one key -/

/-- One operation with the readings of the clock it takes. -/
inductive BreakerOp
  | call (outcome : CallOutcome) (attempt done : Time)
  | forceOpen (now : Time)
  | forceClose
  | reset
  | updateConfig (config : CircuitBreakerConfig)
deriving DecidableEq, Repr

namespace CircuitBreaker

def step (b : CircuitBreaker) : BreakerOp → CircuitBreaker
  | .call outcome attempt done => (b.callWithKey outcome attempt done).1
  | .forceOpen now => (b.forceOpen now).1
  | .forceClose => b.forceClose
  | .reset => b.reset
  | .updateConfig config => b.updateConfig config

end CircuitBreaker

end AutoTrade.Services
