import AutoTrade.Library.Run
import AutoTrade.Services.CircuitBreaker
import Mathlib.Data.Bool.Count

/-! # The failure rate over a count window

A breaker keeps the moments of its failures and of its successes in two queues
and trims each of them to the size of the window. The rate is taken over both
queues together, while the window asked for is one over the merged calls.
-/

namespace AutoTrade.Services

open AutoTrade.Library CircuitBreaker

/-! ## One window and two -/

/-- The last calls, all of them while there are no more than that; `true` is a failure. -/
def lastCalls (size : Nat) (outcomes : List Bool) : List Bool :=
  outcomes.drop (outcomes.length - size)

def failureShare (outcomes : List Bool) : ℚ := outcomes.count true / outcomes.length

/-- The rate over the last failures and the last successes, each trimmed for itself. -/
def separateRate (size : Nat) (outcomes : List Bool) : ℚ :=
  ratio (min (outcomes.count true) size) (min (outcomes.count false) size)

/-- The calls fit the window, or they all ended alike. -/
def OneWindow (size : Nat) (outcomes : List Bool) : Prop :=
  outcomes.length ≤ size ∨ true ∉ outcomes ∨ false ∉ outcomes

instance (size : Nat) (outcomes : List Bool) : Decidable (OneWindow size outcomes) :=
  inferInstanceAs (Decidable (_ ∨ _ ∨ _))

theorem ratio_eq_div (failures successes : Nat) :
    ratio failures successes = failures / ((failures + successes : Nat) : ℚ) := by
  unfold ratio
  split
  · rename_i hnone
    rw [hnone, Nat.cast_zero, div_zero]
  · rfl

theorem count_true_add_count_false (outcomes : List Bool) :
    outcomes.count true + outcomes.count false = outcomes.length :=
  List.count_not_add_count outcomes false

theorem separateRate_of_oneWindow {size : Nat} {outcomes : List Bool}
    (h : OneWindow size outcomes) :
    separateRate size outcomes = failureShare (lastCalls size outcomes) := by
  have hlength := count_true_add_count_false outcomes
  unfold separateRate lastCalls failureShare
  rw [ratio_eq_div]
  rcases h with hfits | hnone | hall
  · rw [min_eq_left (by omega), min_eq_left (by omega), hlength, Nat.sub_eq_zero_of_le hfits,
      List.drop_zero]
  · have hdrop : true ∉ outcomes.drop (outcomes.length - size) :=
      fun hmem => hnone (List.mem_of_mem_drop hmem)
    rw [List.count_eq_zero_of_not_mem hnone, List.count_eq_zero_of_not_mem hdrop]
    simp
  · have hdrop : false ∉ outcomes.drop (outcomes.length - size) :=
      fun hmem => hall (List.mem_of_mem_drop hmem)
    have hwindow := count_true_add_count_false (outcomes.drop (outcomes.length - size))
    rw [List.count_eq_zero_of_not_mem hdrop, List.length_drop] at hwindow
    rw [List.count_eq_zero_of_not_mem hall] at hlength ⊢
    have hsame : min (outcomes.count true) size =
        (outcomes.drop (outcomes.length - size)).count true := by omega
    rw [Nat.zero_min, Nat.add_zero, hsame, List.length_drop, ← hwindow, Nat.add_zero]

theorem lastCalls_append {size : Nat} (hsize : 0 < size) (outcomes : List Bool) (failed : Bool) :
    lastCalls size (outcomes ++ [failed]) =
      outcomes.drop (outcomes.length + 1 - size) ++ [failed] := by
  unfold lastCalls
  rw [List.length_append, List.length_singleton, List.drop_append_of_le_length (by omega)]

theorem count_append_of_not_mem {xs : List Bool} {b : Bool} (h : b ∉ xs) :
    (xs ++ [b]).count b = 1 := by
  rw [List.count_append, List.count_eq_zero_of_not_mem h, List.count_singleton_self]

theorem length_lastCalls {size : Nat} {outcomes : List Bool} (hlong : size ≤ outcomes.length) :
    (lastCalls size outcomes).length = size := by
  unfold lastCalls
  rw [List.length_drop]
  omega

theorem cross_of_ratio_eq {failures successes inWindow size : Nat} (hsize : 0 < size)
    (htotal : 0 < failures + successes)
    (h : ratio failures successes = (inWindow : ℚ) / (size : Nat)) :
    failures * size = inWindow * (failures + successes) := by
  rw [ratio_eq_div, div_eq_div_iff (Nat.cast_ne_zero.mpr htotal.ne')
    (Nat.cast_ne_zero.mpr hsize.ne')] at h
  exact_mod_cast h

/-- The oldest of calls of both kinds leaves the window, and neither queue. -/
theorem separateRate_ne_of_oldest {oldest : Bool} {later : List Bool}
    (htrue : true ∈ oldest :: later) (hfalse : false ∈ oldest :: later) :
    separateRate later.length (oldest :: later) ≠ failureShare later := by
  intro rate
  have hfailures := List.count_pos_iff.mpr htrue
  have hsuccesses := List.count_pos_iff.mpr hfalse
  have hcounts := count_true_add_count_false (oldest :: later)
  have hlater := count_true_add_count_false later
  rw [List.length_cons] at hcounts
  unfold separateRate failureShare at rate
  rw [min_eq_left (by omega), min_eq_left (by omega)] at rate
  have hcross := cross_of_ratio_eq (by omega) (by omega) rate
  rw [hcounts] at hcross
  cases oldest with
  | true =>
      rw [List.count_cons_self] at hcross
      rw [List.count_cons_of_ne (by decide)] at hsuccesses
      linarith
  | false =>
      rw [List.count_cons_of_ne (by decide)] at hcross hfailures
      linarith

/-- The first failure fills one place in the window, and one beside a full queue of successes. -/
theorem separateRate_ne_of_first_failure {size : Nat} (hsize : 0 < size) {outcomes : List Bool}
    (hlong : size < outcomes.length) (hnone : true ∉ outcomes) :
    separateRate size (outcomes ++ [true]) ≠ failureShare (lastCalls size (outcomes ++ [true])) := by
  intro rate
  have hcounts := count_true_add_count_false (outcomes ++ [true])
  have hrest : true ∉ outcomes.drop (outcomes.length + 1 - size) :=
    fun hdrop => hnone (List.mem_of_mem_drop hdrop)
  unfold separateRate failureShare at rate
  rw [length_lastCalls (by simp; omega), lastCalls_append hsize, count_append_of_not_mem hrest,
    count_append_of_not_mem hnone] at rate
  rw [count_append_of_not_mem hnone, List.length_append, List.length_singleton] at hcounts
  rw [min_eq_left (by omega), min_eq_right (by omega)] at rate
  have hcross := cross_of_ratio_eq hsize (by omega) rate
  omega

theorem separateRate_ne_of_first_success {size : Nat} (hsize : 0 < size) {outcomes : List Bool}
    (hlong : size < outcomes.length) (hall : false ∉ outcomes) :
    separateRate size (outcomes ++ [false]) ≠
      failureShare (lastCalls size (outcomes ++ [false])) := by
  intro rate
  have hcounts := count_true_add_count_false (outcomes ++ [false])
  have hwindow := count_true_add_count_false (lastCalls size (outcomes ++ [false]))
  have hrest : false ∉ outcomes.drop (outcomes.length + 1 - size) :=
    fun hdrop => hall (List.mem_of_mem_drop hdrop)
  unfold separateRate failureShare at rate
  rw [length_lastCalls (by simp; omega)] at rate hwindow
  have hone : (lastCalls size (outcomes ++ [false])).count false = 1 := by
    rw [lastCalls_append hsize, count_append_of_not_mem hrest]
  rw [count_append_of_not_mem hall] at rate
  rw [count_append_of_not_mem hall, List.length_append, List.length_singleton] at hcounts
  rw [min_eq_right (by omega), min_eq_left (by omega)] at rate
  have hcross := cross_of_ratio_eq hsize (by omega) rate
  generalize (lastCalls size (outcomes ++ [false])).count true = inWindow at hwindow hcross
  rw [hone] at hwindow
  subst hwindow
  linarith

/-- The first call that neither fits the window nor ends like all before it gives another rate. -/
theorem oneWindow_of_separateRate {size : Nat} (hsize : 0 < size) {outcomes : List Bool}
    (h : OneWindow size outcomes) {failed : Bool}
    (rate : separateRate size (outcomes ++ [failed]) =
      failureShare (lastCalls size (outcomes ++ [failed]))) :
    OneWindow size (outcomes ++ [failed]) := by
  by_contra hnot
  unfold OneWindow at hnot
  push Not at hnot
  obtain ⟨hlong, htrue, hfalse⟩ := hnot
  rw [List.length_append, List.length_singleton] at hlong
  by_cases hfull : outcomes.length ≤ size
  · obtain ⟨oldest, rest, rfl⟩ := List.exists_cons_of_length_pos (by omega : 0 < outcomes.length)
    rw [List.length_cons] at hlong hfull
    obtain rfl : size = (rest ++ [failed]).length := by simp; omega
    have hlast : lastCalls (rest ++ [failed]).length (oldest :: rest ++ [failed]) =
        rest ++ [failed] := by
      simp [lastCalls]
    rw [hlast] at rate
    exact separateRate_ne_of_oldest htrue hfalse rate
  · rcases h with hfits | hnone | hall
    · exact hfull hfits
    · obtain rfl : failed = true := by simpa [hnone] using htrue
      exact separateRate_ne_of_first_failure hsize (by omega) hnone rate
    · obtain rfl : failed = false := by simpa [hall] using hfalse
      exact separateRate_ne_of_first_success hsize (by omega) hall rate

/-! ## Calls -/

structure BreakerCall where
  outcome : CallOutcome
  attempt : Time
  done : Time
deriving DecidableEq, Repr

/-- What the breaker records of a call that ran. -/
def CallOutcome.recorded : CallOutcome → List Bool
  | .returned => [false]
  | .raised => [true]
  | .aborted => []

/-- The breaker with the outcomes of the calls that ran, the oldest first. -/
structure CallHistory where
  breaker : CircuitBreaker
  outcomes : List Bool := []
deriving DecidableEq, Repr

namespace CallHistory

def recorded (h : CallHistory) (call : BreakerCall) : List Bool :=
  if (h.breaker.shouldAttemptCall call.attempt).2 then call.outcome.recorded else []

def step (h : CallHistory) (call : BreakerCall) : CallHistory where
  breaker := (h.breaker.callWithKey call.outcome call.attempt call.done).1
  outcomes := h.outcomes ++ h.recorded call

end CallHistory

/-- Each queue holds the moments of the last calls of its kind. -/
structure Windows (c : CircuitBreakerConfig) (outcomes : List Bool) (b : CircuitBreaker) :
    Prop where
  config : b.config = c
  failures : b.failureTimestamps.length = min (outcomes.count true) c.slidingWindowSize.toNat
  successes : b.successTimestamps.length = min (outcomes.count false) c.slidingWindowSize.toNat

/-- The configuration of a count window of at least one call. -/
structure CircuitBreakerConfig.CountsCalls (c : CircuitBreakerConfig) : Prop where
  count : c.slidingWindowType = .count
  size : 1 ≤ c.slidingWindowSize

section Count

variable {c : CircuitBreakerConfig}

theorem CircuitBreakerConfig.CountsCalls.trims (counts : c.CountsCalls) : c.WindowTrims :=
  fun _ => zero_le_one.trans counts.size

theorem trimTimestamps_length (counts : c.CountsCalls) (now : Time) (timestamps : List Time) :
    (trimTimestamps c now timestamps).1.length =
      min timestamps.length c.slidingWindowSize.toNat := by
  have hsize := counts.size
  unfold trimTimestamps
  rw [counts.count]
  dsimp only
  rw [if_neg (by omega), List.length_drop]
  omega

theorem Windows.recordSuccess (counts : c.CountsCalls) {outcomes : List Bool} {b : CircuitBreaker}
    (h : Windows c outcomes b) (now : Time) :
    Windows c (outcomes ++ [false]) (b.recordSuccess now) := by
  refine ⟨h.config, ?_, ?_⟩
  · have hfailures := h.failures
    rw [List.count_append]
    exact hfailures
  · have hsuccesses := h.successes
    have hlength := trimTimestamps_length counts now (b.successTimestamps ++ [now])
    rw [List.length_append, List.length_singleton] at hlength
    rw [List.count_append, List.count_singleton_self]
    simp only [CircuitBreaker.recordSuccess, h.config, hlength]
    omega

theorem Windows.recordFailure (counts : c.CountsCalls) {outcomes : List Bool} {b : CircuitBreaker}
    (h : Windows c outcomes b) (now : Time) :
    Windows c (outcomes ++ [true]) (b.recordFailure now) := by
  refine ⟨h.config, ?_, ?_⟩
  · have hfailures := h.failures
    have hlength := trimTimestamps_length counts now (b.failureTimestamps ++ [now])
    rw [List.length_append, List.length_singleton] at hlength
    rw [List.count_append, List.count_singleton_self]
    simp only [CircuitBreaker.recordFailure, h.config, hlength]
    omega
  · have hsuccesses := h.successes
    rw [List.count_append]
    exact hsuccesses

theorem Windows.complete (counts : c.CountsCalls) {outcomes : List Bool} {b : CircuitBreaker}
    (h : Windows c outcomes b) (state : b.state ≠ .opened) (outcome : CallOutcome) (done : Time) :
    Windows c (outcomes ++ outcome.recorded) (b.complete outcome done).1 := by
  have htrims : b.config.WindowTrims := h.config ▸ counts.trims
  have hsuccess := h.recordSuccess counts done
  have hfailure := h.recordFailure counts done
  generalize hafter : (b.complete outcome done).1 = after
  cases hafter ▸ completes state outcome done with
  | aborted => simpa [CallOutcome.recorded] using h
  | succeeds _ _ => exact ⟨hsuccess.config, hsuccess.failures, hsuccess.successes⟩
  | recovers _ _ _ => exact ⟨hsuccess.config, hsuccess.failures, hsuccess.successes⟩
  | counts _ _ _ => exact hsuccess
  | untrimmed stuck => exact absurd htrims stuck
  | trips _ _ =>
      obtain ⟨k, next, hframe, -⟩ := (b.recordFailure done).trip_frame done
      rw [hframe]
      exact ⟨hfailure.config, hfailure.failures, hfailure.successes⟩
  | fails _ => exact hfailure

theorem Windows.step (counts : c.CountsCalls) {h : CallHistory}
    (windows : Windows c h.outcomes h.breaker) (call : BreakerCall) :
    Windows c (h.step call).outcomes (h.step call).breaker := by
  rcases h.breaker.shouldAttemptCall_cases call.attempt with
    ⟨hrefused, -⟩ | ⟨hran, hstate⟩ | ⟨hran, -, -⟩
  · have hcall := (callWithKey_refused hrefused call.outcome call.done).1
    simpa only [CallHistory.step, CallHistory.recorded, hrefused, hcall, if_false,
      List.append_nil, Bool.false_eq_true] using windows
  · have hcall := callWithKey_attempted hran call.outcome call.done
    simpa only [CallHistory.step, CallHistory.recorded, hran, hcall, if_true] using
      windows.complete counts hstate call.outcome call.done
  · have hcall := callWithKey_attempted hran call.outcome call.done
    have htrial : Windows c h.outcomes h.breaker.beginTrial :=
      ⟨windows.config, windows.failures, windows.successes⟩
    simpa only [CallHistory.step, CallHistory.recorded, hran, hcall, if_true] using
      htrial.complete counts (by simp [beginTrial]) call.outcome call.done

theorem Windows.rate (counts : c.CountsCalls) {outcomes : List Bool} {b : CircuitBreaker}
    (h : Windows c outcomes b) (now : Time) :
    b.calculateFailureRate now = separateRate c.slidingWindowSize.toNat outcomes := by
  have hsize := counts.size
  unfold calculateFailureRate separateRate
  rw [h.config, if_neg (by omega), counts.count]
  dsimp only
  rw [h.failures, h.successes]

end Count

namespace CallHistory

/-- The rate is the share of failures among the last calls. -/
def RateOfLastCalls (h : CallHistory) : Prop :=
  ∀ now, h.breaker.calculateFailureRate now =
    failureShare (lastCalls h.breaker.config.slidingWindowSize.toNat h.outcomes)

def StaysInOneWindow (h : CallHistory) (call : BreakerCall) : Prop :=
  OneWindow h.breaker.config.slidingWindowSize.toNat (h.outcomes ++ h.recorded call)

instance (h : CallHistory) (call : BreakerCall) : Decidable (h.StaysInOneWindow call) :=
  inferInstanceAs (Decidable (OneWindow _ _))

end CallHistory

theorem oneWindow_recorded {size : Nat} (hsize : 0 < size) {outcomes : List Bool}
    (h : OneWindow size outcomes) {recorded : List Bool} (single : recorded.length ≤ 1)
    (rate : separateRate size (outcomes ++ recorded) =
      failureShare (lastCalls size (outcomes ++ recorded))) :
    OneWindow size (outcomes ++ recorded) := by
  match recorded with
  | [] => simpa using h
  | [failed] => exact oneWindow_of_separateRate hsize h rate

theorem CallHistory.recorded_length (h : CallHistory) (call : BreakerCall) :
    (h.recorded call).length ≤ 1 := by
  unfold CallHistory.recorded
  split
  · cases call.outcome <;> simp [CallOutcome.recorded]
  · simp

/-- Over every run of a breaker with a count window, the failure rate is the one of the last calls
throughout exactly as long as all calls fit the window or have ended alike. -/
theorem count_rate_of_last_calls {c : CircuitBreakerConfig} (counts : c.CountsCalls)
    (calls : List BreakerCall) :
    Always CallHistory.step CallHistory.RateOfLastCalls { breaker := { config := c } } calls ↔
      StepsMeet CallHistory.step CallHistory.StaysInOneWindow { breaker := { config := c } }
        calls := by
  have hsize : 0 < c.slidingWindowSize.toNat := by
    have h := counts.size
    omega
  apply always_iff_stepsMeet_of_stronger (J := fun h => Windows c h.outcomes h.breaker ∧
    OneWindow c.slidingWindowSize.toNat h.outcomes)
  · rintro h ⟨windows, one⟩ now
    rw [windows.rate counts, windows.config]
    exact separateRate_of_oneWindow one
  · rintro h call - ⟨windows, one⟩ stays
    unfold CallHistory.StaysInOneWindow at stays
    rw [windows.config] at stays
    exact ⟨windows.step counts call, stays⟩
  · rintro h call - ⟨windows, one⟩ right
    have hrate := right 0
    have hnext := windows.step counts call
    rw [hnext.rate counts, hnext.config] at hrate
    unfold CallHistory.StaysInOneWindow
    rw [windows.config]
    exact oneWindow_recorded hsize one (h.recorded_length call) hrate
  · exact ⟨⟨rfl, by simp, by simp⟩, .inl (by simp)⟩

def countConfig (size : Int) : CircuitBreakerConfig :=
  { slidingWindowType := .count, slidingWindowSize := size }

def successThenFailure : List BreakerCall :=
  [{ outcome := .returned, attempt := 0, done := second },
    { outcome := .raised, attempt := 2 * second, done := 3 * second }]

theorem two_calls_rate_of_last_calls :
    Always CallHistory.step CallHistory.RateOfLastCalls { breaker := { config := countConfig 2 } }
      successThenFailure :=
  (count_rate_of_last_calls ⟨rfl, by decide⟩ successThenFailure).mpr (by decide)

/-- In a window of one call the last one failed, and the rate is one half. -/
theorem last_call_rate_over_both_queues :
    ¬ Always CallHistory.step CallHistory.RateOfLastCalls
      { breaker := { config := countConfig 1 } } successThenFailure := by
  intro always
  have hrate := always.final 0
  exact absurd hrate (by decide +kernel)

end AutoTrade.Services
