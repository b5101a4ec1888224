import AutoTrade.Runtime
import Mathlib.Data.List.Infix

/-! # The retry policy

`core/execution/retry_policy/manager.py`: errors are classified by the words in
the name of their type and in their message, and an operation is repeated after
a safe one. The words of the safe class are looked for first, so an error that
carries words of two classes counts as safe.

`str.lower` is a parameter: the results hold for every way of folding case. The
lengths of the waits between attempts decide nothing but time and are left out.
-/

namespace AutoTrade.Execution

/-- `RetrySafety`; its third member is `UNSAFE`. -/
inductive RetrySafety
  | safe
  | unknown
  | unsafeRetry
deriving DecidableEq, Repr

/-- What an operation raised: `type(e).__name__`, `str(e)`, and whether it is an `Exception` or
one of the few classes above it, such as `KeyboardInterrupt`. -/
structure RaisedError where
  typeName : String
  message : String
  isException : Bool := true
deriving DecidableEq, Repr

/-- `any(x in text for x in markers)`. -/
def containsAny (markers : List String) (text : String) : Bool :=
  markers.any fun marker => decide (marker.toList <:+: text.toList)

def safeTypeMarkers : List String :=
  ["timeout", "connection", "temporary", "unavailable", "503", "502", "504"]

def safeMessageMarkers : List String :=
  ["timeout", "connection", "temporary", "unavailable", "503", "502", "504", "network"]

def unknownTypeMarkers : List String := ["unknown", "acknowledgement", "ack", "uncertain"]

def unknownMessageMarkers : List String :=
  ["unknown", "acknowledgement", "ack", "uncertain", "submission status unknown"]

def unsafeTypeMarkers : List String :=
  ["rejected", "invalid", "insufficient", "margin", "not found", "auth", "permission"]

def unsafeMessageMarkers : List String :=
  ["rejected", "invalid", "insufficient", "margin", "not found", "auth", "permission",
    "not allowed", "not permitted"]

/-- `RetryPolicy`, as far as it decides anything. `interrupted n` says that the shutdown event is
set during the wait before the attempt that follows `n` earlier ones; without an event it never is. -/
structure RetryPolicy where
  maxRetries : Int := 3
  allowUnknownRetry : Bool := false
  interrupted : Nat → Bool := fun _ => false

namespace RetryPolicy

variable (lower : String → String) {α : Type}

/-- The words of a safe error, in the name of its type or in its message. -/
def hasSafeMarker (e : RaisedError) : Bool :=
  containsAny safeTypeMarkers (lower e.typeName) || containsAny safeMessageMarkers (lower e.message)

def classifyError (e : RaisedError) : RetrySafety :=
  if hasSafeMarker lower e then .safe
  else if containsAny unknownTypeMarkers (lower e.typeName) then .unknown
  else if containsAny unknownMessageMarkers (lower e.message) then .unknown
  else if containsAny unsafeTypeMarkers (lower e.typeName) then .unsafeRetry
  else if containsAny unsafeMessageMarkers (lower e.message) then .unsafeRetry
  else .unknown

/-- The two tests that break the loop after a failure. -/
def stopsAfter (policy : RetryPolicy) (safety : RetrySafety) : Bool :=
  decide (safety = .unsafeRetry) || (decide (safety = .unknown) && !policy.allowUnknownRetry)

/-- A call of `execute_with_retry`: the outcomes of the operation's invocations, in order, and what
the call returned, or the exception that passed through it. -/
structure RetryRun (α : Type) where
  invocations : List (Except RaisedError α)
  returned : Except RaisedError (Option α × Bool × RetrySafety)

/-- One more invocation, made before the others. -/
def RetryRun.after (outcome : Except RaisedError α) (rest : RetryRun α) : RetryRun α :=
  { rest with invocations := outcome :: rest.invocations }

/-- The attempts that remain after `done` earlier ones. The operation is given by the outcome of
each of its invocations. -/
def retryLoop (policy : RetryPolicy) (operation : Nat → Except RaisedError α) :
    Nat → Nat → RetrySafety → RetryRun α
  | 0, _, lastSafety => ⟨[], .ok (none, false, lastSafety)⟩
  | remaining + 1, done, _ =>
      if 0 < done ∧ policy.interrupted done then ⟨[], .ok (none, false, .unknown)⟩
      else match operation done with
        | .ok result => ⟨[.ok result], .ok (some result, true, .safe)⟩
        | .error e =>
            if e.isException then
              let safety := classifyError lower e
              if policy.stopsAfter safety then ⟨[.error e], .ok (none, false, safety)⟩
              else (retryLoop policy operation remaining (done + 1) safety).after (.error e)
            else ⟨[.error e], .error e⟩

def executeWithRetry (policy : RetryPolicy) (operation : Nat → Except RaisedError α) : RetryRun α :=
  retryLoop lower policy operation policy.maxRetries.toNat 0 .unknown

/-! ## Ambiguous failures -/

/-- The error mentions an uncertain or a permanent failure, whatever else it says. -/
def isAmbiguous (e : RaisedError) : Bool :=
  containsAny (unknownMessageMarkers ++ unsafeMessageMarkers) (lower e.typeName) ||
    containsAny (unknownMessageMarkers ++ unsafeMessageMarkers) (lower e.message)

/-- At most `max_retries` invocations, and none after an ambiguous failure. -/
structure NeverRetriesAmbiguous (policy : RetryPolicy) (run : RetryRun α) : Prop where
  bounded : run.invocations.length ≤ policy.maxRetries.toNat
  stopped : ∀ k e, run.invocations[k]? = some (.error e) → isAmbiguous lower e = true →
    run.invocations.length = k + 1

/-- The invocation with this index fails, and the policy goes on to the next attempt. -/
def Repeats (policy : RetryPolicy) (operation : Nat → Except RaisedError α) (i : Nat) : Prop :=
  (∃ e, operation i = .error e ∧ e.isException = true ∧ hasSafeMarker lower e = true) ∧
    policy.interrupted (i + 1) = false

/-! ## The invocations of a call -/

theorem classifyError_eq_safe_iff (e : RaisedError) :
    classifyError lower e = .safe ↔ hasSafeMarker lower e = true := by
  unfold classifyError
  cases hasSafeMarker lower e with
  | true => simp
  | false =>
      simp only [Bool.false_eq_true, if_false, iff_false]
      split
      · simp
      · split
        · simp
        · split
          · simp
          · split <;> simp

/-- With unknown errors not retried, the loop goes on after safe errors alone. -/
theorem stopsAfter_classifyError {policy : RetryPolicy} (hallow : policy.allowUnknownRetry = false)
    (e : RaisedError) : policy.stopsAfter (classifyError lower e) = !hasSafeMarker lower e := by
  have hsafe := classifyError_eq_safe_iff lower e
  unfold stopsAfter
  rw [hallow]
  cases hclass : classifyError lower e <;> cases hmark : hasSafeMarker lower e <;>
    simp_all

/-- A loop that is interrupted or has no attempt left invokes nothing. -/
theorem retryLoop_interrupted {policy : RetryPolicy} {operation : Nat → Except RaisedError α}
    {done : Nat} (h : policy.interrupted (done + 1) = true) (remaining : Nat) (last : RetrySafety) :
    (retryLoop lower policy operation remaining (done + 1) last).invocations = [] := by
  cases remaining with
  | zero => rfl
  | succ remaining => simp [retryLoop, h]

/-- An attempt after which the loop does not go on invokes the operation once. -/
theorem retryLoop_once {policy : RetryPolicy} (hallow : policy.allowUnknownRetry = false)
    {operation : Nat → Except RaisedError α} {done : Nat}
    (hstart : ¬ (0 < done ∧ policy.interrupted done = true))
    (hstop : ¬ Repeats lower policy operation done) (remaining : Nat) (last : RetrySafety) :
    (retryLoop lower policy operation (remaining + 1) done last).invocations =
      [operation done] := by
  rw [retryLoop, if_neg hstart]
  cases hop : operation done with
  | ok result => rfl
  | error e =>
      have hbreak := stopsAfter_classifyError lower hallow e
      cases hexc : e.isException with
      | false => simp [hexc]
      | true =>
          cases hsafe : hasSafeMarker lower e with
          | false => simp [hexc, hbreak, hsafe]
          | true =>
              have hint : policy.interrupted (done + 1) = true := by
                rw [← Bool.not_eq_false]
                exact fun hno => hstop ⟨⟨e, hop, hexc, hsafe⟩, hno⟩
              simp [hexc, hbreak, hsafe, RetryRun.after, retryLoop_interrupted lower hint]

/-- An attempt that is repeated comes before the invocations of the rest of the loop. -/
theorem retryLoop_repeats {policy : RetryPolicy} (hallow : policy.allowUnknownRetry = false)
    {operation : Nat → Except RaisedError α} {done : Nat}
    (hstart : ¬ (0 < done ∧ policy.interrupted done = true))
    (hrepeat : Repeats lower policy operation done) (remaining : Nat) (last : RetrySafety) :
    (retryLoop lower policy operation (remaining + 1) done last).invocations =
      operation done :: (retryLoop lower policy operation remaining (done + 1)
        .safe).invocations := by
  obtain ⟨⟨e, hop, hexc, hsafe⟩, _⟩ := hrepeat
  have hbreak := stopsAfter_classifyError lower hallow e
  have hclass := (classifyError_eq_safe_iff lower e).mpr hsafe
  rw [hclass, hsafe] at hbreak
  rw [retryLoop, if_neg hstart, hop]
  simp [hexc, hclass, hbreak, RetryRun.after]

/-- The invocations of the loop are those of the operation, in order, for as long as each is
repeated and attempts remain. -/
theorem retryLoop_invocations {policy : RetryPolicy} (hallow : policy.allowUnknownRetry = false)
    (operation : Nat → Except RaisedError α) (remaining done : Nat) (last : RetrySafety)
    (hstart : ¬ (0 < done ∧ policy.interrupted done = true)) (k : Nat)
    (outcome : Except RaisedError α) :
    (retryLoop lower policy operation remaining done last).invocations[k]? = some outcome ↔
      k < remaining ∧ operation (done + k) = outcome ∧
        ∀ j < k, Repeats lower policy operation (done + j) := by
  induction remaining generalizing done last k with
  | zero => simp [retryLoop]
  | succ remaining ih =>
      by_cases hrepeat : Repeats lower policy operation done
      · rw [retryLoop_repeats lower hallow hstart hrepeat]
        cases k with
        | zero => simp
        | succ k =>
            have hnext : ¬ (0 < done + 1 ∧ policy.interrupted (done + 1) = true) := by
              rw [hrepeat.2]
              simp
            rw [List.getElem?_cons_succ, ih (done + 1) .safe hnext k, Nat.succ_lt_succ_iff,
              Nat.add_right_comm, Nat.add_assoc done k 1]
            constructor
            · intro ⟨hlt, hop, hall⟩
              refine ⟨hlt, hop, fun j hj => ?_⟩
              cases j with
              | zero => exact hrepeat
              | succ j =>
                  have hj' := hall j (by omega)
                  rwa [Nat.add_right_comm] at hj'
            · intro ⟨hlt, hop, hall⟩
              refine ⟨hlt, hop, fun j hj => ?_⟩
              rw [Nat.add_right_comm]
              exact hall (j + 1) (by omega)
      · rw [retryLoop_once lower hallow hstart hrepeat]
        cases k with
        | zero => simp
        | succ k =>
            constructor
            · intro h
              simp at h
            · intro ⟨_, _, hall⟩
              exact absurd (hall 0 (by omega)) hrepeat

theorem retryLoop_length_le (policy : RetryPolicy) (operation : Nat → Except RaisedError α)
    (remaining done : Nat) (last : RetrySafety) :
    (retryLoop lower policy operation remaining done last).invocations.length ≤ remaining := by
  induction remaining generalizing done last with
  | zero => simp [retryLoop]
  | succ remaining ih =>
      unfold retryLoop
      split
      · simp
      · split
        · simp
        · split
          · dsimp only
            split
            · simp
            · simpa [RetryRun.after] using ih _ _
          · simp

/-- No error that the policy repeats is ambiguous: as long as attempts remain and every failure so
far carries a safe word, none of them carries one of the other words. -/
def SafeWordsAlone (lower : String → String) (policy : RetryPolicy)
    (operation : Nat → Except RaisedError α) : Prop :=
  ∀ k e, k + 1 < policy.maxRetries.toNat → (∀ j ≤ k, Repeats lower policy operation j) →
    operation k = .error e → isAmbiguous lower e = false

/-- Ambiguous failures are not retried exactly when no failure that is retried mixes the words of
two classes. -/
theorem never_retries_ambiguous_iff (lower : String → String) (policy : RetryPolicy)
    (hallow : policy.allowUnknownRetry = false) (operation : Nat → Except RaisedError α) :
    NeverRetriesAmbiguous lower policy (executeWithRetry lower policy operation) ↔
      SafeWordsAlone lower policy operation := by
  have hinvoked := retryLoop_invocations lower hallow operation
    policy.maxRetries.toNat 0 .unknown (by simp)
  simp only [Nat.zero_add] at hinvoked
  constructor
  · intro hnever k e hlast hall hop
    have hk := (hinvoked k (.error e)).mpr ⟨by omega, hop, fun j hj => hall j (by omega)⟩
    have hnext := (hinvoked (k + 1) (operation (k + 1))).mpr
      ⟨hlast, rfl, fun j hj => hall j (by omega)⟩
    rw [Bool.eq_false_iff]
    intro hambiguous
    have hlength := hnever.stopped k e hk hambiguous
    have hlt := (List.getElem?_eq_some_iff.mp hnext).1
    unfold executeWithRetry at hlength
    omega
  · intro hsafe
    refine ⟨retryLoop_length_le lower policy operation _ 0 .unknown, fun k e hk hambiguous => ?_⟩
    unfold executeWithRetry at hk ⊢
    have hlt := (List.getElem?_eq_some_iff.mp hk).1
    by_contra hlength
    -- a further invocation means that this one was repeated
    have hlater : k + 1 < (retryLoop lower policy operation policy.maxRetries.toNat 0
        .unknown).invocations.length := by omega
    have hnext := (hinvoked (k + 1) _).mp (List.getElem?_eq_getElem hlater)
    have hop := ((hinvoked k _).mp hk).2.1
    have hclear := hsafe k e hnext.1 (fun j hj => hnext.2.2 j (by omega)) hop
    rw [hclear] at hambiguous
    cases hambiguous

/-- `str.lower` on ASCII text. -/
def asciiLower (s : String) : String := String.ofList (s.toList.map Char.toLower)

/-- An operation that fails in the same way each time. -/
def failingWith (message : String) : Nat → Except RaisedError Unit := fun _ =>
  .error { typeName := "RuntimeError", message }

theorem plain_unknown_not_retried : NeverRetriesAmbiguous asciiLower {}
    (executeWithRetry asciiLower {} (failingWith "submission status unknown")) := by
  apply (never_retries_ambiguous_iff asciiLower {} rfl (failingWith _)).mpr
  intro k e _ hall hop
  obtain ⟨⟨e', hop', _, hsafe⟩, _⟩ := hall k le_rfl
  cases hop'
  exact absurd hsafe (by decide +kernel)

/-- A message that speaks of a lost connection and of an unknown submission status is retried. -/
theorem mixed_message_retried :
    ¬ ∀ (policy : RetryPolicy) (operation : Nat → Except RaisedError Unit),
      policy.allowUnknownRetry = false →
        NeverRetriesAmbiguous asciiLower policy (executeWithRetry asciiLower policy operation) := by
  intro h
  have hnever := h {} (failingWith "connection lost, submission status unknown") rfl
  have hlength := hnever.stopped 0 _ rfl (by decide +kernel)
  exact absurd hlength (by decide +kernel)

end RetryPolicy

end AutoTrade.Execution
