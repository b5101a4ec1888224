import AutoTrade.Execution.ServiceLaws

/-! # In-flight marks

A submitted call marks its key before the attempt. `execute_order` announces
that the mark is cleared on every exit; the code confirms it after a fill and
clears it in an `except` clause that `_execute_with_retries` leaves nothing to.
-/

namespace AutoTrade.Execution.ExecutionService

open AutoTrade.Library

variable {setup : Setup} {call : OrderCall} {s : ExecutionService}

/-- The key is confirmed, or the order was rejected and the key is free again. -/
def MarkReleased (key : String) (result : OrderResult) (t : ExecutionService) : Prop :=
  t.idempotency.cache.get? key ≠ none ∨
    (result.status = .rejected ∧ t.idempotency.cache.get? key = none ∧
      t.idempotency.inFlight.get? key = none)

/-- The attempt is made, the broker fills at least part of the order, and the cache has room for one
entry. -/
def FillIsConfirmed (setup : Setup) (call : OrderCall) (s : ExecutionService) : Prop :=
  proceeds setup call s = true ∧
    (∃ result, (attemptOf setup call s).outcome = .ok result ∧ isFill result = true) ∧
    (0 < s.idempotency.cacheSize ∨ (s.idempotency.cleanup s.clock).cache.size ≠ 0)

/-- The mark of a submitted call is released exactly when a fill is confirmed. -/
theorem mark_released_iff (setup : Setup) (call : OrderCall) (s t : ExecutionService)
    (result : OrderResult) (hprevent : setup.enableDuplicatePrevention = true)
    (hsubmitted : Submitted setup call s) (hreturn : executeOrder setup call s = (t, .ok result)) :
    MarkReleased (keyOf setup call s) result t ↔ FillIsConfirmed setup call s := by
  obtain ⟨hcache, _⟩ := not_duplicate hprevent hsubmitted
  rcases executeOrder_idempotency hprevent hsubmitted with
    ⟨r, hgo, hout, hfill, hidem⟩ | ⟨hno, hidem⟩
  · have hne : result.status ≠ .rejected := by
      intro hrejected
      have hsame := executeOrder_value_of_outcome hsubmitted hgo hout
      rw [hreturn] at hsame
      cases hsame
      simp [isFill, hrejected] at hfill
    rw [hreturn] at hidem
    have hconfirmed := IdempotencyManager.confirmed_iff
      ((s.idempotency.cleanup s.clock).markInFlight s.clock (keyOf setup call s))
      hcache (s.clock + call.latency) r
    rw [← hidem] at hconfirmed
    constructor
    · rintro (hin | ⟨hrejected, _⟩)
      · exact ⟨hgo, ⟨r, hout, hfill⟩, hconfirmed.mp hin⟩
      · exact (hne hrejected).elim
    · rintro ⟨_, _, hroom⟩
      exact .inl (hconfirmed.mpr hroom)
  · rw [hreturn] at hidem
    refine iff_of_false ?_ ?_
    · rintro (hin | ⟨_, _, hfree⟩)
      · rw [hidem] at hin
        exact hin hcache
      · rw [hidem] at hfree
        simp [IdempotencyManager.markInFlight] at hfree
    · rintro ⟨hgo, hfill, _⟩
      exact hno ⟨hgo, hfill⟩

/-- A fill of a first order is confirmed. -/
theorem mark_released_on_fill :
    FillIsConfirmed sampleSetup (sampleCall sampleRequest .filled 50) freshService ∧
      MarkReleased "signal-1" (sampleResult .filled 50)
        (executeOrder sampleSetup (sampleCall sampleRequest .filled 50) freshService).1 := by
  have hfill : FillIsConfirmed sampleSetup (sampleCall sampleRequest .filled 50) freshService :=
    ⟨by decide +kernel, ⟨sampleResult .filled 50, rfl, rfl⟩, .inl (by decide)⟩
  exact ⟨hfill, (mark_released_iff sampleSetup (sampleCall sampleRequest .filled 50) freshService _
    (sampleResult .filled 50) rfl (by decide +kernel) (Prod.ext rfl rfl)).mpr hfill⟩

/-- After a rejection the key stays marked, and the next call with it is answered as a duplicate. -/
theorem mark_kept_on_rejection :
    (executeOrder sampleSetup (sampleCall sampleRequest .rejected 0) freshService).2 =
        .ok (sampleResult .rejected 0) ∧
      ¬ MarkReleased "signal-1" (sampleResult .rejected 0)
        (executeOrder sampleSetup (sampleCall sampleRequest .rejected 0) freshService).1 ∧
      isDuplicateCall sampleSetup (sampleCall sampleRequest .rejected 0)
        (executeOrder sampleSetup (sampleCall sampleRequest .rejected 0) freshService).1 = true := by
  have hmarks : ((executeOrder sampleSetup (sampleCall sampleRequest .rejected 0)
      freshService).1.idempotency.inFlight.contains "signal-1" = true) ∧
      (executeOrder sampleSetup (sampleCall sampleRequest .rejected 0)
        freshService).1.idempotency.cache.contains "signal-1" = false := by
    decide +kernel
  rw [Dict.contains_iff_get?, Dict.contains_iff_get?] at hmarks
  refine ⟨rfl, ?_, by decide +kernel⟩
  rintro (hin | ⟨_, _, hfree⟩)
  · exact hin (by simpa using hmarks.2)
  · rw [hfree] at hmarks
    exact absurd hmarks.1 (by simp)

end AutoTrade.Execution.ExecutionService
