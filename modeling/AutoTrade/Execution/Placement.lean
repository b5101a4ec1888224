import AutoTrade.Execution.ServiceRuns

/-! # No double placement

Three guards stand between an order and its second placement: the confirmed
cache, the in-flight mark and the machine. The mark lasts an hour, so over the
whole expiry window a placed order is safe when its key is in the cache or its
machine has not ended. The gaps are the ways to lose both: a live order whose
machine is terminal or is swept, and an entry thrown out by other keys.
-/

namespace AutoTrade.Execution.ExecutionService

open AutoTrade.Library ExecutionStateMachine ExecutionStateMachineManager

variable {setup : Setup} {call : OrderCall} {s : ExecutionService} {k : String}

/-- While less than the expiry window has passed since `k` was first placed, it is placed again only
if every earlier placement was answered `REJECTED`. -/
def PlacedOnce (k : String) (s : ExecutionService) : Prop :=
  RepeatsOnlyAfterRefusal (fun p : Placement => p.key = k) (fun p => p.answer = some .rejected)
    Placement.time s.idempotency.window s.placements

def firstPlaced? (k : String) (s : ExecutionService) : Option Time :=
  firstTime? (fun p : Placement => p.key = k) Placement.time s.placements

/-- `k` was placed and not refused, and its window is still open. -/
def OpenPlacement (k : String) (s : ExecutionService) : Prop :=
  ∃ t, firstPlaced? k s = some t ∧ s.clock < t + s.idempotency.window ∧
    ∃ p ∈ s.placements, p.key = k ∧ p.answer ≠ some .rejected

/-- The machine of `k` has not ended. -/
def MachineLive (k : String) (s : ExecutionService) : Prop :=
  ∃ m, s.manager.getMachine (generateClientOrderId k) = some m ∧ m.isTerminal = false

/-- One of the two lasting guards stands. -/
def Guarded (k : String) (s : ExecutionService) : Prop :=
  s.idempotency.cache.get? k ≠ none ∨ MachineLive k s

structure PlacementInvariant (k : String) (s : ExecutionService) : Prop where
  atRest : AtRest s.manager
  once : PlacedOnce k s
  since : ∀ t, firstPlaced? k s = some t →
    t ≤ s.clock ∧ ∀ entry, s.idempotency.cache.get? k = some entry → t ≤ entry.1
  guarded : OpenPlacement k s → Guarded k s

/-- What a single operation must not do to the guards of `k`. A placement of `k` is refused, or
filled and confirmed, or leaves a new machine `VALIDATED`; a fill of another key does not throw an
open `k` out of the cache while its machine has ended; the sweep does not fail the machine of an
open `k` that is not in the cache. -/
def KeepsGuard (setup : Setup) (k : String) (s : ExecutionService) : ServiceStep → Prop
  | .executeOrder call => Attempted setup call s →
      if keyOf setup call s = k then
        (attemptOf setup call s).placed = true →
          (attemptOf setup call s).answer = some .rejected ∨
          (∃ result, (attemptOf setup call s).outcome = .ok result ∧ isFill result = true ∧
            (0 < s.idempotency.cacheSize ∨ (s.idempotency.cleanup s.clock).cache.size ≠ 0)) ∨
          (priorMachine setup call s = none ∧
            leavesValidated (attemptOf setup call s).outcome = true)
      else
        (∃ result, (attemptOf setup call s).outcome = .ok result ∧ isFill result = true) →
          (s.idempotency.cleanup s.clock).evictedBy (keyOf setup call s) = some k →
          OpenPlacement k s → MachineLive k s
  | .runStaleOrderTimeout _ maxStale =>
      ∀ m, s.manager.getMachine (generateClientOrderId k) = some m →
        isStale s.clock maxStale m = true → OpenPlacement k s →
        s.idempotency.cache.get? k ≠ none
  | _ => True

/-! ## The guards hold -/

/-- Inside the window the confirmed entry has not expired. -/
theorem cache_cleanup_of_open (h : PlacementInvariant k s) (hopen : OpenPlacement k s) :
    (s.idempotency.cleanup s.clock).cache.get? k = s.idempotency.cache.get? k := by
  obtain ⟨t, hfirst, hwindow, _⟩ := hopen
  rw [IdempotencyManager.cache_get?_cleanup]
  cases hentry : s.idempotency.cache.get? k with
  | none => rfl
  | some entry =>
      have hle := (h.since t hfirst).2 entry hentry
      have hlive : ¬ entry.1 < s.clock - s.idempotency.window :=
        not_lt.mpr ((sub_le_iff_le_add.mpr hwindow.le).trans hle)
      rw [Option.filter_some, if_pos (by simpa using hlive)]

/-- A guarded key is not attempted. -/
theorem not_attempted_of_open (hprevent : setup.enableDuplicatePrevention = true)
    (h : PlacementInvariant k s) (hopen : OpenPlacement k s) (hkey : keyOf setup call s = k) :
    ¬ Attempted setup call s := by
  rintro ⟨hsub, hgo⟩
  rcases h.guarded hopen with hcache | ⟨m, hget, hlive⟩
  · have hnone := (not_duplicate hprevent hsub).1
    rw [hkey, cache_cleanup_of_open h hopen] at hnone
    exact hcache hnone
  · have hprior : priorMachine setup call s = some m := by
      unfold priorMachine clientIdOf
      rw [hkey, hget]
    have hterminal := ((proceeds_iff setup call s).mp hgo).2 m hprior
    rw [hlive] at hterminal
    cases hterminal

/-! ## What the operations do to the log -/

theorem firstPlaced?_isSome {p : Placement} (hp : p ∈ s.placements) (hkey : p.key = k) :
    ∃ t, firstPlaced? k s = some t :=
  firstTime?_isSome _ hp hkey

/-- No placement of `k` was added to the log. -/
def SameLog (k : String) (s t : ExecutionService) : Prop :=
  t.placements = s.placements ∨ ∃ p, p.key ≠ k ∧ t.placements = s.placements ++ [p]

theorem SameLog.firstPlaced? {t : ExecutionService} (h : SameLog k s t) :
    firstPlaced? k t = firstPlaced? k s := by
  unfold ExecutionService.firstPlaced?
  rcases h with hsame | ⟨p, hne, hlog⟩
  · rw [hsame]
  · rw [hlog, firstTime?_append]
    simp [firstTime?, hne]

theorem SameLog.mem {t : ExecutionService} (h : SameLog k s t) {p : Placement}
    (hp : p ∈ t.placements) (hkey : p.key = k) : p ∈ s.placements := by
  rcases h with hsame | ⟨q, hne, hlog⟩
  · rwa [hsame] at hp
  · rw [hlog, List.mem_append, List.mem_singleton] at hp
    rcases hp with hold | rfl
    · exact hold
    · exact (hne hkey).elim

theorem SameLog.placedOnce {t : ExecutionService} (h : SameLog k s t)
    (hwindow : t.idempotency.window = s.idempotency.window) (honce : PlacedOnce k s) :
    PlacedOnce k t := by
  unfold PlacedOnce at honce ⊢
  rw [hwindow]
  rcases h with hsame | ⟨p, hne, hlog⟩
  · rw [hsame]
    exact honce
  · rw [hlog]
    exact honce.append fun hmine => (hne hmine).elim

theorem OpenPlacement.of_later {t : ExecutionService} (h : OpenPlacement k t)
    (hlog : SameLog k s t) (hclock : s.clock ≤ t.clock)
    (hwindow : t.idempotency.window = s.idempotency.window) : OpenPlacement k s := by
  obtain ⟨first, hfirst, hin, p, hp, hkey, hanswer⟩ := h
  rw [hlog.firstPlaced?] at hfirst
  rw [hwindow] at hin
  exact ⟨first, hfirst, lt_of_le_of_lt hclock hin, p, hlog.mem hp hkey, hkey, hanswer⟩

theorem window_executeOrder :
    (executeOrder setup call s).1.idempotency.window = s.idempotency.window := by
  refine executeOrder_elim (P := fun t => t.idempotency.window = s.idempotency.window) rfl rfl
    fun hsub => ?_
  have hprepared : (prepared setup call s).idempotency.window = s.idempotency.window := by
    simp only [prepared, saveAndMark, checkDuplicate]
    split <;> rfl
  rw [← hprepared, ← (executeWithRetries_frame setup call (prepared setup call s)).2]
  rcases executeOrder_cases hsub with ⟨result, _, hexec⟩ | ⟨e, hexec⟩
  · rw [hexec]
    dsimp only
    split <;> rfl
  · rw [hexec]

/-- Operations that add no placement of `k`, no entry for it in the cache and keep a guard of an
open `k` keep the invariant. -/
theorem PlacementInvariant.of_quiet {t : ExecutionService} (h : PlacementInvariant k s)
    (hrest : AtRest t.manager) (hlog : SameLog k s t) (hclock : s.clock ≤ t.clock)
    (hwindow : t.idempotency.window = s.idempotency.window)
    (hcache : ∀ entry, t.idempotency.cache.get? k = some entry →
      s.idempotency.cache.get? k = some entry)
    (hguard : OpenPlacement k s → Guarded k s → Guarded k t) : PlacementInvariant k t := by
  refine ⟨hrest, hlog.placedOnce hwindow h.once, fun first hfirst => ?_, fun hopen => ?_⟩
  · rw [hlog.firstPlaced?] at hfirst
    obtain ⟨hle, hentries⟩ := h.since first hfirst
    exact ⟨hle.trans hclock, fun entry hentry => hentries entry (hcache entry hentry)⟩
  · have hopen' := hopen.of_later hlog hclock hwindow
    exact hguard hopen' (h.guarded hopen')

/-! ## Calls -/

theorem mem_of_cleanup {now : Time} {entry : Time × OrderResult}
    (h : (s.idempotency.cleanup now).cache.get? k = some entry) :
    s.idempotency.cache.get? k = some entry := by
  rw [IdempotencyManager.cache_get?_cleanup] at h
  exact (Option.filter_eq_some_iff.mp h).1

/-- A call without an attempt at most drops expired entries. -/
theorem cache_not_attempted (hprevent : setup.enableDuplicatePrevention = true)
    (h : ¬ Attempted setup call s) (k : String) :
    (executeOrder setup call s).1.idempotency.cache.get? k = s.idempotency.cache.get? k ∨
      (executeOrder setup call s).1.idempotency.cache.get? k =
        (s.idempotency.cleanup s.clock).cache.get? k := by
  refine executeOrder_elim (P := fun t =>
    t.idempotency.cache.get? k = s.idempotency.cache.get? k ∨
      t.idempotency.cache.get? k = (s.idempotency.cleanup s.clock).cache.get? k)
    (.inl rfl) (.inr ?_) fun hsub => .inr ?_
  · rw [answerDuplicate_idempotency]
  · rcases executeOrder_idempotency hprevent hsub with ⟨_, hgo, _⟩ | ⟨_, hidem⟩
    · exact (h ⟨hsub, hgo⟩).elim
    · rw [hidem]
      rfl

theorem placementInvariant_not_attempted (hprevent : setup.enableDuplicatePrevention = true)
    (h : PlacementInvariant k s) (hno : ¬ Attempted setup call s) :
    PlacementInvariant k (executeOrder setup call s).1 := by
  obtain ⟨hmanager, hplacements, hclock, _⟩ := executeOrder_not_attempted hno
  have hcases := cache_not_attempted hprevent hno k
  refine h.of_quiet (step_atRest setup h.atRest (.executeOrder call)) (.inl hplacements) hclock.ge
    window_executeOrder (fun entry hentry => ?_) fun hopen hguarded => ?_
  · rcases hcases with hsame | hclean
    · rw [← hsame, hentry]
    · rw [hclean] at hentry
      exact mem_of_cleanup hentry
  · rcases hguarded with hcached | ⟨m, hget, hlive⟩
    · refine .inl ?_
      rcases hcases with hsame | hclean
      · rw [hsame]
        exact hcached
      · rw [hclean, cache_cleanup_of_open h hopen]
        exact hcached
    · exact .inr ⟨m, by rw [hmanager, hget], hlive⟩

/-- The cache after an attempt under another key: `k` may be thrown out by a fill. -/
theorem cache_attempted_other (hprevent : setup.enableDuplicatePrevention = true)
    (h : Attempted setup call s) (hne : keyOf setup call s ≠ k) :
    (executeOrder setup call s).1.idempotency.cache.get? k =
        (s.idempotency.cleanup s.clock).cache.get? k ∨
      ((executeOrder setup call s).1.idempotency.cache.get? k = none ∧
        (∃ result, (attemptOf setup call s).outcome = .ok result ∧ isFill result = true) ∧
        (s.idempotency.cleanup s.clock).evictedBy (keyOf setup call s) = some k) := by
  have hnew := (not_duplicate hprevent h.1).1
  rcases executeOrder_idempotency hprevent h.1 with ⟨result, _, hout, hfill, hidem⟩ | ⟨_, hidem⟩
  · have hget := IdempotencyManager.cache_get?_confirmExecution
      ((s.idempotency.cleanup s.clock).markInFlight s.clock (keyOf setup call s)) hnew
      (s.clock + call.latency) result k
    rw [hidem, hget]
    by_cases hevict : (s.idempotency.cleanup s.clock).evictedBy (keyOf setup call s) = some k
    · exact .inr ⟨if_pos hevict, ⟨result, hout, hfill⟩, hevict⟩
    · refine .inl ((if_neg hevict).trans (if_neg ?_))
      exact fun heq => hne heq.symm
  · rw [hidem]
    exact .inl rfl

theorem sameLog_attempted_other (h : Attempted setup call s) (hne : keyOf setup call s ≠ k) :
    SameLog k s (executeOrder setup call s).1 := by
  unfold SameLog
  rw [(executeOrder_attempted h).2.1]
  unfold placementsAfter
  split
  · exact .inr ⟨_, hne, rfl⟩
  · exact .inl rfl

theorem placementInvariant_other_key (hprevent : setup.enableDuplicatePrevention = true)
    (h : PlacementInvariant k s) (hattempt : Attempted setup call s)
    (hne : keyOf setup call s ≠ k) (hkeeps : KeepsGuard setup k s (.executeOrder call)) :
    PlacementInvariant k (executeOrder setup call s).1 := by
  have hclock := clock_le_executeOrder hattempt
  have hmachine : (executeOrder setup call s).1.manager.getMachine (generateClientOrderId k) =
      s.manager.getMachine (generateClientOrderId k) := by
    rw [getMachine_executeOrder hattempt, if_neg]
    exact fun heq => hne (generateClientOrderId_inj.mp heq).symm
  have hcases := cache_attempted_other hprevent hattempt hne
  have hevicts := hkeeps hattempt
  rw [if_neg hne] at hevicts
  refine h.of_quiet (step_atRest setup h.atRest (.executeOrder call))
    (sameLog_attempted_other hattempt hne) hclock window_executeOrder (fun entry hentry => ?_)
    fun hopen hguarded => ?_
  · rcases hcases with hclean | ⟨hnone, _⟩
    · rw [hclean] at hentry
      exact mem_of_cleanup hentry
    · rw [hnone] at hentry
      cases hentry
  · have hlive : MachineLive k s → MachineLive k (executeOrder setup call s).1 := by
      rintro ⟨m, hget, hm⟩
      exact ⟨m, by rw [hmachine, hget], hm⟩
    rcases hguarded with hcached | hmachineLive
    · rcases hcases with hclean | ⟨_, hfill, hevict⟩
      · refine .inl ?_
        rw [hclean, cache_cleanup_of_open h hopen]
        exact hcached
      · exact .inr (hlive (hevicts hfill hevict hopen))
    · exact .inr (hlive hmachineLive)

/-! ## The key's own attempts -/

theorem placements_of_placed (h : Attempted setup call s)
    (hplaced : (attemptOf setup call s).placed = true) :
    (executeOrder setup call s).1.placements =
      s.placements ++ [⟨keyOf setup call s, s.clock, (attemptOf setup call s).answer⟩] := by
  rw [(executeOrder_attempted h).2.1, placementsAfter, if_pos hplaced]

theorem sameLog_of_not_placed (h : Attempted setup call s)
    (hplaced : (attemptOf setup call s).placed = false) (k : String) :
    SameLog k s (executeOrder setup call s).1 := by
  refine .inl ?_
  rw [(executeOrder_attempted h).2.1, placementsAfter, hplaced]
  exact if_neg Bool.false_ne_true

/-- An attempt made outside an open placement may be placed. -/
theorem placedOnce_own_key (h : Attempted setup call s)
    (honce : PlacedOnce (keyOf setup call s) s) (hclosed : ¬ OpenPlacement (keyOf setup call s) s) :
    PlacedOnce (keyOf setup call s) (executeOrder setup call s).1 := by
  cases hplaced : (attemptOf setup call s).placed with
  | false => exact (sameLog_of_not_placed h hplaced _).placedOnce window_executeOrder honce
  | true =>
      unfold PlacedOnce
      rw [placements_of_placed h hplaced, window_executeOrder]
      refine honce.append fun _ hwindow d hd hmine => ?_
      by_contra hanswer
      obtain ⟨t, hfirst⟩ := firstPlaced?_isSome hd hmine
      exact hclosed ⟨t, hfirst, hwindow t hfirst, d, hd, hmine, hanswer⟩

/-- The first placement is one of the past, or the one just made. -/
theorem firstPlaced?_own_key (h : Attempted setup call s) {t : Time}
    (hfirst : firstPlaced? (keyOf setup call s) (executeOrder setup call s).1 = some t) :
    firstPlaced? (keyOf setup call s) s = some t ∨ t = s.clock := by
  cases hplaced : (attemptOf setup call s).placed with
  | false =>
      rw [(sameLog_of_not_placed h hplaced _).firstPlaced?] at hfirst
      exact .inl hfirst
  | true =>
      unfold firstPlaced? at hfirst ⊢
      rw [placements_of_placed h hplaced, firstTime?_append, Option.or_eq_some_iff] at hfirst
      rcases hfirst with hold | ⟨_, hnew⟩
      · exact .inl hold
      · refine .inr ?_
        simpa [firstTime?] using hnew.symm

/-- Whatever the attempt left in the cache for its key is its fill, written when it ended. -/
theorem cache_attempted_own (hprevent : setup.enableDuplicatePrevention = true)
    (h : Attempted setup call s) {entry : Time × OrderResult}
    (hentry : (executeOrder setup call s).1.idempotency.cache.get? (keyOf setup call s) =
      some entry) :
    entry.1 = s.clock + call.latency ∧ isFill entry.2 = true ∧
      (executeOrder setup call s).2 = .ok entry.2 := by
  have hnew := (not_duplicate hprevent h.1).1
  rcases executeOrder_idempotency hprevent h.1 with ⟨result, hgo, hout, hfill, hidem⟩ | ⟨_, hidem⟩
  · rw [hidem, IdempotencyManager.cache_get?_confirmExecution
      ((s.idempotency.cleanup s.clock).markInFlight s.clock (keyOf setup call s)) hnew,
      if_pos rfl] at hentry
    split at hentry
    · cases hentry
    · cases hentry
      exact ⟨rfl, hfill, executeOrder_value_of_outcome h.1 hgo hout⟩
  · rw [hidem] at hentry
    exact absurd (hnew.symm.trans hentry) (by simp)

/-- What a call leaves in the cache was there before, or is the fill it returns. -/
theorem cache_executeOrder (hprevent : setup.enableDuplicatePrevention = true) {k : String}
    {entry : Time × OrderResult}
    (hentry : (executeOrder setup call s).1.idempotency.cache.get? k = some entry) :
    s.idempotency.cache.get? k = some entry ∨
      (k = keyOf setup call s ∧ entry.1 = (executeOrder setup call s).1.clock ∧
        isFill entry.2 = true ∧ (executeOrder setup call s).2 = .ok entry.2) := by
  by_cases hattempt : Attempted setup call s
  · by_cases hk : keyOf setup call s = k
    · obtain ⟨htime, hfill, hvalue⟩ := cache_attempted_own hprevent hattempt (hk ▸ hentry)
      rw [← (executeOrder_attempted hattempt).2.2.1] at htime
      exact .inr ⟨hk.symm, htime, hfill, hvalue⟩
    · rcases cache_attempted_other hprevent hattempt hk with hclean | ⟨hnone, _⟩
      · rw [hclean] at hentry
        exact .inl (mem_of_cleanup hentry)
      · rw [hnone] at hentry
        cases hentry
  · rcases cache_not_attempted hprevent hattempt k with hsame | hclean
    · rw [hsame] at hentry
      exact .inl hentry
    · rw [hclean] at hentry
      exact .inl (mem_of_cleanup hentry)

/-- A mark that a call leaves was there before, or is its own. -/
theorem inFlight_executeOrder (hprevent : setup.enableDuplicatePrevention = true) {k : String}
    {t : Time} (hmark : (executeOrder setup call s).1.idempotency.inFlight.get? k = some t) :
    s.idempotency.inFlight.get? k = some t ∨ k = keyOf setup call s := by
  have hkept : (s.idempotency.cleanup s.clock).inFlight.get? k = some t →
      s.idempotency.inFlight.get? k = some t := by
    intro h
    rw [IdempotencyManager.inFlight_get?_cleanup] at h
    exact (Option.filter_eq_some_iff.mp h).1
  by_cases hk : k = keyOf setup call s
  · exact .inr hk
  · refine .inl ?_
    have hother : ((s.idempotency.cleanup s.clock).markInFlight s.clock
        (keyOf setup call s)).inFlight.get? k = (s.idempotency.cleanup s.clock).inFlight.get? k :=
      Dict.get?_set_of_ne _ _ hk
    revert hmark
    refine executeOrder_elim (P := fun t' => t'.idempotency.inFlight.get? k = some t → _) ?_ ?_ ?_
    · exact id
    · rw [answerDuplicate_idempotency]
      exact hkept
    · intro hsub hmark
      apply hkept
      rcases executeOrder_idempotency hprevent hsub with ⟨_, _, _, _, hidem⟩ | ⟨_, hidem⟩
      · rw [hidem, IdempotencyManager.inFlight_get?_confirmExecution, if_neg hk, hother] at hmark
        exact hmark
      · rw [hidem, hother] at hmark
        exact hmark

/-- A fill is confirmed when the cache has room for it. -/
theorem cached_of_fill (hprevent : setup.enableDuplicatePrevention = true)
    (h : Attempted setup call s) {result : OrderResult}
    (hout : (attemptOf setup call s).outcome = .ok result) (hfill : isFill result = true)
    (hroom : 0 < s.idempotency.cacheSize ∨ (s.idempotency.cleanup s.clock).cache.size ≠ 0) :
    (executeOrder setup call s).1.idempotency.cache.get? (keyOf setup call s) ≠ none := by
  have hnew := (not_duplicate hprevent h.1).1
  rcases executeOrder_idempotency hprevent h.1 with ⟨_, _, _, _, hidem⟩ | ⟨hno, _⟩
  · rw [hidem]
    exact (IdempotencyManager.confirmed_iff
      ((s.idempotency.cleanup s.clock).markInFlight s.clock (keyOf setup call s)) hnew _
      _).mpr hroom
  · exact (hno ⟨h.2, result, hout, hfill⟩).elim

/-- A new machine that its outcome leaves `VALIDATED` is live. -/
theorem machineLive_of_new (h : Attempted setup call s) (hprior : priorMachine setup call s = none)
    (hleaves : leavesValidated (attemptOf setup call s).outcome = true) :
    MachineLive (keyOf setup call s) (executeOrder setup call s).1 := by
  have hstate := (driveMachine_new (priorMachine_prepared.trans hprior)).2.1
  rw [attemptOf_prepared, newState.eq_def, if_pos hleaves] at hstate
  refine ⟨_, (getMachine_executeOrder h _).trans (if_pos rfl), ?_⟩
  simp [isTerminal, hstate, terminalStates]

theorem guarded_own_key (hprevent : setup.enableDuplicatePrevention = true)
    (hattempt : Attempted setup call s) (hclosed : ¬ OpenPlacement (keyOf setup call s) s)
    (hkeeps : KeepsGuard setup (keyOf setup call s) s (.executeOrder call))
    (hopen : OpenPlacement (keyOf setup call s) (executeOrder setup call s).1) :
    Guarded (keyOf setup call s) (executeOrder setup call s).1 := by
  have hclock := clock_le_executeOrder hattempt
  cases hplaced : (attemptOf setup call s).placed with
  | false =>
      exact (hclosed (hopen.of_later (sameLog_of_not_placed hattempt hplaced _) hclock
        window_executeOrder)).elim
  | true =>
      have hcases := hkeeps hattempt
      rw [if_pos rfl] at hcases
      rcases hcases hplaced with hrejected | ⟨result, hout, hfill, hroom⟩ | ⟨hprior, hleaves⟩
      · -- an open placement would be one of the past
        obtain ⟨t, hfirst, hin, p, hp, hkey, hanswer⟩ := hopen
        rw [placements_of_placed hattempt hplaced, List.mem_append, List.mem_singleton] at hp
        rcases hp with hold | rfl
        · obtain ⟨first, hfirst'⟩ := firstPlaced?_isSome hold hkey
          have hsame : t = first := by
            unfold firstPlaced? at hfirst hfirst'
            rw [placements_of_placed hattempt hplaced, firstTime?_append, hfirst',
              Option.some_or, Option.some.injEq] at hfirst
            exact hfirst.symm
          rw [window_executeOrder, hsame] at hin
          exact (hclosed ⟨first, hfirst', lt_of_le_of_lt hclock hin, p, hold, hkey,
            hanswer⟩).elim
        · exact (hanswer hrejected).elim
      · exact .inl (cached_of_fill hprevent hattempt hout hfill hroom)
      · exact .inr (machineLive_of_new hattempt hprior hleaves)

theorem placementInvariant_own_key (hprevent : setup.enableDuplicatePrevention = true)
    (h : PlacementInvariant (keyOf setup call s) s) (hattempt : Attempted setup call s)
    (hkeeps : KeepsGuard setup (keyOf setup call s) s (.executeOrder call)) :
    PlacementInvariant (keyOf setup call s) (executeOrder setup call s).1 := by
  have hclosed : ¬ OpenPlacement (keyOf setup call s) s := fun hopen =>
    not_attempted_of_open hprevent h hopen rfl hattempt
  refine ⟨step_atRest setup h.atRest (.executeOrder call), placedOnce_own_key hattempt h.once hclosed,
    fun t hfirst => ?_, guarded_own_key hprevent hattempt hclosed hkeeps⟩
  have hpast : t ≤ s.clock := by
    rcases firstPlaced?_own_key hattempt hfirst with hold | hnow
    · exact (h.since t hold).1
    · exact hnow.le
  have hlater : t ≤ s.clock + call.latency := hpast.trans (by simp)
  refine ⟨?_, fun entry hentry => ?_⟩
  · rw [(executeOrder_attempted hattempt).2.2.1]
    exact hlater
  · rw [(cache_attempted_own hprevent hattempt hentry).1]
    exact hlater

/-! ## Runs -/

theorem placementInvariant_runStaleOrderTimeout (h : PlacementInvariant k s)
    {answers : LifecycleAnswers} {maxStale : ℚ}
    (hkeeps : KeepsGuard setup k s (.runStaleOrderTimeout answers maxStale)) :
    PlacementInvariant k (step setup s (.runStaleOrderTimeout answers maxStale)) := by
  refine h.of_quiet (step_atRest setup h.atRest _) (.inl rfl) le_rfl rfl (fun _ hentry => hentry)
    fun hopen hguarded => ?_
  rcases hguarded with hcached | ⟨m, hget, hlive⟩
  · exact .inl hcached
  · rcases getMachine_runStaleOrderTimeout (serviceHooks s.clock) s.clock setup.port answers
      maxStale s.manager s.records (generateClientOrderId k) with hsame | ⟨m', _, hget', hstale, _, _⟩
    · exact .inr ⟨m, hsame.trans hget, hlive⟩
    · exact .inl (hkeeps m' hget' hstale hopen)

theorem placementInvariant_recordBrokerQueryResult (h : PlacementInvariant k s)
    (query : BrokerQuery) :
    PlacementInvariant k (step setup s (.recordBrokerQueryResult query)) := by
  have hrest := step_atRest setup h.atRest (.recordBrokerQueryResult query)
  obtain ⟨mgr, hstep, _, hsame⟩ := step_recordBrokerQueryResult setup h.atRest query
  rw [hstep] at hrest ⊢
  refine h.of_quiet hrest (.inl rfl) le_rfl rfl (fun _ hentry => hentry) fun _ hguarded => ?_
  rcases hguarded with hcached | ⟨m, hget, hlive⟩
  · exact .inl hcached
  · obtain ⟨m', hget', hstate, _⟩ := hsame.symm.exists hget
    refine .inr ⟨m', hget', ?_⟩
    rw [isTerminal, hstate]
    exact hlive

theorem step_placementInvariant (hprevent : setup.enableDuplicatePrevention = true)
    (h : PlacementInvariant k s) (op : ServiceStep) (hkeeps : KeepsGuard setup k s op) :
    PlacementInvariant k (step setup s op) := by
  cases op with
  | executeOrder call =>
      by_cases hattempt : Attempted setup call s
      · by_cases hkey : keyOf setup call s = k
        · subst hkey
          exact placementInvariant_own_key hprevent h hattempt hkeeps
        · exact placementInvariant_other_key hprevent h hattempt hkey hkeeps
      · exact placementInvariant_not_attempted hprevent h hattempt
  | runAckWatchdog answers maxAge =>
      rw [step_runAckWatchdog h.atRest]
      exact h
  | runStaleOrderTimeout answers maxStale =>
      exact placementInvariant_runStaleOrderTimeout h hkeeps
  | recordBrokerQueryResult query => exact placementInvariant_recordBrokerQueryResult h query
  | advance elapsed =>
      exact h.of_quiet h.atRest (.inl rfl) (by simp [step]) rfl (fun _ hentry => hentry)
        fun _ hguarded => hguarded

theorem Fresh.placementInvariant (h : s.Fresh) (k : String) : PlacementInvariant k s := by
  have hnever : firstPlaced? k s = none := by
    unfold firstPlaced?
    rw [h.placements]
    rfl
  refine ⟨h.atRest, ?_, fun t hfirst => ?_, ?_⟩
  · unfold PlacedOnce
    rw [h.placements]
    exact repeatsOnlyAfterRefusal_nil _
  · rw [hnever] at hfirst
    cases hfirst
  · rintro ⟨t, hfirst, _⟩
    rw [hnever] at hfirst
    cases hfirst

/-- Along a run that keeps a guard of `k`, it is placed once. -/
theorem placed_once_along_run (setup : Setup) (start : ExecutionService) (ops : List ServiceStep)
    (k : String) (hprevent : setup.enableDuplicatePrevention = true) (hfresh : start.Fresh)
    (hkeeps : StepsMeet (step setup) (KeepsGuard setup k) start ops) :
    Always (step setup) (PlacedOnce k) start ops :=
  (always_of_stepsMeet (I := PlacementInvariant k)
    (fun _ op _ h => step_placementInvariant hprevent h op) (hfresh.placementInvariant k)
    hkeeps).mono fun _ h => h.once

/-- A filled order, and the same call again two hours later. -/
theorem placed_once_of_fill :
    StepsMeet (step sampleSetup) (KeepsGuard sampleSetup "signal-1") freshService
        [.executeOrder (sampleCall sampleRequest .filled 50), .advance 7200000000,
          .executeOrder (sampleCall sampleRequest .filled 50)] ∧
      Always (step sampleSetup) (PlacedOnce "signal-1") freshService
        [.executeOrder (sampleCall sampleRequest .filled 50), .advance 7200000000,
          .executeOrder (sampleCall sampleRequest .filled 50)] := by
  have hblocked : ¬ Attempted sampleSetup (sampleCall sampleRequest .filled 50)
      (run (step sampleSetup) freshService
        [.executeOrder (sampleCall sampleRequest .filled 50), .advance 7200000000]) := by
    decide +kernel
  have hkeeps : StepsMeet (step sampleSetup) (KeepsGuard sampleSetup "signal-1") freshService
      [.executeOrder (sampleCall sampleRequest .filled 50), .advance 7200000000,
        .executeOrder (sampleCall sampleRequest .filled 50)] := by
    refine ⟨fun _ => ?_, trivial, fun hattempt => (hblocked hattempt).elim, trivial⟩
    rw [if_pos (by decide +kernel)]
    exact fun _ => .inr (.inl ⟨sampleResult .filled 50, rfl, rfl, .inl (by decide)⟩)
  exact ⟨hkeeps, placed_once_along_run sampleSetup freshService _ "signal-1" rfl
    freshService_fresh hkeeps⟩

/-- A broker that cancels whatever it is asked to and reports no status. -/
def obligingBroker : LifecycleAnswers where
  cancelOrder _ := .ok true
  getOrderStatus _ := .ok none

/-- An order the broker took is swept after five minutes and placed again within two hours. -/
theorem submitted_order_placed_twice :
    ¬ Always (step sampleSetup) (PlacedOnce "signal-1") freshService
      [.executeOrder (sampleCall sampleRequest .submitted 0), .advance 301000000,
        .runStaleOrderTimeout obligingBroker 300, .advance 3600000000,
        .executeOrder (sampleCall sampleRequest .submitted 0)] := by
  intro halways
  have honce := halways.final
  have hlog : (run (step sampleSetup) freshService
      [.executeOrder (sampleCall sampleRequest .submitted 0), .advance 301000000,
        .runStaleOrderTimeout obligingBroker 300, .advance 3600000000,
        .executeOrder (sampleCall sampleRequest .submitted 0)]).placements =
      [⟨"signal-1", 43200000000, some .submitted⟩, ⟨"signal-1", 47101000000, some .submitted⟩] := by
    decide +kernel
  have hwindow : (run (step sampleSetup) freshService
      [.executeOrder (sampleCall sampleRequest .submitted 0), .advance 301000000,
        .runStaleOrderTimeout obligingBroker 300, .advance 3600000000,
        .executeOrder (sampleCall sampleRequest .submitted 0)]).idempotency.window = 24 * hour := by
    decide +kernel
  unfold PlacedOnce at honce
  rw [hlog, hwindow] at honce
  have hrefused := honce [⟨"signal-1", 43200000000, some .submitted⟩]
    ⟨"signal-1", 47101000000, some .submitted⟩ [] rfl rfl (by decide)
    ⟨"signal-1", 43200000000, some .submitted⟩ (by simp) rfl
  exact absurd hrefused (by decide)

end AutoTrade.Execution.ExecutionService
