import AutoTrade.Services.WindowLimits

/-! # Check, status and retry time

A key's status and the time after which to retry are computed apart from the
check, each with its own test of what has expired. They are held against the
check at one instant, in every state that requests, resets and configuration
changes lead to.
-/

namespace AutoTrade.Services

open AutoTrade.Library

/-- The algorithms that count requests in a counter. -/
def Algorithm.Counts (algorithm : Algorithm) : Prop :=
  algorithm = .fixedWindow ∨ algorithm = .other

namespace RateLimitingService

/-- `get_retry_after`; nothing is trimmed or refilled. -/
def getRetryAfter (s : RateLimitingService) (key : String) (now : ℚ) : ℚ :=
  let config := s.getConfig key
  match config.algorithm with
  | .fixedWindow =>
      match s.counters.get? key with
      | none => 0
      | some counter =>
          if config.limit ≤ counter.count then max 0 (config.window - (now - counter.windowStart))
          else 0
  | .slidingWindow =>
      match (s.slidingWindows.get? key).getD [] with
      | [] => 0
      | oldest :: rest =>
          if config.limit ≤ (oldest :: rest).length then max 0 (config.window - (now - oldest))
          else 0
  | .tokenBucket =>
      match s.tokenBuckets.get? key with
      | none => 0
      | some bucket =>
          if bucket.tokens < 1 then
            if 0 < bucket.refillRate then (1 - bucket.tokens) / bucket.refillRate else 0
          else 0
  | .other => 0

def reset (s : RateLimitingService) (key : String) : RateLimitingService :=
  { s with
    counters := s.counters.erase key
    slidingWindows := s.slidingWindows.erase key
    tokenBuckets := s.tokenBuckets.erase key }

def updateConfig (s : RateLimitingService) (key : String) (config : RateLimitConfig) :
    RateLimitingService :=
  { s with customConfigs := s.customConfigs.set key config }

/-- The status allows what the check allows, and a refused request is allowed once the retry time
has gone by. -/
structure AnswersAgree (s : RateLimitingService) (key : String) (now : ℚ) : Prop where
  status : (s.getStatus key now now).2.allowed = true ↔ (s.isAllowed key 1 now now).2 = .allowed
  retry : (s.isAllowed key 1 now now).2 = .denied →
    let refused := (s.isAllowed key 1 now now).1
    let again := now + refused.getRetryAfter key now
    (refused.isAllowed key 1 again again).2 = .allowed

/-- By algorithm: a counter that has run out is not over yet, the log has room for a request, or,
where the service does not know the algorithm, no counter has run out. -/
def AnswersFit (s : RateLimitingService) (key : String) (now : ℚ) : Prop :=
  let config := s.getConfig key
  match config.algorithm with
  | .fixedWindow => ∀ counter ∈ s.counters.get? key,
      config.window ≤ now - counter.windowStart → counter.count < config.limit
  | .slidingWindow =>
      (recentTimestamps config now ((s.slidingWindows.get? key).getD [])).length < config.limit
  | .tokenBucket => True
  | .other => ∀ counter ∈ s.counters.get? key, counter.count < config.limit

/-- Where the request is allowed there is nothing to wait for, and only the status can differ. -/
theorem answersAgree_iff_of_allowed {s : RateLimitingService} {key : String} {now : ℚ}
    (allowed : (s.isAllowed key 1 now now).2 = .allowed) :
    s.AnswersAgree key now ↔ (s.getStatus key now now).2.allowed = true := by
  constructor
  · intro agree
    exact agree.status.mpr allowed
  · intro status
    refine ⟨iff_of_true status allowed, fun refused => ?_⟩
    rw [allowed] at refused
    cases refused

theorem denied_of_not_allowed {result : LimitResult} (h : ¬ result = .allowed) :
    result = .denied := by
  cases result with
  | allowed => exact absurd rfl h
  | denied => rfl

/-! ## Counters -/

theorem isAllowedFixedWindow_one (s : RateLimitingService) (key : String)
    (config : RateLimitConfig) (now created : ℚ) :
    let counter := counterAt config now created (s.counters.get? key)
    (counter.count < config.limit →
        (s.isAllowedFixedWindow key 1 config now created).2 = .allowed) ∧
      (config.limit ≤ counter.count → s.isAllowedFixedWindow key 1 config now created =
        ({ s with counters := s.counters.set key counter }, .denied)) := by
  unfold isAllowedFixedWindow
  dsimp only
  constructor
  · intro hroom
    rw [if_neg (by push_cast; omega)]
  · intro hfull
    rw [if_pos (by push_cast; omega)]

theorem counterAt_over {config : RateLimitConfig} {now created : ℚ} {counter : WindowCounter}
    (h : config.window ≤ now - counter.windowStart) :
    counterAt config now created (some counter) = { windowStart := created } := if_pos h

theorem counterAt_running {config : RateLimitConfig} {now created : ℚ} {counter : WindowCounter}
    (h : ¬ config.window ≤ now - counter.windowStart) :
    counterAt config now created (some counter) = counter := if_neg h

theorem isAllowed_counts {s : RateLimitingService} {key : String}
    (h : (s.getConfig key).algorithm.Counts) (cost : Nat) (now created : ℚ) :
    s.isAllowed key cost now created =
      s.isAllowedFixedWindow key cost (s.getConfig key) now created := by
  unfold isAllowed
  rcases h with h | h <;> simp only [h]

theorem getStatus_counts {s : RateLimitingService} {key : String}
    (h : (s.getConfig key).algorithm.Counts) (now later : ℚ) :
    s.getStatus key now later = (s, s.getStatusFixedWindow key (s.getConfig key) now later) := by
  unfold getStatus
  rcases h with h | h <;> simp only [h]

theorem isAllowed_counts_iff {s : RateLimitingService} {key : String}
    (h : (s.getConfig key).algorithm.Counts) (now : ℚ) :
    (s.isAllowed key 1 now now).2 = .allowed ↔
      (counterAt (s.getConfig key) now now (s.counters.get? key)).count <
        (s.getConfig key).limit := by
  obtain ⟨hroom, hfull⟩ := s.isAllowedFixedWindow_one key (s.getConfig key) now now
  rw [isAllowed_counts h]
  refine ⟨fun hallowed => ?_, hroom⟩
  by_contra hnot
  rw [hfull (not_lt.mp hnot)] at hallowed
  cases hallowed

/-- A counter refuses only while its window runs, and is left as it was. -/
theorem refused_counts {s : RateLimitingService} {key : String}
    (h : (s.getConfig key).algorithm.Counts) (hlimit : 1 ≤ (s.getConfig key).limit) {now : ℚ}
    (refused : ¬ (s.isAllowed key 1 now now).2 = .allowed) :
    ∃ counter, s.counters.get? key = some counter ∧
      ¬ (s.getConfig key).window ≤ now - counter.windowStart ∧
        (s.getConfig key).limit ≤ counter.count ∧
          (s.isAllowed key 1 now now).1.getConfig key = s.getConfig key ∧
            (s.isAllowed key 1 now now).1.counters.get? key = some counter := by
  rw [isAllowed_counts_iff h, not_lt] at refused
  obtain ⟨-, hfull⟩ := s.isAllowedFixedWindow_one key (s.getConfig key) now now
  rw [isAllowed_counts h, hfull refused]
  cases hcounter : s.counters.get? key with
  | none =>
      rw [hcounter] at refused
      simp only [counterAt, Nat.cast_zero] at refused
      omega
  | some counter =>
      rw [hcounter] at refused
      by_cases hover : (s.getConfig key).window ≤ now - counter.windowStart
      · rw [counterAt_over hover] at refused
        simp only [Nat.cast_zero] at refused
        omega
      · rw [counterAt_running hover] at refused ⊢
        exact ⟨counter, rfl, hover, refused, rfl, Dict.get?_set_self _ _ _⟩

theorem status_counts_iff {s : RateLimitingService} {key : String}
    (h : (s.getConfig key).algorithm.Counts) (now : ℚ) :
    (s.getStatus key now now).2.allowed = true ↔
      ∀ counter ∈ s.counters.get? key, counter.count < (s.getConfig key).limit := by
  rw [getStatus_counts h]
  unfold getStatusFixedWindow
  cases s.counters.get? key with
  | none => simp
  | some counter => simp

theorem answersAgree_fixedWindow {s : RateLimitingService} {key : String} {now : ℚ}
    (h : (s.getConfig key).algorithm = .fixedWindow) (hlimit : 1 ≤ (s.getConfig key).limit) :
    s.AnswersAgree key now ↔ ∀ counter ∈ s.counters.get? key,
      (s.getConfig key).window ≤ now - counter.windowStart →
        counter.count < (s.getConfig key).limit := by
  have hcounts : (s.getConfig key).algorithm.Counts := .inl h
  by_cases hallowed : (s.isAllowed key 1 now now).2 = .allowed
  -- a counter whose window runs has room for the request that is allowed
  · rw [answersAgree_iff_of_allowed hallowed, status_counts_iff hcounts]
    rw [isAllowed_counts_iff hcounts] at hallowed
    refine ⟨fun room counter hcounter _ => room counter hcounter, fun fit counter hcounter => ?_⟩
    by_cases hover : (s.getConfig key).window ≤ now - counter.windowStart
    · exact fit counter hcounter hover
    · rw [hcounter, counterAt_running hover] at hallowed
      exact hallowed
  · obtain ⟨counter, hcounter, hrunning, hfull, hconfig, hget⟩ :=
      refused_counts hcounts hlimit hallowed
    refine iff_of_true ⟨iff_of_false ?_ hallowed, fun _ => ?_⟩ ?_
    · intro status
      exact not_lt.mpr hfull ((status_counts_iff hcounts now).mp status counter hcounter)
    · generalize (s.isAllowed key 1 now now).1 = left at *
      have hleft : left.getRetryAfter key now =
          (s.getConfig key).window - (now - counter.windowStart) := by
        unfold getRetryAfter
        simp only [hconfig, h, hget]
        rw [if_pos hfull, max_eq_right (by linarith)]
      have hover : ((s.getConfig key).window : ℚ) ≤
          now + left.getRetryAfter key now - counter.windowStart := by
        rw [hleft]
        linarith
      rw [isAllowed_counts_iff (s := left) (hconfig ▸ hcounts), hconfig, hget, counterAt_over hover]
      simp only [Nat.cast_zero]
      exact zero_lt_one.trans_le hlimit
    · intro other hother hover
      cases hcounter.symm.trans hother
      exact absurd hover hrunning

theorem answersAgree_other {s : RateLimitingService} {key : String} {now : ℚ}
    (h : (s.getConfig key).algorithm = .other) (hlimit : 1 ≤ (s.getConfig key).limit) :
    s.AnswersAgree key now ↔
      ∀ counter ∈ s.counters.get? key, counter.count < (s.getConfig key).limit := by
  have hcounts : (s.getConfig key).algorithm.Counts := .inr h
  by_cases hallowed : (s.isAllowed key 1 now now).2 = .allowed
  · rw [answersAgree_iff_of_allowed hallowed, status_counts_iff hcounts]
  · obtain ⟨counter, hcounter, hrunning, hfull, hconfig, hget⟩ :=
      refused_counts hcounts hlimit hallowed
    refine iff_of_false (fun agree => ?_) fun fit => not_lt.mpr hfull (fit counter hcounter)
    have hretry := agree.retry (denied_of_not_allowed hallowed)
    generalize (s.isAllowed key 1 now now).1 = left at *
    have hnone : left.getRetryAfter key now = 0 := by
      unfold getRetryAfter
      simp only [hconfig, h]
    dsimp only at hretry
    rw [hnone, add_zero, isAllowed_counts_iff (s := left) (hconfig ▸ hcounts), hconfig, hget,
      counterAt_running hrunning] at hretry
    exact absurd hretry (not_lt.mpr hfull)

/-! ## Logs -/

theorem recentTimestamps_recent {config : RateLimitConfig} {now : ℚ} {timestamps : List ℚ}
    {oldest : ℚ} {rest : List ℚ} (h : recentTimestamps config now timestamps = oldest :: rest) :
    now - config.window ≤ oldest := by
  have hhead := List.head?_dropWhile_not (fun t => decide (t < now - config.window)) timestamps
  unfold recentTimestamps at h
  rw [h] at hhead
  simpa using hhead

/-- At the moment the oldest entry leaves the window, the test for it is still strict. -/
theorem recentTimestamps_at_retry {config : RateLimitConfig} (oldest : ℚ) (rest : List ℚ) :
    recentTimestamps config (oldest + config.window) (oldest :: rest) = oldest :: rest := by
  unfold recentTimestamps
  rw [List.dropWhile_cons_of_neg]
  simp

theorem isAllowedSlidingWindow_one (s : RateLimitingService) (key : String)
    (config : RateLimitConfig) (now : ℚ) :
    let timestamps := recentTimestamps config now ((s.slidingWindows.get? key).getD [])
    (timestamps.length < config.limit → (s.isAllowedSlidingWindow key 1 config now).2 = .allowed) ∧
      (config.limit ≤ timestamps.length → s.isAllowedSlidingWindow key 1 config now =
        ({ s with slidingWindows := s.slidingWindows.set key timestamps }, .denied)) := by
  unfold isAllowedSlidingWindow
  dsimp only
  constructor
  · intro hroom
    rw [if_neg (by push_cast; omega)]
  · intro hfull
    rw [if_pos (by push_cast; omega)]

theorem isAllowed_slidingWindow {s : RateLimitingService} {key : String}
    (h : (s.getConfig key).algorithm = .slidingWindow) (now : ℚ) :
    s.isAllowed key 1 now now = s.isAllowedSlidingWindow key 1 (s.getConfig key) now := by
  unfold isAllowed
  simp only [h]

theorem isAllowed_slidingWindow_iff {s : RateLimitingService} {key : String}
    (h : (s.getConfig key).algorithm = .slidingWindow) (now : ℚ) :
    (s.isAllowed key 1 now now).2 = .allowed ↔
      (recentTimestamps (s.getConfig key) now ((s.slidingWindows.get? key).getD [])).length <
        (s.getConfig key).limit := by
  obtain ⟨hroom, hfull⟩ := s.isAllowedSlidingWindow_one key (s.getConfig key) now
  rw [isAllowed_slidingWindow h]
  refine ⟨fun hallowed => ?_, hroom⟩
  by_contra hnot
  rw [hfull (not_lt.mp hnot)] at hallowed
  cases hallowed

theorem status_slidingWindow_iff {s : RateLimitingService} {key : String}
    (h : (s.getConfig key).algorithm = .slidingWindow) (now : ℚ) :
    (s.getStatus key now now).2.allowed = true ↔
      (recentTimestamps (s.getConfig key) now ((s.slidingWindows.get? key).getD [])).length <
        (s.getConfig key).limit := by
  unfold getStatus
  simp only [h, getStatusSlidingWindow, decide_eq_true_eq]

/-- A refused request leaves the log trimmed, full, and with an oldest entry in the window. -/
theorem refused_slidingWindow {s : RateLimitingService} {key : String}
    (h : (s.getConfig key).algorithm = .slidingWindow) (hlimit : 1 ≤ (s.getConfig key).limit)
    {now : ℚ} (refused : ¬ (s.isAllowed key 1 now now).2 = .allowed) :
    ∃ oldest rest, now - (s.getConfig key).window ≤ oldest ∧
      (s.getConfig key).limit ≤ (oldest :: rest).length ∧
        (s.isAllowed key 1 now now).1.getConfig key = s.getConfig key ∧
          (s.isAllowed key 1 now now).1.slidingWindows.get? key = some (oldest :: rest) := by
  rw [isAllowed_slidingWindow_iff h, not_lt] at refused
  obtain ⟨-, hfull⟩ := s.isAllowedSlidingWindow_one key (s.getConfig key) now
  rw [isAllowed_slidingWindow h, hfull refused]
  cases htimestamps : recentTimestamps (s.getConfig key) now
      ((s.slidingWindows.get? key).getD []) with
  | nil =>
      rw [htimestamps, List.length_nil, Nat.cast_zero] at refused
      omega
  | cons oldest rest =>
      rw [htimestamps] at refused
      exact ⟨oldest, rest, recentTimestamps_recent htimestamps, refused, rfl,
        Dict.get?_set_self _ _ _⟩

theorem answersAgree_slidingWindow {s : RateLimitingService} {key : String} {now : ℚ}
    (h : (s.getConfig key).algorithm = .slidingWindow) (hlimit : 1 ≤ (s.getConfig key).limit) :
    s.AnswersAgree key now ↔
      (recentTimestamps (s.getConfig key) now ((s.slidingWindows.get? key).getD [])).length <
        (s.getConfig key).limit := by
  by_cases hallowed : (s.isAllowed key 1 now now).2 = .allowed
  · rw [answersAgree_iff_of_allowed hallowed, status_slidingWindow_iff h]
  · obtain ⟨oldest, rest, hrecent, hfull, hconfig, hget⟩ := refused_slidingWindow h hlimit hallowed
    refine iff_of_false (fun agree => ?_) ((isAllowed_slidingWindow_iff h now).not.mp hallowed)
    have hretry := agree.retry (denied_of_not_allowed hallowed)
    generalize (s.isAllowed key 1 now now).1 = left at *
    have hleft : left.getRetryAfter key now = (s.getConfig key).window - (now - oldest) := by
      unfold getRetryAfter
      simp only [hconfig, h, hget, Option.getD_some]
      rw [if_pos hfull, max_eq_right (by linarith)]
    have hagain : now + left.getRetryAfter key now = oldest + (s.getConfig key).window := by
      rw [hleft]
      ring
    dsimp only at hretry
    rw [hagain, isAllowed_slidingWindow_iff (s := left) (hconfig ▸ h), hconfig, hget,
      Option.getD_some, recentTimestamps_at_retry] at hretry
    exact absurd hretry (not_lt.mpr hfull)

/-! ## Buckets -/

/-- A bucket that can hold a token, is refilled, and was not refilled after the last reading. -/
structure SoundBucket (clock : ℚ) (bucket : TokenBucket) : Prop where
  capacity : 1 ≤ bucket.capacity
  rate : 0 < bucket.refillRate
  past : bucket.lastRefill ≤ clock

theorem soundBucket_new {config : RateLimitConfig} (hlimit : 1 ≤ config.limit)
    (hwindow : 0 < config.window) (created : ℚ) :
    SoundBucket created (newBucket config created) := by
  refine ⟨hlimit, ?_, le_refl _⟩
  simp only [newBucket, if_pos hwindow]
  exact div_pos (Int.cast_pos.mpr (by omega)) (Int.cast_pos.mpr hwindow)

theorem SoundBucket.later {clock clock' : ℚ} {bucket : TokenBucket} (h : SoundBucket clock bucket)
    (hle : clock ≤ clock') : SoundBucket clock' bucket :=
  ⟨h.capacity, h.rate, h.past.trans hle⟩

/-- A refill brings the bucket up to the moment it is made at. -/
theorem SoundBucket.refill {now : ℚ} {bucket : TokenBucket} (h : SoundBucket now bucket) :
    SoundBucket now (bucket.refill now) ∧ (bucket.refill now).lastRefill = now := by
  unfold TokenBucket.refill
  split
  · exact ⟨⟨h.capacity, h.rate, le_refl now⟩, rfl⟩
  · rename_i hnot
    refine ⟨h, le_antisymm h.past ?_⟩
    by_contra hlt
    exact hnot ⟨by linarith [not_le.mp hlt], h.rate⟩

/-- Refilled for the time the missing part of a token takes, the bucket holds a token. -/
theorem SoundBucket.one_le_tokens {now : ℚ} {bucket : TokenBucket} (h : SoundBucket now bucket)
    (hlast : bucket.lastRefill = now) (hshort : bucket.tokens < 1) :
    1 ≤ (bucket.refill (now + (1 - bucket.tokens) / bucket.refillRate)).tokens := by
  have hwait : 0 < (1 - bucket.tokens) / bucket.refillRate := div_pos (by linarith) h.rate
  have hcapacity : (1 : ℚ) ≤ bucket.capacity := by exact_mod_cast h.capacity
  unfold TokenBucket.refill
  rw [hlast, add_sub_cancel_left, if_pos ⟨hwait, h.rate⟩]
  dsimp only
  rw [div_mul_cancel₀ _ h.rate.ne', add_sub_cancel]
  exact le_min hcapacity (le_refl 1)

/-- The bucket a call at one instant finds, made if need be and refilled. -/
def bucketAt (s : RateLimitingService) (key : String) (now : ℚ) : TokenBucket :=
  ((s.tokenBuckets.get? key).getD (newBucket (s.getConfig key) now)).refill now

theorem soundBucket_bucketAt {s : RateLimitingService} {key : String} {now : ℚ}
    (hlimit : 1 ≤ (s.getConfig key).limit) (hwindow : 0 < (s.getConfig key).window)
    (sound : ∀ bucket ∈ s.tokenBuckets.get? key, SoundBucket now bucket) :
    SoundBucket now (s.bucketAt key now) ∧ (s.bucketAt key now).lastRefill = now := by
  unfold bucketAt
  cases hbucket : s.tokenBuckets.get? key with
  | none => exact (soundBucket_new hlimit hwindow now).refill
  | some bucket => exact (sound bucket hbucket).refill

theorem isAllowed_tokenBucket {s : RateLimitingService} {key : String}
    (h : (s.getConfig key).algorithm = .tokenBucket) (now : ℚ) :
    s.isAllowed key 1 now now =
      if (s.bucketAt key now).tokens < 1 then
        ({ s with tokenBuckets := s.tokenBuckets.set key (s.bucketAt key now) }, .denied)
      else
        ({ s with
            tokenBuckets := s.tokenBuckets.set key
              { s.bucketAt key now with tokens := (s.bucketAt key now).tokens - 1 } },
          .allowed) := by
  unfold isAllowed isAllowedTokenBucket
  simp only [h, Nat.cast_one]
  rfl

theorem isAllowed_tokenBucket_iff {s : RateLimitingService} {key : String}
    (h : (s.getConfig key).algorithm = .tokenBucket) (now : ℚ) :
    (s.isAllowed key 1 now now).2 = .allowed ↔ 1 ≤ (s.bucketAt key now).tokens := by
  rw [isAllowed_tokenBucket h]
  split
  · rename_i hshort
    simpa using hshort
  · rename_i hfull
    simpa using hfull

theorem status_tokenBucket_iff {s : RateLimitingService} {key : String}
    (h : (s.getConfig key).algorithm = .tokenBucket) (now : ℚ) :
    (s.getStatus key now now).2.allowed = true ↔ 1 ≤ (s.bucketAt key now).tokens := by
  unfold getStatus
  simp only [h]
  exact decide_eq_true_iff

theorem answersAgree_tokenBucket {s : RateLimitingService} {key : String} {now : ℚ}
    (h : (s.getConfig key).algorithm = .tokenBucket) (hlimit : 1 ≤ (s.getConfig key).limit)
    (hwindow : 0 < (s.getConfig key).window)
    (sound : ∀ bucket ∈ s.tokenBuckets.get? key, SoundBucket now bucket) :
    s.AnswersAgree key now := by
  refine ⟨by rw [status_tokenBucket_iff h, isAllowed_tokenBucket_iff h], fun refused => ?_⟩
  obtain ⟨hbucket, hlast⟩ := soundBucket_bucketAt hlimit hwindow sound
  have hshort : (s.bucketAt key now).tokens < 1 := by
    by_contra hnot
    rw [(isAllowed_tokenBucket_iff h now).mpr (not_lt.mp hnot)] at refused
    cases refused
  rw [isAllowed_tokenBucket h, if_pos hshort]
  generalize s.bucketAt key now = bucket at *
  dsimp only
  generalize hleft : { s with tokenBuckets := s.tokenBuckets.set key bucket } = left
  have hconfig : left.getConfig key = s.getConfig key := by
    rw [← hleft]
    rfl
  have hheld : left.tokenBuckets.get? key = some bucket := by
    rw [← hleft]
    exact Dict.get?_set_self _ _ _
  have hretry : left.getRetryAfter key now = (1 - bucket.tokens) / bucket.refillRate := by
    unfold getRetryAfter
    simp only [hconfig, h, hheld]
    rw [if_pos hshort, if_pos hbucket.rate]
  rw [hretry, isAllowed_tokenBucket_iff (s := left) (hconfig ▸ h)]
  unfold bucketAt
  rw [hheld, Option.getD_some]
  exact hbucket.one_le_tokens hlast hshort

/-- The answers agree exactly where they fit. -/
theorem answersAgree_iff {s : RateLimitingService} {key : String} {now : ℚ}
    (hlimit : 1 ≤ (s.getConfig key).limit) (hwindow : 0 < (s.getConfig key).window)
    (sound : ∀ bucket ∈ s.tokenBuckets.get? key, SoundBucket now bucket) :
    s.AnswersAgree key now ↔ s.AnswersFit key now := by
  unfold AnswersFit
  dsimp only
  cases h : (s.getConfig key).algorithm with
  | fixedWindow => exact answersAgree_fixedWindow h hlimit
  | slidingWindow => exact answersAgree_slidingWindow h hlimit
  | tokenBucket => exact iff_of_true (answersAgree_tokenBucket h hlimit hwindow sound) trivial
  | other => exact answersAgree_other h hlimit

end RateLimitingService

/-! ## Runs -/

/-- What changes the service: requests and status queries, resets and new configurations. -/
inductive LimiterCall
  | serve (op : LimiterOp)
  | reset (key : String)
  | updateConfig (key : String) (config : RateLimitConfig)
deriving DecidableEq, Repr

namespace LimiterRun

def stepCall (r : LimiterRun) : LimiterCall → LimiterRun
  | .serve op => r.step op
  | .reset key => { r with service := r.service.reset key }
  | .updateConfig key config => { r with service := r.service.updateConfig key config }

/-- The clock does not go back, and a configuration lets a request through in some time. -/
def Regular (r : LimiterRun) : LimiterCall → Prop
  | .serve op => r.InOrder op
  | .reset _ => True
  | .updateConfig _ config => 1 ≤ config.limit ∧ 0 < config.window

structure Sound (r : LimiterRun) : Prop where
  configs : ∀ key, 1 ≤ (r.service.getConfig key).limit ∧ 0 < (r.service.getConfig key).window
  buckets : ∀ key, ∀ bucket ∈ r.service.tokenBuckets.get? key,
    RateLimitingService.SoundBucket r.clock bucket

open RateLimitingService

theorem soundBucket_refill {clock now : ℚ} {bucket : TokenBucket} (h : SoundBucket clock bucket)
    (hnow : now ≤ clock) : SoundBucket clock (bucket.refill now) := by
  unfold TokenBucket.refill
  split
  · exact ⟨h.capacity, h.rate, hnow⟩
  · exact h

/-- A call leaves a key's bucket alone, or leaves it refilled and with other tokens. -/
def RefilledFrom (config : RateLimitConfig) (now later : ℚ) (before after : Option TokenBucket) :
    Prop :=
  after = before ∨ ∃ tokens, after =
    some { (before.getD (newBucket config later)).refill now with tokens := tokens }

theorem RefilledFrom.sound {config : RateLimitConfig} {clock now later : ℚ}
    {before after : Option TokenBucket} (h : RefilledFrom config now later before after)
    (hlimit : 1 ≤ config.limit) (hwindow : 0 < config.window) (hclock : clock ≤ now)
    (hnow : now ≤ later) (sound : ∀ bucket ∈ before, SoundBucket clock bucket) :
    ∀ bucket ∈ after, SoundBucket later bucket := by
  rcases h with rfl | ⟨tokens, rfl⟩
  · intro bucket hbucket
    exact (sound bucket hbucket).later (hclock.trans hnow)
  · intro bucket hbucket
    obtain rfl := Option.mem_some_iff.mp hbucket
    have hfound : SoundBucket later (before.getD (newBucket config later)) := by
      cases before with
      | none => exact soundBucket_new hlimit hwindow later
      | some b => exact (sound b rfl).later (hclock.trans hnow)
    have hrefilled := soundBucket_refill hfound hnow
    exact ⟨hrefilled.capacity, hrefilled.rate, hrefilled.past⟩

theorem refilledFrom_isAllowed (s : RateLimitingService) (key : String) (cost : Nat)
    (now later : ℚ) :
    RefilledFrom (s.getConfig key) now later (s.tokenBuckets.get? key)
      ((s.isAllowed key cost now later).1.tokenBuckets.get? key) := by
  unfold RateLimitingService.isAllowed
  dsimp only
  cases (s.getConfig key).algorithm with
  | slidingWindow =>
      simp only [isAllowedSlidingWindow]
      split <;> exact .inl rfl
  | tokenBucket =>
      simp only [isAllowedTokenBucket]
      split <;> exact .inr ⟨_, Dict.get?_set_self _ _ _⟩
  | fixedWindow =>
      simp only [isAllowedFixedWindow]
      split <;> exact .inl rfl
  | other =>
      simp only [isAllowedFixedWindow]
      split <;> exact .inl rfl

theorem refilledFrom_getStatus (s : RateLimitingService) (key : String) (now later : ℚ) :
    RefilledFrom (s.getConfig key) now later (s.tokenBuckets.get? key)
      ((s.getStatus key now later).1.tokenBuckets.get? key) := by
  unfold RateLimitingService.getStatus
  dsimp only
  cases (s.getConfig key).algorithm with
  | slidingWindow =>
      simp only [getStatusSlidingWindow]
      split <;> exact .inl rfl
  | tokenBucket => exact .inr ⟨_, Dict.get?_set_self _ _ _⟩
  | fixedWindow => exact .inl rfl
  | other => exact .inl rfl

theorem Sound.stepCall {r : LimiterRun} (h : r.Sound) {call : LimiterCall}
    (regular : r.Regular call) : (r.stepCall call).Sound := by
  cases call with
  | serve op =>
      refine ⟨fun key => ?_, fun key => ?_⟩
      · have hconfig := getConfig_step r op key
        simp only [LimiterRun.stepCall, hconfig]
        exact h.configs key
      · cases op with
        | isAllowed other cost now later =>
            obtain ⟨hlimit, hwindow⟩ := h.configs key
            by_cases hkey : key = other
            · subst hkey
              exact (refilledFrom_isAllowed r.service key cost now later).sound hlimit hwindow
                regular.1 regular.2 (h.buckets key)
            · obtain ⟨-, -, hframe⟩ := isAllowed_frame r.service hkey cost now later
              exact RefilledFrom.sound (.inl hframe) hlimit hwindow regular.1 regular.2
                (h.buckets key)
        | getStatus other now later =>
            obtain ⟨hlimit, hwindow⟩ := h.configs key
            by_cases hkey : key = other
            · subst hkey
              exact (refilledFrom_getStatus r.service key now later).sound hlimit hwindow regular.1
                regular.2 (h.buckets key)
            · obtain ⟨-, -, hframe⟩ := getStatus_frame r.service hkey now later
              exact RefilledFrom.sound (.inl hframe) hlimit hwindow regular.1 regular.2
                (h.buckets key)
  | reset other =>
      refine ⟨h.configs, fun key bucket hbucket => h.buckets key bucket ?_⟩
      simp only [LimiterRun.stepCall, RateLimitingService.reset, Dict.get?_erase] at hbucket
      split at hbucket
      · cases hbucket
      · exact hbucket
  | updateConfig other config =>
      refine ⟨fun key => ?_, h.buckets⟩
      have hkey := h.configs key
      simp only [LimiterRun.stepCall, RateLimitingService.getConfig, updateConfig,
        Dict.get?_set] at hkey ⊢
      split
      · exact regular
      · exact hkey

/-- In every state that regular calls lead to, the three answers agree at a moment exactly where
they fit: a counter that has run out is not over, and a log, or a counter of an algorithm that the
service does not know, has not run out. -/
theorem limit_answers_agree_iff {config : RateLimitConfig} (hlimit : 1 ≤ config.limit)
    (hwindow : 0 < config.window) (start : ℚ) (calls : List LimiterCall)
    (regular : StepsMeet stepCall Regular (started config Table.empty start) calls) (key : String)
    {now : ℚ} (hnow : (run stepCall (started config Table.empty start) calls).clock ≤ now) :
    (run stepCall (started config Table.empty start) calls).service.AnswersAgree key now ↔
      (run stepCall (started config Table.empty start) calls).service.AnswersFit key now := by
  have hstarted : Sound (started config Table.empty start) :=
    ⟨fun key => ⟨hlimit, hwindow⟩, fun key bucket hbucket => by cases hbucket⟩
  have hsound : Sound (run stepCall (started config Table.empty start) calls) :=
    (always_of_stepsMeet (fun r call _ h hcall => h.stepCall hcall) hstarted regular).final
  obtain ⟨hlimit', hwindow'⟩ := hsound.configs key
  exact answersAgree_iff hlimit' hwindow' fun bucket hbucket =>
    (hsound.buckets key bucket hbucket).later hnow

/-- One request a minute, made at the start. -/
def oneRequest (algorithm : Algorithm) : LimiterRun :=
  run stepCall (started { limit := 1, window := 60, algorithm } Table.empty 0)
    [.serve (.isAllowed "broker" 1 0 0)]

theorem limit_answers_agree_in_running_window :
    (oneRequest .fixedWindow).service.AnswersAgree "broker" 30 := by
  apply (@limit_answers_agree_iff { limit := 1, window := 60 } (by decide) (by decide) 0
    [.serve (.isAllowed "broker" 1 0 0)] ⟨⟨le_refl 0, le_refl 0⟩, trivial⟩ "broker" 30
    (by decide +kernel)).mpr
  intro counter hcounter hover
  have hget : (oneRequest .fixedWindow).service.counters.get? "broker" =
      some { count := 1, windowStart := 0 } := by decide +kernel
  obtain rfl := Option.mem_some_iff.mp (hget ▸ hcounter)
  exact absurd hover (by decide +kernel)

/-- After the window the status still refuses what the check allows; in a log the request that is
refused at 30 and repeated after the announced 30 seconds is refused again. -/
theorem limit_answers_differ_at_window_end :
    ¬ (oneRequest .fixedWindow).service.AnswersAgree "broker" 60 ∧
      ¬ (oneRequest .slidingWindow).service.AnswersAgree "broker" 30 := by
  constructor
  · intro agree
    exact absurd (agree.status.mpr (by decide +kernel)) (by decide +kernel)
  · intro agree
    exact absurd (agree.retry (by decide +kernel)) (by decide +kernel)

end LimiterRun

end AutoTrade.Services
