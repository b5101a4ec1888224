import AutoTrade.Services.RateLimiting

/-! # Rate limits over every interval

What a key was admitted is bounded over every interval, by its algorithm. Each
algorithm has an invariant that ties what it stores for the key to the key's
admitted requests; an operation on another key only lets the clock go on.
-/

namespace AutoTrade.Services

open AutoTrade.Library

namespace LimiterRun

/-- The bound a configuration promises on the requests it admitted. -/
def HoldsLimit (config : RateLimitConfig) (log : List Admitted) : Prop :=
  match config.algorithm with
  | .slidingWindow => WithinEveryWindow Admitted.time Admitted.cost config.limit config.window log
  | .tokenBucket =>
      Metered Admitted.time Admitted.cost config.limit (config.limit / config.window : ℚ) log
  | _ => (∀ w, (windowCost Admitted.cost Admitted.windowStart log w : Int) ≤ config.limit) ∧
      ∀ s t : ℚ, t - s < config.window →
        (costIn Admitted.time Admitted.cost log s t : Int) ≤ 2 * config.limit

/-! ## Fixed windows -/

/-- The counter counts the admissions of its window, the last of those admitted so far. -/
structure CountsWindow (config : RateLimitConfig) (clock : ℚ) (counter : WindowCounter)
    (log : List Admitted) : Prop where
  counted : windowCost Admitted.cost Admitted.windowStart log counter.windowStart = counter.count
  last : ∀ x ∈ log, x.windowStart ≤ counter.windowStart
  past : ∀ x ∈ log, x.windowStart < counter.windowStart →
    x.time ≤ counter.windowStart ∧ x.windowStart + config.window ≤ clock

structure FixedTracked (config : RateLimitConfig) (clock : ℚ) (counter : Option WindowCounter)
    (log : List Admitted) : Prop where
  apart : WindowsApart Admitted.time Admitted.windowStart (config.window : ℚ) log
  limited : ∀ w, (windowCost Admitted.cost Admitted.windowStart log w : Int) ≤ config.limit
  times : ∀ x ∈ log, x.time ≤ clock
  fresh : counter = none → log = []
  current : ∀ c, counter = some c → CountsWindow config clock c log

theorem FixedTracked.later {config : RateLimitConfig} {clock clock' : ℚ}
    {counter : Option WindowCounter} {log : List Admitted}
    (h : FixedTracked config clock counter log) (hclock : clock ≤ clock') :
    FixedTracked config clock' counter log := by
  refine ⟨h.apart, h.limited, fun x hx => (h.times x hx).trans hclock, h.fresh, fun c hc => ?_⟩
  have hcounts := h.current c hc
  refine ⟨hcounts.counted, hcounts.last, fun x hx hlt => ?_⟩
  exact ⟨(hcounts.past x hx hlt).1, (hcounts.past x hx hlt).2.trans hclock⟩

/-- The counter a request finds, kept or new, counts its window. -/
theorem countsWindow_counterAt {config : RateLimitConfig} {clock now created : ℚ}
    {counter : Option WindowCounter} {log : List Admitted} (hwindow : 0 < config.window)
    (h : FixedTracked config clock counter log) (hnow : clock ≤ now) (hcreated : now ≤ created) :
    CountsWindow config now (counterAt config now created counter) log := by
  have hpos : (0 : ℚ) < config.window := Int.cast_pos.mpr hwindow
  cases hcounter : counter with
  | none =>
      have hnil := h.fresh hcounter
      subst hnil
      exact ⟨rfl, by simp, by simp⟩
  | some c =>
      have hcounts := h.current c hcounter
      unfold counterAt
      dsimp only
      by_cases hover : config.window ≤ now - c.windowStart
      · rw [if_pos hover]
        have hall : ∀ x ∈ log, x.windowStart + config.window ≤ now := by
          intro x hx
          have hlast := hcounts.last x hx
          linarith
        refine ⟨?_, fun x hx => ?_, fun x hx _ => ⟨?_, hall x hx⟩⟩
        · refine costOf_eq_zero fun x hx => decide_eq_false fun hsame => ?_
          have hx' := hall x hx
          rw [hsame] at hx'
          linarith
        · have hx' := hall x hx
          show x.windowStart ≤ created
          linarith
        · show x.time ≤ created
          linarith [h.times x hx]
      · rw [if_neg hover]
        refine ⟨hcounts.counted, hcounts.last, fun x hx hlt => ?_⟩
        exact ⟨(hcounts.past x hx hlt).1, (hcounts.past x hx hlt).2.trans hnow⟩

/-- A request that is refused leaves a counter that counts its window. -/
theorem FixedTracked.denied {config : RateLimitConfig} {clock now later : ℚ}
    {counter : Option WindowCounter} {log : List Admitted} {c : WindowCounter}
    (h : FixedTracked config clock counter log) (hcounts : CountsWindow config now c log)
    (hnow : clock ≤ now) (hlater : now ≤ later) : FixedTracked config later (some c) log := by
  refine ⟨h.apart, h.limited, fun x hx => ?_, by simp, fun c' hc' => ?_⟩
  · linarith [h.times x hx]
  · cases hc'
    refine ⟨hcounts.counted, hcounts.last, fun x hx hlt => ?_⟩
    exact ⟨(hcounts.past x hx hlt).1, (hcounts.past x hx hlt).2.trans hlater⟩

theorem FixedTracked.admitted {config : RateLimitConfig} {clock now later : ℚ}
    {counter : Option WindowCounter} {log : List Admitted} {c : WindowCounter} {a : Admitted}
    (h : FixedTracked config clock counter log) (hcounts : CountsWindow config now c log)
    (hnow : clock ≤ now) (hlater : now ≤ later) (htime : a.time = now)
    (hstart : a.windowStart = c.windowStart) (hlimit : (c.count + a.cost : Int) ≤ config.limit) :
    FixedTracked config later (some { c with count := c.count + a.cost }) (log ++ [a]) := by
  have hcost : ∀ w, windowCost Admitted.cost Admitted.windowStart (log ++ [a]) w =
      windowCost Admitted.cost Admitted.windowStart log w +
        if c.windowStart = w then a.cost else 0 := by
    intro w
    unfold windowCost
    rw [costOf_append, hstart]
    by_cases hw : c.windowStart = w <;> simp [hw]
  refine ⟨?_, fun w => ?_, fun x hx => ?_, by simp, fun c' hc' => ?_⟩
  · refine h.apart.append fun x hx => ?_
    rw [hstart, htime]
    exact ⟨hcounts.last x hx, fun hlt => hcounts.past x hx hlt⟩
  · rw [hcost]
    by_cases hw : c.windowStart = w
    · rw [if_pos hw, ← hw, hcounts.counted]
      push_cast
      exact hlimit
    · rw [if_neg hw]
      exact h.limited w
  · rcases List.mem_append.mp hx with hx | hx
    · linarith [h.times x hx]
    · rw [List.mem_singleton.mp hx, htime]
      exact hlater
  · cases hc'
    refine ⟨?_, fun x hx => ?_, fun x hx hlt => ?_⟩
    · rw [hcost, if_pos rfl, hcounts.counted]
    · rcases List.mem_append.mp hx with hx | hx
      · exact hcounts.last x hx
      · rw [List.mem_singleton.mp hx]
        exact hstart.le
    · rcases List.mem_append.mp hx with hx | hx
      · exact ⟨(hcounts.past x hx hlt).1, (hcounts.past x hx hlt).2.trans hlater⟩
      · rw [List.mem_singleton.mp hx] at hlt
        exact absurd hlt (not_lt.mpr hstart.ge)

/-! ## Sliding windows -/

/-- The timestamps of the last window account for what was admitted since. -/
structure SlidingTracked (config : RateLimitConfig) (clock : ℚ) (timestamps : List ℚ)
    (log : List Admitted) : Prop where
  within : WithinEveryWindow Admitted.time Admitted.cost config.limit (config.window : ℚ) log
  accounted : ∀ t, clock - config.window ≤ t →
    costSince Admitted.time Admitted.cost log t ≤ timestamps.countP (t ≤ ·)

theorem SlidingTracked.later {config : RateLimitConfig} {clock clock' : ℚ} {timestamps : List ℚ}
    {log : List Admitted} (h : SlidingTracked config clock timestamps log) (hclock : clock ≤ clock') :
    SlidingTracked config clock' timestamps log :=
  ⟨h.within, fun t ht => h.accounted t (by linarith)⟩

theorem countP_recentTimestamps (config : RateLimitConfig) (now : ℚ) (timestamps : List ℚ) {t : ℚ}
    (ht : now - config.window ≤ t) :
    (recentTimestamps config now timestamps).countP (t ≤ ·) = timestamps.countP (t ≤ ·) := by
  unfold recentTimestamps
  induction timestamps with
  | nil => rfl
  | cons x rest ih =>
      by_cases hx : x < now - config.window
      · rw [List.dropWhile_cons_of_pos (by simpa using hx), ih, List.countP_cons_of_neg]
        simp only [decide_eq_true_eq, not_le]
        linarith
      · rw [List.dropWhile_cons_of_neg (by simpa using hx)]

theorem SlidingTracked.trimmed {config : RateLimitConfig} {clock now : ℚ} {timestamps : List ℚ}
    {log : List Admitted} (h : SlidingTracked config clock timestamps log) (hnow : clock ≤ now) :
    SlidingTracked config now (recentTimestamps config now timestamps) log := by
  refine ⟨h.within, fun t ht => ?_⟩
  rw [countP_recentTimestamps config now timestamps ht]
  exact h.accounted t (by linarith)

theorem SlidingTracked.admitted {config : RateLimitConfig} {now : ℚ} {timestamps : List ℚ}
    {log : List Admitted} {a : Admitted} (h : SlidingTracked config now timestamps log)
    (htime : a.time = now) (hlimit : (timestamps.length + a.cost : Int) ≤ config.limit) :
    SlidingTracked config now (timestamps ++ List.replicate a.cost now) (log ++ [a]) := by
  constructor
  · refine h.within.append ?_
    have hback := h.accounted (now - config.window) (le_refl _)
    have hlength : timestamps.countP (now - config.window ≤ ·) ≤ timestamps.length :=
      List.countP_le_length
    rw [htime]
    unfold costSince at hback
    omega
  · intro t ht
    have hbefore := h.accounted t ht
    unfold costSince at hbefore ⊢
    rw [costOf_append, List.countP_append, htime]
    by_cases hnow : t ≤ now
    · rw [List.countP_replicate]
      simp only [hnow, decide_true, if_true]
      omega
    · simp only [hnow, decide_false, Bool.false_eq_true, if_false]
      omega

/-! ## Token buckets -/

/-- The tokens as of the instant `last` cover what was admitted up to it. -/
structure BucketTracked (config : RateLimitConfig) (last : ℚ) (bucket : TokenBucket)
    (log : List Admitted) : Prop where
  capacity : bucket.capacity = config.limit
  rate : bucket.refillRate = config.limit / config.window
  nonneg : 0 ≤ bucket.tokens
  capped : bucket.tokens ≤ config.limit
  refilled : 0 < bucket.refillRate → last ≤ bucket.lastRefill
  times : ∀ x ∈ log, x.time ≤ last
  covered : Covered Admitted.time Admitted.cost (config.limit : ℚ) (config.limit / config.window)
    bucket.tokens last log

structure TokenTracked (config : RateLimitConfig) (clock : ℚ) (bucket : Option TokenBucket)
    (log : List Admitted) : Prop where
  metered : Metered Admitted.time Admitted.cost (config.limit : ℚ) (config.limit / config.window) log
  fresh : bucket = none → log = []
  current : ∀ b, bucket = some b → ∃ last, last ≤ clock ∧ BucketTracked config last b log

theorem TokenTracked.later {config : RateLimitConfig} {clock clock' : ℚ}
    {bucket : Option TokenBucket} {log : List Admitted}
    (h : TokenTracked config clock bucket log) (hclock : clock ≤ clock') :
    TokenTracked config clock' bucket log := by
  refine ⟨h.metered, h.fresh, fun b hb => ?_⟩
  obtain ⟨last, hlast, htracked⟩ := h.current b hb
  exact ⟨last, hlast.trans hclock, htracked⟩

theorem rate_nonneg {config : RateLimitConfig} (hlimit : 0 ≤ config.limit)
    (hwindow : 0 < config.window) : (0 : ℚ) ≤ config.limit / config.window :=
  div_nonneg (Int.cast_nonneg hlimit) (Int.cast_pos.mpr hwindow).le

theorem bucketTracked_new {config : RateLimitConfig} (hlimit : 0 ≤ config.limit)
    (hwindow : 0 < config.window) {now created : ℚ} (hcreated : now ≤ created) :
    BucketTracked config now (newBucket config created) [] := by
  refine ⟨rfl, if_pos hwindow, Int.cast_nonneg hlimit, le_refl _, fun _ => hcreated, by simp, ?_⟩
  intro s
  have hin := mul_nonneg (rate_nonneg hlimit hwindow) (le_max_left 0 (now - s))
  show ((0 : Nat) : ℚ) + (config.limit : ℚ) ≤ _
  rw [Nat.cast_zero]
  linarith

/-- Refilling brings a bucket's account up to the present. -/
theorem BucketTracked.refill {config : RateLimitConfig} {last now : ℚ} {bucket : TokenBucket}
    {log : List Admitted} (h : BucketTracked config last bucket log) (hlimit : 0 ≤ config.limit)
    (hwindow : 0 < config.window) (hnow : last ≤ now) :
    BucketTracked config now (bucket.refill now) log := by
  have hrate := rate_nonneg hlimit hwindow
  have htimes : ∀ x ∈ log, x.time ≤ now := fun x hx => (h.times x hx).trans hnow
  unfold TokenBucket.refill
  by_cases hrefill : 0 < now - bucket.lastRefill ∧ 0 < bucket.refillRate
  · rw [if_pos hrefill, h.capacity]
    have hmore : 0 ≤ (now - bucket.lastRefill) * bucket.refillRate :=
      mul_nonneg hrefill.1.le hrefill.2.le
    have hlast := h.refilled hrefill.2
    refine ⟨rfl, h.rate, ?_, min_le_left _ _, fun _ => le_refl _, htimes, ?_⟩
    · exact le_min (Int.cast_nonneg hlimit) (by linarith [h.nonneg])
    · refine h.covered.refill h.times hnow hrate (min_le_left _ _) ?_
      refine (min_le_right _ _).trans ?_
      rw [h.rate] at hmore ⊢
      have hlonger : (config.limit / config.window : ℚ) * (now - bucket.lastRefill) ≤
          config.limit / config.window * (now - last) :=
        mul_le_mul_of_nonneg_left (by linarith) hrate
      linarith [mul_comm (now - bucket.lastRefill) (config.limit / config.window : ℚ)]
  · rw [if_neg hrefill]
    refine ⟨h.capacity, h.rate, h.nonneg, h.capped, fun hpos => ?_, htimes, ?_⟩
    · by_contra hbefore
      exact hrefill ⟨by linarith [not_le.mp hbefore], hpos⟩
    · refine h.covered.refill h.times hnow hrate h.capped ?_
      have hin := mul_nonneg hrate (sub_nonneg.mpr hnow)
      linarith

theorem TokenTracked.bucket {config : RateLimitConfig} {clock now created : ℚ}
    {bucket : Option TokenBucket} {log : List Admitted}
    (h : TokenTracked config clock bucket log) (hlimit : 0 ≤ config.limit)
    (hwindow : 0 < config.window) (hnow : clock ≤ now) (hcreated : now ≤ created) :
    BucketTracked config now ((bucket.getD (newBucket config created)).refill now) log := by
  cases hbucket : bucket with
  | none =>
      have hnil := h.fresh hbucket
      subst hnil
      exact (bucketTracked_new hlimit hwindow hcreated).refill hlimit hwindow (le_refl now)
  | some b =>
      obtain ⟨last, hlast, htracked⟩ := h.current b hbucket
      exact htracked.refill hlimit hwindow (hlast.trans hnow)

theorem TokenTracked.denied {config : RateLimitConfig} {clock now later : ℚ}
    {bucket : Option TokenBucket} {log : List Admitted} {b : TokenBucket}
    (h : TokenTracked config clock bucket log) (hb : BucketTracked config now b log)
    (hlater : now ≤ later) : TokenTracked config later (some b) log := by
  refine ⟨h.metered, by simp, fun b' hb' => ?_⟩
  cases hb'
  exact ⟨now, hlater, hb⟩

theorem TokenTracked.admitted {config : RateLimitConfig} {clock now later : ℚ}
    {bucket : Option TokenBucket} {log : List Admitted} {b : TokenBucket} {a : Admitted}
    (h : TokenTracked config clock bucket log) (hb : BucketTracked config now b log)
    (hlimit : 0 ≤ config.limit) (hwindow : 0 < config.window) (hlater : now ≤ later)
    (htime : a.time = now) (hcost : a.cost ≤ b.tokens) :
    TokenTracked config later (some { b with tokens := b.tokens - a.cost }) (log ++ [a]) := by
  have hspent := hb.covered.spend a
  have hleft : 0 ≤ b.tokens - a.cost := by linarith
  refine ⟨?_, by simp, fun b' hb' => ?_⟩
  · refine h.metered.append (rate_nonneg hlimit hwindow) hleft ?_
    rw [htime]
    exact hspent
  · cases hb'
    have hcapped : b.tokens - a.cost ≤ config.limit := by
      have hpos : (0 : ℚ) ≤ a.cost := Nat.cast_nonneg _
      linarith [hb.capped]
    refine ⟨now, hlater, hb.capacity, hb.rate, hleft, hcapped, hb.refilled, fun x hx => ?_, hspent⟩
    rcases List.mem_append.mp hx with hx | hx
    · exact hb.times x hx
    · rw [List.mem_singleton.mp hx]
      exact htime.le

/-! ## All keys -/

/-- What the service stores for a key is tied to what it admitted for it. -/
def KeyTracked (config : RateLimitConfig) (key : String) (r : LimiterRun) : Prop :=
  match config.algorithm with
  | .slidingWindow =>
      SlidingTracked config r.clock ((r.service.slidingWindows.get? key).getD []) (logOf key r.log)
  | .tokenBucket =>
      TokenTracked config r.clock (r.service.tokenBuckets.get? key) (logOf key r.log)
  | _ => FixedTracked config r.clock (r.service.counters.get? key) (logOf key r.log)

theorem holdsLimit_of_tracked {config : RateLimitConfig} {key : String} {r : LimiterRun}
    (h : KeyTracked config key r) : HoldsLimit config (logOf key r.log) := by
  unfold KeyTracked at h
  unfold HoldsLimit
  cases halgorithm : config.algorithm with
  | slidingWindow =>
      rw [halgorithm] at h
      exact h.within
  | tokenBucket =>
      rw [halgorithm] at h
      exact h.metered
  | fixedWindow =>
      rw [halgorithm] at h
      exact ⟨h.limited, fun s t hshort => h.apart.costIn_le h.limited hshort⟩
  | other =>
      rw [halgorithm] at h
      exact ⟨h.limited, fun s t hshort => h.apart.costIn_le h.limited hshort⟩

theorem KeyTracked.later {config : RateLimitConfig} {key : String} {r r' : LimiterRun}
    (h : KeyTracked config key r) (hclock : r.clock ≤ r'.clock)
    (hcounters : r'.service.counters.get? key = r.service.counters.get? key)
    (hwindows : r'.service.slidingWindows.get? key = r.service.slidingWindows.get? key)
    (hbuckets : r'.service.tokenBuckets.get? key = r.service.tokenBuckets.get? key)
    (hlog : logOf key r'.log = logOf key r.log) : KeyTracked config key r' := by
  unfold KeyTracked at h ⊢
  rw [hcounters, hwindows, hbuckets, hlog]
  cases halgorithm : config.algorithm with
  | slidingWindow =>
      rw [halgorithm] at h
      exact h.later hclock
  | tokenBucket =>
      rw [halgorithm] at h
      exact h.later hclock
  | fixedWindow =>
      rw [halgorithm] at h
      exact h.later hclock
  | other =>
      rw [halgorithm] at h
      exact h.later hclock

theorem logOf_append (key : String) (log more : List Admitted) :
    logOf key (log ++ more) = logOf key log ++ logOf key more := by
  simp [logOf]

theorem logOf_loggedAs (s : RateLimitingService) (key : String) (cost : Nat) (now : ℚ)
    (result : LimitResult) :
    logOf key (loggedAs s key cost now result) = loggedAs s key cost now result := by
  cases result <;> simp [logOf, loggedAs]

theorem logOf_loggedAs_of_ne (s : RateLimitingService) {key other : String} (h : key ≠ other)
    (cost : Nat) (now : ℚ) (result : LimitResult) :
    logOf key (loggedAs s other cost now result) = [] := by
  cases result <;> simp [logOf, loggedAs, Ne.symm h]

/-- A request changes what is stored for its own key only. -/
theorem isAllowed_frame (s : RateLimitingService) {key other : String} (h : key ≠ other)
    (cost : Nat) (now later : ℚ) :
    (s.isAllowed other cost now later).1.counters.get? key = s.counters.get? key ∧
      (s.isAllowed other cost now later).1.slidingWindows.get? key = s.slidingWindows.get? key ∧
        (s.isAllowed other cost now later).1.tokenBuckets.get? key = s.tokenBuckets.get? key := by
  unfold RateLimitingService.isAllowed
  dsimp only
  cases (s.getConfig other).algorithm with
  | slidingWindow =>
      simp only [RateLimitingService.isAllowedSlidingWindow]
      split <;> exact ⟨rfl, Dict.get?_set_of_ne _ _ h, rfl⟩
  | tokenBucket =>
      simp only [RateLimitingService.isAllowedTokenBucket]
      split <;> exact ⟨rfl, rfl, Dict.get?_set_of_ne _ _ h⟩
  | fixedWindow =>
      simp only [RateLimitingService.isAllowedFixedWindow]
      split <;> exact ⟨Dict.get?_set_of_ne _ _ h, rfl, rfl⟩
  | other =>
      simp only [RateLimitingService.isAllowedFixedWindow]
      split <;> exact ⟨Dict.get?_set_of_ne _ _ h, rfl, rfl⟩

theorem getStatus_frame (s : RateLimitingService) {key other : String} (h : key ≠ other)
    (now later : ℚ) :
    (s.getStatus other now later).1.counters.get? key = s.counters.get? key ∧
      (s.getStatus other now later).1.slidingWindows.get? key = s.slidingWindows.get? key ∧
        (s.getStatus other now later).1.tokenBuckets.get? key = s.tokenBuckets.get? key := by
  unfold RateLimitingService.getStatus
  dsimp only
  cases (s.getConfig other).algorithm with
  | slidingWindow =>
      simp only [RateLimitingService.getStatusSlidingWindow]
      split
      · exact ⟨rfl, rfl, rfl⟩
      · exact ⟨rfl, Dict.get?_set_of_ne _ _ h, rfl⟩
  | tokenBucket => exact ⟨rfl, rfl, Dict.get?_set_of_ne _ _ h⟩
  | fixedWindow => exact ⟨rfl, rfl, rfl⟩
  | other => exact ⟨rfl, rfl, rfl⟩

/-! ## Steps -/

theorem fixedTracked_isAllowed {config : RateLimitConfig} {key : String} {r : LimiterRun}
    (h : FixedTracked config r.clock (r.service.counters.get? key) (logOf key r.log))
    (hwindow : 0 < config.window) {cost : Nat} {now later : ℚ} (hnow : r.clock ≤ now)
    (hlater : now ≤ later) {s : RateLimitingService} {result : LimitResult}
    (hcall : r.service.isAllowedFixedWindow key cost config now later = (s, result)) :
    FixedTracked config later (s.counters.get? key)
      (logOf key r.log ++ loggedAs s key cost now result) := by
  have hcounts := countsWindow_counterAt hwindow h hnow hlater
  unfold RateLimitingService.isAllowedFixedWindow at hcall
  dsimp only at hcall
  split at hcall
  · obtain ⟨rfl, rfl⟩ := Prod.mk.inj hcall
    rw [Dict.get?_set_self]
    show FixedTracked config later _ (logOf key r.log ++ [])
    rw [List.append_nil]
    exact h.denied hcounts hnow hlater
  · rename_i hlimit
    obtain ⟨rfl, rfl⟩ := Prod.mk.inj hcall
    rw [Dict.get?_set_self]
    refine h.admitted (a := ⟨key, now, cost, _⟩) hcounts hnow hlater rfl ?_ (not_lt.mp hlimit)
    simp [Dict.get?_set_self]

theorem slidingTracked_isAllowed {config : RateLimitConfig} {key : String} {r : LimiterRun}
    (h : SlidingTracked config r.clock ((r.service.slidingWindows.get? key).getD [])
      (logOf key r.log)) {cost : Nat} {now later : ℚ} (hnow : r.clock ≤ now) (hlater : now ≤ later)
    {s : RateLimitingService} {result : LimitResult}
    (hcall : r.service.isAllowedSlidingWindow key cost config now = (s, result)) :
    SlidingTracked config later ((s.slidingWindows.get? key).getD [])
      (logOf key r.log ++ loggedAs s key cost now result) := by
  have htrimmed := h.trimmed hnow
  unfold RateLimitingService.isAllowedSlidingWindow at hcall
  dsimp only at hcall
  split at hcall
  · obtain ⟨rfl, rfl⟩ := Prod.mk.inj hcall
    rw [Dict.get?_set_self]
    show SlidingTracked config later _ (logOf key r.log ++ [])
    rw [List.append_nil]
    exact htrimmed.later hlater
  · rename_i hlimit
    obtain ⟨rfl, rfl⟩ := Prod.mk.inj hcall
    rw [Dict.get?_set_self]
    exact (htrimmed.admitted (a := ⟨key, now, cost, _⟩) rfl (not_lt.mp hlimit)).later hlater

theorem tokenTracked_isAllowed {config : RateLimitConfig} {key : String} {r : LimiterRun}
    (h : TokenTracked config r.clock (r.service.tokenBuckets.get? key) (logOf key r.log))
    (hlimit : 0 ≤ config.limit) (hwindow : 0 < config.window) {cost : Nat} {now later : ℚ}
    (hnow : r.clock ≤ now) (hlater : now ≤ later) {s : RateLimitingService} {result : LimitResult}
    (hcall : r.service.isAllowedTokenBucket key cost config now later = (s, result)) :
    TokenTracked config later (s.tokenBuckets.get? key)
      (logOf key r.log ++ loggedAs s key cost now result) := by
  have hbucket := h.bucket hlimit hwindow hnow hlater
  unfold RateLimitingService.isAllowedTokenBucket at hcall
  dsimp only at hcall
  split at hcall
  · obtain ⟨rfl, rfl⟩ := Prod.mk.inj hcall
    rw [Dict.get?_set_self]
    show TokenTracked config later _ (logOf key r.log ++ [])
    rw [List.append_nil]
    exact h.denied hbucket hlater
  · rename_i hcost
    obtain ⟨rfl, rfl⟩ := Prod.mk.inj hcall
    rw [Dict.get?_set_self]
    exact h.admitted (a := ⟨key, now, cost, _⟩) hbucket hlimit hwindow hlater rfl (not_lt.mp hcost)

theorem keyTracked_isAllowed {key : String} {r : LimiterRun}
    (h : KeyTracked (r.service.getConfig key) key r) (hlimit : 0 ≤ (r.service.getConfig key).limit)
    (hwindow : 0 < (r.service.getConfig key).window) {cost : Nat} {now later : ℚ}
    (hnow : r.clock ≤ now) (hlater : now ≤ later) :
    KeyTracked (r.service.getConfig key) key (r.step (.isAllowed key cost now later)) := by
  cases hcall : r.service.isAllowed key cost now later with
  | mk s result =>
      have hstep : r.step (.isAllowed key cost now later) =
          { service := s, log := r.log ++ loggedAs s key cost now result, clock := later } := by
        simp only [step, hcall]
      rw [hstep]
      unfold KeyTracked at h ⊢
      unfold RateLimitingService.isAllowed at hcall
      dsimp only at hcall ⊢
      rw [logOf_append, logOf_loggedAs]
      cases halgorithm : (r.service.getConfig key).algorithm with
      | slidingWindow =>
          rw [halgorithm] at h hcall
          exact slidingTracked_isAllowed h hnow hlater hcall
      | tokenBucket =>
          rw [halgorithm] at h hcall
          exact tokenTracked_isAllowed h hlimit hwindow hnow hlater hcall
      | fixedWindow =>
          rw [halgorithm] at h hcall
          exact fixedTracked_isAllowed h hwindow hnow hlater hcall
      | other =>
          rw [halgorithm] at h hcall
          exact fixedTracked_isAllowed h hwindow hnow hlater hcall

/-- A status query trims or refills, and admits nothing. -/
theorem keyTracked_getStatus {key : String} {r : LimiterRun}
    (h : KeyTracked (r.service.getConfig key) key r) (hlimit : 0 ≤ (r.service.getConfig key).limit)
    (hwindow : 0 < (r.service.getConfig key).window) {now later : ℚ} (hnow : r.clock ≤ now)
    (hlater : now ≤ later) :
    KeyTracked (r.service.getConfig key) key (r.step (.getStatus key now later)) := by
  unfold KeyTracked at h ⊢
  simp only [step, RateLimitingService.getStatus]
  cases halgorithm : (r.service.getConfig key).algorithm with
  | slidingWindow =>
      rw [halgorithm] at h
      simp only [RateLimitingService.getStatusSlidingWindow]
      cases hdeque : r.service.slidingWindows.get? key with
      | none =>
          dsimp only
          rw [hdeque]
          rw [hdeque] at h
          exact h.later (hnow.trans hlater)
      | some timestamps =>
          dsimp only
          rw [Dict.get?_set_self]
          rw [hdeque] at h
          exact (h.trimmed hnow).later hlater
  | tokenBucket =>
      rw [halgorithm] at h
      simp only [RateLimitingService.getStatusTokenBucket, Dict.get?_set_self]
      exact h.denied (h.bucket hlimit hwindow hnow hlater) hlater
  | fixedWindow =>
      rw [halgorithm] at h
      exact h.later (hnow.trans hlater)
  | other =>
      rw [halgorithm] at h
      exact h.later (hnow.trans hlater)

theorem keyTracked_step {key : String} {r : LimiterRun} {op : LimiterOp}
    (h : KeyTracked (r.service.getConfig key) key r) (hlimit : 0 ≤ (r.service.getConfig key).limit)
    (hwindow : 0 < (r.service.getConfig key).window) (horder : r.InOrder op) :
    KeyTracked (r.service.getConfig key) key (r.step op) := by
  cases op with
  | isAllowed other cost now later =>
      by_cases hkey : key = other
      · subst hkey
        exact keyTracked_isAllowed h hlimit hwindow horder.1 horder.2
      · obtain ⟨hcounters, hwindows, hbuckets⟩ :=
          isAllowed_frame r.service hkey cost now later
        refine h.later (horder.1.trans horder.2) hcounters hwindows hbuckets ?_
        show logOf key (r.log ++ loggedAs _ other cost now _) = _
        rw [logOf_append, logOf_loggedAs_of_ne _ hkey, List.append_nil]
  | getStatus other now later =>
      by_cases hkey : key = other
      · subst hkey
        exact keyTracked_getStatus h hlimit hwindow horder.1 horder.2
      · obtain ⟨hcounters, hwindows, hbuckets⟩ := getStatus_frame r.service hkey now later
        exact h.later (horder.1.trans horder.2) hcounters hwindows hbuckets rfl

theorem getConfig_step (r : LimiterRun) (op : LimiterOp) (key : String) :
    (r.step op).service.getConfig key = r.service.getConfig key := by
  cases op with
  | isAllowed other cost now later =>
      simp only [step, RateLimitingService.isAllowed]
      cases (r.service.getConfig other).algorithm with
      | slidingWindow =>
          simp only [RateLimitingService.isAllowedSlidingWindow]
          split <;> rfl
      | tokenBucket =>
          simp only [RateLimitingService.isAllowedTokenBucket]
          split <;> rfl
      | fixedWindow =>
          simp only [RateLimitingService.isAllowedFixedWindow]
          split <;> rfl
      | other =>
          simp only [RateLimitingService.isAllowedFixedWindow]
          split <;> rfl
  | getStatus other now later =>
      simp only [step, RateLimitingService.getStatus]
      cases (r.service.getConfig other).algorithm with
      | slidingWindow =>
          simp only [RateLimitingService.getStatusSlidingWindow]
          split <;> rfl
      | tokenBucket => rfl
      | fixedWindow => rfl
      | other => rfl

/-! ## Every run -/

/-- A service that has served no request. -/
def started (defaultConfig : RateLimitConfig) (customConfigs : Dict String RateLimitConfig)
    (clock : ℚ) : LimiterRun :=
  { service := { defaultConfig, customConfigs }, clock }

theorem keyTracked_started {config : RateLimitConfig} (hlimit : 0 ≤ config.limit)
    (hwindow : 0 < config.window) (defaultConfig : RateLimitConfig)
    (customConfigs : Dict String RateLimitConfig) (clock : ℚ) (key : String) :
    KeyTracked config key (started defaultConfig customConfigs clock) := by
  have hfixed : FixedTracked config clock none [] :=
    ⟨fun x hx => absurd hx (by simp), fun w => hlimit, by simp, fun _ => rfl, by simp⟩
  unfold KeyTracked
  cases config.algorithm with
  | slidingWindow => exact ⟨fun s => hlimit, fun t _ => le_refl _⟩
  | tokenBucket =>
      refine ⟨fun s t hst => ?_, fun _ => rfl, fun b hb => by cases hb⟩
      have hin := mul_nonneg (rate_nonneg hlimit hwindow) (sub_nonneg.mpr hst)
      have hcap : (0 : ℚ) ≤ config.limit := Int.cast_nonneg hlimit
      show ((0 : Nat) : ℚ) ≤ _
      rw [Nat.cast_zero]
      linarith
  | fixedWindow => exact hfixed
  | other => exact hfixed

/-- Over every run in which the clock does not go back, what a key was admitted keeps to the limit
of its configuration over every interval. -/
theorem limits_hold (defaultConfig : RateLimitConfig) (customConfigs : Dict String RateLimitConfig)
    (clock : ℚ) (ops : List LimiterOp)
    (horder : StepsMeet step InOrder (started defaultConfig customConfigs clock) ops) (key : String)
    (hlimit : 0 ≤ ((customConfigs.get? key).getD defaultConfig).limit)
    (hwindow : 0 < ((customConfigs.get? key).getD defaultConfig).window) :
    HoldsLimit ((customConfigs.get? key).getD defaultConfig)
      (logOf key (run step (started defaultConfig customConfigs clock) ops).log) := by
  generalize hconfig : (customConfigs.get? key).getD defaultConfig = config at hlimit hwindow ⊢
  have hall : Always step (fun r => r.service.getConfig key = config ∧ KeyTracked config key r)
      (started defaultConfig customConfigs clock) ops := by
    refine always_of_stepsMeet (fun r op _ hr hop => ?_) ?_ horder
    · obtain ⟨rfl, htracked⟩ := hr
      exact ⟨getConfig_step r op key, keyTracked_step htracked hlimit hwindow hop⟩
    · exact ⟨hconfig, keyTracked_started hlimit hwindow _ _ _ key⟩
  exact holdsLimit_of_tracked hall.final.2

/-- Five requests a minute, asked for at the end of one window and the start of the next. -/
def twoBursts : List LimiterOp :=
  [.isAllowed "webhook" 1 0 0, .isAllowed "webhook" 4 59 59, .isAllowed "webhook" 1 59 59,
    .getStatus "webhook" 60 60, .isAllowed "webhook" 5 60 60]

theorem limits_hold_twoBursts :
    HoldsLimit { limit := 5, window := 60 }
      (logOf "webhook"
        (run step (started { limit := 5, window := 60 } Table.empty 0) twoBursts).log) :=
  limits_hold { limit := 5, window := 60 } Table.empty 0 twoBursts
    (by simp only [twoBursts, StepsMeet, InOrder, step, started]; norm_num) "webhook" (by decide)
    (by decide)

end LimiterRun

end AutoTrade.Services
