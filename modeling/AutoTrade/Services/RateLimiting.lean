import AutoTrade.Library.Admission
import AutoTrade.Library.Run
import AutoTrade.Library.Table
import AutoTrade.Runtime
import Mathlib.Tactic.Positivity

/-! # The rate limiting service

A key is limited by a counter that starts again after each window, by a log of
the last window, or by a bucket of tokens. Clock readings are seconds; a call
reads the clock a second time where it starts a counter or a bucket.
-/

namespace AutoTrade.Services

open AutoTrade.Library

/-! ## State -/

/-- An algorithm the service does not know is treated as `fixed_window`. -/
inductive Algorithm
  | fixedWindow
  | slidingWindow
  | tokenBucket
  | other
deriving DecidableEq, Repr

structure RateLimitConfig where
  limit : Int
  window : Int
  algorithm : Algorithm := .fixedWindow
deriving DecidableEq, Repr

inductive LimitResult
  | allowed
  | denied
deriving DecidableEq, Repr

structure RateLimitStatus where
  allowed : Bool
  remaining : Int
  resetTime : ℚ
  retryAfter : Option ℚ
  limit : Int
  window : Int
  algorithm : Algorithm
deriving DecidableEq, Repr

structure WindowCounter where
  count : Nat := 0
  windowStart : ℚ
deriving DecidableEq, Repr

structure TokenBucket where
  capacity : Int
  tokens : ℚ
  refillRate : ℚ
  lastRefill : ℚ
deriving DecidableEq, Repr

structure RateLimitingService where
  defaultConfig : RateLimitConfig := { limit := 100, window := 60 }
  customConfigs : Dict String RateLimitConfig := Table.empty
  counters : Dict String WindowCounter := Table.empty
  slidingWindows : Dict String (List ℚ) := Table.empty
  tokenBuckets : Dict String TokenBucket := Table.empty

/-! ## Buckets and windows -/

/-- The counter of a request: a new one where there is none or its window is over. -/
def counterAt (config : RateLimitConfig) (now created : ℚ) : Option WindowCounter → WindowCounter
  | none => { windowStart := created }
  | some counter =>
      if config.window ≤ now - counter.windowStart then { windowStart := created } else counter

/-- The deque without the entries older than the window. -/
def recentTimestamps (config : RateLimitConfig) (now : ℚ) (timestamps : List ℚ) : List ℚ :=
  timestamps.dropWhile (· < now - config.window)

def newBucket (config : RateLimitConfig) (created : ℚ) : TokenBucket :=
  { capacity := config.limit
    tokens := config.limit
    refillRate := if 0 < config.window then config.limit / config.window else 0
    lastRefill := created }

def TokenBucket.refill (b : TokenBucket) (now : ℚ) : TokenBucket :=
  if 0 < now - b.lastRefill ∧ 0 < b.refillRate then
    { b with
      tokens := min b.capacity (b.tokens + (now - b.lastRefill) * b.refillRate)
      lastRefill := now }
  else b

namespace RateLimitingService

/-- `_get_config`. -/
def getConfig (s : RateLimitingService) (key : String) : RateLimitConfig :=
  (s.customConfigs.get? key).getD s.defaultConfig

/-! ## Requests -/

/-- `_is_allowed_fixed_window`. -/
def isAllowedFixedWindow (s : RateLimitingService) (key : String) (cost : Nat)
    (config : RateLimitConfig) (now created : ℚ) : RateLimitingService × LimitResult :=
  let counter := counterAt config now created (s.counters.get? key)
  if config.limit < counter.count + cost then
    ({ s with counters := s.counters.set key counter }, .denied)
  else
    ({ s with
        counters := s.counters.set key { counter with count := counter.count + cost } }, .allowed)

/-- `_is_allowed_sliding_window`. -/
def isAllowedSlidingWindow (s : RateLimitingService) (key : String) (cost : Nat)
    (config : RateLimitConfig) (now : ℚ) : RateLimitingService × LimitResult :=
  let timestamps := recentTimestamps config now ((s.slidingWindows.get? key).getD [])
  if config.limit < timestamps.length + cost then
    ({ s with slidingWindows := s.slidingWindows.set key timestamps }, .denied)
  else
    ({ s with
        slidingWindows := s.slidingWindows.set key (timestamps ++ List.replicate cost now) },
      .allowed)

/-- `_is_allowed_token_bucket`. -/
def isAllowedTokenBucket (s : RateLimitingService) (key : String) (cost : Nat)
    (config : RateLimitConfig) (now created : ℚ) : RateLimitingService × LimitResult :=
  let bucket := ((s.tokenBuckets.get? key).getD (newBucket config created)).refill now
  if bucket.tokens < cost then
    ({ s with tokenBuckets := s.tokenBuckets.set key bucket }, .denied)
  else
    ({ s with
        tokenBuckets := s.tokenBuckets.set key { bucket with tokens := bucket.tokens - cost } },
      .allowed)

/-- `is_allowed`. -/
def isAllowed (s : RateLimitingService) (key : String) (cost : Nat) (now created : ℚ) :
    RateLimitingService × LimitResult :=
  let config := s.getConfig key
  match config.algorithm with
  | .slidingWindow => s.isAllowedSlidingWindow key cost config now
  | .tokenBucket => s.isAllowedTokenBucket key cost config now created
  | _ => s.isAllowedFixedWindow key cost config now created

/-! ## Status -/

/-- `_get_status_fixed_window`; nothing is changed. -/
def getStatusFixedWindow (s : RateLimitingService) (key : String) (config : RateLimitConfig)
    (now later : ℚ) : RateLimitStatus :=
  match s.counters.get? key with
  | none =>
      { allowed := true
        remaining := config.limit
        resetTime := now + config.window
        retryAfter := none
        limit := config.limit
        window := config.window
        algorithm := config.algorithm }
  | some counter =>
      let remainingWindow := max 0 (config.window - (now - counter.windowStart))
      { allowed := decide (counter.count < config.limit)
        remaining := max 0 (config.limit - counter.count)
        resetTime := later + remainingWindow
        retryAfter := if config.limit ≤ counter.count then some remainingWindow else none
        limit := config.limit
        window := config.window
        algorithm := config.algorithm }

/-- `_get_status_sliding_window`; the deque of a key that has one is trimmed. -/
def getStatusSlidingWindow (s : RateLimitingService) (key : String) (config : RateLimitConfig)
    (now later : ℚ) : RateLimitingService × RateLimitStatus :=
  let timestamps := recentTimestamps config now ((s.slidingWindows.get? key).getD [])
  let s := match s.slidingWindows.get? key with
    | none => s
    | some _ => { s with slidingWindows := s.slidingWindows.set key timestamps }
  let reset := match timestamps with
    | [] => now + config.window
    | oldest :: _ => oldest + config.window
  (s,
    { allowed := decide (timestamps.length < config.limit)
      remaining := max 0 (config.limit - timestamps.length)
      resetTime := reset
      retryAfter :=
        if timestamps ≠ [] ∧ config.limit ≤ timestamps.length then some (max 0 (reset - later))
        else none
      limit := config.limit
      window := config.window
      algorithm := config.algorithm })

/-- `_get_status_token_bucket`; the bucket is made if need be, and refilled. -/
def getStatusTokenBucket (s : RateLimitingService) (key : String) (config : RateLimitConfig)
    (now created : ℚ) : RateLimitingService × RateLimitStatus :=
  let bucket := ((s.tokenBuckets.get? key).getD (newBucket config created)).refill now
  ({ s with tokenBuckets := s.tokenBuckets.set key bucket },
    { allowed := decide (1 ≤ bucket.tokens)
      remaining := truncate bucket.tokens
      resetTime := now + config.window
      retryAfter :=
        if bucket.tokens < 1 ∧ 0 < bucket.refillRate then
          some ((1 - bucket.tokens) / bucket.refillRate)
        else none
      limit := config.limit
      window := config.window
      algorithm := config.algorithm })

/-- `get_status`. -/
def getStatus (s : RateLimitingService) (key : String) (now later : ℚ) :
    RateLimitingService × RateLimitStatus :=
  let config := s.getConfig key
  match config.algorithm with
  | .slidingWindow => s.getStatusSlidingWindow key config now later
  | .tokenBucket => s.getStatusTokenBucket key config now later
  | _ => (s, s.getStatusFixedWindow key config now later)

end RateLimitingService

/-! ## Runs -/

/-- An admitted request, with the start of the counter that counted it. -/
structure Admitted where
  key : String
  time : ℚ
  cost : Nat
  windowStart : ℚ
deriving DecidableEq, Repr

/-- The service, the requests it admitted, and the last reading of the clock. -/
structure LimiterRun where
  service : RateLimitingService
  log : List Admitted := []
  clock : ℚ

/-- An operation with its first and its last reading of the clock. -/
inductive LimiterOp
  | isAllowed (key : String) (cost : Nat) (now later : ℚ)
  | getStatus (key : String) (now later : ℚ)
deriving DecidableEq, Repr

namespace LimiterRun

def loggedAs (s : RateLimitingService) (key : String) (cost : Nat) (now : ℚ) :
    LimitResult → List Admitted
  | .allowed =>
      [{ key, time := now, cost, windowStart := ((s.counters.get? key).map (·.windowStart)).getD 0 }]
  | .denied => []

def step (r : LimiterRun) : LimiterOp → LimiterRun
  | .isAllowed key cost now later =>
      let (service, result) := r.service.isAllowed key cost now later
      { service, log := r.log ++ loggedAs service key cost now result, clock := later }
  | .getStatus key now later =>
      { r with service := (r.service.getStatus key now later).1, clock := later }

/-- The clock does not go back. -/
def InOrder (r : LimiterRun) : LimiterOp → Prop
  | .isAllowed _ _ now later => r.clock ≤ now ∧ now ≤ later
  | .getStatus _ now later => r.clock ≤ now ∧ now ≤ later

def logOf (key : String) (log : List Admitted) : List Admitted :=
  log.filter fun a => decide (a.key = key)

end LimiterRun

end AutoTrade.Services
