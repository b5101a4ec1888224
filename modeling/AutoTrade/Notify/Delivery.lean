import AutoTrade.Notify.AlertRuns

/-! # Every Telegram message is accounted for

The drain thread pops a message, waits for the rate limit and sends it, with
retries that a shutdown cuts short. A message leaves the queue by being
delivered, or by being dropped and counted, or it is forgotten: thrown out as
expired to make room, given up by an interrupted retry, or lost with a drain
thread that ends in an exception.
-/

namespace AutoTrade.Notify

open AutoTrade.Library Heap TelegramQueue

/-! ## The drain thread -/

/-- The limits as `_rate_wait` and `_deliver` read them from the config, with their defaults. -/
structure DeliveryLimits where
  maxRetriesCritical : Int := 3
  maxRetriesNormal : Int := 1
  rateLimitPerMin : Int := 25
deriving DecidableEq, Repr

def DeliveryLimits.maxRetries (c : DeliveryLimits) (m : TelegramMessage) : Int :=
  if m.rank ≤ TelegramPriority.critical.value then c.maxRetriesCritical else c.maxRetriesNormal

/-- What one call of `send_fn` does: it returns a true or a false value, raises an `Exception`, or
raises what no clause handles. -/
inductive SendOutcome
  | accepted
  | refused
  | raised
  | aborted
deriving DecidableEq, Repr

/-- Where the drain thread stands; the number of retries is fixed when the delivery begins. -/
inductive DrainPhase
  | ended
  | ready
  | popped (msg : TelegramMessage)
  | sending (msg : TelegramMessage) (attempt : Nat) (maxRetries : Int)
  | backingOff (msg : TelegramMessage) (attempt : Nat) (maxRetries : Int)
deriving DecidableEq, Repr

namespace DrainPhase

def inDelivery : DrainPhase → Nat
  | .ended => 0
  | .ready => 0
  | .popped _ => 1
  | .sending _ _ _ => 1
  | .backingOff _ _ _ => 1

def isPopped : DrainPhase → Bool
  | .popped _ => true
  | _ => false

def isSending : DrainPhase → Bool
  | .sending _ _ _ => true
  | _ => false

def isBackingOff : DrainPhase → Bool
  | .backingOff _ _ _ => true
  | _ => false

end DrainPhase

structure TelegramSender where
  queue : TelegramQueue := {}
  stop : Bool := false
  phase : DrainPhase := .ended
  sentThisMin : List Time := []
  /-- How often `enqueue` was called, and what was delivered. -/
  enqueued : Nat := 0
  delivered : List TelegramMessage := []

inductive SenderOp
  | enqueue (c : EnqueueCall)
  | start
  | stop
  | take
  | rateWait (limits : DeliveryLimits) (now later : Time)
  | send (outcome : SendOutcome) (now : Time)
  | backoff
deriving DecidableEq, Repr

/-- The sends of the last minute. -/
def recentSends (sent : List Time) (now : Time) : List Time :=
  sent.filter fun t => decide (now - t < 60 * second)

/-- `_rate_wait`; with a limit of zero or less it looks at the first of no sends. -/
def rateWait (limits : DeliveryLimits) (stop : Bool) (now later : Time) (sent : List Time) :
    Except PyExc (List Time) :=
  let recent := recentSends sent now
  if limits.rateLimitPerMin ≤ recent.length then
    match recent with
    | [] => .error ⟨.other, "list index out of range"⟩
    | _ :: _ => .ok (if stop then recent else recentSends recent later)
  else .ok recent

namespace TelegramSender

/-- `_deliver` up to its first attempt, if it makes one. -/
def beginDelivery (limits : DeliveryLimits) (m : TelegramMessage) (s : TelegramSender) :
    TelegramSender :=
  if 0 ≤ limits.maxRetries m then { s with phase := .sending m 0 (limits.maxRetries m) }
  else { s with queue := s.queue.countDrops [m.priority], phase := .ready }

/-- An attempt that did not succeed: back off, or count the message after the last one. -/
def failAttempt (m : TelegramMessage) (attempt : Nat) (maxRetries : Int) (s : TelegramSender) :
    TelegramSender :=
  if attempt < maxRetries then { s with phase := .backingOff m attempt maxRetries }
  else { s with queue := s.queue.countDrops [m.priority], phase := .ready }

def step (s : TelegramSender) : SenderOp → TelegramSender
  | .enqueue c => { s with queue := (s.queue.enqueue c).1, enqueued := s.enqueued + 1 }
  | .start =>
      match s.phase with
      | .ended => { s with stop := false, phase := .ready }
      | _ => s
  | .stop => { s with stop := true }
  | .take =>
      match s.phase with
      | .ready =>
          match heappop TelegramMessage.rank s.queue.heap with
          | some (m, rest) => { s with queue := { s.queue with heap := rest }, phase := .popped m }
          | none => if s.stop then { s with phase := .ended } else s
      | _ => s
  | .rateWait limits now later =>
      match s.phase with
      | .popped m =>
          match rateWait limits s.stop now later s.sentThisMin with
          | .ok sent => { s with sentThisMin := sent }.beginDelivery limits m
          | .error _ => { s with phase := .ended }
      | _ => s
  | .send outcome now =>
      match s.phase with
      | .sending m attempt maxRetries =>
          match outcome with
          | .accepted =>
              { s with
                delivered := s.delivered ++ [m]
                sentThisMin := s.sentThisMin ++ [now]
                phase := .ready }
          | .refused => s.failAttempt m attempt maxRetries
          | .raised => s.failAttempt m attempt maxRetries
          | .aborted => { s with phase := .ended }
      | _ => s
  | .backoff =>
      match s.phase with
      | .backingOff m attempt maxRetries =>
          -- an interrupted retry returns without counting its message
          if s.stop then { s with phase := .ready }
          else { s with phase := .sending m (attempt + 1) maxRetries }
      | _ => s

end TelegramSender

/-! ## What an enqueue call adds -/

namespace TelegramQueue

/-- `dropped_today` of `get_metrics`. -/
def droppedToday (q : TelegramQueue) : Nat :=
  q.droppedByLevel .critical + q.droppedByLevel .high + q.droppedByLevel .normal +
    q.droppedByLevel .low

theorem droppedToday_countDrops (q : TelegramQueue) (levels : List TelegramPriority) :
    (q.countDrops levels).droppedToday = q.droppedToday + levels.length := by
  have hlength : levels.length = levels.count .critical + levels.count .high +
      levels.count .normal + levels.count .low := by
    induction levels with
    | nil => rfl
    | cons level rest ih =>
        cases level <;> simp only [List.length_cons, List.count_cons, ih] <;> simp <;> omega
  simp only [droppedToday, countDrops, hlength]
  omega

/-- The messages a call throws out without counting them. -/
def forgotten (q : TelegramQueue) (c : EnqueueCall) : List TelegramMessage :=
  if c.priority = .normal ∧ c.limits.maxQueueDepth ≤ q.heap.length then q.heap.filter c.expired
  else []

/-- What a call removes or refuses it counts, or forgets. -/
theorem enqueue_dropped (q : TelegramQueue) (c : EnqueueCall) :
    (q.enqueue c).1.droppedToday + (q.forgotten c).length =
      q.droppedToday + (q.enqueue c).2.length := by
  unfold enqueue forgotten
  cases hp : c.priority with
  | low =>
      dsimp only
      split
      · rw [droppedToday_countDrops]
        simp
      · simp [droppedToday]
  | high => simp [droppedToday]
  | normal =>
      by_cases hfull : c.limits.maxQueueDepth ≤ q.heap.length
      · simp only [hfull, and_self, if_true]
        split
        · rw [droppedToday_countDrops]
          simp only [droppedToday, List.length_append, List.length_singleton]
          omega
        · simp [droppedToday]
      · simp [hfull, droppedToday]
  | critical =>
      dsimp only
      split
      · rw [droppedToday_countDrops]
        simp [droppedToday]
      · simp [droppedToday]

/-- A call adds its message to what is queued, counted or forgotten. -/
theorem enqueue_balance (q : TelegramQueue) (c : EnqueueCall) :
    (q.enqueue c).1.heap.length + (q.enqueue c).1.droppedToday + (q.forgotten c).length =
      q.heap.length + q.droppedToday + 1 := by
  have hlength := (enqueue_accounted q c).length_eq
  have hdropped := enqueue_dropped q c
  rw [List.length_append, List.length_cons] at hlength
  omega

theorem forgotten_eq_nil_iff (q : TelegramQueue) (c : EnqueueCall) :
    q.forgotten c = [] ↔ (c.priority = .normal → RoomForNormal q c) := by
  unfold forgotten RoomForNormal
  by_cases hnormal : c.priority = .normal
  · by_cases hfull : c.limits.maxQueueDepth ≤ q.heap.length
    · simp [hnormal, hfull]
    · simp [hnormal, hfull, lt_of_not_ge hfull]
  · simp [hnormal]

end TelegramQueue

/-! ## Runs -/

namespace TelegramSender

/-- Every message enqueued is queued, in delivery, delivered or counted as dropped. -/
def Conserved (s : TelegramSender) : Prop :=
  s.enqueued = s.queue.heap.length + s.phase.inDelivery + s.delivered.length + s.queue.droppedToday

/-- The step forgets no message: a normal message does not meet a full queue with expired ones, no
retry is interrupted by a shutdown, and neither a send nor the rate limit ends the drain thread. -/
def Accounted (s : TelegramSender) : SenderOp → Prop
  | .enqueue c => c.priority = .normal → RoomForNormal s.queue c
  | .rateWait limits now _ => s.phase.isPopped = true →
      0 < limits.rateLimitPerMin ∨ recentSends s.sentThisMin now ≠ []
  | .send outcome _ => s.phase.isSending = true → outcome ≠ .aborted
  | .backoff => s.phase.isBackingOff = true → s.stop = false
  | _ => True

theorem conserved_enqueue_iff {s : TelegramSender} (h : s.Conserved) (c : EnqueueCall) :
    (s.step (.enqueue c)).Conserved ↔ (c.priority = .normal → RoomForNormal s.queue c) := by
  have hbalance := s.queue.enqueue_balance c
  rw [← TelegramQueue.forgotten_eq_nil_iff, ← List.length_eq_zero_iff]
  unfold Conserved at h ⊢
  simp only [step]
  omega

theorem conserved_take {s : TelegramSender} (h : s.Conserved) : (s.step .take).Conserved := by
  unfold step
  cases hphase : s.phase with
  | ready =>
      dsimp only
      unfold Conserved at h
      rw [hphase] at h
      cases hpop : heappop TelegramMessage.rank s.queue.heap with
      | none =>
          dsimp only
          split
          · exact h
          · rw [Conserved, hphase]
            exact h
      | some taken =>
          have hlength := length_of_heappop hpop
          simp only [Conserved, DrainPhase.inDelivery, droppedToday] at h ⊢
          omega
  | _ => exact h

theorem conserved_counted {s : TelegramSender} (h : s.Conserved)
    (hdelivering : s.phase.inDelivery = 1) (level : TelegramPriority) :
    Conserved { s with queue := s.queue.countDrops [level], phase := .ready } := by
  have hcount := droppedToday_countDrops s.queue [level]
  unfold Conserved at h ⊢
  rw [hdelivering] at h
  simp only [DrainPhase.inDelivery, countDrops, List.length_singleton] at hcount ⊢
  omega

/-- A message in delivery begins its attempts, or is counted at once. -/
theorem conserved_beginDelivery {s : TelegramSender} {m : TelegramMessage}
    (hphase : s.phase = .popped m) (h : s.Conserved) (limits : DeliveryLimits) (sent : List Time) :
    ({ s with sentThisMin := sent }.beginDelivery limits m).Conserved := by
  have hdelivering : s.phase.inDelivery = 1 := by rw [hphase]; rfl
  unfold beginDelivery
  split
  · unfold Conserved at h ⊢
    rw [hdelivering] at h
    exact h
  · exact conserved_counted (s := { s with sentThisMin := sent }) h hdelivering m.priority

theorem conserved_failAttempt {s : TelegramSender} {m : TelegramMessage} {attempt : Nat}
    {maxRetries : Int} (hphase : s.phase = .sending m attempt maxRetries) (h : s.Conserved) :
    (s.failAttempt m attempt maxRetries).Conserved := by
  have hdelivering : s.phase.inDelivery = 1 := by rw [hphase]; rfl
  unfold failAttempt
  split
  · unfold Conserved at h ⊢
    rw [hdelivering] at h
    exact h
  · exact conserved_counted h hdelivering m.priority

/-- Where a message in delivery is neither delivered nor counted, the books no longer balance. -/
theorem not_conserved_of_lost {s t : TelegramSender} (h : s.Conserved)
    (hdelivering : s.phase.inDelivery = 1) (hlost : t.phase.inDelivery = 0)
    (henqueued : t.enqueued = s.enqueued) (hqueue : t.queue = s.queue)
    (hdelivered : t.delivered = s.delivered) : ¬ t.Conserved := by
  intro hconserved
  unfold Conserved at h hconserved
  rw [henqueued, hqueue, hdelivered] at hconserved
  omega

theorem rateWait_error_iff (limits : DeliveryLimits) (stop : Bool) (now later : Time)
    (sent : List Time) :
    (∃ e, rateWait limits stop now later sent = .error e) ↔
      ¬ (0 < limits.rateLimitPerMin ∨ recentSends sent now ≠ []) := by
  unfold rateWait
  cases hrecent : recentSends sent now with
  | nil =>
      by_cases hlimit : limits.rateLimitPerMin ≤ 0
      · simp [hlimit]
      · simp [hlimit, lt_of_not_ge hlimit]
  | cons t rest =>
      dsimp only
      split <;> simp

theorem conserved_rateWait_iff {s : TelegramSender} (h : s.Conserved) (limits : DeliveryLimits)
    (now later : Time) :
    (s.step (.rateWait limits now later)).Conserved ↔ (s.phase.isPopped = true →
      0 < limits.rateLimitPerMin ∨ recentSends s.sentThisMin now ≠ []) := by
  have herror := rateWait_error_iff limits s.stop now later s.sentThisMin
  unfold step
  cases hphase : s.phase with
  | popped m =>
      dsimp only
      cases hwait : rateWait limits s.stop now later s.sentThisMin with
      | ok sent =>
          rw [hwait] at herror
          refine iff_of_true (conserved_beginDelivery hphase h limits sent) fun _ => ?_
          refine not_not.mp fun hdies => ?_
          obtain ⟨e, he⟩ := herror.mpr hdies
          cases he
      | error e =>
          rw [hwait] at herror
          have hdies := herror.mp ⟨e, rfl⟩
          refine iff_of_false ?_ fun hsafe => hdies (hsafe rfl)
          exact not_conserved_of_lost h (by rw [hphase]; rfl) rfl rfl rfl rfl
  | _ => exact iff_of_true h (by simp [DrainPhase.isPopped])

theorem conserved_send_iff {s : TelegramSender} (h : s.Conserved) (outcome : SendOutcome)
    (now : Time) :
    (s.step (.send outcome now)).Conserved ↔ (s.phase.isSending = true → outcome ≠ .aborted) := by
  unfold step
  cases hphase : s.phase with
  | sending m attempt maxRetries =>
      cases outcome with
      | accepted =>
          refine iff_of_true ?_ (by simp)
          unfold Conserved at h ⊢
          rw [hphase] at h
          simp only [DrainPhase.inDelivery, List.length_append, List.length_singleton] at h ⊢
          omega
      | refused => exact iff_of_true (conserved_failAttempt hphase h) (by simp)
      | raised => exact iff_of_true (conserved_failAttempt hphase h) (by simp)
      | aborted =>
          refine iff_of_false ?_ (by simp [DrainPhase.isSending])
          exact not_conserved_of_lost h (by rw [hphase]; rfl) rfl rfl rfl rfl
  | _ => exact iff_of_true h (by simp [DrainPhase.isSending])

theorem conserved_backoff_iff {s : TelegramSender} (h : s.Conserved) :
    (s.step .backoff).Conserved ↔ (s.phase.isBackingOff = true → s.stop = false) := by
  unfold step
  cases hphase : s.phase with
  | backingOff m attempt maxRetries =>
      cases hstop : s.stop with
      | true =>
          refine iff_of_false ?_ (by simp [DrainPhase.isBackingOff])
          exact not_conserved_of_lost h (by rw [hphase]; rfl) rfl rfl rfl rfl
      | false =>
          refine iff_of_true ?_ (by simp)
          unfold Conserved at h
          rw [hphase] at h
          exact h
  | _ => exact iff_of_true h (by simp [DrainPhase.isBackingOff])

/-- Over every run, the messages enqueued are those queued, in delivery, delivered and counted as
dropped, exactly when no normal message meets a full queue with expired ones, no retry is
interrupted by a shutdown, and nothing ends the drain thread while it has a message. -/
theorem messages_conserved_iff (ops : List SenderOp) :
    Always step Conserved {} ops ↔ StepsMeet step Accounted {} ops := by
  apply always_iff_stepsMeet
  · intro s op _ h
    cases op with
    | enqueue c => exact conserved_enqueue_iff h c
    | start =>
        refine iff_of_true ?_ trivial
        unfold step
        cases hphase : s.phase with
        | ended =>
            unfold Conserved at h
            rw [hphase] at h
            exact h
        | _ => exact h
    | stop => exact iff_of_true h trivial
    | take => exact iff_of_true (conserved_take h) trivial
    | rateWait limits now later => exact conserved_rateWait_iff h limits now later
    | send outcome now => exact conserved_send_iff h outcome now
    | backoff => exact conserved_backoff_iff h
  · rfl

/-- A status update is still queued when, a minute later, another one meets the full queue. -/
def staleUpdateThrownOut : List SenderOp :=
  [.enqueue (callAtDepthTwo "entry" .high 0), .enqueue (callAtDepthTwo "update" .normal 0),
    .enqueue (callAtDepthTwo "later update" .normal (60 * second))]

/-- A shutdown arrives while a circuit breaker alert waits for its second attempt. -/
def retryInterrupted : List SenderOp :=
  [.start, .enqueue (callAtDepthTwo "breaker" .critical 0), .take, .rateWait {} 0 0,
    .send .refused 0, .stop, .backoff]

/-- In each of the two runs a message disappears without being delivered or counted. -/
theorem messages_forgotten :
    ¬ Always step Conserved {} staleUpdateThrownOut ∧
      ¬ Always step Conserved {} retryInterrupted := by
  constructor
  · intro always
    have hfinal := always.final
    revert hfinal
    unfold Conserved
    decide +kernel
  · intro always
    have hfinal := always.final
    revert hfinal
    unfold Conserved
    decide +kernel

end TelegramSender

end AutoTrade.Notify
