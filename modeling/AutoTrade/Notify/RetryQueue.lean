import AutoTrade.Library.Table
import AutoTrade.Runtime

/-! # The notification retry queue

A notification that could not be delivered is queued for retries, claimed by a
worker when it is due, and completed, scheduled again or moved to the dead
letters. Times are kept as texts to the second, which are ordered as the seconds
they name; channels are kept in upper case.
-/

namespace AutoTrade.Notify

open AutoTrade.Library

inductive RetryStatus
  | pending
  | processing
  | completed
  | deadLetter
deriving DecidableEq, Repr

/-- What the entries of the queue are unique in. -/
structure RetryKey where
  signalId : String
  username : String
  channel : String
deriving DecidableEq, Repr

/-- A row of `notification_retry_queue`. -/
structure RetryEntry where
  retryId : Nat
  key : RetryKey
  destination : String
  payload : String
  attemptCount : Int := 0
  maxAttempts : Int
  nextAttemptAt : Int
  lastError : String
  createdAt : Int
  updatedAt : Int
  status : RetryStatus := .pending
deriving DecidableEq, Repr

/-- A row of `notification_dead_letter`. -/
structure DeadLetter where
  key : RetryKey
  destination : String
  payload : String
  attemptCount : Int
  lastError : String
  deadLetteredAt : Int
deriving DecidableEq, Repr

structure RetryQueue where
  entries : Table RetryEntry RetryEntry.retryId
  nextRetryId : Nat := 1
  deadLetters : List DeadLetter := []

/-- What `enqueue_notification_retry` is given. -/
structure RetryRequest where
  key : RetryKey
  destination : String
  payload : String
  errorMessage : String
  maxAttempts : Int := 3
  delaySeconds : Int := 5
deriving DecidableEq, Repr

/-- The second that `strftime` writes. -/
def stamp (now : Time) : Int := now / second

namespace RetryEntry

def requeued (r : RetryRequest) (now : Time) (e : RetryEntry) : RetryEntry :=
  { e with
    nextAttemptAt := stamp now + r.delaySeconds
    lastError := r.errorMessage
    updatedAt := stamp now
    status := if e.status = .completed then .completed else .pending }

def isDue (lockTimeout : Int) (now : Time) (e : RetryEntry) : Bool :=
  decide (e.status = .pending ∧ e.nextAttemptAt ≤ stamp now ∨
    e.status = .processing ∧ e.updatedAt ≤ stamp now - lockTimeout)

def claimed (now : Time) (e : RetryEntry) : RetryEntry :=
  { e with status := .processing, updatedAt := stamp now }

def done (now : Time) (e : RetryEntry) : RetryEntry :=
  { e with status := .completed, updatedAt := stamp now }

/-- The failure that is recorded is the last one. -/
def exhausts (delay : Option Int) (e : RetryEntry) : Bool :=
  decide (e.maxAttempts ≤ e.attemptCount + 1) || delay.isNone

def deadLetter (error : String) (now : Time) (e : RetryEntry) : DeadLetter where
  key := e.key
  destination := e.destination
  payload := e.payload
  attemptCount := e.attemptCount + 1
  lastError := error
  deadLetteredAt := stamp now

def buried (error : String) (now : Time) (e : RetryEntry) : RetryEntry :=
  { e with
    attemptCount := e.attemptCount + 1
    lastError := error
    updatedAt := stamp now
    status := .deadLetter }

def rescheduled (error : String) (delay : Int) (now : Time) (e : RetryEntry) : RetryEntry :=
  { e with
    attemptCount := e.attemptCount + 1
    nextAttemptAt := stamp now + delay
    lastError := error
    updatedAt := stamp now
    status := .pending }

end RetryEntry

def RetryRequest.entry (r : RetryRequest) (retryId : Nat) (now : Time) : RetryEntry where
  retryId
  key := r.key
  destination := r.destination
  payload := r.payload
  maxAttempts := r.maxAttempts
  nextAttemptAt := stamp now + r.delaySeconds
  lastError := r.errorMessage
  createdAt := stamp now
  updatedAt := stamp now

inductive FailOutcome
  | notFound
  | deadLetter
  | retryScheduled
deriving DecidableEq, Repr

namespace RetryQueue

/-- The entry of a notification; there is one for a key. -/
def ofKey (q : RetryQueue) (key : RetryKey) : Option RetryEntry :=
  q.entries.rows.find? fun e => decide (e.key = key)

/-- `enqueue_notification_retry`. -/
def enqueueNotificationRetry (q : RetryQueue) (r : RetryRequest) (now : Time) : RetryQueue × Nat :=
  match q.ofKey r.key with
  | some e =>
      ({ q with
          entries := q.entries.update e.retryId (RetryEntry.requeued r now) fun _ => rfl },
        e.retryId)
  | none =>
      ({ q with
          entries := q.entries.insertOrIgnore (r.entry q.nextRetryId now)
          nextRetryId := q.nextRetryId + 1 },
        q.nextRetryId)

/-- The entries a claim takes, those first that have waited longest. -/
def candidateIds (q : RetryQueue) (maxItems lockTimeout : Int) (now : Time) : List Nat :=
  (Table.limited maxItems
    ((q.entries.rows.filter fun e => e.isDue lockTimeout now).mergeSort
      fun d e => decide (d.nextAttemptAt ≤ e.nextAttemptAt))).map RetryEntry.retryId

/-- `claim_due_notification_retries`. -/
def claimDueNotificationRetries (q : RetryQueue) (maxItems lockTimeout : Int) (now : Time) :
    RetryQueue × List RetryEntry :=
  let ids := q.candidateIds maxItems lockTimeout now
  let entries := q.entries.updateWhere (fun e => decide (e.retryId ∈ ids))
    (RetryEntry.claimed now) fun _ => rfl
  ({ q with entries }, entries.rows.filter fun e => decide (e.retryId ∈ ids))

/-- `complete_notification_retry`. -/
def completeNotificationRetry (q : RetryQueue) (retryId : Nat) (now : Time) : RetryQueue × Bool :=
  ({ q with entries := q.entries.update retryId (RetryEntry.done now) fun _ => rfl },
    q.entries.contains retryId)

/-- `fail_notification_retry`. -/
def failNotificationRetry (q : RetryQueue) (retryId : Nat) (error : String) (delay : Option Int)
    (now : Time) : RetryQueue × FailOutcome :=
  match q.entries.find? retryId with
  | none => (q, .notFound)
  | some e =>
      if e.exhausts delay then
        ({ q with
            entries := q.entries.update retryId (RetryEntry.buried error now) fun _ => rfl
            deadLetters := q.deadLetters ++ [e.deadLetter error now] },
          .deadLetter)
      else
        ({ q with
            entries :=
              q.entries.update retryId (RetryEntry.rescheduled error (delay.getD 0) now)
                fun _ => rfl },
          .retryScheduled)

end RetryQueue

end AutoTrade.Notify
