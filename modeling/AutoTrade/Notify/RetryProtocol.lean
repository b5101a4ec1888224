import AutoTrade.Library.Run
import AutoTrade.Notify.RetryQueue

/-! # Workers on the retry queue

Any number of workers claim entries, and complete or fail what they have claimed,
while notifications are queued again. A claim locks an entry for its worker, but
only the status of the entry says so: whoever writes the status undoes the lock.
The protocol is kept as long as nobody writes the status of an entry that another
worker has locked, or of one that is finished.
-/

namespace AutoTrade.Notify

open AutoTrade.Library

/-! ## What happened to the entries -/

inductive RetryEvent
  | claimed (worker : Nat) (ids : List Nat) (lockTimeout : Int) (now : Time)
  | completed (worker retryId : Nat)
  | failed (worker retryId : Nat)
deriving DecidableEq, Repr

/-- The last claim of an entry, until its worker fails it. -/
structure Lock where
  worker : Nat
  since : Time
deriving DecidableEq, Repr

def lockAfter (retryId : Nat) (lock : Option Lock) : RetryEvent → Option Lock
  | .claimed worker ids _ now => if retryId ∈ ids then some ⟨worker, now⟩ else lock
  | .completed _ _ => lock
  | .failed worker id => lock.filter fun l => decide (¬(id = retryId ∧ l.worker = worker))

def lockOf (log : List RetryEvent) (retryId : Nat) : Option Lock :=
  log.foldl (lockAfter retryId) none

/-- A claim comes no sooner after the last one than its timeout. -/
def HonoursLocks (before : List RetryEvent) : RetryEvent → Prop
  | .claimed _ ids lockTimeout now => ∀ id ∈ ids, ∀ lock, lockOf before id = some lock →
      lockTimeout * second ≤ now - lock.since
  | _ => True

def RetryEntry.claimable (e : RetryEntry) : Bool := decide (e.status ∈ [.pending, .processing])

/-- How often a notification was moved to the dead letters. -/
def RetryQueue.deaths (q : RetryQueue) (key : RetryKey) : Nat :=
  q.deadLetters.countP fun d => decide (d.key = key)

/-! ## Runs -/

structure RetryProtocol where
  queue : RetryQueue
  log : List RetryEvent := []

inductive RetryOp
  | enqueue (r : RetryRequest) (now : Time)
  | claim (worker : Nat) (maxItems lockTimeout : Int) (now : Time)
  | complete (worker retryId : Nat) (now : Time)
  | fail (worker retryId : Nat) (error : String) (delay : Option Int) (now : Time)

namespace RetryProtocol

def hasClaimed (s : RetryProtocol) (worker retryId : Nat) : Bool :=
  s.log.any fun event =>
    match event with
    | .claimed w ids _ _ => decide (w = worker ∧ retryId ∈ ids)
    | _ => false

/-- A worker completes or fails what it has claimed. -/
def step (s : RetryProtocol) : RetryOp → RetryProtocol
  | .enqueue r now => { s with queue := (s.queue.enqueueNotificationRetry r now).1 }
  | .claim worker maxItems lockTimeout now =>
      let (queue, rows) := s.queue.claimDueNotificationRetries maxItems lockTimeout now
      { queue
        log := s.log ++ [.claimed worker (rows.map RetryEntry.retryId) lockTimeout now] }
  | .complete worker retryId now =>
      if s.hasClaimed worker retryId then
        { queue := (s.queue.completeNotificationRetry retryId now).1
          log := s.log ++ [.completed worker retryId] }
      else s
  | .fail worker retryId error delay now =>
      if s.hasClaimed worker retryId then
        { queue := (s.queue.failNotificationRetry retryId error delay now).1
          log := s.log ++ [.failed worker retryId] }
      else s

/-- Locks are honoured, what is completed or dead is not claimable again, nothing dies twice and no
attempt is made beyond the last. -/
structure Honoured (s : RetryProtocol) : Prop where
  locks : EachAfter HonoursLocks s.log
  completed : ∀ e ∈ s.queue.entries.rows, ∀ worker,
    RetryEvent.completed worker e.retryId ∈ s.log → e.claimable = false
  deadOnce : ∀ e ∈ s.queue.entries.rows, s.queue.deaths e.key ≤ 1
  deadStays : ∀ e ∈ s.queue.entries.rows, 0 < s.queue.deaths e.key → e.claimable = false
  attempts : ∀ e ∈ s.queue.entries.rows, e.attemptCount ≤ e.maxAttempts

/-- Nothing is queued again while it is locked or dead, no lock runs out later in the second of a
claim, and a worker fails what is alive and, to schedule it again, neither completed nor locked by
another. -/
def KeepsLocks (s : RetryProtocol) : RetryOp → Prop
  | .enqueue r _ =>
      match s.queue.ofKey r.key with
      | none => 0 ≤ r.maxAttempts
      | some e => e.status = .pending ∨ e.status = .completed
  | .claim _ _ lockTimeout now => ∀ e ∈ s.queue.entries.rows, e.status = .processing →
      e.updatedAt = stamp now - lockTimeout → ∀ lock, lockOf s.log e.retryId = some lock →
        lock.since % second ≤ now % second
  | .complete _ _ _ => True
  | .fail worker retryId _ delay _ => s.hasClaimed worker retryId = true →
      ∀ e, s.queue.entries.find? retryId = some e →
        s.queue.deaths e.key = 0 ∧ 0 < e.maxAttempts ∧ (e.exhausts delay = false →
          e.status ≠ .completed ∧
            (e.status = .processing →
              (lockOf s.log retryId).any fun l => decide (l.worker = worker)))

end RetryProtocol

/-! ## One entry -/

/-- What the status of an entry says of its lock, its completion and its deaths. -/
structure EntrySound (lock : Option Lock) (completed : Prop) (deaths : Nat) (e : RetryEntry) :
    Prop where
  unlocked : e.status = .pending → lock = none
  locked : e.status = .processing → ∃ l, lock = some l ∧ stamp l.since = e.updatedAt
  completed : completed → e.claimable = false
  deadOnce : deaths ≤ 1
  deadStays : 0 < deaths → e.claimable = false
  dead : e.status = .deadLetter → 0 < deaths
  attempts : e.attemptCount ≤ e.maxAttempts
  room : deaths = 0 → 0 < e.maxAttempts → e.attemptCount < e.maxAttempts

namespace EntrySound

variable {lock : Option Lock} {completed : Prop} {deaths : Nat} {e : RetryEntry}

theorem claimable_iff {e : RetryEntry} :
    e.claimable = true ↔ e.status = .pending ∨ e.status = .processing := by
  simp [RetryEntry.claimable]

theorem not_claimable {e : RetryEntry} (h : e.status = .completed ∨ e.status = .deadLetter) :
    e.claimable = false := by
  rcases h with h | h <;> simp [RetryEntry.claimable, h]

theorem entry (r : RetryRequest) (retryId : Nat) (now : Time) (hmax : 0 ≤ r.maxAttempts)
    (hfresh : ¬completed) : EntrySound none completed 0 (r.entry retryId now) where
  unlocked _ := rfl
  locked h := by cases h
  completed h := absurd h hfresh
  deadOnce := Nat.zero_le 1
  deadStays h := absurd h (Nat.lt_irrefl 0)
  dead h := by cases h
  attempts := hmax
  room _ h := h

theorem requeued (h : EntrySound lock completed deaths e) (r : RetryRequest) (now : Time)
    (hstatus : e.status = .pending ∨ e.status = .completed) :
    EntrySound lock completed deaths (e.requeued r now) := by
  have hkept : (e.requeued r now).status = e.status := by
    rcases hstatus with hpending | hcompleted
    · simp [RetryEntry.requeued, hpending]
    · simp [RetryEntry.requeued, hcompleted]
  have hclaimable : (e.requeued r now).claimable = e.claimable := by
    unfold RetryEntry.claimable
    rw [hkept]
  constructor
  · exact fun hp => h.unlocked (hkept ▸ hp)
  · intro hp
    rw [hkept] at hp
    rcases hstatus with hs | hs <;> rw [hs] at hp <;> cases hp
  · exact fun hc => hclaimable.trans (h.completed hc)
  · exact h.deadOnce
  · exact fun hd => hclaimable.trans (h.deadStays hd)
  · exact fun hd => h.dead (hkept ▸ hd)
  · exact h.attempts
  · exact h.room

theorem claimed (h : EntrySound lock completed deaths e) (worker : Nat) (now : Time)
    (hclaimable : e.claimable = true) :
    EntrySound (some ⟨worker, now⟩) completed deaths (e.claimed now) := by
  constructor
  · intro hp
    cases hp
  · exact fun _ => ⟨_, rfl, rfl⟩
  · intro hc
    rw [h.completed hc] at hclaimable
    cases hclaimable
  · exact h.deadOnce
  · intro hd
    rw [h.deadStays hd] at hclaimable
    cases hclaimable
  · intro hd
    cases hd
  · exact h.attempts
  · exact h.room

theorem done (h : EntrySound lock completed deaths e) (now : Time) :
    EntrySound lock True deaths (e.done now) := by
  have hfinal : (e.done now).claimable = false := not_claimable (Or.inl rfl)
  constructor
  · intro hp
    cases hp
  · intro hp
    cases hp
  · exact fun _ => hfinal
  · exact h.deadOnce
  · exact fun _ => hfinal
  · intro hd
    cases hd
  · exact h.attempts
  · exact h.room

theorem buried (h : EntrySound lock completed 0 e) (lock' : Option Lock) (error : String)
    (now : Time) (hmax : 0 < e.maxAttempts) :
    EntrySound lock' completed 1 (e.buried error now) := by
  have hfinal : (e.buried error now).claimable = false := not_claimable (Or.inr rfl)
  constructor
  · intro hp
    cases hp
  · intro hp
    cases hp
  · exact fun _ => hfinal
  · exact Nat.le_refl 1
  · exact fun _ => hfinal
  · exact fun _ => Nat.one_pos
  · exact h.room rfl hmax
  · intro hd
    cases hd

theorem status_open (h : EntrySound lock completed deaths e) (halive : deaths = 0)
    (hstatus : e.status ≠ .completed) : e.status = .pending ∨ e.status = .processing := by
  cases hs : e.status with
  | pending => exact Or.inl rfl
  | processing => exact Or.inr rfl
  | completed => exact absurd hs hstatus
  | deadLetter => exact absurd (h.dead hs) (halive ▸ Nat.lt_irrefl 0)

theorem rescheduled (h : EntrySound lock completed 0 e) (error : String) {delay : Option Int}
    (now : Time) (hkept : e.exhausts delay = false) (hstatus : e.status ≠ .completed) :
    EntrySound none completed 0 (e.rescheduled error (delay.getD 0) now) := by
  have hclaimable : e.claimable = true := claimable_iff.mpr (h.status_open rfl hstatus)
  have hroom : e.attemptCount + 1 < e.maxAttempts := by
    unfold RetryEntry.exhausts at hkept
    rw [Bool.or_eq_false_iff, decide_eq_false_iff_not] at hkept
    exact not_le.mp hkept.1
  constructor
  · exact fun _ => rfl
  · intro hp
    cases hp
  · intro hc
    rw [h.completed hc] at hclaimable
    cases hclaimable
  · exact Nat.zero_le 1
  · exact fun hd => absurd hd (Nat.lt_irrefl 0)
  · intro hd
    cases hd
  · exact hroom.le
  · exact fun _ _ => hroom

end EntrySound

/-! ## Events and locks -/

def RetryEvent.ids : RetryEvent → List Nat
  | .claimed _ ids _ _ => ids
  | .completed _ id => [id]
  | .failed _ id => [id]

def wasCompleted (log : List RetryEvent) (retryId : Nat) : Prop :=
  ∃ worker, RetryEvent.completed worker retryId ∈ log

theorem lockAfter_of_not_mem {retryId : Nat} {event : RetryEvent} (h : retryId ∉ event.ids)
    (lock : Option Lock) : lockAfter retryId lock event = lock := by
  cases event with
  | claimed worker ids lockTimeout now => exact if_neg h
  | completed worker id => rfl
  | failed worker id =>
      have hne : id ≠ retryId := fun heq => h (heq ▸ List.mem_singleton_self id)
      cases lock <;> simp [lockAfter, hne]

theorem lockOf_append (log : List RetryEvent) (event : RetryEvent) (retryId : Nat) :
    lockOf (log ++ [event]) retryId = lockAfter retryId (lockOf log retryId) event :=
  List.foldl_append

theorem lockOf_of_unmentioned {log : List RetryEvent} {retryId : Nat}
    (h : ∀ event ∈ log, retryId ∉ event.ids) : lockOf log retryId = none := by
  induction log using List.reverseRecOn with
  | nil => rfl
  | append_singleton rest event ih =>
      rw [lockOf_append, lockAfter_of_not_mem (h event (by simp))]
      exact ih fun e he => h e (List.mem_append_left _ he)

theorem wasCompleted_append {log : List RetryEvent} {event : RetryEvent} {retryId : Nat}
    (h : retryId ∉ event.ids) : wasCompleted (log ++ [event]) retryId ↔ wasCompleted log retryId := by
  unfold wasCompleted
  refine exists_congr fun worker => ?_
  rw [List.mem_append, List.mem_singleton]
  refine or_iff_left fun heq => h ?_
  rw [← heq]
  exact List.mem_singleton_self retryId

theorem wasCompleted_append_of_not {log : List RetryEvent} {event : RetryEvent} {retryId : Nat}
    (h : ∀ worker, event ≠ .completed worker retryId) :
    wasCompleted (log ++ [event]) retryId ↔ wasCompleted log retryId := by
  unfold wasCompleted
  refine exists_congr fun worker => ?_
  rw [List.mem_append, List.mem_singleton]
  exact or_iff_left fun heq => h worker heq.symm

/-- A lock that ran out by the second has run out by the clock. -/
theorem timeout_passed {since now lockTimeout : Int}
    (hstamp : stamp since ≤ stamp now - lockTimeout)
    (hsecond : stamp since = stamp now - lockTimeout → since % 1000000 ≤ now % 1000000) :
    lockTimeout * 1000000 ≤ now - since := by
  unfold stamp second at *
  omega

/-! ## The whole queue -/

namespace RetryProtocol

structure Sound (s : RetryProtocol) : Prop where
  rows : ∀ e ∈ s.queue.entries.rows, EntrySound (lockOf s.log e.retryId)
    (wasCompleted s.log e.retryId) (s.queue.deaths e.key) e
  keys : ∀ d ∈ s.queue.entries.rows, ∀ e ∈ s.queue.entries.rows, d.key = e.key →
    d.retryId = e.retryId
  known : ∀ e ∈ s.queue.entries.rows, e.retryId < s.queue.nextRetryId
  mentioned : ∀ event ∈ s.log, ∀ id ∈ event.ids, id < s.queue.nextRetryId
  deadKeys : ∀ key, 0 < s.queue.deaths key → ∃ e ∈ s.queue.entries.rows, e.key = key
  locks : EachAfter HonoursLocks s.log

theorem Sound.honoured {s : RetryProtocol} (h : Sound s) : Honoured s where
  locks := h.locks
  completed e he worker hmem := (h.rows e he).completed ⟨worker, hmem⟩
  deadOnce e he := (h.rows e he).deadOnce
  deadStays e he := (h.rows e he).deadStays
  attempts e he := (h.rows e he).attempts

/-- A step that rewrites entries where they stand is sound when it is so for each of them. -/
theorem Sound.rewrite {s s' : RetryProtocol} (h : Sound s) {g : RetryEntry → RetryEntry}
    (hid : ∀ e, (g e).retryId = e.retryId) (hkey : ∀ e, (g e).key = e.key)
    (hrows : s'.queue.entries.rows = s.queue.entries.rows.map g)
    (hnext : s'.queue.nextRetryId = s.queue.nextRetryId)
    (hmentioned : ∀ event ∈ s'.log, ∀ id ∈ event.ids, id < s.queue.nextRetryId)
    (hdead : ∀ key, 0 < s'.queue.deaths key → ∃ e ∈ s.queue.entries.rows, e.key = key)
    (hlocks : EachAfter HonoursLocks s'.log)
    (hrow : ∀ e ∈ s.queue.entries.rows, EntrySound (lockOf s'.log e.retryId)
      (wasCompleted s'.log e.retryId) (s'.queue.deaths e.key) (g e)) : Sound s' := by
  constructor
  · intro e' he'
    rw [hrows] at he'
    obtain ⟨e, he, rfl⟩ := List.mem_map.mp he'
    rw [hid, hkey]
    exact hrow e he
  · intro d' hd' e' he' hsame
    rw [hrows] at hd' he'
    obtain ⟨d, hd, rfl⟩ := List.mem_map.mp hd'
    obtain ⟨e, he, rfl⟩ := List.mem_map.mp he'
    rw [hkey, hkey] at hsame
    rw [hid, hid]
    exact h.keys d hd e he hsame
  · intro e' he'
    rw [hrows] at he'
    obtain ⟨e, he, rfl⟩ := List.mem_map.mp he'
    rw [hid, hnext]
    exact h.known e he
  · rw [hnext]
    exact hmentioned
  · intro key hpos
    obtain ⟨e, he, hsame⟩ := hdead key hpos
    refine ⟨g e, ?_, (hkey e).trans hsame⟩
    rw [hrows]
    exact List.mem_map.mpr ⟨e, he, rfl⟩
  · exact hlocks

/-! ## One step -/

variable {s : RetryProtocol}

theorem Sound.append_mentioned (h : Sound s) {event : RetryEvent}
    (hids : ∀ id ∈ event.ids, id < s.queue.nextRetryId) :
    ∀ e ∈ s.log ++ [event], ∀ id ∈ e.ids, id < s.queue.nextRetryId := by
  intro e he
  rcases List.mem_append.mp he with hold | hnew
  · exact h.mentioned e hold
  · rw [List.mem_singleton.mp hnew]
    exact hids

theorem Sound.known_of_hasClaimed (h : Sound s) {worker retryId : Nat}
    (hclaimed : s.hasClaimed worker retryId = true) : retryId < s.queue.nextRetryId := by
  obtain ⟨event, hevent, hmine⟩ := List.any_eq_true.mp hclaimed
  refine h.mentioned event hevent retryId ?_
  cases event with
  | claimed w ids lockTimeout now => exact (of_decide_eq_true hmine).2
  | completed w id => cases hmine
  | failed w id => cases hmine

/-- A step that rewrites one entry is sound when it is so for that entry. -/
theorem Sound.one_entry (h : Sound s) {retryId : Nat} {f : RetryEntry → RetryEntry}
    (hid : ∀ e, (f e).retryId = e.retryId) (hkey : ∀ e, (f e).key = e.key) (event : RetryEvent)
    (hevent : event.ids = [retryId]) (hknown : retryId < s.queue.nextRetryId)
    (hlocks : HonoursLocks s.log event) {queue : RetryQueue}
    (hentries : queue.entries = s.queue.entries.update retryId f hid)
    (hnext : queue.nextRetryId = s.queue.nextRetryId)
    (hother : ∀ e ∈ s.queue.entries.rows, e.retryId ≠ retryId →
      queue.deaths e.key = s.queue.deaths e.key)
    (hdead : ∀ key, 0 < queue.deaths key → ∃ e ∈ s.queue.entries.rows, e.key = key)
    (hrow : ∀ e ∈ s.queue.entries.rows, e.retryId = retryId →
      EntrySound (lockAfter retryId (lockOf s.log retryId) event)
        (wasCompleted (s.log ++ [event]) retryId) (queue.deaths e.key) (f e)) :
    Sound { queue, log := s.log ++ [event] } := by
  have hrows : queue.entries.rows =
      s.queue.entries.rows.map fun e => if e.retryId = retryId then f e else e := by
    rw [hentries]
    rfl
  refine h.rewrite ?_ ?_ hrows hnext ?_ hdead (h.locks.append hlocks) ?_
  · intro e
    split
    · exact hid e
    · rfl
  · intro e
    split
    · exact hkey e
    · rfl
  · refine h.append_mentioned fun id hmem => ?_
    rw [hevent, List.mem_singleton] at hmem
    exact hmem ▸ hknown
  · intro e he
    by_cases hmine : e.retryId = retryId
    · rw [if_pos hmine, lockOf_append, hmine]
      exact hrow e he hmine
    · have hout : e.retryId ∉ event.ids := by
        rw [hevent, List.mem_singleton]
        exact hmine
      rw [if_neg hmine, lockOf_append, lockAfter_of_not_mem hout, wasCompleted_append hout,
        hother e he hmine]
      exact h.rows e he

theorem sound_complete (h : Sound s) (worker retryId : Nat) (now : Time) :
    Sound (s.step (.complete worker retryId now)) := by
  unfold step
  dsimp only
  split
  · rename_i hclaimed
    refine h.one_entry (f := RetryEntry.done now) (fun _ => rfl) (fun _ => rfl)
      (.completed worker retryId) rfl (h.known_of_hasClaimed hclaimed) trivial rfl rfl
      (fun _ _ _ => rfl) h.deadKeys ?_
    intro e he hid
    have hdone := (h.rows e he).done now
    have hcompleted : wasCompleted (s.log ++ [.completed worker retryId]) retryId :=
      ⟨worker, by simp⟩
    rw [hid] at hdone
    rw [eq_true hcompleted]
    exact hdone
  · exact h

/-- The one entry of an id, where it is alive. -/
theorem Sound.alive (h : Sound s) {retryId : Nat} {e : RetryEntry}
    (hfind : s.queue.entries.find? retryId = some e) (halive : s.queue.deaths e.key = 0) :
    EntrySound (lockOf s.log retryId) (wasCompleted s.log retryId) 0 e ∧
      ∀ d ∈ s.queue.entries.rows, d.retryId = retryId → d = e := by
  obtain ⟨hmem, hid⟩ := (Table.find?_eq_some_iff _ _ _).mp hfind
  have hsound := h.rows e hmem
  rw [halive, hid] at hsound
  refine ⟨hsound, fun d hd hdid => ?_⟩
  exact List.inj_on_of_nodup_map s.queue.entries.nodup hd hmem (hdid.trans hid.symm)

/-- The last failure: the entry is dead from now on. -/
theorem sound_buried (h : Sound s) {worker retryId : Nat} {e : RetryEntry} (error : String)
    (now : Time) (hknown : retryId < s.queue.nextRetryId)
    (hfind : s.queue.entries.find? retryId = some e) (halive : s.queue.deaths e.key = 0)
    (hmax : 0 < e.maxAttempts) :
    Sound
      { queue :=
          { s.queue with
            entries := s.queue.entries.update retryId (RetryEntry.buried error now) fun _ => rfl
            deadLetters := s.queue.deadLetters ++ [e.deadLetter error now] }
        log := s.log ++ [.failed worker retryId] } := by
  obtain ⟨hsound, honly⟩ := h.alive hfind halive
  obtain ⟨hmem, hid⟩ := (Table.find?_eq_some_iff _ _ _).mp hfind
  have hcount (key : RetryKey) : (s.queue.deadLetters ++ [e.deadLetter error now]).countP
      (fun d => decide (d.key = key)) = s.queue.deaths key + if e.key = key then 1 else 0 := by
    rw [List.countP_append, List.countP_singleton]
    unfold RetryQueue.deaths RetryEntry.deadLetter
    simp only [decide_eq_true_eq]
  have hcompleted : wasCompleted (s.log ++ [.failed worker retryId]) retryId ↔
      wasCompleted s.log retryId := wasCompleted_append_of_not fun _ heq => by cases heq
  refine h.one_entry (f := RetryEntry.buried error now) (fun _ => rfl) (fun _ => rfl)
    (.failed worker retryId) rfl hknown trivial rfl rfl ?_ ?_ ?_
  · intro d hd hne
    have hkey : e.key ≠ d.key := fun heq => hne ((h.keys e hmem d hd heq).symm.trans hid)
    refine (hcount d.key).trans ?_
    rw [if_neg hkey]
    rfl
  · intro key hpos
    by_cases hkey : e.key = key
    · exact ⟨e, hmem, hkey⟩
    · refine h.deadKeys key (hpos.trans_eq ?_)
      refine (hcount key).trans ?_
      rw [if_neg hkey]
      rfl
  · intro d hd hdid
    obtain rfl := honly d hd hdid
    have hone : RetryQueue.deaths
        { s.queue with
          entries := s.queue.entries.update retryId (RetryEntry.buried error now) fun _ => rfl
          deadLetters := s.queue.deadLetters ++ [d.deadLetter error now] } d.key = 1 := by
      refine (hcount d.key).trans ?_
      rw [halive, if_pos rfl]
    rw [hone, eq_iff_iff.mpr hcompleted]
    exact hsound.buried _ error now hmax

/-- A failure of its own worker lifts the lock of an entry. -/
theorem lock_lifted {lock : Option Lock} {completed : Prop} {deaths : Nat} {e : RetryEntry}
    (h : EntrySound lock completed deaths e) {worker : Nat} (retryId : Nat)
    (hopen : e.status = .pending ∨ e.status = .processing)
    (hmine : e.status = .processing → lock.any fun l => decide (l.worker = worker)) :
    lockAfter retryId lock (.failed worker retryId) = none := by
  rcases hopen with hs | hs
  · rw [h.unlocked hs]
    rfl
  · obtain ⟨l, rfl, -⟩ := h.locked hs
    have hworker : l.worker = worker := of_decide_eq_true (hmine hs)
    simp [lockAfter, hworker]

/-- Scheduled again, by the worker that has the lock if there is one. -/
theorem sound_rescheduled (h : Sound s) {worker retryId : Nat} {e : RetryEntry} (error : String)
    {delay : Option Int} (now : Time) (hknown : retryId < s.queue.nextRetryId)
    (hfind : s.queue.entries.find? retryId = some e) (halive : s.queue.deaths e.key = 0)
    (hkept : e.exhausts delay = false) (hopen : e.status ≠ .completed)
    (hmine : e.status = .processing →
      (lockOf s.log retryId).any fun l => decide (l.worker = worker)) :
    Sound
      { queue :=
          { s.queue with
            entries :=
              s.queue.entries.update retryId (RetryEntry.rescheduled error (delay.getD 0) now)
                fun _ => rfl }
        log := s.log ++ [.failed worker retryId] } := by
  obtain ⟨hsound, honly⟩ := h.alive hfind halive
  have hcompleted : wasCompleted (s.log ++ [.failed worker retryId]) retryId ↔
      wasCompleted s.log retryId := wasCompleted_append_of_not fun _ heq => by cases heq
  refine h.one_entry (f := RetryEntry.rescheduled error (delay.getD 0) now) (fun _ => rfl)
    (fun _ => rfl) (.failed worker retryId) rfl hknown trivial rfl rfl (fun _ _ _ => rfl)
    h.deadKeys ?_
  intro d hd hdid
  obtain rfl := honly d hd hdid
  have hdeaths : RetryQueue.deaths
      { s.queue with
        entries := s.queue.entries.update retryId
          (RetryEntry.rescheduled error (delay.getD 0) now) fun _ => rfl } d.key = 0 := halive
  rw [lock_lifted hsound retryId (hsound.status_open rfl hopen) hmine, hdeaths,
    eq_iff_iff.mpr hcompleted]
  exact hsound.rescheduled error now hkept hopen

theorem sound_fail (h : Sound s) {worker retryId : Nat} {error : String} {delay : Option Int}
    {now : Time} (hop : s.KeepsLocks (.fail worker retryId error delay now)) :
    Sound (s.step (.fail worker retryId error delay now)) := by
  unfold step
  dsimp only
  split
  · rename_i hclaimed
    have hknown := h.known_of_hasClaimed hclaimed
    unfold RetryQueue.failNotificationRetry
    split
    · -- there is no such entry, and none is rewritten
      rename_i hnone
      have hmissing := (Table.find?_eq_none_iff _ _).mp hnone
      refine h.rewrite (g := id) (fun _ => rfl) (fun _ => rfl) (List.map_id _).symm rfl
        (h.append_mentioned fun id hid => List.mem_singleton.mp hid ▸ hknown) h.deadKeys
        (h.locks.append (e := RetryEvent.failed worker retryId) trivial) fun e he => ?_
      have hout : e.retryId ∉ (RetryEvent.failed worker retryId).ids := fun hmem =>
        hmissing e he (List.mem_singleton.mp hmem)
      rw [lockOf_append, lockAfter_of_not_mem hout, wasCompleted_append hout]
      exact h.rows e he
    · rename_i e hfind
      obtain ⟨halive, hmax, hagain⟩ := hop hclaimed e hfind
      split
      · exact sound_buried h error now hknown hfind halive hmax
      · rename_i hkept
        obtain ⟨hopen, hmine⟩ := hagain (Bool.eq_false_of_not_eq_true hkept)
        exact sound_rescheduled h error now hknown hfind halive
          (Bool.eq_false_of_not_eq_true hkept) hopen hmine
  · exact h

/-- What a claim takes is due. -/
theorem isDue_of_candidate {maxItems lockTimeout : Int} {now : Time} {e : RetryEntry}
    (he : e ∈ s.queue.entries.rows) (h : e.retryId ∈ s.queue.candidateIds maxItems lockTimeout now) :
    e.isDue lockTimeout now = true := by
  unfold RetryQueue.candidateIds Table.limited at h
  obtain ⟨d, hd, hid⟩ := List.mem_map.mp h
  have hsorted : d ∈ (s.queue.entries.rows.filter fun e => e.isDue lockTimeout now).mergeSort
      fun d e => decide (d.nextAttemptAt ≤ e.nextAttemptAt) := by
    split at hd
    · exact hd
    · exact List.mem_of_mem_take hd
  obtain ⟨hmem, hdue⟩ := List.mem_filter.mp (List.mem_mergeSort.mp hsorted)
  exact List.inj_on_of_nodup_map s.queue.entries.nodup hmem he hid ▸ hdue

theorem claimable_of_isDue {lockTimeout : Int} {now : Time} {e : RetryEntry}
    (h : e.isDue lockTimeout now = true) : e.claimable = true := by
  rw [EntrySound.claimable_iff]
  exact (of_decide_eq_true h).imp And.left And.left

/-- The rows returned to a claim are those of the entries it took. -/
theorem mem_returned (q : RetryQueue) (maxItems lockTimeout : Int) (now : Time) (id : Nat) :
    id ∈ (q.claimDueNotificationRetries maxItems lockTimeout now).2.map RetryEntry.retryId ↔
      ∃ e ∈ q.entries.rows, e.retryId = id ∧ id ∈ q.candidateIds maxItems lockTimeout now := by
  have hid (e : RetryEntry) : (if decide (e.retryId ∈ q.candidateIds maxItems lockTimeout now) then
      e.claimed now else e).retryId = e.retryId := by
    split <;> rfl
  unfold RetryQueue.claimDueNotificationRetries Table.updateWhere
  dsimp only
  rw [List.mem_map]
  constructor
  · intro h
    obtain ⟨d, hd, rfl⟩ := h
    obtain ⟨hmem, htaken⟩ := List.mem_filter.mp hd
    obtain ⟨e, he, rfl⟩ := List.mem_map.mp hmem
    exact ⟨e, he, (hid e).symm, of_decide_eq_true htaken⟩
  · intro h
    obtain ⟨e, he, rfl, htaken⟩ := h
    refine ⟨_, List.mem_filter.mpr ⟨List.mem_map.mpr ⟨e, he, rfl⟩, ?_⟩, hid e⟩
    rw [hid]
    exact decide_eq_true htaken

/-- Entries that are due are claimed, and returned to the worker. -/
theorem Sound.claimed (h : Sound s) (worker : Nat) {taken ids : List Nat} {lockTimeout : Int}
    {now : Time} (hids : ∀ id, id ∈ ids ↔ ∃ e ∈ s.queue.entries.rows, e.retryId = id ∧ id ∈ taken)
    (hdue : ∀ e ∈ s.queue.entries.rows, e.retryId ∈ taken → e.isDue lockTimeout now = true)
    {maxItems : Int} (hop : s.KeepsLocks (.claim worker maxItems lockTimeout now)) :
    Sound
      { queue :=
          { s.queue with
            entries := s.queue.entries.updateWhere (fun e => decide (e.retryId ∈ taken))
              (RetryEntry.claimed now) fun _ => rfl }
        log := s.log ++ [.claimed worker ids lockTimeout now] } := by
  have hlocks : HonoursLocks s.log (.claimed worker ids lockTimeout now) := by
    intro id hmem lock hlock
    obtain ⟨e, he, rfl, htaken⟩ := (hids id).mp hmem
    have hsound := h.rows e he
    rcases of_decide_eq_true (hdue e he htaken) with ⟨hs, -⟩ | ⟨hs, htimeout⟩
    · rw [hsound.unlocked hs] at hlock
      cases hlock
    · obtain ⟨l, hl, hstamp⟩ := hsound.locked hs
      obtain rfl : l = lock := Option.some.inj (hl.symm.trans hlock)
      rw [← hstamp] at htimeout
      exact timeout_passed htimeout fun hsame => hop e he hs (hstamp.symm.trans hsame) l hlock
  refine h.rewrite (g := fun e => if decide (e.retryId ∈ taken) then e.claimed now else e) ?_ ?_
    rfl rfl ?_ h.deadKeys (h.locks.append hlocks) ?_
  · intro e
    split <;> rfl
  · intro e
    split <;> rfl
  · refine h.append_mentioned fun id hid => ?_
    obtain ⟨e, he, rfl, -⟩ := (hids id).mp hid
    exact h.known e he
  · intro e he
    have hcompleted : wasCompleted (s.log ++ [.claimed worker ids lockTimeout now]) e.retryId ↔
        wasCompleted s.log e.retryId := wasCompleted_append_of_not fun _ heq => by cases heq
    rw [lockOf_append, eq_iff_iff.mpr hcompleted]
    by_cases htaken : e.retryId ∈ taken
    · have hin : e.retryId ∈ ids := (hids e.retryId).mpr ⟨e, he, rfl, htaken⟩
      rw [if_pos (decide_eq_true htaken)]
      unfold lockAfter
      dsimp only
      rw [if_pos hin]
      exact (h.rows e he).claimed worker now (claimable_of_isDue (hdue e he htaken))
    · have hout : e.retryId ∉ ids := fun hin => by
        obtain ⟨-, -, -, hmem⟩ := (hids e.retryId).mp hin
        exact htaken hmem
      have hsame : lockAfter e.retryId (lockOf s.log e.retryId)
          (.claimed worker ids lockTimeout now) = lockOf s.log e.retryId := if_neg hout
      rw [decide_eq_false htaken, if_neg Bool.false_ne_true, hsame]
      exact h.rows e he

theorem sound_claim (h : Sound s) {worker : Nat} {maxItems lockTimeout : Int} {now : Time}
    (hop : s.KeepsLocks (.claim worker maxItems lockTimeout now)) :
    Sound (s.step (.claim worker maxItems lockTimeout now)) :=
  h.claimed worker (mem_returned s.queue maxItems lockTimeout now)
    (fun _ he htaken => isDue_of_candidate he htaken) hop

/-- A notification that is queued for the first time gets an id of its own. -/
theorem Sound.added (h : Sound s) {r : RetryRequest} (now : Time)
    (hunused : ∀ e ∈ s.queue.entries.rows, e.key ≠ r.key) (hmax : 0 ≤ r.maxAttempts) :
    Sound
      { s with
        queue :=
          { s.queue with
            entries := s.queue.entries.insertOrIgnore (r.entry s.queue.nextRetryId now)
            nextRetryId := s.queue.nextRetryId + 1 } } := by
  have hrows : (s.queue.entries.insertOrIgnore (r.entry s.queue.nextRetryId now)).rows =
      s.queue.entries.rows ++ [r.entry s.queue.nextRetryId now] :=
    Table.rows_insertOrIgnore_of_fresh fun e he hid => (h.known e he).ne hid
  have hfresh : ∀ event ∈ s.log, s.queue.nextRetryId ∉ event.ids := fun event hevent hid =>
    Nat.lt_irrefl _ (h.mentioned event hevent _ hid)
  have hnone : s.queue.deaths r.key = 0 := by
    by_contra hpos
    obtain ⟨e, he, hkey⟩ := h.deadKeys r.key (Nat.pos_of_ne_zero hpos)
    exact hunused e he hkey
  have hcases {e : RetryEntry}
      (he : e ∈ (s.queue.entries.insertOrIgnore (r.entry s.queue.nextRetryId now)).rows) :
      e ∈ s.queue.entries.rows ∨ e = r.entry s.queue.nextRetryId now := by
    rw [hrows] at he
    exact (List.mem_append.mp he).imp_right List.mem_singleton.mp
  constructor
  · intro e he
    rcases hcases he with hold | rfl
    · exact h.rows e hold
    · have hlock : lockOf s.log s.queue.nextRetryId = none := lockOf_of_unmentioned hfresh
      have hopen : ¬wasCompleted s.log s.queue.nextRetryId := fun ⟨_, hmem⟩ =>
        hfresh _ hmem (List.mem_singleton_self _)
      have hentry := EntrySound.entry r s.queue.nextRetryId now hmax hopen
      rw [← hlock, ← hnone] at hentry
      exact hentry
  · intro d hd e he hsame
    rcases hcases hd with hd | rfl
    · rcases hcases he with he | rfl
      · exact h.keys d hd e he hsame
      · exact absurd hsame (hunused d hd)
    · rcases hcases he with he | rfl
      · exact absurd hsame.symm (hunused e he)
      · rfl
  · intro e he
    rcases hcases he with hold | rfl
    · exact Nat.lt_succ_of_lt (h.known e hold)
    · exact Nat.lt_succ_self _
  · intro event hevent id hid
    exact Nat.lt_succ_of_lt (h.mentioned event hevent id hid)
  · intro key hpos
    obtain ⟨e, he, hkey⟩ := h.deadKeys key hpos
    refine ⟨e, ?_, hkey⟩
    change e ∈ (s.queue.entries.insertOrIgnore (r.entry s.queue.nextRetryId now)).rows
    rw [hrows]
    exact List.mem_append_left _ he
  · exact h.locks

theorem sound_enqueue (h : Sound s) {r : RetryRequest} {now : Time}
    (hop : s.KeepsLocks (.enqueue r now)) : Sound (s.step (.enqueue r now)) := by
  unfold step RetryQueue.enqueueNotificationRetry
  unfold KeepsLocks at hop
  dsimp only at hop ⊢
  cases hfind : s.queue.ofKey r.key with
  | none =>
      rw [hfind] at hop
      refine h.added now (fun e he heq => ?_) hop
      exact List.find?_eq_none.mp hfind e he (decide_eq_true heq)
  | some d =>
      rw [hfind] at hop
      have hmem : d ∈ s.queue.entries.rows := List.mem_of_find?_eq_some hfind
      refine h.rewrite (g := fun e => if e.retryId = d.retryId then e.requeued r now else e) ?_ ?_
        rfl rfl h.mentioned h.deadKeys h.locks ?_
      · intro e
        split <;> rfl
      · intro e
        split <;> rfl
      · intro e he
        by_cases hid : e.retryId = d.retryId
        · obtain rfl := List.inj_on_of_nodup_map s.queue.entries.nodup he hmem hid
          rw [if_pos rfl]
          exact (h.rows e he).requeued r now hop
        · rw [if_neg hid]
          exact h.rows e he

/-- In every run whose steps keep the locks, the protocol is honoured throughout. -/
theorem retry_protocol_honoured (ops : List RetryOp)
    (h : StepsMeet step KeepsLocks { queue := { entries := Table.empty } } ops) :
    Always step Honoured { queue := { entries := Table.empty } } ops := by
  have hstart : Sound { queue := { entries := Table.empty } } := by
    constructor
    · intro e he
      cases he
    · intro d hd
      cases hd
    · intro e he
      cases he
    · intro event hevent
      cases hevent
    · intro key hpos
      cases hpos
    · exact eachAfter_nil _
  refine (always_of_stepsMeet (I := Sound) (fun s op _ hs hop => ?_) hstart h).mono
    fun _ hs => hs.honoured
  cases op with
  | enqueue r now => exact sound_enqueue hs hop
  | claim worker maxItems lockTimeout now => exact sound_claim hs hop
  | complete worker retryId now => exact sound_complete hs worker retryId now
  | fail worker retryId error delay now => exact sound_fail hs hop

end RetryProtocol

/-! ## A notification queued again while it is retried -/

def sampleRequest : RetryRequest where
  key := { signalId := "SIG-1", username := "admin", channel := "TELEGRAM" }
  destination := "42"
  payload := "message"
  errorMessage := "timed out"

/-- Queued, claimed when it is due, and failed for a second time. -/
def failedRetry : List RetryOp :=
  [.enqueue sampleRequest 0, .claim 1 20 60 (5 * second), .fail 1 1 "timed out" (some 15) (6 * second)]

theorem retry_protocol_honoured_failed :
    Always RetryProtocol.step RetryProtocol.Honoured { queue := { entries := Table.empty } }
      failedRetry := by
  refine RetryProtocol.retry_protocol_honoured failedRetry ⟨?_, ?_, ?_, trivial⟩
  · change (0 : Int) ≤ 3
    decide
  · have hpending : ∀ e ∈ (RetryProtocol.step { queue := { entries := Table.empty } }
        (.enqueue sampleRequest 0)).queue.entries.rows, e.status ≠ .processing := by
      decide +kernel
    intro e he hs
    exact absurd hs (hpending e he)
  · intro _ e hfind
    have hmem := ((Table.find?_eq_some_iff _ _ _).mp hfind).1
    clear hfind
    revert e
    decide +kernel

/-- Queued again while it is retried, the notification is claimed by a second worker six seconds
after the first. -/
theorem reclaimed_after_requeue :
    ¬Always RetryProtocol.step RetryProtocol.Honoured { queue := { entries := Table.empty } }
      [.enqueue sampleRequest 0, .claim 1 20 60 (5 * second), .enqueue sampleRequest (6 * second),
        .claim 2 20 60 (11 * second)] := by
  intro h
  have hlocks := h.final.locks [.claimed 1 [1] 60 (5 * second)] (.claimed 2 [1] 60 (11 * second)) []
    (by decide +kernel)
  have hsooner := hlocks 1 (by decide) ⟨1, 5 * second⟩ (by decide)
  revert hsooner
  decide

end AutoTrade.Notify
