import AutoTrade.Notify.TelegramQueue
import Mathlib.Data.List.Count
import Mathlib.Algebra.BigOperators.Group.List.Basic
import Mathlib.Algebra.Order.BigOperators.Group.List

/-! # What a run of the Telegram queue keeps

Every message given to `enqueue` is in the heap, has been popped for delivery,
or was removed or refused; the heap is a heap after every call. Which messages
are removed, and how they are counted, depends on the queue that a critical or
a normal message meets when it is full.
-/

namespace AutoTrade.Notify

open AutoTrade.Library Heap TelegramQueue

/-! ## One call -/

theorem enqueue_accounted (q : TelegramQueue) (c : EnqueueCall) :
    ((q.enqueue c).1.heap ++ (q.enqueue c).2).Perm (c.message :: q.heap) := by
  have hpush : ∀ heap : List TelegramMessage,
      (heappush TelegramMessage.rank heap c.message ++ []).Perm (c.message :: heap) := by
    intro heap
    rw [List.append_nil]
    exact heappush_perm heap c.message
  unfold enqueue
  cases hp : c.priority with
  | low =>
      dsimp only
      split
      · exact List.perm_append_singleton _ _
      · exact hpush q.heap
  | high => exact hpush q.heap
  | normal =>
      dsimp only
      split
      · -- what is filtered out and what is kept make up the heap
        have hsplit : (q.heap.filter c.expired ++
            heapify TelegramMessage.rank (q.heap.filter fun m => !c.expired m)).Perm q.heap :=
          ((heapify_perm _).append_left _).trans (List.filter_append_perm _ _)
        split
        · refine (List.perm_append_comm.trans ?_)
          rw [List.append_assoc, List.singleton_append]
          exact List.perm_middle.trans (hsplit.cons _)
        · refine ((heappush_perm _ _).append_right _).trans ?_
          exact (List.perm_append_comm.trans hsplit).cons _
      · exact hpush q.heap
  | critical =>
      dsimp only
      split
      · refine ((heappush_perm _ _).append_right _).trans (List.Perm.cons _ ?_)
        refine ((heapify_perm _).append_right _).trans (List.perm_append_comm.trans ?_)
        exact (makeRoom_perm _ _).trans (List.perm_insertionSort _ _)
      · exact hpush q.heap

theorem enqueue_isHeap {q : TelegramQueue} (valid : IsHeap TelegramMessage.rank q.heap)
    (c : EnqueueCall) : IsHeap TelegramMessage.rank (q.enqueue c).1.heap := by
  unfold enqueue
  cases hp : c.priority with
  | low =>
      dsimp only
      split
      · exact valid
      · exact valid.heappush _
  | high => exact valid.heappush _
  | normal =>
      dsimp only
      split
      · split
        · exact isHeap_heapify _
        · exact (isHeap_heapify _).heappush _
      · exact valid.heappush _
  | critical =>
      dsimp only
      split
      · exact (isHeap_heapify _).heappush _
      · exact valid.heappush _

/-- The call removes or refuses nothing important and counts what it does under its own level. -/
structure DropsRight (q : TelegramQueue) (c : EnqueueCall) : Prop where
  unimportant : ∀ m ∈ (q.enqueue c).2, m.important = false
  counted : ∀ level, (q.enqueue c).1.droppedByLevel level =
    q.droppedByLevel level + ((q.enqueue c).2.map TelegramMessage.priority).count level

/-- The queue has room, or holds important messages only, or messages of one level only. -/
def RoomForCritical (q : TelegramQueue) (c : EnqueueCall) : Prop :=
  q.heap.length < c.limits.maxQueueDepth ∨ (∀ m ∈ q.heap, m.important = true) ∨
    ∃ level, ∀ m ∈ q.heap, m.priority = level

/-- The queue has room, or nothing in it has expired. -/
def RoomForNormal (q : TelegramQueue) (c : EnqueueCall) : Prop :=
  q.heap.length < c.limits.maxQueueDepth ∨ ∀ m ∈ q.heap, c.expired m = false

def SafeEnqueue (q : TelegramQueue) (c : EnqueueCall) : Prop :=
  (c.priority = .critical → RoomForCritical q c) ∧ (c.priority = .normal → RoomForNormal q c)

/-- Where the unimportant messages `refused` are counted and the messages `removed` are not, the
call drops right exactly when it removes none. -/
theorem dropsRight_iff_nothing_removed {q : TelegramQueue} {c : EnqueueCall}
    {removed refused : List TelegramMessage} (lost : (q.enqueue c).2 = removed ++ refused)
    (counted : ∀ level, (q.enqueue c).1.droppedByLevel level =
      q.droppedByLevel level + (refused.map TelegramMessage.priority).count level)
    (unimportant : ∀ m ∈ refused, m.important = false) : DropsRight q c ↔ removed = [] := by
  constructor
  · intro hright
    rw [List.eq_nil_iff_forall_not_mem]
    intro m hm
    have hcount := hright.counted m.priority
    rw [lost, counted, List.map_append, List.count_append] at hcount
    have hzero : (removed.map TelegramMessage.priority).count m.priority = 0 := by omega
    exact List.count_eq_zero.mp hzero (List.mem_map_of_mem hm)
  · intro hnone
    rw [hnone, List.nil_append] at lost
    refine ⟨?_, ?_⟩
    · rw [lost]
      exact unimportant
    · intro level
      rw [lost, counted]

theorem dropsRight_of_nothing {q : TelegramQueue} {c : EnqueueCall}
    (lost : (q.enqueue c).2 = []) (counted : (q.enqueue c).1.droppedByLevel = q.droppedByLevel) :
    DropsRight q c := by
  have hnone : (q.enqueue c).2 = [] ++ [] := lost
  rw [dropsRight_iff_nothing_removed hnone]
  · intro level
    rw [counted]
    rfl
  · intro m hm
    cases hm

theorem dropsRight_high {q : TelegramQueue} {c : EnqueueCall} (h : c.priority = .high) :
    DropsRight q c := by
  apply dropsRight_of_nothing <;> simp only [enqueue, h]

theorem dropsRight_low {q : TelegramQueue} {c : EnqueueCall} (h : c.priority = .low) :
    DropsRight q c := by
  have hpriority : c.message.priority = .low := h
  by_cases hdeep : c.limits.lowDropThreshold < q.heap.length
  · have hcall : q.enqueue c = (q.countDrops [.low], [c.message]) := by
      simp only [enqueue, h, if_pos hdeep]
    have hlost : (q.enqueue c).2 = [] ++ [c.message] := by rw [hcall, List.nil_append]
    rw [dropsRight_iff_nothing_removed hlost]
    · intro level
      rw [hcall, List.map_singleton, hpriority]
      rfl
    · intro m hm
      rw [List.mem_singleton.mp hm]
      simp [TelegramMessage.important, TelegramMessage.rank, hpriority, TelegramPriority.value]
  · apply dropsRight_of_nothing <;> simp only [enqueue, h, if_neg hdeep]

theorem dropsRight_normal_iff {q : TelegramQueue} {c : EnqueueCall} (h : c.priority = .normal) :
    DropsRight q c ↔ RoomForNormal q c := by
  have hpriority : c.message.priority = .normal := h
  by_cases hfull : c.limits.maxQueueDepth ≤ q.heap.length
  · have hroom : RoomForNormal q c ↔ q.heap.filter c.expired = [] := by
      simp only [RoomForNormal, List.filter_eq_nil_iff, Bool.not_eq_true]
      exact or_iff_right (not_lt.mpr hfull)
    rw [hroom]
    by_cases hstill : c.limits.maxQueueDepth ≤
        (heapify TelegramMessage.rank (q.heap.filter fun m => !c.expired m)).length
    · have hlost : (q.enqueue c).2 = q.heap.filter c.expired ++ [c.message] := by
        simp only [enqueue, h, if_pos hfull, if_pos hstill]
      apply dropsRight_iff_nothing_removed hlost
      · intro level
        simp only [enqueue, h, if_pos hfull, if_pos hstill, countDrops, List.map_singleton,
          hpriority]
      · intro m hm
        rw [List.mem_singleton.mp hm]
        simp [TelegramMessage.important, TelegramMessage.rank, hpriority, TelegramPriority.value]
    · have hlost : (q.enqueue c).2 = q.heap.filter c.expired ++ [] := by
        simp only [enqueue, h, if_pos hfull, if_neg hstill, List.append_nil]
      apply dropsRight_iff_nothing_removed hlost
      · intro level
        simp only [enqueue, h, if_pos hfull, if_neg hstill, List.map_nil, List.count_nil, add_zero]
      · intro m hm
        cases hm
  · refine iff_of_true ?_ (.inl (not_le.mp hfull))
    apply dropsRight_of_nothing <;> simp only [enqueue, h, if_neg hfull]

/-- Counted under levels no better than their own and one under a worse level, the messages do not
match their counts. -/
theorem counts_differ {drops : List (TelegramMessage × TelegramPriority)}
    (le : ∀ e ∈ drops, e.1.rank ≤ e.2.value) (lt : ∃ e ∈ drops, e.1.rank < e.2.value) :
    ¬ ∀ level, (drops.map Prod.snd).count level =
      ((drops.map Prod.fst).map TelegramMessage.priority).count level := by
  intro hcounts
  have hperm := (List.perm_iff_count.mpr hcounts).map TelegramPriority.value
  have hsum := hperm.sum_eq
  simp only [List.map_map] at hsum
  have hlt := List.sum_lt_sum (fun e : TelegramMessage × TelegramPriority => e.1.rank)
    (fun e => e.2.value) le lt
  exact absurd hsum hlt.ne'

theorem dropsRight_critical_iff {q : TelegramQueue} {c : EnqueueCall} (h : c.priority = .critical) :
    DropsRight q c ↔ RoomForCritical q c := by
  by_cases hfull : c.limits.maxQueueDepth ≤ q.heap.length
  · -- the loop runs on the sorted queue, which has the same messages
    generalize hsorted : q.heap.insertionSort (fun a b => a.rank ≤ b.rank) = sorted
    generalize hroom : makeRoom c.limits.maxQueueDepth sorted = room
    have hperm : sorted.Perm q.heap := hsorted ▸ List.perm_insertionSort _ _
    have hpairwise : sorted.Pairwise fun a b => a.rank ≤ b.rank :=
      hsorted ▸ List.pairwise_insertionSort (fun a b : TelegramMessage => a.rank ≤ b.rank) q.heap
    have hlost : (q.enqueue c).2 = room.1.map Prod.fst := by
      simp only [enqueue, h, if_pos hfull, hsorted, hroom]
    have hdropped : ∀ level, (q.enqueue c).1.droppedByLevel level =
        q.droppedByLevel level + (room.1.map Prod.snd).count level := by
      intro level
      simp only [enqueue, h, if_pos hfull, hsorted, hroom, countDrops]
    constructor
    · intro hright
      by_contra hnot
      simp only [RoomForCritical, not_or] at hnot
      obtain ⟨_, hunimportant, hmixed⟩ := hnot
      simp only [← hperm.mem_iff] at hunimportant hmixed
      have hfull' : c.limits.maxQueueDepth ≤ sorted.length := by rw [hperm.length_eq]; exact hfull
      have hlt := makeRoom_of_mixed hfull' hpairwise hunimportant hmixed
      have hle := makeRoom_rank_le c.limits.maxQueueDepth sorted (isHeap_of_pairwise hpairwise)
      rw [hroom] at hlt hle
      apply counts_differ hle hlt
      intro level
      have hcount := hright.counted level
      rw [hlost, hdropped] at hcount
      omega
    · intro hsafe
      have hdrops : ∀ e ∈ room.1, e.1.priority = e.2 ∧ e.1.important = false := by
        cases hsafe with
        | inl hspace => omega
        | inr hcase =>
            cases hcase with
            | inl himportant =>
                simp only [← hperm.mem_iff] at himportant
                rw [← hroom, makeRoom_of_important _ himportant]
                simp
            | inr huniform =>
                obtain ⟨level, huniform⟩ := huniform
                simp only [← hperm.mem_iff] at huniform
                rw [← hroom]
                exact makeRoom_uniform _ _ huniform
      have hlevels : (room.1.map Prod.fst).map TelegramMessage.priority = room.1.map Prod.snd := by
        rw [List.map_map]
        exact List.map_congr_left fun e he => (hdrops e he).1
      refine ⟨?_, ?_⟩
      · rw [hlost]
        intro m hm
        obtain ⟨e, he, rfl⟩ := List.mem_map.mp hm
        exact (hdrops e he).2
      · intro level
        rw [hdropped, hlost, hlevels]
  · refine iff_of_true ?_ (.inl (not_le.mp hfull))
    apply dropsRight_of_nothing <;> simp only [enqueue, h, if_neg hfull]

theorem dropsRight_iff_safeEnqueue (q : TelegramQueue) (c : EnqueueCall) :
    DropsRight q c ↔ SafeEnqueue q c := by
  unfold SafeEnqueue
  cases h : c.priority with
  | critical => simp [dropsRight_critical_iff h]
  | high => simp [dropsRight_high h]
  | normal => simp [dropsRight_normal_iff h]
  | low => simp [dropsRight_low h]

/-! ## Runs -/

/-- A queue with what it was given, what the drain loop popped and what `enqueue` dropped. -/
structure QueueHistory where
  queue : TelegramQueue := {}
  enqueued : List TelegramMessage := []
  popped : List TelegramMessage := []
  lost : List TelegramMessage := []

inductive QueueOp
  | enqueue (c : EnqueueCall)
  | pop

namespace QueueHistory

def step (s : QueueHistory) : QueueOp → QueueHistory
  | .enqueue c =>
      { s with
        queue := (s.queue.enqueue c).1
        enqueued := s.enqueued ++ [c.message]
        lost := s.lost ++ (s.queue.enqueue c).2 }
  | .pop =>
      match heappop TelegramMessage.rank s.queue.heap with
      | none => s
      | some (m, rest) =>
          { s with queue := { s.queue with heap := rest }, popped := s.popped ++ [m] }

end QueueHistory

open QueueHistory

structure AlertsKept (s : QueueHistory) : Prop where
  accounted : s.enqueued.Perm (s.queue.heap ++ s.popped ++ s.lost)
  /-- The important messages ever enqueued are those in the heap and those popped. -/
  kept : (s.enqueued.filter TelegramMessage.important).Perm
    ((s.queue.heap ++ s.popped).filter TelegramMessage.important)
  heap : IsHeap TelegramMessage.rank s.queue.heap
  /-- The drain loop takes a message of the best priority there is. -/
  best : ∀ m rest, heappop TelegramMessage.rank s.queue.heap = some (m, rest) →
    ∀ other ∈ s.queue.heap, m.rank ≤ other.rank
  counted : ∀ level,
    s.queue.droppedByLevel level = (s.lost.map TelegramMessage.priority).count level

theorem kept_iff_lost_unimportant {s : QueueHistory}
    (accounted : s.enqueued.Perm (s.queue.heap ++ s.popped ++ s.lost)) :
    (s.enqueued.filter TelegramMessage.important).Perm
        ((s.queue.heap ++ s.popped).filter TelegramMessage.important) ↔
      ∀ m ∈ s.lost, m.important = false := by
  have hall := accounted.filter TelegramMessage.important
  rw [List.filter_append] at hall
  constructor
  · intro hkept m hm
    have hlength := (hkept.symm.trans hall).length_eq
    rw [List.length_append] at hlength
    have hnone : s.lost.filter TelegramMessage.important = [] :=
      List.length_eq_zero_iff.mp (by omega)
    simpa using List.filter_eq_nil_iff.mp hnone m hm
  · intro hlost
    have hnone : s.lost.filter TelegramMessage.important = [] := by
      rw [List.filter_eq_nil_iff]
      intro m hm
      rw [hlost m hm]
      decide
    rw [hnone, List.append_nil] at hall
    exact hall

/-- The call of the step meets a queue that it can be added to without a wrong drop. -/
def SafeOp (s : QueueHistory) : QueueOp → Prop
  | .enqueue c => SafeEnqueue s.queue c
  | .pop => True

theorem accounted_enqueue {s : QueueHistory} (c : EnqueueCall)
    (accounted : s.enqueued.Perm (s.queue.heap ++ s.popped ++ s.lost)) :
    (s.step (.enqueue c)).enqueued.Perm ((s.step (.enqueue c)).queue.heap ++
      (s.step (.enqueue c)).popped ++ (s.step (.enqueue c)).lost) := by
  have hcall := enqueue_accounted s.queue c
  simp only [step]
  generalize (s.queue.enqueue c).1.heap = heap at hcall ⊢
  generalize (s.queue.enqueue c).2 = dropped at hcall ⊢
  rw [List.perm_iff_count] at hcall accounted ⊢
  intro m
  have hm := hcall m
  have hold := accounted m
  simp only [List.count_append, List.count_cons, List.count_nil] at hm hold ⊢
  omega

theorem alertsKept_enqueue_iff {s : QueueHistory} (h : AlertsKept s) (c : EnqueueCall) :
    AlertsKept (s.step (.enqueue c)) ↔ DropsRight s.queue c := by
  have haccounted := accounted_enqueue c h.accounted
  have hlost := (kept_iff_lost_unimportant h.accounted).mp h.kept
  have hcount : ∀ level,
      ((s.step (.enqueue c)).lost.map TelegramMessage.priority).count level =
        s.queue.droppedByLevel level +
          ((s.queue.enqueue c).2.map TelegramMessage.priority).count level := by
    intro level
    rw [h.counted level]
    simp only [step, List.map_append, List.count_append]
  constructor
  · intro hafter
    have hafterLost := (kept_iff_lost_unimportant haccounted).mp hafter.kept
    refine ⟨?_, ?_⟩
    · intro m hm
      exact hafterLost m (List.mem_append_right _ hm)
    · intro level
      exact (hafter.counted level).trans (hcount level)
  · intro hright
    have hheap := enqueue_isHeap h.heap c
    refine ⟨haccounted, ?_, hheap, ?_, ?_⟩
    · rw [kept_iff_lost_unimportant haccounted]
      intro m hm
      cases List.mem_append.mp hm with
      | inl hold => exact hlost m hold
      | inr hnew => exact hright.unimportant m hnew
    · intro m rest hpop
      exact (hheap.heappop hpop).1
    · intro level
      exact (hright.counted level).trans (hcount level).symm

theorem alertsKept_pop {s : QueueHistory} (h : AlertsKept s) : AlertsKept (s.step .pop) := by
  simp only [step]
  cases hpop : heappop TelegramMessage.rank s.queue.heap with
  | none => exact h
  | some taken =>
      obtain ⟨m, rest⟩ := taken
      have hperm := heappop_perm hpop
      have hheap := (h.heap.heappop hpop).2
      have hmoved : (s.queue.heap ++ s.popped).Perm (rest ++ (s.popped ++ [m])) := by
        refine (hperm.append_right _).trans ?_
        rw [← List.append_assoc]
        exact (List.perm_append_singleton m (rest ++ s.popped)).symm
      refine ⟨h.accounted.trans (hmoved.append_right _),
        h.kept.trans (hmoved.filter TelegramMessage.important), hheap, ?_, h.counted⟩
      intro first others hfirst
      exact (hheap.heappop hfirst).1

/-- Over every run of calls and pops from the empty queue: important messages are in the heap or
popped, the heap is one, the best message is taken next and every drop is counted under its level,
exactly when each critical message meets room, important messages only or one level only, and each
normal message meets room or nothing that has expired. -/
theorem alerts_kept_iff (ops : List QueueOp) :
    Always step AlertsKept {} ops ↔ StepsMeet step SafeOp {} ops := by
  have hinit : AlertsKept {} := by
    refine ⟨.refl _, .refl _, ?_, ?_, fun _ => rfl⟩
    · intro i _ _
      exact le_refl _
    · intro m rest hpop
      cases hpop
  apply always_iff_stepsMeet
  · intro s op _ h
    cases op with
    | enqueue c => exact (alertsKept_enqueue_iff h c).trans (dropsRight_iff_safeEnqueue s.queue c)
    | pop => exact iff_of_true (alertsKept_pop h) trivial
  · exact hinit

/-- A call at time `t` with a queue depth of two. -/
def callAtDepthTwo (text : String) (priority : TelegramPriority) (t : Time) : EnqueueCall where
  text := text
  priority := priority
  limits := { maxQueueDepth := 2 }
  ts := t
  now := t

/-- A queue that is full with a trade entry and a heartbeat meets a circuit breaker alert. -/
def tradeEntryThenBreaker : List QueueOp :=
  [.enqueue (callAtDepthTwo "entry" .high 0), .enqueue (callAtDepthTwo "heartbeat" .low 1),
    .enqueue (callAtDepthTwo "breaker" .critical 2)]

/-- The trade entry is dropped and counted as a heartbeat. -/
theorem trade_entry_dropped_for_breaker : ¬ Always step AlertsKept {} tradeEntryThenBreaker := by
  intro always
  exact absurd always.final.kept (by decide +kernel)

end AutoTrade.Notify
