import AutoTrade.Library.Heap
import AutoTrade.Library.Run
import AutoTrade.Runtime
import Mathlib.Data.List.Sort

/-! # The Telegram priority queue

Messages wait in a heap ordered by priority. A message of low priority is
refused when the queue is deep, one of normal priority when it is full after
the expired messages have been thrown out, and one of critical priority makes
room for itself: the loop looks at the last entry of the sorted queue and pops
the first.
-/

namespace AutoTrade.Notify

open AutoTrade.Library

inductive TelegramPriority
  | critical
  | high
  | normal
  | low
deriving DecidableEq, Repr

def TelegramPriority.value : TelegramPriority → Nat
  | .critical => 0
  | .high => 1
  | .normal => 2
  | .low => 3

structure TelegramMessage where
  priority : TelegramPriority
  ts : Time
  text : String
  parseMode : String := "text"
  retryCount : Nat := 0
deriving DecidableEq, Repr

namespace TelegramMessage

/-- Messages are compared by their priority alone. -/
def rank (m : TelegramMessage) : Nat := m.priority.value

/-- `m.priority <= TelegramPriority.HIGH`. -/
def important (m : TelegramMessage) : Bool := decide (m.rank ≤ TelegramPriority.high.value)

theorem important_congr {a b : TelegramMessage} (h : a.priority = b.priority) :
    a.important = b.important := by
  unfold important rank
  rw [h]

end TelegramMessage

/-- The limits as `enqueue` reads them from the config, with defaults 20, 5 and 30. -/
structure QueueLimits where
  maxQueueDepth : Int := 20
  lowDropThreshold : Int := 5
  normalDropAgeSecs : Int := 30
deriving DecidableEq, Repr

structure TelegramQueue where
  heap : List TelegramMessage := []
  droppedByLevel : TelegramPriority → Nat := fun _ => 0

/-- One call of `enqueue`: its arguments, the limits and the two clock readings it makes. -/
structure EnqueueCall where
  text : String
  priority : TelegramPriority := .normal
  limits : QueueLimits := {}
  ts : Time
  now : Time
deriving DecidableEq, Repr

def EnqueueCall.message (c : EnqueueCall) : TelegramMessage where
  priority := c.priority
  ts := c.ts
  text := c.text

def EnqueueCall.expired (c : EnqueueCall) (m : TelegramMessage) : Bool :=
  !m.important && decide (c.limits.normalDropAgeSecs * second < c.now - m.ts)

namespace TelegramQueue

open Heap

/-- One increment of `_dropped_by_level` for each of the levels. -/
def countDrops (q : TelegramQueue) (levels : List TelegramPriority) : TelegramQueue :=
  { q with droppedByLevel := fun level => q.droppedByLevel level + levels.count level }

/-- The make-room loop: each message that is popped, with the level it is counted under, and the
rest. -/
def makeRoom (maxDepth : Int) (heap : List TelegramMessage) :
    List (TelegramMessage × TelegramPriority) × List TelegramMessage :=
  if maxDepth ≤ heap.length then
    match heap.getLast? with
    | none => ([], heap)
    | some worst =>
        if worst.important then ([], heap)
        else
          match _h : heappop TelegramMessage.rank heap with
          | none => ([], heap)
          | some (popped, rest) =>
              let later := makeRoom maxDepth rest
              ((popped, worst.priority) :: later.1, later.2)
  else ([], heap)
termination_by heap.length
decreasing_by rw [length_of_heappop _h]; exact Nat.lt_succ_self _

/-- The queue after a call, and the messages that the call removed or refused. -/
def enqueue (q : TelegramQueue) (c : EnqueueCall) : TelegramQueue × List TelegramMessage :=
  let msg := c.message
  let full := c.limits.maxQueueDepth ≤ q.heap.length
  match c.priority with
  | .low =>
      if c.limits.lowDropThreshold < q.heap.length then (q.countDrops [.low], [msg])
      else ({ q with heap := heappush TelegramMessage.rank q.heap msg }, [])
  | .normal =>
      if full then
        -- the expired messages go without being counted
        let expired := q.heap.filter c.expired
        let kept := heapify TelegramMessage.rank (q.heap.filter fun m => !c.expired m)
        if c.limits.maxQueueDepth ≤ kept.length then
          ({ q with heap := kept }.countDrops [.normal], expired ++ [msg])
        else ({ q with heap := heappush TelegramMessage.rank kept msg }, expired)
      else ({ q with heap := heappush TelegramMessage.rank q.heap msg }, [])
  | .critical =>
      if full then
        let sorted := q.heap.insertionSort fun a b => a.rank ≤ b.rank
        let room := makeRoom c.limits.maxQueueDepth sorted
        let kept := heapify TelegramMessage.rank room.2
        ({ q with heap := heappush TelegramMessage.rank kept msg }.countDrops (room.1.map Prod.snd),
          room.1.map Prod.fst)
      else ({ q with heap := heappush TelegramMessage.rank q.heap msg }, [])
  | .high => ({ q with heap := heappush TelegramMessage.rank q.heap msg }, [])

/-! ## The make-room loop -/

theorem makeRoom_perm (maxDepth : Int) (heap : List TelegramMessage) :
    ((makeRoom maxDepth heap).1.map Prod.fst ++ (makeRoom maxDepth heap).2).Perm heap := by
  fun_induction makeRoom maxDepth heap with
  | case1 heap _ hlast => exact .refl _
  | case2 heap _ worst hlast himportant => exact .refl _
  | case3 heap _ worst hlast hworst hpop => exact .refl _
  | case4 heap _ worst hlast hworst popped rest hpop later ih =>
      exact (ih.cons popped).trans (heappop_perm hpop).symm
  | case5 heap hshort => exact .refl _

/-- In a heap the popped message comes first; the last entry is no better than it. -/
theorem makeRoom_rank_le (maxDepth : Int) (heap : List TelegramMessage)
    (valid : IsHeap TelegramMessage.rank heap) :
    ∀ e ∈ (makeRoom maxDepth heap).1, e.1.rank ≤ e.2.value := by
  fun_induction makeRoom maxDepth heap with
  | case1 heap _ hlast => simp
  | case2 heap _ worst hlast himportant => simp
  | case3 heap _ worst hlast hworst hpop => simp
  | case4 heap _ worst hlast hworst popped rest hpop later ih =>
      obtain ⟨hbest, hrest⟩ := valid.heappop hpop
      intro e he
      cases he with
      | head => exact hbest worst (List.mem_of_getLast? hlast)
      | tail _ hlater => exact ih hrest e hlater
  | case5 heap hshort => simp

/-- A queue of one level is counted right, and nothing important is popped. -/
theorem makeRoom_uniform (maxDepth : Int) (heap : List TelegramMessage) {level : TelegramPriority}
    (uniform : ∀ m ∈ heap, m.priority = level) :
    ∀ e ∈ (makeRoom maxDepth heap).1, e.1.priority = e.2 ∧ e.1.important = false := by
  fun_induction makeRoom maxDepth heap with
  | case1 heap _ hlast => simp
  | case2 heap _ worst hlast himportant => simp
  | case3 heap _ worst hlast hworst hpop => simp
  | case4 heap _ worst hlast hworst popped rest hpop later ih =>
      have hperm := heappop_perm hpop
      have hpopped : popped.priority = worst.priority := by
        rw [uniform popped (hperm.mem_iff.mpr List.mem_cons_self),
          uniform worst (List.mem_of_getLast? hlast)]
      intro e he
      cases he with
      | head =>
          refine ⟨hpopped, ?_⟩
          rw [TelegramMessage.important_congr hpopped]
          simpa using hworst
      | tail _ hlater =>
          refine ih ?_ e hlater
          intro m hm
          exact uniform m (hperm.mem_iff.mpr (List.mem_cons_of_mem _ hm))
  | case5 heap hshort => simp

theorem makeRoom_of_important (maxDepth : Int) {heap : List TelegramMessage}
    (important : ∀ m ∈ heap, m.important = true) : (makeRoom maxDepth heap).1 = [] := by
  unfold makeRoom
  split
  · split
    · rfl
    · rename_i worst hlast
      rw [if_pos (important worst (List.mem_of_getLast? hlast))]
  · rfl

theorem value_injective {a b : TelegramPriority} (h : a.value = b.value) : a = b := by
  cases a <;> cases b <;> first | rfl | cases h

/-- In a full sorted queue with an unimportant message and with two levels, the first message popped
is better than the level it is counted under. -/
theorem makeRoom_of_mixed {maxDepth : Int} {heap : List TelegramMessage}
    (full : maxDepth ≤ heap.length) (sorted : heap.Pairwise fun a b => a.rank ≤ b.rank)
    (unimportant : ¬ ∀ m ∈ heap, m.important = true)
    (mixed : ¬ ∃ level, ∀ m ∈ heap, m.priority = level) :
    ∃ e ∈ (makeRoom maxDepth heap).1, e.1.rank < e.2.value := by
  have hvalid := isHeap_of_pairwise sorted
  cases heap using List.reverseRecOn with
  | nil => exact absurd (fun m hm => by cases hm) unimportant
  | append_singleton init worst =>
      have hlast : (init ++ [worst]).getLast? = some worst := List.getLast?_concat
      have hmax : ∀ m ∈ init ++ [worst], m.rank ≤ worst.rank := by
        intro m hm
        cases List.mem_append.mp hm with
        | inl hinit =>
            exact (List.pairwise_append.mp sorted).2.2 m hinit worst (List.mem_singleton_self _)
        | inr hworst => rw [List.mem_singleton.mp hworst]
      have hworst : ¬ worst.important = true := by
        intro himportant
        apply unimportant
        intro m hm
        have hle := hmax m hm
        simp only [TelegramMessage.important, decide_eq_true_eq] at himportant ⊢
        exact hle.trans himportant
      unfold makeRoom
      rw [if_pos full, hlast]
      dsimp only
      rw [if_neg hworst]
      split
      · rename_i hnone
        simp [heappop_eq_none_iff] at hnone
      · rename_i popped rest hpop
        refine ⟨(popped, worst.priority), List.mem_cons_self, ?_⟩
        obtain ⟨hbest, _⟩ := hvalid.heappop hpop
        refine lt_of_le_of_ne (hbest worst (by simp)) ?_
        intro heq
        apply mixed
        refine ⟨worst.priority, fun m hm => value_injective ?_⟩
        have hlow := hbest m hm
        have hhigh := hmax m hm
        simp only [TelegramMessage.rank] at heq hlow hhigh ⊢
        omega

end TelegramQueue

end AutoTrade.Notify
