import AutoTrade.Runtime
import AutoTrade.Library.Table

/-! # The idempotency manager

`core/execution/idempotency/manager.py`: the confirmed cache with expiry and
eviction, the in-flight marks with their fixed hour, and the table both are
written to. The manager is generic in the result it remembers.
-/

namespace AutoTrade.Execution

open AutoTrade.Library

inductive KeyStatus
  | inFlight
  | confirmed
deriving DecidableEq, Repr

/-- A row of `idempotency_keys`; an in-flight mark stores no result. -/
structure IdempotencyRow (ρ : Type) where
  key : String
  timestamp : Time
  result : Option ρ
  status : KeyStatus
deriving DecidableEq, Repr

structure IdempotencyManager (ρ : Type) where
  cache : Dict String (Time × ρ) := Table.empty
  inFlight : Dict String Time := Table.empty
  cacheSize : Int := 1000
  expiryHours : Int := 24
  /-- The table behind `persistence_path`, when there is one. -/
  persistence : Option (Table (IdempotencyRow ρ) IdempotencyRow.key) := none

namespace IdempotencyManager

variable {ρ : Type}

/-- `timedelta(hours=expiry_hours)`. -/
def window (mgr : IdempotencyManager ρ) : Time := mgr.expiryHours * hour

/-- `_cleanup`. -/
def cleanup (mgr : IdempotencyManager ρ) (now : Time) : IdempotencyManager ρ :=
  { mgr with
    cache := mgr.cache.filter fun e => decide (¬ e.2.1 < now - mgr.window)
    inFlight := mgr.inFlight.filter fun e => decide (¬ e.2 < now - hour) }

/-- The answer of `is_duplicate`, with the manager it cleaned up. -/
def isDuplicate (mgr : IdempotencyManager ρ) (now : Time) (key : String) :
    Bool × IdempotencyManager ρ :=
  let mgr := mgr.cleanup now
  (mgr.cache.contains key || mgr.inFlight.contains key, mgr)

def markInFlight (mgr : IdempotencyManager ρ) (now : Time) (key : String) : IdempotencyManager ρ :=
  { mgr with
    inFlight := mgr.inFlight.set key now
    persistence := mgr.persistence.map fun t => t.replace ⟨key, now, none, .inFlight⟩ }

/-- The oldest entry goes when the cache is over its size. -/
def evict (cacheSize : Int) (cache : Dict String (Time × ρ)) : Dict String (Time × ρ) :=
  if (cache.size : Int) > cacheSize then
    match cache.oldest? with
    | none => cache
    | some oldest => cache.erase oldest.1
  else cache

def confirmExecution (mgr : IdempotencyManager ρ) (now : Time) (key : String) (result : ρ) :
    IdempotencyManager ρ :=
  { mgr with
    inFlight := mgr.inFlight.erase key
    cache := evict mgr.cacheSize (mgr.cache.set key (now, result))
    persistence := mgr.persistence.map fun t => t.replace ⟨key, now, some result, .confirmed⟩ }

def clearInFlight (mgr : IdempotencyManager ρ) (key : String) : IdempotencyManager ρ :=
  { mgr with
    inFlight := mgr.inFlight.erase key
    persistence := mgr.persistence.map fun t =>
      t.filter fun row => decide (¬ (row.key = key ∧ row.status = .inFlight)) }

/-- The answer of `get_result`, with the manager it cleaned up. -/
def getResult (mgr : IdempotencyManager ρ) (now : Time) (key : String) :
    Option ρ × IdempotencyManager ρ :=
  let mgr := mgr.cleanup now
  ((mgr.cache.get? key).map Prod.snd, mgr)

/-! ## What the operations leave behind -/

theorem cache_get?_cleanup (mgr : IdempotencyManager ρ) (now : Time) (k : String) :
    (mgr.cleanup now).cache.get? k =
      (mgr.cache.get? k).filter fun e => decide (¬ e.1 < now - mgr.window) :=
  Dict.get?_filter _ _ _

theorem inFlight_get?_cleanup (mgr : IdempotencyManager ρ) (now : Time) (k : String) :
    (mgr.cleanup now).inFlight.get? k =
      (mgr.inFlight.get? k).filter fun t => decide (¬ t < now - hour) :=
  Dict.get?_filter _ _ _

/-- A second cleanup at the same instant finds nothing. -/
theorem cleanup_cleanup (mgr : IdempotencyManager ρ) (now : Time) :
    (mgr.cleanup now).cleanup now = mgr.cleanup now := by
  have hcache : (mgr.cleanup now).cache.filter
      (fun e => decide (¬ e.2.1 < now - mgr.window)) = (mgr.cleanup now).cache := by
    simp [cleanup, Table.filter, List.filter_filter]
  have hflight : (mgr.cleanup now).inFlight.filter (fun e => decide (¬ e.2 < now - hour)) =
      (mgr.cleanup now).inFlight := by
    simp [cleanup, Table.filter, List.filter_filter]
  have hunfold : (mgr.cleanup now).cleanup now =
      { mgr.cleanup now with
        cache := (mgr.cleanup now).cache.filter fun e => decide (¬ e.2.1 < now - mgr.window)
        inFlight := (mgr.cleanup now).inFlight.filter fun e => decide (¬ e.2 < now - hour) } := rfl
  rw [hunfold, hcache, hflight]

theorem isDuplicate_eq_false_iff (mgr : IdempotencyManager ρ) (now : Time) (key : String) :
    (mgr.isDuplicate now key).1 = false ↔
      (mgr.cleanup now).cache.get? key = none ∧ (mgr.cleanup now).inFlight.get? key = none := by
  simp [isDuplicate, Dict.contains_iff_get?]

theorem isDuplicate_eq_true_iff (mgr : IdempotencyManager ρ) (now : Time) (key : String) :
    (mgr.isDuplicate now key).1 = true ↔
      (mgr.cleanup now).cache.get? key ≠ none ∨ (mgr.cleanup now).inFlight.get? key ≠ none := by
  rw [← not_iff_not, Bool.not_eq_true, isDuplicate_eq_false_iff]
  simp

/-- The key `confirm_execution` throws out of the cache when it adds a new key. -/
def evictedBy (mgr : IdempotencyManager ρ) (key : String) : Option String :=
  if mgr.cacheSize < mgr.cache.size + 1 then some ((mgr.cache.oldest?.map Prod.fst).getD key)
  else none

theorem cache_get?_confirmExecution (mgr : IdempotencyManager ρ) {key : String}
    (hnew : mgr.cache.get? key = none) (now : Time) (result : ρ) (k : String) :
    (mgr.confirmExecution now key result).cache.get? k =
      if mgr.evictedBy key = some k then none
      else if k = key then some (now, result) else mgr.cache.get? k := by
  have hfind : mgr.cache.find? key = none := by simpa [Dict.get?] using hnew
  have hsize : (mgr.cache.set key (now, result)).size = mgr.cache.size + 1 :=
    Table.size_upsert_of_find?_none hfind
  have holdest : (mgr.cache.set key (now, result)).oldest?.map Prod.fst =
      some ((mgr.cache.oldest?.map Prod.fst).getD key) :=
    Table.oldest?_upsert_key mgr.cache (key, (now, result))
  have hcache : (mgr.confirmExecution now key result).cache =
      evict mgr.cacheSize (mgr.cache.set key (now, result)) := rfl
  rw [hcache, ← Dict.get?_set, evictedBy, evict, hsize]
  by_cases hfull : mgr.cacheSize < mgr.cache.size + 1
  · obtain ⟨e, he, hkey⟩ := Option.map_eq_some_iff.mp holdest
    simp only [Nat.cast_add, Nat.cast_one, gt_iff_lt, hfull, if_true, he]
    rw [Dict.get?_erase, hkey]
    by_cases hk : k = (mgr.cache.oldest?.map Prod.fst).getD key
    · simp [← hk]
    · simp [hk, Ne.symm hk]
  · simp [hfull]

theorem inFlight_get?_confirmExecution (mgr : IdempotencyManager ρ) (now : Time) (key : String)
    (result : ρ) (k : String) :
    (mgr.confirmExecution now key result).inFlight.get? k =
      if k = key then none else mgr.inFlight.get? k :=
  Dict.get?_erase _ _ _

/-- A newly confirmed key survives its own eviction unless the cache has no room at all. -/
theorem evictedBy_self_iff {mgr : IdempotencyManager ρ} {key : String}
    (hnew : mgr.cache.get? key = none) :
    mgr.evictedBy key = some key ↔ mgr.cacheSize ≤ 0 ∧ mgr.cache.size = 0 := by
  unfold evictedBy
  cases hold : mgr.cache.oldest? with
  | none =>
      have hsize := (Table.oldest?_eq_none_iff mgr.cache).mp hold
      simp only [hsize]
      split <;> simp <;> omega
  | some e =>
      have hsize : mgr.cache.size ≠ 0 := by
        intro hzero
        rw [(Table.oldest?_eq_none_iff mgr.cache).mpr hzero] at hold
        cases hold
      have hmem : (e.1, e.2) ∈ mgr.cache.rows := List.mem_of_head? hold
      have hne : e.1 ≠ key := by
        rintro rfl
        rw [(Dict.get?_eq_some_iff _ _ _).mpr hmem] at hnew
        cases hnew
      split <;> simp [hsize, hne]

theorem confirmed_iff (mgr : IdempotencyManager ρ) {key : String}
    (hnew : mgr.cache.get? key = none) (now : Time) (result : ρ) :
    (mgr.confirmExecution now key result).cache.get? key ≠ none ↔
      0 < mgr.cacheSize ∨ mgr.cache.size ≠ 0 := by
  rw [cache_get?_confirmExecution _ hnew]
  by_cases hself : mgr.evictedBy key = some key
  · have hno := (evictedBy_self_iff hnew).mp hself
    rw [if_pos hself]
    simp only [ne_eq, not_true_eq_false, false_iff]
    omega
  · have hroom := mt (evictedBy_self_iff hnew).mpr hself
    rw [if_neg hself, if_pos rfl]
    simp only [ne_eq, reduceCtorEq, not_false_eq_true, true_iff]
    omega

/-! ## Confirmed keys are not in flight -/

/-- No key is confirmed and in flight at once. -/
def MarksDisjoint (mgr : IdempotencyManager ρ) : Prop :=
  ∀ k, mgr.cache.get? k = none ∨ mgr.inFlight.get? k = none

theorem MarksDisjoint.cleanup {mgr : IdempotencyManager ρ} (h : mgr.MarksDisjoint) (now : Time) :
    (mgr.cleanup now).MarksDisjoint := by
  intro k
  rw [cache_get?_cleanup, inFlight_get?_cleanup]
  rcases h k with hnone | hnone
  · exact .inl (by rw [hnone]; rfl)
  · exact .inr (by rw [hnone]; rfl)

theorem MarksDisjoint.markInFlight {mgr : IdempotencyManager ρ} (h : mgr.MarksDisjoint)
    (now : Time) {key : String} (hnew : mgr.cache.get? key = none) :
    (mgr.markInFlight now key).MarksDisjoint := by
  intro k
  by_cases hk : k = key
  · exact .inl (hk ▸ hnew)
  · rcases h k with hnone | hnone
    · exact .inl hnone
    · exact .inr ((Dict.get?_set_of_ne _ _ hk).trans hnone)

theorem MarksDisjoint.confirmExecution {mgr : IdempotencyManager ρ} (h : mgr.MarksDisjoint)
    (now : Time) {key : String} (hnew : mgr.cache.get? key = none) (result : ρ) :
    (mgr.confirmExecution now key result).MarksDisjoint := by
  intro k
  by_cases hk : k = key
  · exact .inr (by rw [inFlight_get?_confirmExecution, if_pos hk])
  · rcases h k with hnone | hnone
    · refine .inl ?_
      rw [cache_get?_confirmExecution _ hnew, if_neg hk, hnone]
      exact ite_self _
    · exact .inr (by rw [inFlight_get?_confirmExecution, if_neg hk, hnone])

end IdempotencyManager

end AutoTrade.Execution
