import AutoTrade.Execution.IdempotencyRestart

/-! # Which keys the idempotency cache retains

`confirm_execution` makes room by deleting the first key of the dictionary. A
key that is confirmed again keeps its place there, rows are loaded in the order
the table hands them out, and one call deletes one key, however many were
loaded.
-/

namespace AutoTrade.Execution

open AutoTrade.Library

variable {ρ : Type}

/-- The calls that read or fill the cache; `is_duplicate` and `get_result` clean it up. -/
inductive CacheOp (ρ : Type)
  | check (now : Time)
  | confirmExecution (now : Time) (key : String) (result : ρ)

/-- A manager, with the times at which the keys it threw out unexpired had been confirmed. -/
structure RetentionRun (ρ : Type) where
  manager : IdempotencyManager ρ
  evicted : List Time := []

namespace RetentionRun

/-- The cache with the confirmed key in it, before `confirm_execution` makes room. -/
def filled (r : RetentionRun ρ) (now : Time) (key : String) (result : ρ) :
    Dict String (Time × ρ) :=
  r.manager.cache.set key (now, result)

/-- The entry `confirm_execution` throws out. -/
def thrownOut (r : RetentionRun ρ) (now : Time) (key : String) (result : ρ) :
    Option (String × Time × ρ) :=
  if r.manager.cacheSize < (r.filled now key result).size then (r.filled now key result).oldest?
  else none

/-- The entry is older than the window. -/
def Expired (r : RetentionRun ρ) (now : Time) (entry : String × Time × ρ) : Prop :=
  entry.2.1 < now - r.manager.window

instance (r : RetentionRun ρ) (now : Time) (entry : String × Time × ρ) :
    Decidable (r.Expired now entry) := inferInstanceAs (Decidable (_ < _))

def step (r : RetentionRun ρ) : CacheOp ρ → RetentionRun ρ
  | .check now => { r with manager := r.manager.cleanup now }
  | .confirmExecution now key result =>
      { manager := r.manager.confirmExecution now key result
        evicted := r.evicted ++ ((r.thrownOut now key result).filter fun entry =>
          decide (¬ r.Expired now entry)).toList.map fun entry => entry.2.1 }

/-- Every key retained was confirmed no earlier than any key that was thrown out unexpired. -/
def RetainsNewest (r : RetentionRun ρ) : Prop :=
  ∀ entry ∈ r.manager.cache.rows, ∀ t ∈ r.evicted, t ≤ entry.2.1

/-- After a confirmation the cache is no larger than its size. -/
def FitsAfter (r : RetentionRun ρ) : CacheOp ρ → Prop
  | .check _ => True
  | .confirmExecution now key result =>
      ((r.step (.confirmExecution now key result)).manager.cache.size : Int) ≤ r.manager.cacheSize

/-- The cache is at most one over its size with the key in it; the first entry, if it has to go, is
expired or the one confirmed longest ago; and a key that stays is not confirmed at a time before that
of a key already thrown out. -/
def EvictsOldest (r : RetentionRun ρ) : CacheOp ρ → Prop
  | .check _ => True
  | .confirmExecution now key result =>
      ((r.filled now key result).size : Int) ≤ r.manager.cacheSize + 1 ∧
      (∀ first ∈ r.thrownOut now key result, r.Expired now first ∨
        ∀ entry ∈ (r.filled now key result).rows, first.2.1 ≤ entry.2.1) ∧
      ((∀ first ∈ r.thrownOut now key result, first.1 ≠ key) → ∀ t ∈ r.evicted, t ≤ now)

/-! ## One confirmation -/

theorem cache_confirmExecution (r : RetentionRun ρ) (now : Time) (key : String) (result : ρ) :
    (r.step (.confirmExecution now key result)).manager.cache =
      match r.thrownOut now key result with
      | none => r.filled now key result
      | some first => (r.filled now key result).erase first.1 := by
  have hcache : (r.step (.confirmExecution now key result)).manager.cache =
      IdempotencyManager.evict r.manager.cacheSize (r.filled now key result) := rfl
  rw [hcache, IdempotencyManager.evict, thrownOut]
  split
  · cases (r.filled now key result).oldest? <;> rfl
  · rfl

theorem mem_filled_self (r : RetentionRun ρ) (now : Time) (key : String) (result : ρ) :
    (key, now, result) ∈ (r.filled now key result).rows :=
  (Dict.get?_eq_some_iff _ _ _).mp (Dict.get?_set_self _ _ _)

theorem mem_of_thrownOut {r : RetentionRun ρ} {now : Time} {key : String} {result : ρ}
    {first : String × Time × ρ} (h : first ∈ r.thrownOut now key result) :
    first ∈ (r.filled now key result).rows := by
  unfold thrownOut at h
  split at h
  · exact List.mem_of_head? h
  · cases h

/-- A full cache always throws something out. -/
theorem thrownOut_eq_none_iff (r : RetentionRun ρ) (now : Time) (key : String) (result : ρ) :
    r.thrownOut now key result = none ↔
      ((r.filled now key result).size : Int) ≤ r.manager.cacheSize := by
  unfold thrownOut
  split
  · rename_i hfull
    rw [Table.oldest?_eq_none_iff]
    have hmem := mem_filled_self r now key result
    have hne : (r.filled now key result).size ≠ 0 := by
      intro hzero
      rw [List.length_eq_zero_iff.mp hzero] at hmem
      cases hmem
    exact iff_of_false hne (by omega)
  · rename_i hroom
    exact iff_of_true rfl (by omega)

theorem size_erase {cache : Dict String (Time × ρ)} {entry : String × Time × ρ}
    (h : entry ∈ cache.rows) : (cache.erase entry.1).size + 1 = cache.size := by
  have hget : cache.get? entry.1 = some entry.2 := (Dict.get?_eq_some_iff _ _ _).mpr h
  have hperm := Dict.rows_perm_cons_erase hget fun _ _ => rfl
  simpa [Table.size] using hperm.length_eq.symm

/-- In a dictionary the key tells the entry. -/
theorem entry_ext {cache : Dict String (Time × ρ)} {entry other : String × Time × ρ}
    (h : entry ∈ cache.rows) (hother : other ∈ cache.rows) (hkey : entry.1 = other.1) :
    entry = other :=
  List.inj_on_of_nodup_map cache.nodup h hother hkey

theorem mem_evicted_step (r : RetentionRun ρ) (now : Time) (key : String) (result : ρ) (t : Time) :
    t ∈ (r.step (.confirmExecution now key result)).evicted ↔ t ∈ r.evicted ∨
      ∃ first ∈ r.thrownOut now key result, ¬ r.Expired now first ∧ first.2.1 = t := by
  simp [step, Option.filter_eq_some_iff, and_assoc]

theorem RetainsNewest.step {r : RetentionRun ρ} (h : r.RetainsNewest) {op : CacheOp ρ}
    (hop : r.EvictsOldest op) : (r.step op).RetainsNewest ∧ r.FitsAfter op := by
  cases op with
  | check now =>
      refine ⟨fun entry hentry t ht => ?_, trivial⟩
      exact h entry (List.mem_filter.mp hentry).1 t ht
  | confirmExecution now key result =>
      obtain ⟨hsize, holdest, hclock⟩ := hop
      have hcache := r.cache_confirmExecution now key result
      have hevicted := r.mem_evicted_step now key result
      -- what was there before, and the key where it stays, against what was thrown out before
      have hbefore : ∀ entry ∈ (r.filled now key result).rows, ∀ t ∈ r.evicted,
          (∀ first ∈ r.thrownOut now key result, entry.1 ≠ first.1) → t ≤ entry.2.1 := by
        intro entry hentry t ht hstays
        rcases Dict.mem_rows_set hentry with rfl | hold
        · exact hclock (fun first hfirst => Ne.symm (hstays first hfirst)) t ht
        · exact h entry hold t ht
      simp only [FitsAfter]
      cases hthrown : r.thrownOut now key result with
      | none =>
          rw [hthrown] at hcache hevicted hbefore
          have hroom := (r.thrownOut_eq_none_iff now key result).mp hthrown
          refine ⟨fun entry hentry t ht => ?_, by rw [hcache]; exact hroom⟩
          rw [hcache] at hentry
          have hold : t ∈ r.evicted := by simpa using (hevicted t).mp ht
          exact hbefore entry hentry t hold (by simp)
      | some first =>
          have hmem := mem_of_thrownOut hthrown
          rw [hthrown] at hcache hevicted hbefore holdest
          dsimp only at hcache
          have hshrunk := size_erase hmem
          refine ⟨fun entry hentry t ht => ?_, by rw [hcache]; omega⟩
          rw [hcache, Dict.mem_rows_erase] at hentry
          obtain ⟨hentry, hne⟩ := hentry
          rcases (hevicted t).mp ht with hold | ⟨first', hfirst', hlive, rfl⟩
          · refine hbefore entry hentry t hold fun first' hfirst' => ?_
            obtain rfl := Option.some.inj hfirst'
            exact hne
          · obtain rfl := Option.some.inj hfirst'
            exact ((holdest first rfl).resolve_left hlive) entry hentry

theorem evictsOldest_of_step {r : RetentionRun ρ} {op : CacheOp ρ} (hnext : (r.step op).RetainsNewest)
    (hfits : r.FitsAfter op) : r.EvictsOldest op := by
  cases op with
  | check now => trivial
  | confirmExecution now key result =>
      have hcache := r.cache_confirmExecution now key result
      have hevicted := r.mem_evicted_step now key result
      have hself := r.mem_filled_self now key result
      simp only [FitsAfter] at hfits
      unfold RetainsNewest at hnext
      rw [hcache] at hfits hnext
      simp only [EvictsOldest]
      cases hthrown : r.thrownOut now key result with
      | none =>
          have hroom := (r.thrownOut_eq_none_iff now key result).mp hthrown
          rw [hthrown] at hnext
          refine ⟨by omega, by simp, fun _ t ht => ?_⟩
          exact hnext (key, now, result) hself t ((hevicted t).mpr (.inl ht))
      | some first =>
          have hmem := mem_of_thrownOut hthrown
          rw [hthrown] at hfits hnext hevicted
          dsimp only at hfits hnext
          have hshrunk := size_erase hmem
          refine ⟨by omega, fun first' hfirst' => ?_, fun hstays t ht => ?_⟩
          · obtain rfl := Option.some.inj hfirst'
            refine or_iff_not_imp_left.mpr fun hlive entry hentry => ?_
            by_cases hkey : entry.1 = first.1
            · rw [entry_ext hentry hmem hkey]
            · exact hnext entry ((Dict.mem_rows_erase _ _ _).mpr ⟨hentry, hkey⟩) first.2.1
                ((hevicted _).mpr (.inr ⟨first, rfl, hlive, rfl⟩))
          · have hne : key ≠ first.1 := Ne.symm (hstays first rfl)
            exact hnext (key, now, result) ((Dict.mem_rows_erase _ _ _).mpr ⟨hself, hne⟩) t
              ((hevicted t).mpr (.inl ht))

/-- From any cache a manager starts with, loaded or empty, each confirmation leaves the cache within
its size, and no key is retained over one confirmed later that was thrown out unexpired, exactly when
each finds the cache at most one over its size with the oldest entry in front and the clock not behind
what was thrown out. -/
theorem cache_retains_newest_iff (mgr : IdempotencyManager ρ) (ops : List (CacheOp ρ)) :
    Always step RetainsNewest { manager := mgr } ops ∧ StepsMeet step FitsAfter { manager := mgr } ops ↔
      StepsMeet step EvictsOldest { manager := mgr } ops := by
  apply always_and_stepsMeet_iff (J := RetainsNewest)
  · exact fun _ h => h
  · intro r op _ h hop
    exact h.step hop
  · intro r op _ _ hnext hfits
    exact evictsOldest_of_step hnext hfits
  · intro entry _ t ht
    cases ht

/-- With room for two, the key that was confirmed last goes, since it was also the first one. -/
theorem reconfirmed_key_evicted :
    ¬ Always step RetainsNewest
      ({ manager := { cacheSize := 2 } } : RetentionRun Unit)
      [.confirmExecution 0 "a" (), .confirmExecution 1 "b" (), .confirmExecution 2 "a" (),
        .confirmExecution 3 "c" ()] := by
  intro always
  have hb := always.final ("b", 1, ()) (by decide +kernel) 2 (by decide +kernel)
  exact absurd hb (by decide)

end RetentionRun

end AutoTrade.Execution
