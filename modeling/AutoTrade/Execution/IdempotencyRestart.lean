import AutoTrade.Execution.Idempotency
import AutoTrade.Library.Run

/-! # The idempotency manager across a restart

A new manager loads the confirmed rows of the last day or so. The times are
stored as IST texts with a `T` between date and time and compared with what
SQLite's `datetime('now', '-24 hours')` returns, a UTC text with a blank there:
the texts of one date compare by that character, so the comparison is one of
dates. A result is stored as JSON with `default=str`, which turns an
`OrderResult` into its text; what is loaded back is that text.
-/

namespace AutoTrade.Execution

open AutoTrade.Library

/-- A value of the cache: a result as it was confirmed, or a text read back from the table. -/
inductive CachedValue (ρ : Type)
  | result (r : ρ)
  | text (s : String)
deriving DecidableEq, Repr

variable {ρ : Type}

/-- `json.loads(json.dumps(value, default=str))`. -/
def CachedValue.reload (str : ρ → String) : CachedValue ρ → CachedValue ρ
  | .result r => .text (str r)
  | .text s => .text s

def day : Time := 24 * hour

/-- `timestamp > datetime('now', '-24 hours')`, on the texts. -/
def isRecentText (now timestamp : Time) : Bool :=
  decide ((now - 19800 * second - 24 * hour) / day ≤ timestamp / day)

namespace IdempotencyManager

/-- The row of a key in the table behind the manager. -/
def row? {ρ : Type} (mgr : IdempotencyManager ρ) (key : String) : Option (IdempotencyRow ρ) :=
  mgr.persistence.bind fun t => t.find? key

/-- What a row puts into the cache. -/
def loadRow (str : ρ → String) (now : Time) (row : IdempotencyRow (CachedValue ρ)) :
    Option (Time × CachedValue ρ) :=
  if row.status = .confirmed ∧ isRecentText now row.timestamp then
    row.result.map fun v => (row.timestamp, v.reload str)
  else none

/-- A manager built on the table of another one: the recent confirmed rows are loaded, and old
in-flight rows deleted. -/
def restart (str : ρ → String) (now : Time) (old : IdempotencyManager (CachedValue ρ)) :
    IdempotencyManager (CachedValue ρ) :=
  let db := old.persistence.getD Table.empty
  { cache := Dict.ofTable db (loadRow str now)
    inFlight := Table.empty
    cacheSize := old.cacheSize
    expiryHours := old.expiryHours
    persistence := some (db.filter fun row =>
      !(decide (row.status = .inFlight) && !isRecentText now row.timestamp)) }

/-! ## The property and its condition -/

/-- A manager built now answers what the old one would. -/
structure SurvivesRestart (str : ρ → String) (now : Time)
    (old : IdempotencyManager (CachedValue ρ)) : Prop where
  duplicates : ∀ key, ((old.restart str now).isDuplicate now key).1 = (old.isDuplicate now key).1
  results : ∀ key v, (old.getResult now key).1 = some v →
    ((old.restart str now).getResult now key).1 = some v

/-- Nothing is in flight for less than an hour; what is still cached was itself read back from the
table and is still confirmed and recent there; and nothing recent and confirmed was evicted. -/
structure RestartSafe (now : Time) (old : IdempotencyManager (CachedValue ρ)) : Prop where
  idle : ∀ key t, old.inFlight.get? key = some t → t < now - hour
  backed : ∀ key t v, old.cache.get? key = some (t, v) → ¬ t < now - old.window →
    (∃ s, v = .text s) ∧
      ∃ row, old.row? key = some row ∧ row.status = .confirmed ∧ isRecentText now row.timestamp
  cached : ∀ key row, old.row? key = some row → row.status = .confirmed →
    isRecentText now row.timestamp → ¬ row.timestamp < now - old.window →
      old.cache.get? key ≠ none

/-! ## Histories -/

inductive IdempotencyOp (ρ : Type)
  | check (now : Time)
  | markInFlight (now : Time) (key : String)
  | confirmExecution (now : Time) (key : String) (result : ρ)
  | clearInFlight (key : String)
  | restart (now : Time)

/-- The manager after one operation; `is_duplicate` and `get_result` only clean up. -/
def step (str : ρ → String) (mgr : IdempotencyManager (CachedValue ρ)) :
    IdempotencyOp ρ → IdempotencyManager (CachedValue ρ)
  | .check now => mgr.cleanup now
  | .markInFlight now key => mgr.markInFlight now key
  | .confirmExecution now key result => mgr.confirmExecution now key (.result result)
  | .clearInFlight key => mgr.clearInFlight key
  | .restart now => mgr.restart str now

/-- A manager on a new database. -/
def fresh (cacheSize expiryHours : Int) : IdempotencyManager (CachedValue ρ) :=
  { cacheSize, expiryHours, persistence := some Table.empty }

/-- The memory agrees with the table: a key in flight is in flight there, a confirmed row has a
result, and a cached key that is confirmed there has the time and the result of its row, perhaps
read back. -/
structure Consistent (str : ρ → String) (mgr : IdempotencyManager (CachedValue ρ)) : Prop where
  persistent : mgr.persistence ≠ none
  inFlight : ∀ key t, mgr.inFlight.get? key = some t →
    ∃ row, mgr.row? key = some row ∧ row.status = .inFlight
  confirmed : ∀ key row, mgr.row? key = some row → row.status = .confirmed →
    ∃ v, row.result = some v
  cache : ∀ key t v row raw, mgr.cache.get? key = some (t, v) → mgr.row? key = some row →
    row.status = .confirmed → row.result = some raw →
      row.timestamp = t ∧ (v = raw ∨ v = raw.reload str)

/-! ### Every history keeps memory and table in agreement -/

section Histories

variable {str : ρ → String} {mgr : IdempotencyManager (CachedValue ρ)}

theorem row?_markInFlight (h : mgr.persistence ≠ none) (now : Time) (key k : String) :
    (mgr.markInFlight now key).row? k =
      if k = key then some ⟨key, now, none, .inFlight⟩ else mgr.row? k := by
  cases hdb : mgr.persistence with
  | none => exact absurd hdb h
  | some db => simp [row?, markInFlight, hdb, Table.find?_replace]

theorem row?_confirmExecution (h : mgr.persistence ≠ none) (now : Time) (key : String)
    (v : CachedValue ρ) (k : String) :
    (mgr.confirmExecution now key v).row? k =
      if k = key then some ⟨key, now, some v, .confirmed⟩ else mgr.row? k := by
  cases hdb : mgr.persistence with
  | none => exact absurd hdb h
  | some db => simp [row?, confirmExecution, hdb, Table.find?_replace]

theorem row?_clearInFlight (key k : String) :
    (mgr.clearInFlight key).row? k =
      (mgr.row? k).filter fun row => decide (¬ (row.key = key ∧ row.status = .inFlight)) := by
  cases hdb : mgr.persistence with
  | none => simp [row?, clearInFlight, hdb]
  | some db => simp [row?, clearInFlight, hdb, Table.find?_filter]

theorem row?_restart (now : Time) (k : String) :
    (mgr.restart str now).row? k = (mgr.row? k).filter fun row =>
      !(decide (row.status = .inFlight) && !isRecentText now row.timestamp) := by
  cases hdb : mgr.persistence with
  | none => simp [row?, restart, hdb, Table.find?_filter]
  | some db => simp [row?, restart, hdb, Table.find?_filter]

theorem row?_key {k : String} {row : IdempotencyRow (CachedValue ρ)} (h : mgr.row? k = some row) :
    row.key = k := by
  obtain ⟨db, _, hfind⟩ := Option.bind_eq_some_iff.mp h
  exact Table.find?_key hfind

theorem cache_get?_restart (now : Time) (k : String) :
    (mgr.restart str now).cache.get? k = (mgr.row? k).bind (loadRow str now) := by
  unfold restart
  rw [Dict.get?_ofTable]
  cases hdb : mgr.persistence with
  | none => simp [row?, hdb]
  | some db => simp [row?, hdb]

/-- Eviction only removes. -/
theorem get?_of_get?_evict {size : Int} {cache : Dict String (Time × ρ)} {k : String}
    {e : Time × ρ} (h : (evict size cache).get? k = some e) : cache.get? k = some e := by
  unfold evict at h
  split at h
  · split at h
    · exact h
    · rw [Dict.get?_erase] at h
      split at h
      · cases h
      · exact h
  · exact h

theorem Consistent.cleanup (h : mgr.Consistent str) (now : Time) :
    (mgr.cleanup now).Consistent str := by
  constructor
  · exact h.persistent
  · intro key t hget
    rw [inFlight_get?_cleanup] at hget
    exact h.inFlight key t (Option.filter_eq_some_iff.mp hget).1
  · exact h.confirmed
  · intro key t v row raw hget
    rw [cache_get?_cleanup] at hget
    exact h.cache key t v row raw (Option.filter_eq_some_iff.mp hget).1

theorem Consistent.markInFlight (h : mgr.Consistent str) (now : Time) (key : String) :
    (mgr.markInFlight now key).Consistent str := by
  have hrow := row?_markInFlight h.persistent now key
  constructor
  · simpa [IdempotencyManager.markInFlight] using h.persistent
  · intro k t hget
    rw [hrow]
    by_cases hk : k = key
    · exact ⟨_, if_pos hk, rfl⟩
    · rw [if_neg hk]
      exact h.inFlight k t ((Dict.get?_set_of_ne _ _ hk).symm.trans hget)
  · intro k row hfind hstatus
    rw [hrow] at hfind
    split at hfind
    · cases hfind
      cases hstatus
    · exact h.confirmed k row hfind hstatus
  · intro k t v row raw hget hfind hstatus
    rw [hrow] at hfind
    split at hfind
    · cases hfind
      cases hstatus
    · exact h.cache k t v row raw hget hfind hstatus

theorem Consistent.confirmExecution (h : mgr.Consistent str) (now : Time) (key : String)
    (result : CachedValue ρ) : (mgr.confirmExecution now key result).Consistent str := by
  have hrow := row?_confirmExecution h.persistent now key result
  constructor
  · simpa [IdempotencyManager.confirmExecution] using h.persistent
  · intro k t hget
    rw [inFlight_get?_confirmExecution] at hget
    split at hget
    · cases hget
    · rename_i hk
      rw [hrow, if_neg hk]
      exact h.inFlight k t hget
  · intro k row hfind hstatus
    rw [hrow] at hfind
    split at hfind
    · cases hfind
      exact ⟨result, rfl⟩
    · exact h.confirmed k row hfind hstatus
  · intro k t v row raw hget hfind hstatus hraw
    have hset := get?_of_get?_evict hget
    rw [hrow] at hfind
    rw [Dict.get?_set] at hset
    split at hfind
    · rename_i hk
      rw [if_pos hk] at hset
      cases hfind
      cases hset
      cases hraw
      exact ⟨rfl, .inl rfl⟩
    · rename_i hk
      rw [if_neg hk] at hset
      exact h.cache k t v row raw hset hfind hstatus hraw

theorem Consistent.clearInFlight (h : mgr.Consistent str) (key : String) :
    (mgr.clearInFlight key).Consistent str := by
  have hold : ∀ {k row}, (mgr.clearInFlight key).row? k = some row → mgr.row? k = some row := by
    intro k row hfind
    rw [row?_clearInFlight] at hfind
    exact (Option.filter_eq_some_iff.mp hfind).1
  constructor
  · simpa [IdempotencyManager.clearInFlight] using h.persistent
  · intro k t hget
    have hget' : Dict.get? (mgr.inFlight.erase key) k = some t := hget
    rw [Dict.get?_erase] at hget'
    split at hget'
    · cases hget'
    · rename_i hk
      obtain ⟨row, hfind, hstatus⟩ := h.inFlight k t hget'
      refine ⟨row, ?_, hstatus⟩
      rw [row?_clearInFlight, hfind]
      simp [row?_key hfind, hk]
  · exact fun k row hfind => h.confirmed k row (hold hfind)
  · exact fun k t v row raw hget hfind => h.cache k t v row raw hget (hold hfind)

theorem loadRow_eq_some_iff (now : Time) (row : IdempotencyRow (CachedValue ρ)) (t : Time)
    (v : CachedValue ρ) :
    loadRow str now row = some (t, v) ↔ row.status = .confirmed ∧
      isRecentText now row.timestamp = true ∧
        ∃ raw, row.result = some raw ∧ row.timestamp = t ∧ raw.reload str = v := by
  unfold loadRow
  split
  · rename_i hload
    simp [hload.1, hload.2]
  · rename_i hload
    simp only [reduceCtorEq, false_iff]
    exact fun h => hload ⟨h.1, h.2.1⟩

theorem Consistent.restart (h : mgr.Consistent str) (now : Time) :
    (mgr.restart str now).Consistent str := by
  have hold : ∀ {k row}, (mgr.restart str now).row? k = some row → mgr.row? k = some row := by
    intro k row hfind
    rw [row?_restart] at hfind
    exact (Option.filter_eq_some_iff.mp hfind).1
  constructor
  · simp [IdempotencyManager.restart]
  · intro k t hget
    cases hget
  · exact fun k row hfind => h.confirmed k row (hold hfind)
  · intro k t v row raw hget hfind hstatus hraw
    rw [cache_get?_restart, hold hfind, Option.bind_some, loadRow_eq_some_iff] at hget
    obtain ⟨_, _, raw', hraw', htime, hvalue⟩ := hget
    have hsame : raw' = raw := Option.some.inj (hraw'.symm.trans hraw)
    subst hsame
    exact ⟨htime, .inr hvalue.symm⟩

theorem step_consistent (h : mgr.Consistent str) (op : IdempotencyOp ρ) :
    (mgr.step str op).Consistent str := by
  cases op with
  | check now => exact h.cleanup now
  | markInFlight now key => exact h.markInFlight now key
  | confirmExecution now key result => exact h.confirmExecution now key (.result result)
  | clearInFlight key => exact h.clearInFlight key
  | restart now => exact h.restart now

theorem fresh_consistent (cacheSize expiryHours : Int) :
    (fresh cacheSize expiryHours : IdempotencyManager (CachedValue ρ)).Consistent str := by
  constructor
  · simp [fresh]
  · intro k t hget
    cases hget
  · intro k row hfind
    cases hfind
  · intro k t v row raw hget
    cases hget

end Histories

/-! ## What the two managers answer -/

section Answers

variable {str : ρ → String} {mgr : IdempotencyManager (CachedValue ρ)} {now : Time} {key : String}

theorem getResult_eq_some_iff {ρ : Type} (mgr : IdempotencyManager ρ) (now : Time) (key : String)
    (v : ρ) :
    (mgr.getResult now key).1 = some v ↔
      ∃ t, mgr.cache.get? key = some (t, v) ∧ ¬ t < now - mgr.window := by
  simp only [getResult, cache_get?_cleanup, Option.map_eq_some_iff, Option.filter_eq_some_iff,
    decide_eq_true_eq]
  constructor
  · intro h
    obtain ⟨e, ⟨hget, hlive⟩, hv⟩ := h
    subst hv
    exact ⟨e.1, hget, hlive⟩
  · intro h
    obtain ⟨t, hget, hlive⟩ := h
    exact ⟨(t, v), ⟨hget, hlive⟩, rfl⟩

/-- A key is a duplicate when its result is still cached, or its mark is not an hour old. -/
theorem isDuplicate_iff {ρ : Type} (mgr : IdempotencyManager ρ) (now : Time) (key : String) :
    (mgr.isDuplicate now key).1 = true ↔
      (∃ v, (mgr.getResult now key).1 = some v) ∨
        ∃ t, mgr.inFlight.get? key = some t ∧ ¬ t < now - hour := by
  have hflight : (mgr.cleanup now).inFlight.get? key ≠ none ↔
      ∃ t, mgr.inFlight.get? key = some t ∧ ¬ t < now - hour := by
    rw [inFlight_get?_cleanup, Option.ne_none_iff_exists']
    simp only [Option.filter_eq_some_iff, decide_eq_true_eq]
  have hcache : (mgr.cleanup now).cache.get? key ≠ none ↔
      ∃ v, (mgr.getResult now key).1 = some v := by
    unfold getResult
    cases hget : (mgr.cleanup now).cache.get? key <;> simp [hget]
  rw [isDuplicate_eq_true_iff, hflight, hcache]

theorem getResult_restart_iff (v : CachedValue ρ) :
    ((mgr.restart str now).getResult now key).1 = some v ↔
      ∃ row raw, mgr.row? key = some row ∧ row.status = .confirmed ∧
        isRecentText now row.timestamp = true ∧ ¬ row.timestamp < now - mgr.window ∧
        row.result = some raw ∧ raw.reload str = v := by
  have hwindow : (mgr.restart str now).window = mgr.window := rfl
  rw [getResult_eq_some_iff, hwindow]
  simp only [cache_get?_restart, Option.bind_eq_some_iff, loadRow_eq_some_iff]
  constructor
  · intro h
    obtain ⟨t, ⟨row, hrow, hstatus, hrecent, raw, hraw, htime, hvalue⟩, hlive⟩ := h
    subst htime
    exact ⟨row, raw, hrow, hstatus, hrecent, hlive, hraw, hvalue⟩
  · intro h
    obtain ⟨row, raw, hrow, hstatus, hrecent, hlive, hraw, hvalue⟩ := h
    exact ⟨_, ⟨row, hrow, hstatus, hrecent, raw, hraw, rfl, hvalue⟩, hlive⟩

/-- The new manager takes a key for a duplicate when its row is confirmed, recent and not
expired. -/
theorem isDuplicate_restart_iff (h : mgr.Consistent str) :
    ((mgr.restart str now).isDuplicate now key).1 = true ↔
      ∃ row, mgr.row? key = some row ∧ row.status = .confirmed ∧
        isRecentText now row.timestamp = true ∧ ¬ row.timestamp < now - mgr.window := by
  have hempty : ∀ t, (mgr.restart str now).inFlight.get? key ≠ some t := by
    intro t hget
    cases hget
  rw [isDuplicate_iff]
  constructor
  · intro hdup
    cases hdup with
    | inl hresult =>
        obtain ⟨v, hv⟩ := hresult
        obtain ⟨row, raw, hrow, hstatus, hrecent, hlive, _⟩ := getResult_restart_iff v |>.mp hv
        exact ⟨row, hrow, hstatus, hrecent, hlive⟩
    | inr hflight =>
        obtain ⟨t, hget, _⟩ := hflight
        exact absurd hget (hempty t)
  · intro ⟨row, hrow, hstatus, hrecent, hlive⟩
    obtain ⟨raw, hraw⟩ := h.confirmed key row hrow hstatus
    exact .inl ⟨raw.reload str, (getResult_restart_iff _).mpr
      ⟨row, raw, hrow, hstatus, hrecent, hlive, hraw, rfl⟩⟩

/-- What is read back is a text, and a text is read back as it is. -/
theorem reload_eq_of_text {raw v : CachedValue ρ} (h : v = raw ∨ v = raw.reload str) {s : String}
    (hv : v = .text s) : raw.reload str = v := by
  cases h with
  | inl hraw =>
      rw [← hraw, hv]
      rfl
  | inr hreload => exact hreload.symm

theorem Consistent.restartSafe (h : mgr.Consistent str) (survives : mgr.SurvivesRestart str now) :
    mgr.RestartSafe now := by
  have hidle : ∀ key t, mgr.inFlight.get? key = some t → t < now - hour := by
    intro key t hget
    by_contra hlive
    have hdup := (isDuplicate_iff mgr now key).mpr (.inr ⟨t, hget, hlive⟩)
    rw [← survives.duplicates, isDuplicate_restart_iff h] at hdup
    obtain ⟨row, hrow, hstatus, _⟩ := hdup
    obtain ⟨row', hrow', hstatus'⟩ := h.inFlight key t hget
    have hsame : row = row' := Option.some.inj (hrow.symm.trans hrow')
    rw [hsame, hstatus'] at hstatus
    cases hstatus
  constructor
  · exact hidle
  · intro key t v hget hlive
    have hresult := survives.results key v
      ((getResult_eq_some_iff mgr now key v).mpr ⟨t, hget, hlive⟩)
    obtain ⟨row, raw, hrow, hstatus, hrecent, _, _, hvalue⟩ := (getResult_restart_iff v).mp hresult
    refine ⟨?_, row, hrow, hstatus, hrecent⟩
    cases raw with
    | result r => exact ⟨str r, hvalue.symm⟩
    | text s => exact ⟨s, hvalue.symm⟩
  · intro key row hrow hstatus hrecent hlive
    have hdup := (isDuplicate_restart_iff h).mpr ⟨row, hrow, hstatus, hrecent, hlive⟩
    rw [survives.duplicates, isDuplicate_iff] at hdup
    cases hdup with
    | inl hresult =>
        obtain ⟨v, hv⟩ := hresult
        obtain ⟨t, hget, _⟩ := (getResult_eq_some_iff mgr now key v).mp hv
        simp [hget]
    | inr hflight =>
        obtain ⟨t, hget, hyoung⟩ := hflight
        exact absurd (hidle key t hget) hyoung

theorem Consistent.survivesRestart (h : mgr.Consistent str) (safe : mgr.RestartSafe now) :
    mgr.SurvivesRestart str now := by
  have hresults : ∀ key v, (mgr.getResult now key).1 = some v →
      ((mgr.restart str now).getResult now key).1 = some v := by
    intro key v hv
    obtain ⟨t, hget, hlive⟩ := (getResult_eq_some_iff mgr now key v).mp hv
    obtain ⟨⟨s, hs⟩, row, hrow, hstatus, hrecent⟩ := safe.backed key t v hget hlive
    obtain ⟨raw, hraw⟩ := h.confirmed key row hrow hstatus
    obtain ⟨htime, hvalue⟩ := h.cache key t v row raw hget hrow hstatus hraw
    subst htime
    exact (getResult_restart_iff v).mpr
      ⟨row, raw, hrow, hstatus, hrecent, hlive, hraw, reload_eq_of_text hvalue hs⟩
  refine ⟨fun key => ?_, hresults⟩
  rw [Bool.eq_iff_iff, isDuplicate_iff mgr]
  constructor
  · intro hdup
    obtain ⟨row, hrow, hstatus, hrecent, hlive⟩ := (isDuplicate_restart_iff h).mp hdup
    obtain ⟨⟨t, v⟩, hget⟩ :=
      Option.ne_none_iff_exists'.mp (safe.cached key row hrow hstatus hrecent hlive)
    obtain ⟨raw, hraw⟩ := h.confirmed key row hrow hstatus
    have htime := (h.cache key t v row raw hget hrow hstatus hraw).1
    rw [htime] at hlive
    exact .inl ⟨v, (getResult_eq_some_iff mgr now key v).mpr ⟨t, hget, hlive⟩⟩
  · intro hdup
    cases hdup with
    | inl hresult =>
        obtain ⟨v, hv⟩ := hresult
        exact (isDuplicate_iff _ now key).mpr (.inl ⟨v, hresults key v hv⟩)
    | inr hflight =>
        obtain ⟨t, hget, hyoung⟩ := hflight
        exact absurd (safe.idle key t hget) hyoung

end Answers

/-- After any history, restarts included, a manager built now answers what the old one would
exactly when nothing is in flight, everything still cached was read back from a row that is still
there, and nothing was evicted. -/
theorem survives_restart_iff (str : ρ → String) (cacheSize expiryHours : Int)
    (ops : List (IdempotencyOp ρ)) (now : Time) :
    (run (step str) (fresh cacheSize expiryHours) ops).SurvivesRestart str now ↔
      (run (step str) (fresh cacheSize expiryHours) ops).RestartSafe now := by
  have hconsistent : (run (step str) (fresh cacheSize expiryHours) ops).Consistent str :=
    run_invariant (I := Consistent str) (fun mgr op h => step_consistent h op)
      (fresh_consistent cacheSize expiryHours) ops
  constructor
  · exact hconsistent.restartSafe
  · exact hconsistent.survivesRestart

/-- A process that stops a minute after it marked an order in flight. -/
theorem mark_in_flight_lost :
    ¬ ∀ (cacheSize expiryHours : Int) (ops : List (IdempotencyOp Unit)) (now : Time),
      (run (step fun _ => "") (fresh cacheSize expiryHours) ops).SurvivesRestart
        (fun _ => "") now := by
  intro h
  have hsurvives := h 1000 24 [.markInFlight (12 * hour) "signal-1"] (12 * hour + 60 * second)
  exact absurd (hsurvives.duplicates "signal-1") (by decide +kernel)

end IdempotencyManager

end AutoTrade.Execution
