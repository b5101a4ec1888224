import Mathlib.Algebra.Ring.Int.Defs
import Mathlib.Data.List.Sort
import AutoTrade.Library.Transaction

/-! # Schema migrations

`core/db_migration.py`: a registry of migrations in ascending version order, a
second registry of rollback functions, and the two calls that walk them. Each
step runs one function and writes `PRAGMA user_version` in a transaction of its
own; the handler around it catches `sqlite3.Error` and nothing else.

A migration's structural change is known by its version. What a function does
when it is called is part of the call: it returns, or it raises, perhaps with
its change partly made.
-/

namespace AutoTrade.Db

open Library (Connection loop)
open Library.Connection (guarded)

/-- `sqliteError` stands for `sqlite3.Error` and its subclasses. -/
inductive Exception
  | sqliteError
  | runtimeError
  | otherError
deriving DecidableEq, Repr

/-- `except sqlite3.Error`. -/
def Exception.isSqliteError : Exception → Bool
  | .sqliteError => true
  | _ => false

inductive FunctionCall
  | returns
  | raises (e : Exception) (touched : Bool)
deriving DecidableEq, Repr

def FunctionCall.error : FunctionCall → Option Exception
  | .returns => none
  | .raises e _ => some e

/-- The user version of a database file is a signed 32-bit number. -/
abbrev UserVersion := { v : Int // -2 ^ 31 ≤ v ∧ v < 2 ^ 31 }

/-- SQLite reads the number of the pragma as 32 bits, and one that does not fit as zero. -/
def UserVersion.ofInt (v : Int) : UserVersion :=
  if h : -2 ^ 31 ≤ v ∧ v < 2 ^ 31 then ⟨v, h⟩ else ⟨0, by decide⟩

structure Schema where
  /-- The migrations whose structural changes are in place. -/
  applied : List Int
  /-- A migration whose changes a function left partly made. -/
  torn : Option Int
  userVersion : UserVersion
deriving DecidableEq

/-! ## The registries -/

/-- `_verify_migration_order`. -/
def verifyMigrationOrder : List Int → Option Exception
  | a :: b :: rest =>
      if b ≤ a then some .runtimeError else verifyMigrationOrder (b :: rest)
  | _ => none

/-- `register_schema` replaces a migration of the same version in place. -/
def registerSchema (versions : List Int) (version : Int) : List Int :=
  if version ∈ versions then versions else versions ++ [version]

/-- `register_rollback`. -/
def registerRollback (rollbacks : List Int) (version : Int) : List Int :=
  if version ∈ rollbacks then rollbacks else rollbacks ++ [version]

theorem verifyMigrationOrder_eq_none (versions : List Int) :
    verifyMigrationOrder versions = none ↔ versions.Pairwise (· < ·) := by
  rw [← List.isChain_iff_pairwise]
  induction versions using verifyMigrationOrder.induct with
  | case1 a b rest hle =>
      have hnot : ¬ a < b := Int.not_lt.mpr hle
      simp [verifyMigrationOrder, hle, hnot]
  | case2 a b rest hle ih =>
      have hlt : a < b := Int.not_le.mp hle
      simp [verifyMigrationOrder, hle, hlt, ih]
  | case3 versions h =>
      rcases versions with _ | ⟨a, _ | ⟨b, rest⟩⟩
      · simp [verifyMigrationOrder]
      · simp [verifyMigrationOrder]
      · exact absurd rfl (h a b rest)

structure Registry where
  versions : List Int
  /-- The keys of `_ROLLBACK_REGISTRY`. -/
  rollbacks : List Int
  ascending : verifyMigrationOrder versions = none
  distinct : rollbacks.Nodup

namespace Registry

/-- A migration registered above the others, or over one of its own version, keeps the order. -/
def withSchema (reg : Registry) (version : Int)
    (h : version ∈ reg.versions ∨ ∀ v ∈ reg.versions, v < version) : Registry where
  versions := registerSchema reg.versions version
  rollbacks := reg.rollbacks
  ascending := by
    have hasc := (verifyMigrationOrder_eq_none reg.versions).mp reg.ascending
    unfold registerSchema
    split
    · exact reg.ascending
    · rename_i hnew
      have habove := h.resolve_left hnew
      rw [verifyMigrationOrder_eq_none, List.pairwise_append]
      exact ⟨hasc, List.pairwise_singleton _ _, by simpa using habove⟩
  distinct := reg.distinct

def withRollback (reg : Registry) (version : Int) : Registry where
  versions := reg.versions
  rollbacks := registerRollback reg.rollbacks version
  ascending := reg.ascending
  distinct := by
    unfold registerRollback
    split
    · exact reg.distinct
    · rename_i hnew
      refine List.nodup_append.mpr ⟨reg.distinct, List.nodup_singleton _, ?_⟩
      rintro a ha b hb rfl
      exact hnew (List.mem_singleton.mp hb ▸ ha)

end Registry

/-! ## The calls -/

/-- `get_schema_version`. -/
def getSchemaVersion (conn : Connection Schema) : Int := conn.live.userVersion

/-- `set_schema_version`. -/
def setSchemaVersion (schema : Schema) (version : Int) : Schema :=
  { schema with userVersion := .ofInt version }

/-- What one step does between its `BEGIN` and its commit: the function changes the schema, and the
version is written. -/
def stepBody (change : List Int → Int → List Int) (written : Int → Int)
    (functions : Int → FunctionCall) (schema : Schema) (version : Int) :
    Schema × Option Exception :=
  match functions version with
  | .returns =>
      (setSchemaVersion { schema with applied := change schema.applied version } (written version),
        none)
  | .raises e touched =>
      ({ schema with torn := if touched then some version else schema.torn }, some e)

def applyBody := stepBody (fun applied v => v :: applied) fun v => v

def undoBody := stepBody (fun applied v => applied.filter (· ≠ v)) fun v => v - 1

/-- The loop of both calls: an error ends the call, and else the version is read back. -/
def runSteps (body : Schema → Int → Schema × Option Exception) (conn : Connection Schema)
    (pending : List Int) : Connection Schema × Except Exception Int :=
  match loop (guarded Exception.isSqliteError .sqliteError body) conn pending with
  | (conn', none) => (conn', .ok (getSchemaVersion conn'))
  | (conn', some e) => (conn', .error e)

def pendingMigrations (reg : Registry) (current target : Int) : List Int :=
  (reg.versions.insertionSort (· ≤ ·)).filter fun v => decide (current < v ∧ v ≤ target)

def migrationTarget (reg : Registry) (current : Int) (target : Option Int) : Int :=
  target.getD (reg.versions.max?.getD current)

def migrateToLatest (reg : Registry) (conn : Connection Schema) (target : Option Int)
    (apply : Int → FunctionCall) : Connection Schema × Except Exception Int :=
  match verifyMigrationOrder reg.versions with
  | some e => (conn, .error e)
  | none =>
      let current := getSchemaVersion conn
      runSteps (applyBody apply) conn
        (pendingMigrations reg current (migrationTarget reg current target))

def pendingRollbacks (reg : Registry) (target current : Int) : List Int :=
  (reg.rollbacks.filter fun v => decide (target < v ∧ v ≤ current)).insertionSort
    fun a b => b ≤ a

def rollbackToVersion (reg : Registry) (conn : Connection Schema) (target : Int)
    (undo : Int → FunctionCall) : Connection Schema × Except Exception Int :=
  let current := getSchemaVersion conn
  if current ≤ target then (conn, .ok current)
  else
    let pending := pendingRollbacks reg target current
    if pending = [] then (conn, .ok current)
    else runSteps (undoBody undo) conn pending

end AutoTrade.Db
