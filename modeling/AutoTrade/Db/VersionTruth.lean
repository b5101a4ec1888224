import AutoTrade.Db.Migration

/-! # The schema version tells the truth

Between the calls on one connection no transaction should be open, and the
structural changes in place should be those of the migrations up to the user
version. A step keeps that where its function returns or raises `sqlite3.Error`,
and where no registered version lies between the old user version and the new.
-/

namespace AutoTrade.Db

open Library (Connection loop Always StepsMeet)
open Library.Connection

namespace Schema

/-- The changes in place are those of the migrations up to the user version. -/
structure Told (reg : Registry) (schema : Schema) : Prop where
  whole : schema.torn = none
  exact : ∀ v, v ∈ schema.applied ↔ v ∈ reg.versions ∧ v ≤ schema.userVersion

end Schema

/-- What should hold after each call. -/
structure Truthful (reg : Registry) (conn : Connection Schema) : Prop where
  closed : conn.saved = none
  told : conn.live.Told reg

theorem Truthful.eta {reg : Registry} {conn : Connection Schema} (h : Truthful reg conn) :
    conn = ⟨conn.live, none⟩ := by
  rw [← h.closed]

/-! ## The registries in order -/

section Pending

variable (reg : Registry)

theorem mem_pendingMigrations {current target v : Int} :
    v ∈ pendingMigrations reg current target ↔ v ∈ reg.versions ∧ current < v ∧ v ≤ target := by
  simp [pendingMigrations, List.mem_insertionSort]

theorem pairwise_pendingMigrations (current target : Int) :
    (pendingMigrations reg current target).Pairwise (· < ·) := by
  have hasc := (verifyMigrationOrder_eq_none reg.versions).mp reg.ascending
  have hsorted : reg.versions.insertionSort (· ≤ ·) = reg.versions :=
    List.Pairwise.insertionSort_eq (hasc.imp Int.le_of_lt)
  unfold pendingMigrations
  rw [hsorted]
  exact hasc.filter _

theorem mem_pendingRollbacks {target current v : Int} :
    v ∈ pendingRollbacks reg target current ↔
      v ∈ reg.rollbacks ∧ target < v ∧ v ≤ current := by
  simp [pendingRollbacks, List.mem_insertionSort]

theorem pairwise_pendingRollbacks (target current : Int) :
    (pendingRollbacks reg target current).Pairwise fun a b => b < a := by
  have hnodup : (pendingRollbacks reg target current).Nodup :=
    (List.perm_insertionSort _ _).nodup_iff.mpr (reg.distinct.filter _)
  have hsorted : (pendingRollbacks reg target current).Pairwise fun a b => b ≤ a :=
    List.pairwise_insertionSort (fun a b : Int => b ≤ a) _
  exact hsorted.imp₂ (fun a b hle hne => by omega) hnodup

end Pending

/-! ## One step -/

def raisedBy (functions : Int → FunctionCall) (version : Int) : Option Exception :=
  (functions version).error

theorem UserVersion.lt (version : UserVersion) : (version : Int) < 2 ^ 31 := version.2.2

section Step

theorem UserVersion.ofInt_eq {v : Int} (h : -2 ^ 31 ≤ v ∧ v < 2 ^ 31) :
    (UserVersion.ofInt v : Int) = v := by
  unfold UserVersion.ofInt
  rw [dif_pos h]

variable {change : List Int → Int → List Int} {written : Int → Int}
  {functions : Int → FunctionCall}

theorem stepBody_error (schema : Schema) (version : Int) :
    (stepBody change written functions schema version).2 = raisedBy functions version := by
  unfold stepBody raisedBy
  cases functions version <;> rfl

theorem applyBody_error (schema : Schema) (version : Int) :
    (applyBody functions schema version).2 = raisedBy functions version :=
  stepBody_error schema version

theorem undoBody_error (schema : Schema) (version : Int) :
    (undoBody functions schema version).2 = raisedBy functions version :=
  stepBody_error schema version

theorem stepBody_returns {version : Int} (h : raisedBy functions version = none)
    (schema : Schema) :
    (stepBody change written functions schema version).1 =
      setSchemaVersion { schema with applied := change schema.applied version }
        (written version) := by
  unfold stepBody
  cases hcall : functions version with
  | returns => rfl
  | raises e touched => simp [raisedBy, hcall, FunctionCall.error] at h

variable {reg : Registry} {schema : Schema}

/-- A migration step moves the truth up to the next registered version. -/
theorem Schema.Told.up (told : schema.Told reg) {v : Int} (hreg : v ∈ reg.versions)
    (habove : schema.userVersion < v) (hnext : ∀ w ∈ reg.versions, schema.userVersion < w → v ≤ w)
    (hfits : v < 2 ^ 31) :
    (setSchemaVersion { schema with applied := v :: schema.applied } v).Told reg := by
  have hwritten : (UserVersion.ofInt v : Int) = v :=
    UserVersion.ofInt_eq ⟨by have := schema.userVersion.2; omega, hfits⟩
  refine ⟨told.whole, ?_⟩
  intro w
  simp only [setSchemaVersion, hwritten, List.mem_cons, told.exact w]
  constructor
  · rintro (rfl | ⟨hw, hle⟩)
    · exact ⟨hreg, Int.le_refl w⟩
    · exact ⟨hw, by omega⟩
  · rintro ⟨hw, hle⟩
    by_cases hold : w ≤ schema.userVersion
    · exact Or.inr ⟨hw, hold⟩
    · exact Or.inl (Int.le_antisymm hle (hnext w hw (Int.not_le.mp hold)))

/-- A rollback step moves it down below a version with none registered in between. -/
theorem Schema.Told.down (told : schema.Told reg) {v : Int} (hbelow : v ≤ schema.userVersion)
    (hlast : ∀ w ∈ reg.versions, v ≤ w → w ≤ schema.userVersion → w = v)
    (hfits : -2 ^ 31 < v) :
    (setSchemaVersion { schema with applied := schema.applied.filter (· ≠ v) } (v - 1)).Told
      reg := by
  have hwritten : (UserVersion.ofInt (v - 1) : Int) = v - 1 :=
    UserVersion.ofInt_eq ⟨by omega, by have := schema.userVersion.2; omega⟩
  refine ⟨told.whole, ?_⟩
  intro w
  simp only [setSchemaVersion, hwritten, List.mem_filter, told.exact w, decide_eq_true_eq]
  constructor
  · rintro ⟨⟨hw, hle⟩, hne⟩
    refine ⟨hw, ?_⟩
    by_contra habove
    exact hne (hlast w hw (by omega) hle)
  · rintro ⟨hw, hle⟩
    exact ⟨⟨hw, by omega⟩, by omega⟩

end Step

/-! ## The two walks -/

/-- What is left of a migration call: the registered versions above the user version. -/
structure Climbs (reg : Registry) (target : Int) (schema : Schema) (rest : List Int) : Prop where
  told : schema.Told reg
  ordered : rest.Pairwise (· < ·)
  pending : ∀ v, v ∈ rest ↔ v ∈ reg.versions ∧ schema.userVersion < v ∧ v ≤ target

/-- What is left of a rollback call: all the registered versions above the target, and the target's
own successor where it has a rollback function and the target is not reached. -/
structure Descends (reg : Registry) (target : Int) (schema : Schema) (rest : List Int) : Prop where
  told : schema.Told reg
  ordered : rest.Pairwise fun a b => b < a
  bounded : ∀ v ∈ rest, target < v ∧ v ≤ schema.userVersion
  complete : ∀ v ∈ reg.versions, target < v → v ≤ schema.userVersion → v ∈ rest
  reaches : target + 1 ∈ reg.rollbacks →
    target + 1 ∈ rest ∨ (schema.userVersion : Int) = target

section Walks

variable {reg : Registry} {target : Int} {functions : Int → FunctionCall} {schema : Schema}

theorem Climbs.next {v : Int} {rest : List Int} (h : Climbs reg target schema (v :: rest))
    (hcall : raisedBy functions v = none) (hfits : v < 2 ^ 31) :
    Climbs reg target (applyBody functions schema v).1 rest := by
  obtain ⟨hlater, hordered⟩ := List.pairwise_cons.mp h.ordered
  obtain ⟨hreg, habove, hle⟩ := (h.pending v).mp List.mem_cons_self
  have hnext : ∀ w ∈ reg.versions, schema.userVersion < w → v ≤ w := by
    intro w hw huv
    by_contra hlow
    have hmem : w ∈ v :: rest := (h.pending w).mpr ⟨hw, huv, by omega⟩
    rcases List.mem_cons.mp hmem with rfl | hrest
    · omega
    · have := hlater w hrest
      omega
  have hwritten : (UserVersion.ofInt v : Int) = v :=
    UserVersion.ofInt_eq ⟨by have := schema.userVersion.2; omega, hfits⟩
  unfold applyBody
  rw [stepBody_returns hcall]
  refine ⟨h.told.up hreg habove hnext hfits, hordered, ?_⟩
  intro w
  simp only [setSchemaVersion, hwritten]
  constructor
  · intro hw
    have hpending := (h.pending w).mp (List.mem_cons_of_mem v hw)
    exact ⟨hpending.1, hlater w hw, hpending.2.2⟩
  · rintro ⟨hw, hlt, hle⟩
    have hmem : w ∈ v :: rest := (h.pending w).mpr ⟨hw, by omega, hle⟩
    rcases List.mem_cons.mp hmem with rfl | hrest
    · omega
    · exact hrest

theorem Descends.next {v : Int} {rest : List Int} (h : Descends reg target schema (v :: rest))
    (hcall : raisedBy functions v = none) (hfits : -2 ^ 31 ≤ target) :
    Descends reg target (undoBody functions schema v).1 rest := by
  obtain ⟨hlater, hordered⟩ := List.pairwise_cons.mp h.ordered
  obtain ⟨hhead, hbounded⟩ := List.forall_mem_cons.mp h.bounded
  have hlast : ∀ w ∈ reg.versions, v ≤ w → w ≤ schema.userVersion → w = v := by
    intro w hw hge hle
    rcases List.mem_cons.mp (h.complete w hw (by omega) hle) with rfl | hrest
    · rfl
    · have := hlater w hrest
      omega
  have hwritten : (UserVersion.ofInt (v - 1) : Int) = v - 1 :=
    UserVersion.ofInt_eq ⟨by omega, by have := schema.userVersion.2; omega⟩
  unfold undoBody
  rw [stepBody_returns hcall]
  refine ⟨h.told.down hhead.2 hlast (by omega), hordered, ?_, ?_, ?_⟩
  · intro w hw
    simp only [setSchemaVersion, hwritten]
    exact ⟨(hbounded w hw).1, by have := hlater w hw; omega⟩
  · simp only [setSchemaVersion, hwritten]
    intro w hw habove hle
    rcases List.mem_cons.mp (h.complete w hw habove (by omega)) with rfl | hrest
    · omega
    · exact hrest
  · simp only [setSchemaVersion, hwritten]
    intro hreg
    rcases h.reaches hreg with hmem | hdone
    · rcases List.mem_cons.mp hmem with hv | hrest
      · exact Or.inr (by omega)
      · exact Or.inl hrest
    · omega

end Walks

/-! ## Calls -/

inductive MigrationCall
  | migrate (target : Option Int) (apply : Int → FunctionCall)
  | rollback (target : Int) (undo : Int → FunctionCall)

namespace MigrationCall

def perform (reg : Registry) (conn : Connection Schema) :
    MigrationCall → Connection Schema × Except Exception Int
  | .migrate target apply => migrateToLatest reg conn target apply
  | .rollback target undo => rollbackToVersion reg conn target undo

def step (reg : Registry) (conn : Connection Schema) (call : MigrationCall) : Connection Schema :=
  (call.perform reg conn).1

end MigrationCall

/-- A migration between the target and the current version has no rollback function. -/
def LacksRollback (reg : Registry) (target current : Int) : Prop :=
  ∃ v ∈ reg.versions, target < v ∧ v ≤ current ∧ v ∉ reg.rollbacks

/-- What a rollback to a lower version should leave: one that returns has reached its target, and one
that lacks a function raises with nothing changed. -/
structure EndsHonestly (reg : Registry) (conn : Connection Schema) (target : Int)
    (after : Connection Schema × Except Exception Int) : Prop where
  atTarget : ∀ v, after.2 = .ok v → v = target ∧ getSchemaVersion after.1 = target
  unchanged : LacksRollback reg target (getSchemaVersion conn) →
    after.1 = conn ∧ ∃ e, after.2 = .error e

def RollbackHonest (reg : Registry) (conn : Connection Schema) : MigrationCall → Prop
  | .migrate _ _ => True
  | .rollback target undo =>
      target < getSchemaVersion conn →
        EndsHonestly reg conn target (rollbackToVersion reg conn target undo)

/-- The version tells the truth after every call of the run, and every rollback is honest. -/
def VersionTold (reg : Registry) (conn : Connection Schema) (calls : List MigrationCall) : Prop :=
  Always (MigrationCall.step reg) (Truthful reg) conn calls ∧
    StepsMeet (MigrationCall.step reg) (RollbackHonest reg) conn calls

/-- The first function that raises, if any does, raises `sqlite3.Error`. -/
def FailsSafely (functions : Int → FunctionCall) (pending : List Int) : Prop :=
  ∀ e ∈ firstError (raisedBy functions) pending, e.isSqliteError = true

/-- The calls that keep the truth. -/
def CallSafe (reg : Registry) (conn : Connection Schema) : MigrationCall → Prop
  | .migrate target apply =>
      let current := getSchemaVersion conn
      let pending := pendingMigrations reg current (migrationTarget reg current target)
      FailsSafely apply pending ∧ ∀ v ∈ finished (raisedBy apply) pending, v < 2 ^ 31
  | .rollback target undo =>
      let current := getSchemaVersion conn
      let pending := pendingRollbacks reg target current
      target < current →
        -2 ^ 31 ≤ target ∧ FailsSafely undo pending ∧
        (LacksRollback reg target current → ∃ v ∈ pending.head?, raisedBy undo v ≠ none) ∧
        (firstError (raisedBy undo) pending = none → target + 1 ∈ reg.rollbacks)

section Calls

variable {reg : Registry} {conn : Connection Schema}

theorem runSteps_eq {body : Schema → Int → Schema × Option Exception} {pending : List Int}
    {after : Connection Schema} {r : Option Exception}
    (h : loop (guarded Exception.isSqliteError .sqliteError body) conn pending = (after, r)) :
    runSteps body conn pending =
      (after, r.elim (.ok (getSchemaVersion after)) fun e => .error e) := by
  unfold runSteps
  rw [h]
  cases r <;> rfl

theorem Truthful.climbs (h : Truthful reg conn) (target : Int) :
    Climbs reg target conn.live (pendingMigrations reg (getSchemaVersion conn) target) where
  told := h.told
  ordered := pairwise_pendingMigrations reg _ _
  pending _ := mem_pendingMigrations reg

theorem migrate_truthful (h : Truthful reg conn) {target : Option Int}
    {apply : Int → FunctionCall} (safe : CallSafe reg conn (.migrate target apply)) :
    Truthful reg (migrateToLatest reg conn target apply).1 := by
  obtain ⟨hhandled, hfits⟩ := safe
  obtain ⟨after, rest, hloop, hclimbs, -, -⟩ := loop_guarded .sqliteError applyBody_error
    (fun a x rest hI hx hC => hI.next hx hC) (h.climbs _) hhandled hfits
  rw [← h.eta] at hloop
  unfold migrateToLatest
  rw [reg.ascending]
  simp only [runSteps_eq hloop]
  exact ⟨rfl, hclimbs.told⟩

theorem mem_rollbacks_of_not_lacks {target current : Int} (h : ¬ LacksRollback reg target current)
    {v : Int} (hreg : v ∈ reg.versions) (habove : target < v) (hle : v ≤ current) :
    v ∈ reg.rollbacks := by
  by_contra hnot
  exact h ⟨v, hreg, habove, hle, hnot⟩

theorem Truthful.descends (h : Truthful reg conn) {target : Int}
    (hlacks : ¬ LacksRollback reg target (getSchemaVersion conn))
    (habove : target < getSchemaVersion conn) :
    Descends reg target conn.live (pendingRollbacks reg target (getSchemaVersion conn)) where
  told := h.told
  ordered := pairwise_pendingRollbacks reg _ _
  bounded _ hv := ((mem_pendingRollbacks reg).mp hv).2
  complete v hv hlow hle :=
    (mem_pendingRollbacks reg).mpr ⟨mem_rollbacks_of_not_lacks hlacks hv hlow hle, hlow, hle⟩
  reaches hreg := Or.inl ((mem_pendingRollbacks reg).mpr ⟨hreg, by omega, by omega⟩)

theorem rollback_eq {target : Int} {undo : Int → FunctionCall}
    (habove : target < getSchemaVersion conn)
    (hpending : pendingRollbacks reg target (getSchemaVersion conn) ≠ [])
    {after : Connection Schema} {r : Option Exception}
    (hloop : loop (guarded Exception.isSqliteError .sqliteError (undoBody undo)) conn
      (pendingRollbacks reg target (getSchemaVersion conn)) = (after, r)) :
    rollbackToVersion reg conn target undo =
      (after, r.elim (.ok (getSchemaVersion after)) fun e => .error e) := by
  unfold rollbackToVersion
  simp only [Int.not_le.mpr habove, if_false, hpending, runSteps_eq hloop]

/-- Where the first function of a rollback raises `sqlite3.Error`, nothing changes. -/
theorem rollback_of_head_raises (h : Truthful reg conn) {target : Int}
    {undo : Int → FunctionCall} (habove : target < getSchemaVersion conn) {v : Int}
    (hhead : (pendingRollbacks reg target (getSchemaVersion conn)).head? = some v)
    {e : Exception} (hv : raisedBy undo v = some e) (he : e.isSqliteError = true) :
    rollbackToVersion reg conn target undo = (conn, .error e) := by
  obtain ⟨rest, hpending⟩ := List.head?_eq_some_iff.mp hhead
  refine rollback_eq (r := some e) habove (by simp [hpending]) ?_
  rw [hpending, h.eta]
  unfold loop
  rw [guarded_of_handled undoBody_error hv he]

theorem rollback_of_complete (h : Truthful reg conn) {target : Int} {undo : Int → FunctionCall}
    (habove : target < getSchemaVersion conn) (hfits : -2 ^ 31 ≤ target)
    (hhandled : FailsSafely undo (pendingRollbacks reg target (getSchemaVersion conn)))
    (hlacks : ¬ LacksRollback reg target (getSchemaVersion conn))
    (hreach : firstError (raisedBy undo) (pendingRollbacks reg target (getSchemaVersion conn)) =
      none → target + 1 ∈ reg.rollbacks) :
    Truthful reg (rollbackToVersion reg conn target undo).1 ∧
      EndsHonestly reg conn target (rollbackToVersion reg conn target undo) := by
  obtain ⟨after, rest, hloop, hdescends, -, hend⟩ := loop_guarded (C := fun _ => True) .sqliteError
    undoBody_error (fun a x rest hI hx _ => hI.next hx hfits) (h.descends hlacks habove) hhandled
    (fun _ _ => trivial)
  rw [← h.eta] at hloop
  have hpending : pendingRollbacks reg target (getSchemaVersion conn) ≠ [] := by
    intro hnil
    rw [hnil] at hreach
    have hmem : target + 1 ∈ pendingRollbacks reg target (getSchemaVersion conn) :=
      (mem_pendingRollbacks reg).mpr ⟨hreach rfl, by omega, by omega⟩
    rw [hnil] at hmem
    cases hmem
  rw [rollback_eq habove hpending hloop]
  refine ⟨⟨rfl, hdescends.told⟩, ?_, fun hlack => absurd hlack hlacks⟩
  intro v hv
  cases hfirst : firstError (raisedBy undo)
      (pendingRollbacks reg target (getSchemaVersion conn)) with
  | some e =>
      rw [hfirst] at hv
      cases hv
  | none =>
      rw [hfirst] at hv
      obtain rfl : rest = [] := hend hfirst
      have hdone : (after.userVersion : Int) = target := by
        simpa using hdescends.reaches (hreach hfirst)
      exact ⟨(Except.ok.inj hv).symm.trans hdone, hdone⟩

theorem rollback_safe (h : Truthful reg conn) {target : Int} {undo : Int → FunctionCall}
    (safe : CallSafe reg conn (.rollback target undo)) :
    Truthful reg (rollbackToVersion reg conn target undo).1 ∧
      RollbackHonest reg conn (.rollback target undo) := by
  by_cases habove : target < getSchemaVersion conn
  · obtain ⟨hfits, hhandled, hlack, hreach⟩ := safe habove
    by_cases hlacks : LacksRollback reg target (getSchemaVersion conn)
    · obtain ⟨v, hhead, hv⟩ := hlack hlacks
      obtain ⟨e, he⟩ := Option.ne_none_iff_exists'.mp hv
      obtain ⟨rest, hpending⟩ := List.head?_eq_some_iff.mp hhead
      have hsafe : e.isSqliteError = true := hhandled e (by simp [hpending, firstError, he])
      have hends := rollback_of_head_raises h habove hhead he hsafe
      refine ⟨by rw [hends]; exact h, fun _ => ?_⟩
      rw [hends]
      refine ⟨?_, fun _ => ⟨rfl, e, rfl⟩⟩
      intro v hreturns
      cases hreturns
    · obtain ⟨htruth, hhonest⟩ := rollback_of_complete h habove hfits hhandled hlacks hreach
      exact ⟨htruth, fun _ => hhonest⟩
  · refine ⟨?_, fun hlow => absurd hlow habove⟩
    unfold rollbackToVersion
    rw [if_pos (Int.not_lt.mp habove)]
    exact h

theorem call_safe (h : Truthful reg conn) {call : MigrationCall} (safe : CallSafe reg conn call) :
    Truthful reg (call.step reg conn) ∧ RollbackHonest reg conn call := by
  cases call with
  | migrate target apply => exact ⟨migrate_truthful h safe, trivial⟩
  | rollback target undo => exact rollback_safe h safe

end Calls

/-! ## Only safe calls keep the truth -/

section Needed

variable {reg : Registry} {conn : Connection Schema} {body : Schema → Int → Schema × Option Exception}
  {functions : Int → FunctionCall}

theorem runSteps_fst (conn : Connection Schema) (pending : List Int) :
    (runSteps body conn pending).1 =
      (loop (guarded Exception.isSqliteError .sqliteError body) conn pending).1 := by
  rw [runSteps_eq (Prod.eta _).symm]

/-- An error of another class leaves the transaction open. -/
theorem failsSafely_of_closed (hbody : ∀ a v, (body a v).2 = raisedBy functions v)
    (h : Truthful reg conn) {pending : List Int}
    (hclosed : (runSteps body conn pending).1.saved = none) : FailsSafely functions pending := by
  intro e he
  by_contra hnot
  rw [runSteps_fst, h.eta] at hclosed
  exact loop_guarded_open .sqliteError hbody he (Bool.eq_false_iff.mpr hnot) _ hclosed

/-- Whatever version was written after it, a finished migration is in place. -/
theorem finished_applied {pending : List Int} (hnodup : pending.Nodup)
    (hhandled : FailsSafely functions pending) (schema : Schema) {v : Int}
    (hv : v ∈ finished (raisedBy functions) pending) :
    v ∈ (loop (guarded Exception.isSqliteError .sqliteError (applyBody functions))
      ⟨schema, none⟩ pending).1.live.applied := by
  have hnext : ∀ (a : Schema) x rest, (∀ w ∈ pending, w ∈ x :: rest ∨ w ∈ a.applied) →
      raisedBy functions x = none → True →
      ∀ w ∈ pending, w ∈ rest ∨ w ∈ (applyBody functions a x).1.applied := by
    intro a x rest hplace hx _ w hw
    unfold applyBody
    rw [stepBody_returns hx]
    rcases hplace w hw with hmem | happ
    · rcases List.mem_cons.mp hmem with rfl | hrest
      · exact Or.inr List.mem_cons_self
      · exact Or.inl hrest
    · exact Or.inr (List.mem_cons_of_mem x happ)
  obtain ⟨after, rest, hloop, hplace, hsplit, -⟩ := loop_guarded
    (I := fun a rest => ∀ w ∈ pending, w ∈ rest ∨ w ∈ a.applied) .sqliteError applyBody_error hnext
    (fun w hw => Or.inl hw) hhandled (fun _ _ => trivial)
  rw [hloop]
  have hmem : v ∈ pending := hsplit ▸ List.mem_append_left rest hv
  rcases hplace v hmem with hrest | happ
  · rw [← hsplit] at hnodup
    exact absurd rfl ((List.nodup_append.mp hnodup).2.2 v hv v hrest)
  · exact happ

theorem migrate_needed (h : Truthful reg conn) {target : Option Int}
    {apply : Int → FunctionCall} (hafter : Truthful reg (migrateToLatest reg conn target apply).1) :
    CallSafe reg conn (.migrate target apply) := by
  unfold migrateToLatest at hafter
  rw [reg.ascending] at hafter
  have hhandled := failsSafely_of_closed applyBody_error h hafter.closed
  refine ⟨hhandled, ?_⟩
  intro v hv
  have hnodup := (pairwise_pendingMigrations reg (getSchemaVersion conn)
    (migrationTarget reg (getSchemaVersion conn) target)).imp Int.ne_of_lt
  have happ := finished_applied hnodup hhandled conn.live hv
  rw [← h.eta, ← runSteps_fst] at happ
  have hle := ((hafter.told.exact v).mp happ).2
  exact Int.lt_of_le_of_lt hle (UserVersion.lt _)

/-- The version after a rollback is one below the last function that finished. -/
theorem finished_written {target : Int} (hfits : -2 ^ 31 ≤ target) {pending : List Int}
    (hbounded : ∀ v ∈ pending, target < v ∧ v < 2 ^ 31) (hhandled : FailsSafely functions pending)
    (schema : Schema) :
    ∃ after : Schema, loop (guarded Exception.isSqliteError .sqliteError (undoBody functions))
        ⟨schema, none⟩ pending = (⟨after, none⟩, firstError (raisedBy functions) pending) ∧
      (finished (raisedBy functions) pending ≠ [] → (after.userVersion : Int) + 1 ∈ pending) := by
  have hnext : ∀ (a : Schema) x rest, ((∀ w ∈ x :: rest, w ∈ pending) ∧
        (x :: rest = pending ∨ (a.userVersion : Int) + 1 ∈ pending)) →
      raisedBy functions x = none → True → (∀ w ∈ rest, w ∈ pending) ∧
        (rest = pending ∨ ((undoBody functions a x).1.userVersion : Int) + 1 ∈ pending) := by
    rintro a x rest ⟨hmem, -⟩ hx -
    obtain ⟨hhead, hrest⟩ := List.forall_mem_cons.mp hmem
    have hb := hbounded x hhead
    have hwritten : (UserVersion.ofInt (x - 1) : Int) = x - 1 :=
      UserVersion.ofInt_eq ⟨by omega, by omega⟩
    unfold undoBody
    rw [stepBody_returns hx]
    refine ⟨hrest, Or.inr ?_⟩
    simp only [setSchemaVersion, hwritten, Int.sub_add_cancel]
    exact hhead
  obtain ⟨after, rest, hloop, ⟨-, hwritten⟩, hsplit, -⟩ := loop_guarded
    (I := fun a rest => (∀ w ∈ rest, w ∈ pending) ∧
      (rest = pending ∨ (a.userVersion : Int) + 1 ∈ pending)) .sqliteError undoBody_error hnext
    ⟨fun _ hw => hw, Or.inl rfl⟩ hhandled (fun _ _ => trivial)
  refine ⟨after, hloop, fun hfinished => hwritten.resolve_left ?_⟩
  rintro rfl
  exact hfinished (List.append_left_eq_self.mp hsplit)

theorem rollback_needed (h : Truthful reg conn) {target : Int} (hfits : -2 ^ 31 ≤ target)
    {undo : Int → FunctionCall} (hafter : Truthful reg (rollbackToVersion reg conn target undo).1)
    (honest : RollbackHonest reg conn (.rollback target undo)) :
    CallSafe reg conn (.rollback target undo) := by
  intro habove
  have hends := honest habove
  set current := getSchemaVersion conn with hcurrent
  set pending := pendingRollbacks reg target current with hp
  have hpending : pending ≠ [] := by
    intro hnil
    have hquiet : rollbackToVersion reg conn target undo = (conn, .ok current) := by
      unfold rollbackToVersion
      simp only [← hcurrent, Int.not_le.mpr habove, if_false, ← hp, hnil, if_true]
    have hreached := (hends.atTarget current (by rw [hquiet])).1
    omega
  have hbounded : ∀ v ∈ pending, target < v ∧ v < 2 ^ 31 := by
    intro v hv
    obtain ⟨-, hlow, hle⟩ := (mem_pendingRollbacks reg).mp hv
    exact ⟨hlow, Int.lt_of_le_of_lt hle (UserVersion.lt _)⟩
  have hhandled : FailsSafely undo pending := by
    refine failsSafely_of_closed undoBody_error h ?_
    rw [runSteps_fst]
    rw [rollback_eq habove hpending (Prod.eta _).symm] at hafter
    exact hafter.closed
  obtain ⟨after, hloop, hwritten⟩ := finished_written hfits hbounded hhandled conn.live
  rw [← h.eta] at hloop
  rw [rollback_eq habove hpending hloop] at hends
  obtain ⟨v, rest, hcons⟩ := List.exists_cons_of_ne_nil hpending
  have hfinished : raisedBy undo v = none → finished (raisedBy undo) pending ≠ [] := by
    intro hv
    simp [hcons, finished, hv]
  refine ⟨hfits, hhandled, ?_, ?_⟩
  · intro hlacks
    refine ⟨v, by simp [hcons], ?_⟩
    intro hv
    obtain ⟨hsame, -⟩ := hends.unchanged hlacks
    obtain ⟨-, -, hle⟩ := (mem_pendingRollbacks reg).mp (hwritten (hfinished hv))
    have hversion : (after.userVersion : Int) = current := by
      rw [hcurrent, ← hsame]
      rfl
    omega
  · intro hfirst
    have hv : raisedBy undo v = none := List.findSome?_eq_none_iff.mp hfirst v (by simp [hcons])
    have hreached := (hends.atTarget after.userVersion (by rw [hfirst]; rfl)).1
    rw [← hreached]
    exact ((mem_pendingRollbacks reg).mp (hwritten (hfinished hv))).1

end Needed

/-! ## Runs of calls -/

/-- In a run of safe calls the version tells the truth throughout. -/
theorem schema_version_truthful (reg : Registry) {conn : Connection Schema}
    (start : Truthful reg conn) {calls : List MigrationCall}
    (safe : StepsMeet (MigrationCall.step reg) (CallSafe reg) conn calls) :
    VersionTold reg conn calls :=
  Library.always_and_stepsMeet (fun _ _ _ h hsafe => call_safe h hsafe) start safe

def threeMigrations : Registry where
  versions := [1, 2, 3]
  rollbacks := [1, 3]
  ascending := by decide
  distinct := by decide

/-- A new database. -/
def freshConnection : Connection Schema := ⟨⟨[], none, .ofInt 0⟩, none⟩

theorem fresh_truthful : Truthful threeMigrations freshConnection where
  closed := rfl
  told := by
    refine ⟨rfl, fun v => ?_⟩
    have hzero : (freshConnection.live.userVersion : Int) = 0 := by decide
    simp only [freshConnection, List.not_mem_nil, false_iff, not_and, threeMigrations,
      List.mem_cons, or_false] at hzero ⊢
    omega

/-- A locked database stops the second migration, and a rollback of the first goes to version 0. -/
theorem schema_version_truthful_locked :
    VersionTold threeMigrations freshConnection
      [.migrate none fun v => if v = 2 then .raises .sqliteError true else .returns,
        .rollback 0 fun _ => .returns] :=
  schema_version_truthful threeMigrations fresh_truthful (by
    refine ⟨⟨by unfold FailsSafely; decide, by decide⟩, fun _ => ⟨by decide, ?_, ?_, ?_⟩, trivial⟩
    · unfold FailsSafely; decide
    · unfold LacksRollback; decide
    · decide)

/-- An error of another class in the second migration leaves its transaction open, and a rollback over
a migration without a rollback function leaves that one's change in place at version 0. -/
theorem version_untold :
    ¬ VersionTold threeMigrations freshConnection
        [.migrate none fun v => if v = 2 then .raises .otherError true else .returns] ∧
      ¬ VersionTold threeMigrations freshConnection
        [.migrate none fun _ => .returns, .rollback 0 fun _ => .returns] := by
  constructor
  · intro h
    exact absurd h.1.2.closed (by decide)
  · intro h
    exact absurd ((h.1.2.2.told.exact 2).mp (by decide)) (by decide)

def MigrationCall.Representable : MigrationCall → Prop
  | .migrate _ _ => True
  | .rollback target _ => -2 ^ 31 ≤ target

/-- Where a user version can hold every target, only runs of safe calls keep the truth. -/
theorem versionTold_iff (reg : Registry) {conn : Connection Schema} (start : Truthful reg conn)
    {calls : List MigrationCall} (hfits : ∀ call ∈ calls, call.Representable) :
    VersionTold reg conn calls ↔ StepsMeet (MigrationCall.step reg) (CallSafe reg) conn calls := by
  refine Library.always_and_stepsMeet_iff (fun _ h => h) (fun _ _ _ h hsafe => call_safe h hsafe) ?_
    start
  intro conn call hcall h hafter honest
  cases call with
  | migrate target apply => exact migrate_needed h hafter
  | rollback target undo => exact rollback_needed h (hfits _ hcall) hafter honest

end AutoTrade.Db
