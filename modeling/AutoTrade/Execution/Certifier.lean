import AutoTrade.Library.Run
import AutoTrade.Library.Table
import AutoTrade.Library.Text
import AutoTrade.Runtime

/-! # Execution certificates

`IdempotencyCertifier` of `core/execution/idempotency/certifier.py`: a row of the
table `certs` for each execution, found by `execution_id` when an execution
begins and by `cert_id` when it is committed, settled or failed. The second
identifier is built from the clock. A call's clock readings are the milliseconds
`int(time.time() * 1000)` and the text `str(now_ist())`; `params_hash` is what
becomes of the parameters, or the error that `json.dumps` raises on them.
-/

namespace AutoTrade.Execution

open Library (Table run Always StepsMeet)

inductive CertStatus
  | pending
  | committed
  | settled
  | failed
deriving DecidableEq, Repr

/-- The documented lifecycle, and staying put. -/
def CertStatus.advances (s t : CertStatus) : Bool :=
  decide (s = t ∨ (s, t) ∈
    [(pending, committed), (committed, settled), (pending, failed), (committed, failed)])

structure ExecutionCert where
  certId : String
  executionId : String
  symbol : String
  action : String
  paramsHash : String
  status : CertStatus := .pending
  brokerOrderId : String := ""
  createdAt : String
  committedAt : Option String := none
  settledAt : Option String := none
  error : String := ""
deriving DecidableEq, Repr

/-- `f"cert_{execution_id}_{int(time.time()*1000)}"`. -/
def certIdAt (executionId : String) (ms : Int) : String :=
  "cert_" ++ executionId ++ "_" ++ toString ms

def uniqueError (column : String) : PyExc := ⟨.other, "UNIQUE constraint failed: certs." ++ column⟩

/-- The table has `cert_id` as its primary key; the unique index on `execution_id` is checked where a
row is inserted. -/
structure IdempotencyCertifier where
  certs : Table ExecutionCert ExecutionCert.certId

namespace IdempotencyCertifier

def empty : IdempotencyCertifier := ⟨Table.empty⟩

def getByExecutionId (c : IdempotencyCertifier) (executionId : String) : Option ExecutionCert :=
  c.certs.rows.find? fun row => decide (row.executionId = executionId)

def insertCert (c : IdempotencyCertifier) (row : ExecutionCert) :
    Except PyExc IdempotencyCertifier :=
  if c.certs.contains row.certId then .error (uniqueError "cert_id")
  else if (c.getByExecutionId row.executionId).isSome then .error (uniqueError "execution_id")
  else .ok ⟨c.certs.upsert row⟩

/-- `UPDATE certs SET ... WHERE cert_id = ?`. -/
def updateCert (c : IdempotencyCertifier) (certId : String) (set : ExecutionCert → ExecutionCert)
    (hset : ∀ row, (set row).certId = row.certId) : IdempotencyCertifier :=
  ⟨c.certs.update certId set hset⟩

section Calls

variable {π : Type} (hashParams : π → Except PyExc String)

def begin (c : IdempotencyCertifier) (executionId symbol action : String) (params : π) (ms : Int)
    (now : String) : IdempotencyCertifier × Except PyExc String :=
  let certId := certIdAt executionId ms
  match hashParams params with
  | .error e => (c, .error e)
  | .ok paramsHash =>
      match c.getByExecutionId executionId with
      | some _ => (c, .ok certId)
      | none =>
          match c.insertCert { certId, executionId, symbol, action, paramsHash, createdAt := now } with
          | .error e => (c, .error e)
          | .ok c' => (c', .ok certId)

def commit (c : IdempotencyCertifier) (certId brokerOrderId now : String) : IdempotencyCertifier :=
  c.updateCert certId
    (fun row => { row with status := .committed, committedAt := some now, brokerOrderId })
    fun _ => rfl

def settle (c : IdempotencyCertifier) (certId now : String) : IdempotencyCertifier :=
  c.updateCert certId (fun row => { row with status := .settled, settledAt := some now })
    fun _ => rfl

def fail (c : IdempotencyCertifier) (certId error : String) : IdempotencyCertifier :=
  c.updateCert certId (fun row => { row with status := .failed, error }) fun _ => rfl

end Calls

end IdempotencyCertifier

/-! ## Runs -/

inductive CertCall (π : Type)
  | begin (executionId symbol action : String) (params : π) (ms : Int) (now : String)
  | commit (certId brokerOrderId now : String)
  | settle (certId now : String)
  | fail (certId error : String)
deriving DecidableEq

/-- `issued` is not in the code: the executions and the identifiers that `begin` returned for them. -/
structure CertRun where
  certifier : IdempotencyCertifier
  issued : List (String × String) := []

namespace CertRun

def fresh : CertRun := { certifier := .empty }

def rows (r : CertRun) : List ExecutionCert := r.certifier.certs.rows

section Steps

variable {π : Type} (hashParams : π → Except PyExc String)

def step (r : CertRun) : CertCall π → CertRun
  | .begin executionId symbol action params ms now =>
      match r.certifier.begin hashParams executionId symbol action params ms now with
      | (certifier, .ok certId) => ⟨certifier, r.issued ++ [(executionId, certId)]⟩
      | (certifier, .error _) => ⟨certifier, r.issued⟩
  | .commit certId brokerOrderId now =>
      { r with certifier := r.certifier.commit certId brokerOrderId now }
  | .settle certId now => { r with certifier := r.certifier.settle certId now }
  | .fail certId error => { r with certifier := r.certifier.fail certId error }

/-- One row for each execution, and every identifier that was returned is that of its execution's row. -/
structure Identified (r : CertRun) : Prop where
  single : (r.rows.map ExecutionCert.executionId).Nodup
  identifies : ∀ p ∈ r.issued, ∃ row ∈ r.rows, row.executionId = p.1 ∧ row.certId = p.2

/-- The certificate a call is about, and the status that the call gives it. -/
def target : CertCall π → Option (String × CertStatus)
  | .begin .. => none
  | .commit certId _ _ => some (certId, .committed)
  | .settle certId _ => some (certId, .settled)
  | .fail certId _ => some (certId, .failed)

/-- The call moves no status but along the lifecycle, and takes effect on the row of the execution
that its identifier was returned for. -/
structure KeepsLifecycle (r : CertRun) (call : CertCall π) : Prop where
  advances : ∀ row ∈ r.rows, ∃ row' ∈ (r.step hashParams call).rows, row'.certId = row.certId ∧
    row'.executionId = row.executionId ∧ row.status.advances row'.status = true
  takesEffect : ∀ certId status, target call = some (certId, status) →
    ∀ p ∈ r.issued, p.2 = certId → ∃ row' ∈ (r.step hashParams call).rows,
      row'.executionId = p.1 ∧ row'.status = status

/-- An execution that has a certificate begins again only in the millisecond whose identifier the
certificate has, and a call finds its certificate at a status from which it may be moved. -/
def Fits (r : CertRun) : CertCall π → Prop
  | .begin executionId _ _ params ms _ => (∃ text, hashParams params = .ok text) →
      ∀ row ∈ r.rows, row.executionId = executionId → row.certId = certIdAt executionId ms
  | .commit certId _ _ => ∀ row ∈ r.rows, row.certId = certId → row.status.advances .committed = true
  | .settle certId _ => ∀ row ∈ r.rows, row.certId = certId → row.status.advances .settled = true
  | .fail certId _ => ∀ row ∈ r.rows, row.certId = certId → row.status.advances .failed = true

/-! ## One call -/

/-- What a run keeps: every identifier is that of an execution and a millisecond. -/
structure Sound (r : CertRun) : Prop extends Identified r where
  named : ∀ row ∈ r.rows, ∃ ms, row.certId = certIdAt row.executionId ms

theorem fresh_sound : fresh.Sound where
  single := List.nodup_nil
  identifies := fun _ hp => absurd hp List.not_mem_nil
  named := fun _ hrow => absurd hrow List.not_mem_nil

theorem certIdAt_injective {e e' : String} {ms ms' : Int} (h : certIdAt e ms = certIdAt e' ms') :
    e = e' := by
  have hlist : ("cert_" ++ e).toList ++ '_' :: (toString ms).toList =
      ("cert_" ++ e').toList ++ '_' :: (toString ms').toList := by
    simpa [certIdAt, String.toList_append] using congrArg String.toList h
  have hparts := Library.append_cons_inj_of_last (Library.underscore_notMem_toString ms)
    (Library.underscore_notMem_toString ms') hlist
  exact (String.append_right_inj "cert_").mp (String.toList_inj.mp hparts.1)

/-- The row that a call updates is the only one it changes, and keeps both its identifiers. -/
theorem rows_step_target (r : CertRun) {call : CertCall π} {certId : String} {status : CertStatus}
    (h : target call = some (certId, status)) :
    ∃ set : ExecutionCert → ExecutionCert, (∀ row, (set row).executionId = row.executionId) ∧
      (∀ row, (set row).certId = row.certId) ∧ (∀ row, (set row).status = status) ∧
      (r.step hashParams call).rows = r.rows.map (fun row => if row.certId = certId then set row else row) ∧
      (r.step hashParams call).issued = r.issued := by
  cases call with
  | begin => cases h
  | commit id order now =>
      cases h
      exact ⟨fun row => { row with status := .committed, committedAt := some now, brokerOrderId := order },
        fun _ => rfl, fun _ => rfl, fun _ => rfl, rfl, rfl⟩
  | settle id now =>
      cases h
      exact ⟨fun row => { row with status := .settled, settledAt := some now },
        fun _ => rfl, fun _ => rfl, fun _ => rfl, rfl, rfl⟩
  | fail id error =>
      cases h
      exact ⟨fun row => { row with status := .failed, error },
        fun _ => rfl, fun _ => rfl, fun _ => rfl, rfl, rfl⟩

/-- What `begin` does: nothing where the parameters cannot be hashed; nothing to the table where the
execution has a row; else it adds a pending row. -/
theorem step_begin {r : CertRun} (hr : r.Sound) (executionId symbol action : String) (params : π)
    (ms : Int) (now : String) :
    let next := r.step hashParams (.begin executionId symbol action params ms now)
    ((∃ e, hashParams params = .error e) ∧ next = r) ∨
    ((∃ text, hashParams params = .ok text) ∧
      next.issued = r.issued ++ [(executionId, certIdAt executionId ms)] ∧
      ((∃ row ∈ r.rows, row.executionId = executionId) ∧ next.rows = r.rows ∨
        (∀ row ∈ r.rows, row.executionId ≠ executionId) ∧
          ∃ row, row.executionId = executionId ∧ row.certId = certIdAt executionId ms ∧
            next.rows = r.rows ++ [row])) := by
  intro next
  cases hhash : hashParams params with
  | error e =>
      refine .inl ⟨⟨e, rfl⟩, ?_⟩
      simp only [next, step, IdempotencyCertifier.begin, hhash]
  | ok text =>
      refine .inr ⟨⟨text, rfl⟩, ?_⟩
      cases hget : r.certifier.getByExecutionId executionId with
      | some row =>
          have hmem := List.mem_of_find?_eq_some hget
          have hid : row.executionId = executionId := by simpa using List.find?_some hget
          have hnext : next = ⟨r.certifier, r.issued ++ [(executionId, certIdAt executionId ms)]⟩ := by
            simp only [next, step, IdempotencyCertifier.begin, hhash, hget]
          rw [hnext]
          exact ⟨rfl, .inl ⟨⟨row, hmem, hid⟩, rfl⟩⟩
      | none =>
          have hnone : ∀ row ∈ r.rows, row.executionId ≠ executionId := by
            simpa [IdempotencyCertifier.getByExecutionId, rows] using hget
          let row : ExecutionCert :=
            { certId := certIdAt executionId ms, executionId, symbol, action, paramsHash := text,
              createdAt := now }
          have hfresh : ∀ x ∈ r.certifier.certs.rows, x.certId ≠ row.certId := by
            intro x hx hid
            obtain ⟨m, hm⟩ := hr.named x hx
            exact hnone x hx (certIdAt_injective (hm.symm.trans hid))
          have hcontains : r.certifier.certs.contains row.certId = false := by
            simpa [Table.contains] using (Table.find?_eq_none_iff _ _).mpr hfresh
          have hinsert : r.certifier.insertCert row = .ok ⟨r.certifier.certs.upsert row⟩ := by
            simp [IdempotencyCertifier.insertCert, hcontains, row, hget]
          have hnext : next = ⟨⟨r.certifier.certs.upsert row⟩,
              r.issued ++ [(executionId, certIdAt executionId ms)]⟩ := by
            simp only [next, step, IdempotencyCertifier.begin, hhash, hget]
            rw [hinsert]
          rw [hnext]
          exact ⟨rfl, .inr ⟨hnone, row, rfl, rfl, Table.rows_upsert_of_fresh hfresh⟩⟩

theorem advances_self (s : CertStatus) : s.advances s = true := by simp [CertStatus.advances]

theorem Sound.after_target {r : CertRun} (hr : r.Sound) {call : CertCall π} {certId : String}
    {status : CertStatus} (h : target call = some (certId, status)) :
    (r.step hashParams call).Sound := by
  obtain ⟨set, hexecution, hcert, hstatus, hrows, hissued⟩ := rows_step_target hashParams r h
  have hkeep : ∀ row : ExecutionCert, (if row.certId = certId then set row else row).executionId =
      row.executionId ∧ (if row.certId = certId then set row else row).certId = row.certId := by
    intro row
    split
    · exact ⟨hexecution row, hcert row⟩
    · exact ⟨rfl, rfl⟩
  refine ⟨⟨?_, ?_⟩, ?_⟩
  · rw [hrows, List.map_map]
    have hids : r.rows.map (ExecutionCert.executionId ∘ fun row =>
        if row.certId = certId then set row else row) = r.rows.map ExecutionCert.executionId :=
      List.map_congr_left fun row _ => (hkeep row).1
    rw [hids]
    exact hr.single
  · intro p hp
    rw [hissued] at hp
    obtain ⟨row, hrow, hid, hcertId⟩ := hr.identifies p hp
    rw [hrows]
    exact ⟨_, List.mem_map_of_mem hrow, (hkeep row).1.trans hid, (hkeep row).2.trans hcertId⟩
  · intro row' hrow'
    rw [hrows] at hrow'
    obtain ⟨row, hrow, rfl⟩ := List.mem_map.mp hrow'
    rw [(hkeep row).1, (hkeep row).2]
    exact hr.named row hrow

/-- An update keeps the lifecycle exactly when the row it finds may be moved. -/
theorem keepsLifecycle_target_iff {r : CertRun} (hr : r.Identified) {call : CertCall π}
    {certId : String} {status : CertStatus} (h : target call = some (certId, status)) :
    r.KeepsLifecycle hashParams call ↔
      ∀ row ∈ r.rows, row.certId = certId → row.status.advances status = true := by
  obtain ⟨set, hexecution, hcert, hstatus, hrows, -⟩ := rows_step_target hashParams r h
  constructor
  · intro hkeeps row hrow hid
    obtain ⟨row', hrow', hcertId, -, hadvances⟩ := hkeeps.advances row hrow
    rw [hrows] at hrow'
    obtain ⟨x, -, rfl⟩ := List.mem_map.mp hrow'
    by_cases hx : x.certId = certId
    · rwa [if_pos hx, hstatus] at hadvances
    · rw [if_neg hx] at hcertId
      exact absurd (hcertId.trans hid) hx
  · intro hmoves
    refine ⟨?_, ?_⟩
    · intro row hrow
      rw [hrows]
      refine ⟨_, List.mem_map_of_mem hrow, ?_⟩
      split
      · rename_i hid
        exact ⟨hcert row, hexecution row, by rw [hstatus]; exact hmoves row hrow hid⟩
      · exact ⟨rfl, rfl, advances_self _⟩
    · intro id s hs p hp hid
      rw [h] at hs
      cases hs
      obtain ⟨row, hrow, hexec, hrowId⟩ := hr.identifies p hp
      rw [hrows]
      refine ⟨_, List.mem_map_of_mem hrow, ?_⟩
      rw [if_pos (hrowId.trans hid)]
      exact ⟨(hexecution row).trans hexec, hstatus row⟩

theorem fits_target_iff (r : CertRun) {call : CertCall π} {certId : String} {status : CertStatus}
    (h : target call = some (certId, status)) : r.Fits hashParams call ↔
      ∀ row ∈ r.rows, row.certId = certId → row.status.advances status = true := by
  cases call with
  | begin => cases h
  | commit => cases h; exact Iff.rfl
  | settle => cases h; exact Iff.rfl
  | fail => cases h; exact Iff.rfl

theorem keepsLifecycle_begin {r : CertRun} {executionId symbol action : String} {params : π} {ms : Int}
    {now : String}
    (h : ∀ row ∈ r.rows, row ∈ (r.step hashParams (.begin executionId symbol action params ms now)).rows) :
    r.KeepsLifecycle hashParams (.begin executionId symbol action params ms now) where
  advances := fun row hrow => ⟨row, h row hrow, rfl, rfl, advances_self _⟩
  takesEffect := fun _ _ htarget => by cases htarget

theorem Sound.after_begin {r : CertRun} (hr : r.Sound) {executionId symbol action : String}
    {params : π} {ms : Int} {now : String}
    (hfits : r.Fits hashParams (.begin executionId symbol action params ms now)) :
    (r.step hashParams (.begin executionId symbol action params ms now)).Sound ∧
      r.KeepsLifecycle hashParams (.begin executionId symbol action params ms now) := by
  rcases step_begin hashParams hr executionId symbol action params ms now with
    ⟨-, hnext⟩ | ⟨hhash, hissued, ⟨⟨row, hrow, hid⟩, hrows⟩ | ⟨hnone, row, hid, hcertId, hrows⟩⟩
  · exact ⟨by rwa [hnext], keepsLifecycle_begin hashParams fun row hrow => by rwa [hnext]⟩
  · refine ⟨⟨⟨hrows ▸ hr.single, ?_⟩, hrows ▸ hr.named⟩,
      keepsLifecycle_begin hashParams fun row hrow => by rwa [hrows]⟩
    intro p hp
    rw [hissued, List.mem_append, List.mem_singleton] at hp
    rw [hrows]
    rcases hp with hp | rfl
    · exact hr.identifies p hp
    · exact ⟨row, hrow, hid, hfits hhash row hrow hid⟩
  · have hlast : row ∈ r.rows ++ [row] := List.mem_append_right _ (List.mem_singleton_self row)
    refine ⟨⟨⟨?_, ?_⟩, ?_⟩, keepsLifecycle_begin hashParams fun row hrow => by
      rw [hrows]; exact List.mem_append_left _ hrow⟩
    · rw [hrows]
      exact Table.nodup_append_row hr.single fun x hx => hid ▸ hnone x hx
    · intro p hp
      rw [hissued, List.mem_append, List.mem_singleton] at hp
      rw [hrows]
      rcases hp with hp | rfl
      · obtain ⟨x, hx, hboth⟩ := hr.identifies p hp
        exact ⟨x, List.mem_append_left _ hx, hboth⟩
      · exact ⟨row, hlast, hid, hcertId⟩
    · intro x hx
      rw [hrows, List.mem_append, List.mem_singleton] at hx
      rcases hx with hx | rfl
      · exact hr.named x hx
      · exact ⟨ms, hid ▸ hcertId⟩

/-- Where `begin` returned the identifier of the row, it was called in the row's millisecond. -/
theorem fits_begin_of_identified {r : CertRun} (hr : r.Sound) {executionId symbol action : String}
    {params : π} {ms : Int} {now : String}
    (hnext : (r.step hashParams (.begin executionId symbol action params ms now)).Identified) :
    r.Fits hashParams (.begin executionId symbol action params ms now) := by
  rintro ⟨text, htext⟩ row hrow hid
  rcases step_begin hashParams hr executionId symbol action params ms now with
    ⟨⟨e, he⟩, -⟩ | ⟨-, hissued, ⟨-, hrows⟩ | ⟨hnone, -⟩⟩
  · rw [htext] at he
    cases he
  · have hp : (executionId, certIdAt executionId ms) ∈
        (r.step hashParams (.begin executionId symbol action params ms now)).issued := by
      rw [hissued]
      exact List.mem_append_right _ (List.mem_singleton_self _)
    obtain ⟨row', hrow', hid', hcertId⟩ := hnext.identifies _ hp
    rw [hrows] at hrow'
    rw [List.inj_on_of_nodup_map hr.single hrow hrow' (hid.trans hid'.symm)]
    exact hcertId
  · exact absurd hid (hnone row hrow)

/-! ## Runs of calls -/

/-- A run keeps one row for each execution, found by every identifier that was returned for it, and
moves statuses along the lifecycle only, exactly when all its calls fit the rows they find. -/
theorem certificates_single_and_monotone_iff (calls : List (CertCall π)) :
    Always (step hashParams) Identified fresh calls ∧
        StepsMeet (step hashParams) (KeepsLifecycle hashParams) fresh calls ↔
      StepsMeet (step hashParams) (Fits hashParams) fresh calls := by
  refine Library.always_and_stepsMeet_iff (J := Sound) (fun _ h => h.toIdentified) ?_ ?_ fresh_sound
  · intro r call _ hr hfits
    cases htarget : target call with
    | none =>
        cases call with
        | begin => exact hr.after_begin hashParams hfits
        | commit => cases htarget
        | settle => cases htarget
        | fail => cases htarget
    | some change =>
        refine ⟨hr.after_target hashParams htarget, ?_⟩
        rw [keepsLifecycle_target_iff hashParams hr.toIdentified htarget]
        exact (fits_target_iff hashParams r htarget).mp hfits
  · intro r call _ hr hnext hkeeps
    cases htarget : target call with
    | none =>
        cases call with
        | begin => exact fits_begin_of_identified hashParams hr hnext
        | commit => cases htarget
        | settle => cases htarget
        | fail => cases htarget
    | some change =>
        rw [fits_target_iff hashParams r htarget]
        exact (keepsLifecycle_target_iff hashParams hr.toIdentified htarget).mp hkeeps

end Steps

/-- The execution of the call, begun again one millisecond later and then committed. -/
def recoveredCalls : List (CertCall Unit) :=
  [.begin "exec_100_abc" "NIFTY" "BUY" () 1000000 "2026-01-15 09:15:00+05:30",
    .begin "exec_100_abc" "NIFTY" "BUY" () 1000001 "2026-01-15 09:15:00.001000+05:30",
    .commit "cert_exec_100_abc_1000001" "B1" "2026-01-15 09:15:01+05:30"]

/-- The identifier that the second `begin` returns is that of no row, so the execution stays pending. -/
theorem recovered_execution_not_identified :
    ¬ (Always (step fun _ => .ok "44136fa355b3678a") Identified fresh recoveredCalls ∧
      StepsMeet (step fun _ => .ok "44136fa355b3678a")
        (KeepsLifecycle fun _ => .ok "44136fa355b3678a") fresh recoveredCalls) := by
  rintro ⟨⟨-, -, hidentified, -⟩, -⟩
  obtain ⟨row, hrow, -, hid⟩ := hidentified.identifies
    ("exec_100_abc", "cert_exec_100_abc_1000001") (by decide +kernel)
  revert hid
  revert row
  decide +kernel

end CertRun

end AutoTrade.Execution
