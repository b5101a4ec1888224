import AutoTrade.Runtime
import AutoTrade.Library.Table

/-! # The write-ahead journal

`core/wal/journal.py`: one row per `intent_id`. A row's parameters are kept as
they were given, of any type; their JSON text is a function of them. The
statements take effect in program order. Drawn correlation ids are numbered,
and a journal carries the proof that the next number is new to its rows.
-/

namespace AutoTrade.Wal

open AutoTrade.Library

inductive IntentStatus
  | pending
  | committed
  | settled
  | failed
deriving DecidableEq, Repr

/-- A caller's correlation id, or the `n`-th one drawn from `uuid4`. -/
inductive CorrelationId
  | given (text : String)
  | uuid (n : Nat)
deriving DecidableEq, Repr

/-- What the caller fills in; `append` supplies the rest. -/
structure Intent (π : Type) where
  intentId : String
  action : String
  params : π
  riskVerdict : Option π := none
  configSnapshotHash : String := ""
  correlationId : String := ""
  createdAt : Option Time := none
deriving DecidableEq, Repr

/-- A row of the table `intents`. -/
structure IntentRow (π : Type) where
  intentId : String
  action : String
  params : π
  riskVerdict : Option π
  configSnapshotHash : String
  correlationId : CorrelationId
  status : IntentStatus
  createdAt : Time
  committedAt : Option Time := none
  failedAt : Option Time := none
  errorMessage : Option String := none
deriving DecidableEq, Repr

structure WriteAheadJournal (π : Type) where
  intents : Table (IntentRow π) IntentRow.intentId
  uuids : Nat
  uuid_lt : ∀ id row n, intents.find? id = some row → row.correlationId = .uuid n → n < uuids

namespace WriteAheadJournal

variable {π : Type}

def empty : WriteAheadJournal π := ⟨Table.empty, 0, fun _ _ _ h => by simp at h⟩

def getIntent (journal : WriteAheadJournal π) (intentId : String) : Option (IntentRow π) :=
  journal.intents.find? intentId

def pendingRow (journal : WriteAheadJournal π) (now : Time) (intent : Intent π) : IntentRow π :=
  { intentId := intent.intentId
    action := intent.action
    params := intent.params
    riskVerdict := intent.riskVerdict
    configSnapshotHash := intent.configSnapshotHash
    correlationId :=
      if intent.correlationId = "" then .uuid journal.uuids else .given intent.correlationId
    status := .pending
    createdAt := intent.createdAt.getD now }

/-- `INSERT OR REPLACE`: the columns it does not name are NULL again. -/
def append (journal : WriteAheadJournal π) (now : Time) (intent : Intent π) :
    WriteAheadJournal π :=
  { intents := journal.intents.replace (journal.pendingRow now intent)
    uuids := if intent.correlationId = "" then journal.uuids + 1 else journal.uuids
    uuid_lt := by
      intro id row n hfind huuid
      rw [Table.find?_replace] at hfind
      split at hfind
      · cases hfind
        by_cases hdrawn : intent.correlationId = ""
        · simp only [pendingRow, hdrawn, if_true, CorrelationId.uuid.injEq] at huuid ⊢
          omega
        · simp [pendingRow, hdrawn] at huuid
      · have hold := journal.uuid_lt id row n hfind huuid
        split <;> omega }

/-- An `UPDATE` of one intent that leaves its ids alone. -/
def updateIntent (journal : WriteAheadJournal π) (intentId : String)
    (f : IntentRow π → IntentRow π) (hid : ∀ r, (f r).intentId = r.intentId)
    (hcorrelation : ∀ r, (f r).correlationId = r.correlationId) : WriteAheadJournal π :=
  { intents := journal.intents.update intentId f hid
    uuids := journal.uuids
    uuid_lt := by
      intro id row n hfind huuid
      rw [Table.find?_update] at hfind
      split at hfind
      · obtain ⟨r, hr, rfl⟩ := Option.map_eq_some_iff.mp hfind
        exact journal.uuid_lt id r n hr (by rw [← huuid, hcorrelation])
      · exact journal.uuid_lt id row n hfind huuid }

def commit (journal : WriteAheadJournal π) (now : Time) (intentId : String) : WriteAheadJournal π :=
  journal.updateIntent intentId (fun r => { r with status := .committed, committedAt := some now })
    (fun _ => rfl) fun _ => rfl

def fail (journal : WriteAheadJournal π) (now : Time) (intentId : String) (error : String := "") :
    WriteAheadJournal π :=
  journal.updateIntent intentId
    (fun r => { r with status := .failed, failedAt := some now, errorMessage := some error })
    (fun _ => rfl) fun _ => rfl

/-- Only a committed intent is settled. -/
def settle (journal : WriteAheadJournal π) (intentId : String) : WriteAheadJournal π :=
  journal.updateIntent intentId
    (fun r => if r.status = .committed then { r with status := .settled } else r)
    (fun r => by split <;> rfl) fun r => by split <;> rfl

/-- Drop the settled intents created more than `maxAge` ago; the texts of the times order as the
instants do. -/
def cleanup (journal : WriteAheadJournal π) (now maxAge : Time) : WriteAheadJournal π :=
  { intents := journal.intents.filter fun r =>
      !(decide (r.status = .settled) && decide (r.createdAt < now - maxAge))
    uuids := journal.uuids
    uuid_lt := by
      intro id row n hfind huuid
      rw [Table.find?_filter] at hfind
      exact journal.uuid_lt id row n (Option.filter_eq_some_iff.mp hfind).1 huuid }

/-- The calls that write one intent. -/
inductive JournalCall (π : Type)
  | append (intent : Intent π)
  | commit (intentId : String)
  | fail (intentId : String) (error : String)
  | settle (intentId : String)

def call (journal : WriteAheadJournal π) (now : Time) : JournalCall π → WriteAheadJournal π
  | .append intent => journal.append now intent
  | .commit intentId => journal.commit now intentId
  | .fail intentId error => journal.fail now intentId error
  | .settle intentId => journal.settle intentId

/-! ## What the writes leave behind -/

theorem getIntent_append (journal : WriteAheadJournal π) (now : Time) (intent : Intent π)
    (id : String) :
    (journal.append now intent).getIntent id =
      if id = intent.intentId then some (journal.pendingRow now intent)
      else journal.getIntent id :=
  Table.find?_replace _ _ _

theorem getIntent_updateIntent (journal : WriteAheadJournal π) (intentId : String)
    (f : IntentRow π → IntentRow π) (hid : ∀ r, (f r).intentId = r.intentId)
    (hcorrelation : ∀ r, (f r).correlationId = r.correlationId) (id : String) :
    (journal.updateIntent intentId f hid hcorrelation).getIntent id =
      if id = intentId then (journal.getIntent id).map f else journal.getIntent id :=
  journal.intents.find?_update intentId f hid id

theorem getIntent_commit (journal : WriteAheadJournal π) (now : Time) (intentId id : String) :
    (journal.commit now intentId).getIntent id =
      if id = intentId then (journal.getIntent id).map fun r =>
        { r with status := .committed, committedAt := some now }
      else journal.getIntent id :=
  getIntent_updateIntent _ _ _ _ _ _

theorem getIntent_fail (journal : WriteAheadJournal π) (now : Time) (intentId : String)
    (error : String) (id : String) :
    (journal.fail now intentId error).getIntent id =
      if id = intentId then (journal.getIntent id).map fun r =>
        { r with status := .failed, failedAt := some now, errorMessage := some error }
      else journal.getIntent id :=
  getIntent_updateIntent _ _ _ _ _ _

theorem getIntent_settle (journal : WriteAheadJournal π) (intentId id : String) :
    (journal.settle intentId).getIntent id =
      if id = intentId then (journal.getIntent id).map fun r =>
        if r.status = .committed then { r with status := .settled } else r
      else journal.getIntent id :=
  getIntent_updateIntent _ _ _ _ _ _

theorem getIntent_cleanup (journal : WriteAheadJournal π) (now maxAge : Time) (id : String) :
    (journal.cleanup now maxAge).getIntent id = (journal.getIntent id).filter fun r =>
      !(decide (r.status = .settled) && decide (r.createdAt < now - maxAge)) :=
  Table.find?_filter _ _ _

/-- A row that carries the id drawn last is not among the rows of the journal before the draw. -/
theorem getIntent_ne_of_uuid (journal : WriteAheadJournal π) {row : IntentRow π} (id : String)
    (h : row.correlationId = .uuid journal.uuids) : journal.getIntent id ≠ some row := by
  intro hrow
  exact (journal.uuid_lt id row _ hrow h).ne rfl

end WriteAheadJournal

end AutoTrade.Wal
