import AutoTrade.Db.AsyncWriter
import AutoTrade.Library.KeyedWrites
import AutoTrade.Wal.Journal

/-! # The journal behind its write queue

A call of the journal is one SQL statement, built at the time of the call. It
goes into the queue of `AsyncDbWriter`, whose worker takes statements out one by
one and executes them; when the queue is full the caller executes its statement
itself. The state below holds the database, the queue, the statement in the
worker's hand and the one the caller was refused, next to the journal as it
would be if every call took effect at once.
-/

namespace AutoTrade.Wal

open AutoTrade.Db AutoTrade.Library WriteAheadJournal

variable {π : Type}

/-! ## Statements -/

/-- The statement of a call, with its parameters. -/
inductive Statement (π : Type)
  | insertOrReplace (row : IntentRow π)
  | setCommitted (intentId : String) (committedAt : Time)
  | setFailed (intentId : String) (failedAt : Time) (error : String)
  | setSettled (intentId : String)

namespace Statement

def intentId : Statement π → String
  | .insertOrReplace row => row.intentId
  | .setCommitted intentId _ => intentId
  | .setFailed intentId _ _ => intentId
  | .setSettled intentId => intentId

/-- The row of the statement's intent afterwards, from the row before. -/
def updateRow : Statement π → Option (IntentRow π) → Option (IntentRow π)
  | .insertOrReplace row, _ => some row
  | .setCommitted _ now, old =>
      old.map fun r => { r with status := .committed, committedAt := some now }
  | .setFailed _ now error, old =>
      old.map fun r => { r with status := .failed, failedAt := some now, errorMessage := some error }
  | .setSettled _, old =>
      old.map fun r => if r.status = .committed then { r with status := .settled } else r

theorem setCommitted_intentId (now : Time) (r : IntentRow π) :
    { r with status := .committed, committedAt := some now : IntentRow π }.intentId = r.intentId :=
  rfl

theorem setFailed_intentId (now : Time) (error : String) (r : IntentRow π) :
    { r with status := .failed, failedAt := some now, errorMessage := some error :
      IntentRow π }.intentId = r.intentId :=
  rfl

theorem setSettled_intentId (r : IntentRow π) :
    (if r.status = .committed then { r with status := .settled } else r).intentId = r.intentId := by
  split <;> rfl

def exec (db : Table (IntentRow π) IntentRow.intentId) :
    Statement π → Table (IntentRow π) IntentRow.intentId
  | .insertOrReplace row => db.replace row
  | .setCommitted intentId now =>
      db.update intentId (fun r => { r with status := .committed, committedAt := some now })
        (setCommitted_intentId now)
  | .setFailed intentId now error =>
      db.update intentId (fun r =>
        { r with status := .failed, failedAt := some now, errorMessage := some error })
        (setFailed_intentId now error)
  | .setSettled intentId =>
      db.update intentId (fun r =>
        if r.status = .committed then { r with status := .settled } else r) setSettled_intentId

theorem find?_exec (db : Table (IntentRow π) IntentRow.intentId) (w : Statement π) (id : String) :
    (exec db w).find? id = if id = w.intentId then w.updateRow (db.find? id) else db.find? id := by
  cases w with
  | insertOrReplace row => exact Table.find?_replace _ _ _
  | setCommitted target now =>
      rw [exec, Table.find?_update]
      rfl
  | setFailed target now error =>
      rw [exec, Table.find?_update]
      rfl
  | setSettled target =>
      rw [exec, Table.find?_update]
      rfl

end Statement

/-- The table `intents` as a store whose statements act on one intent each. -/
def intentStore (π : Type) :
    KeyedStore (Table (IntentRow π) IntentRow.intentId) String (IntentRow π) (Statement π) where
  exec := Statement.exec
  lookup := Table.find?
  key := Statement.intentId
  update := Statement.updateRow
  lookup_exec := Statement.find?_exec

/-- The statement a call builds; the journal supplies the next correlation id. -/
def statementOf (journal : WriteAheadJournal π) (now : Time) : JournalCall π → Statement π
  | .append intent => .insertOrReplace (journal.pendingRow now intent)
  | .commit intentId => .setCommitted intentId now
  | .fail intentId error => .setFailed intentId now error
  | .settle intentId => .setSettled intentId

/-- A call that takes effect at once executes its statement. -/
theorem call_intents (journal : WriteAheadJournal π) (now : Time) (c : JournalCall π) :
    (journal.call now c).intents = Statement.exec journal.intents (statementOf journal now c) := by
  cases c <;> rfl

/-! ## The queue and its worker -/

structure AsyncJournal (π : Type) where
  db : Table (IntentRow π) IntentRow.intentId
  queue : List (Statement π)
  /-- The statement the worker has taken out and not yet executed. -/
  hand : Option (Statement π)
  /-- The statement whose `submit` returned `False`, not yet executed by the caller. -/
  refused : Option (Statement π)
  /-- The journal after the calls made so far, each taking effect at once. -/
  program : WriteAheadJournal π

/-- The steps of the calling thread and of the worker. -/
inductive AsyncStep (π : Type)
  | call (now : Time) (c : JournalCall π)
  | fallback
  | dequeue
  | execute

namespace AsyncJournal

def start (journal : WriteAheadJournal π) : AsyncJournal π :=
  ⟨journal.intents, [], none, none, journal⟩

/-- A step that cannot be taken changes nothing: the thread makes no call while it still has a
refused statement to execute, and the worker takes none while it holds one. -/
def step (capacity : Int) (j : AsyncJournal π) : AsyncStep π → AsyncJournal π
  | .call now c =>
      match j.refused with
      | some _ => j
      | none =>
          let w := statementOf j.program now c
          let j := { j with program := j.program.call now c }
          if queueFull capacity j.queue then { j with refused := some w }
          else { j with queue := j.queue ++ [w] }
  | .fallback =>
      match j.refused with
      | none => j
      | some w => { j with db := Statement.exec j.db w, refused := none }
  | .dequeue =>
      match j.hand, j.queue with
      | none, w :: rest => { j with hand := some w, queue := rest }
      | _, _ => j
  | .execute =>
      match j.hand with
      | none => j
      | some w => { j with db := Statement.exec j.db w, hand := none }

/-- Nothing waits any more. -/
def Drained (j : AsyncJournal π) : Prop := j.queue = [] ∧ j.hand = none ∧ j.refused = none

/-- Once nothing waits, every intent has the row that the calls leave in program order. -/
def Linearized (j : AsyncJournal π) : Prop :=
  j.Drained → ∀ id, j.db.find? id = j.program.getIntent id

/-- The statements ahead of the caller's own, in the order in which they will be executed. -/
def ahead (j : AsyncJournal π) : List (Statement π) := j.hand.toList ++ j.queue

/-- The caller executes a refused statement only when none of the same intent is ahead of it. -/
def KeepsOrder (j : AsyncJournal π) : AsyncStep π → Prop
  | .fallback => ∀ w, j.refused = some w → ∀ v ∈ j.ahead, v.intentId ≠ w.intentId
  | _ => True

/-! ## The invariant -/

/-- Executing whatever waits, in the order in which it waits, gives the journal of the program. -/
def InOrder (j : AsyncJournal π) : Prop :=
  ∀ id, ((intentStore π).execAll j.db (j.ahead ++ j.refused.toList)).find? id =
    j.program.getIntent id

theorem inOrder_start (journal : WriteAheadJournal π) : (start journal).InOrder := fun _ => rfl

theorem InOrder.linearized {j : AsyncJournal π} (h : j.InOrder) : j.Linearized := by
  intro hdrained id
  have hid := h id
  simp only [ahead, hdrained.1, hdrained.2.1, hdrained.2.2] at hid
  exact hid

/-- A statement that joins the end of those waiting takes effect in program order. -/
theorem find?_execAll_snoc (db : Table (IntentRow π) IntentRow.intentId) (ws : List (Statement π))
    (w : Statement π) (id : String) :
    ((intentStore π).execAll db (ws ++ [w])).find? id =
      if id = w.intentId then w.updateRow (((intentStore π).execAll db ws).find? id)
      else ((intentStore π).execAll db ws).find? id := by
  rw [KeyedStore.execAll_append]
  exact Statement.find?_exec _ _ _

theorem getIntent_call (journal : WriteAheadJournal π) (now : Time) (c : JournalCall π)
    (id : String) :
    (journal.call now c).getIntent id =
      if id = (statementOf journal now c).intentId then
        (statementOf journal now c).updateRow (journal.getIntent id)
      else journal.getIntent id := by
  unfold getIntent
  rw [call_intents]
  exact Statement.find?_exec _ _ _

theorem step_inOrder (capacity : Int) {j : AsyncJournal π} (h : j.InOrder) (op : AsyncStep π)
    (keeps : j.KeepsOrder op) : (j.step capacity op).InOrder := by
  cases op with
  | call now c =>
      cases hrefused : j.refused with
      | some w => simpa only [step, hrefused] using h
      | none =>
          have hwaiting : ∀ id, ((intentStore π).execAll j.db
              (j.ahead ++ [statementOf j.program now c])).find? id =
                (j.program.call now c).getIntent id := by
            intro id
            have hid := h id
            rw [hrefused, Option.toList_none, List.append_nil] at hid
            rw [find?_execAll_snoc, hid, getIntent_call]
          intro id
          simp only [step, hrefused]
          split
          · exact hwaiting id
          · simpa [ahead] using hwaiting id
  | fallback =>
      cases hrefused : j.refused with
      | none => simpa only [step, hrefused] using h
      | some w =>
          intro id
          have hid := h id
          rw [hrefused, Option.toList_some] at hid
          have hearly := (intentStore π).lookup_execAll_early (keeps w hrefused) j.db id
          simp only [step, hrefused, Option.toList_none, List.append_nil]
          exact hearly.trans hid
  | dequeue =>
      cases hhand : j.hand with
      | some w => simpa only [step, hhand] using h
      | none =>
          cases hqueue : j.queue with
          | nil => simpa only [step, hhand, hqueue] using h
          | cons w rest =>
              intro id
              have hid := h id
              simp only [ahead, hhand, hqueue] at hid
              simp only [step, hhand, hqueue, ahead]
              exact hid
  | execute =>
      cases hhand : j.hand with
      | none => simpa only [step, hhand] using h
      | some w =>
          intro id
          have hid := h id
          simp only [ahead, hhand] at hid
          simp only [step, hhand, ahead]
          exact hid

/-- As long as no refused statement overtakes one of its own intent, a drained journal holds, for
every intent, the row its calls leave in program order. -/
theorem linearized_along_run (capacity : Int) (journal : WriteAheadJournal π)
    (steps : List (AsyncStep π))
    (keeps : StepsMeet (step capacity) KeepsOrder (start journal) steps) :
    Always (step capacity) Linearized (start journal) steps := by
  apply Always.mono fun j h => InOrder.linearized h
  apply always_of_stepsMeet (I := InOrder) _ (inOrder_start journal) keeps
  intro j op _ hinv hkeeps
  exact step_inOrder capacity hinv op hkeeps

/-! ## Draining -/

/-- A worker that is left alone executes what it holds and takes the next statement, this many
times over. -/
def workerRounds (n : Nat) : List (AsyncStep π) :=
  (List.replicate n [AsyncStep.execute, AsyncStep.dequeue]).flatten

/-- One round executes the statement in hand and takes the first of the queue. -/
theorem run_round (capacity : Int) (j : AsyncJournal π) :
    (run (step capacity) j [.execute, .dequeue]).queue = j.queue.tail ∧
      (run (step capacity) j [.execute, .dequeue]).hand = j.queue.head? ∧
      (run (step capacity) j [.execute, .dequeue]).refused = j.refused := by
  simp only [run, List.foldl_cons, List.foldl_nil]
  cases hhand : j.hand <;> cases hqueue : j.queue <;> simp [step, hhand, hqueue]

theorem run_workerRounds_succ (capacity : Int) (j : AsyncJournal π) (n : Nat) :
    run (step capacity) j (workerRounds (n + 1)) =
      run (step capacity) (run (step capacity) j [.execute, .dequeue]) (workerRounds n) := by
  simp [run, workerRounds, List.replicate_succ]

/-- Left alone, the worker drains the queue. -/
theorem drained_of_workerRounds (capacity : Int) (j : AsyncJournal π) (hrefused : j.refused = none) :
    (run (step capacity) j (workerRounds (j.queue.length + 1))).Drained := by
  obtain ⟨hqueue', hhand', hrefused'⟩ := run_round capacity j
  rw [hrefused] at hrefused'
  rw [run_workerRounds_succ]
  cases hqueue : j.queue with
  | nil =>
      rw [hqueue] at hqueue' hhand'
      exact ⟨hqueue', hhand', hrefused'⟩
  | cons w rest =>
      have hrest := drained_of_workerRounds capacity _ hrefused'
      rw [hqueue, List.tail_cons] at hqueue'
      rw [hqueue'] at hrest
      exact hrest
termination_by j.queue.length
decreasing_by
  rw [hqueue', hqueue]
  simp

/-! ## An overtaken append -/

def sampleIntent : Intent Unit :=
  { intentId := "NIFTY_BUY_22500.0_50", action := "place_order", params := () }

/-- With room for one statement, the commit is refused while the append still waits, and is
executed before it. -/
def overtakenAppend : List (AsyncStep Unit) :=
  [.call 0 (.append sampleIntent), .call 1 (.commit "NIFTY_BUY_22500.0_50"), .fallback, .dequeue,
    .execute]

/-- The committed intent is left `PENDING` for good. -/
theorem overtaken_append_stays_pending :
    ¬ ∀ (capacity : Int) (journal : WriteAheadJournal Unit) (steps : List (AsyncStep Unit)),
      Always (step capacity) Linearized (start journal) steps := by
  intro h
  have hlinear := (h 1 WriteAheadJournal.empty overtakenAppend).final
  have hsame := hlinear ⟨rfl, rfl, rfl⟩ "NIFTY_BUY_22500.0_50"
  have hstatus := congrArg (Option.map IntentRow.status) hsame
  exact absurd hstatus (by decide +kernel)

/-- The same calls, the worker being in time. -/
theorem sample_intent_linearized :
    Always (step 1) Linearized (start WriteAheadJournal.empty)
      [.call 0 (.append sampleIntent), .dequeue, .execute,
        .call 1 (.commit "NIFTY_BUY_22500.0_50"), .dequeue, .execute] :=
  linearized_along_run 1 WriteAheadJournal.empty _
    ⟨trivial, trivial, trivial, trivial, trivial, trivial, trivial⟩

end AsyncJournal

end AutoTrade.Wal
