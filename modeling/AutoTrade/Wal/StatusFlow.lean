import AutoTrade.Library.Run
import AutoTrade.Wal.Journal

/-! # The status flow of an intent

The journal's documented flow is `PENDING → COMMITTED → SETTLED`, with `FAILED`
as the other way out. Only `settle` looks at the status it replaces: `append`
overwrites the whole row, and `commit` and `fail` write whatever they find.
The history below remembers the last row of every intent, also when `cleanup`
has deleted it, so that an intent which comes back is seen to come back.
-/

namespace AutoTrade.Wal

open AutoTrade.Library WriteAheadJournal

variable {π : Type}

/-- The moves of the documented flow, and staying put. -/
inductive StatusMoves : IntentStatus → IntentStatus → Prop
  | stay (s : IntentStatus) : StatusMoves s s
  | commit : StatusMoves .pending .committed
  | settle : StatusMoves .committed .settled
  | failPending : StatusMoves .pending .failed
  | failCommitted : StatusMoves .committed .failed

/-- What may become of the last row of an intent in one step. -/
inductive RowMoves : Option (IntentRow π) → Option (IntentRow π) → Prop
  | absent : RowMoves none none
  | opened (row : IntentRow π) (pending : row.status = .pending) : RowMoves none (some row)
  | moved (row row' : IntentRow π) (status : StatusMoves row.status row'.status)
      (committedAt : row.committedAt.isSome → row'.committedAt.isSome) :
      RowMoves (some row) (some row')

/-- The journal and the last row each intent had. -/
structure JournalHistory (π : Type) where
  journal : WriteAheadJournal π
  lastRow : String → Option (IntentRow π)
  lastRow_of_row : ∀ id row, journal.getIntent id = some row → lastRow id = some row

namespace JournalHistory

/-- The history of a journal whose past is unknown. -/
def ofJournal (journal : WriteAheadJournal π) : JournalHistory π :=
  ⟨journal, journal.getIntent, fun _ _ h => h⟩

/-- The history continued by what the journal is next. -/
def extend (h : JournalHistory π) (journal : WriteAheadJournal π) : JournalHistory π :=
  ⟨journal, fun id => (journal.getIntent id).or (h.lastRow id), fun id row hrow => by simp [hrow]⟩

end JournalHistory

inductive JournalOp (π : Type)
  | call (now : Time) (c : JournalCall π)
  | cleanup (now maxAge : Time)

namespace JournalHistory

def step (h : JournalHistory π) : JournalOp π → JournalHistory π
  | .call now c => h.extend (h.journal.call now c)
  | .cleanup now maxAge => h.extend (h.journal.cleanup now maxAge)

/-- The operation moves every intent along the flow. -/
def KeepsFlow (h : JournalHistory π) (op : JournalOp π) : Prop :=
  ∀ id, RowMoves (h.lastRow id) ((h.step op).lastRow id)

/-- The operation fits the status it finds: an intent is opened once, or again while it is pending;
it is committed only while it is open, and failed only when it is not settled. -/
def Fits (h : JournalHistory π) : JournalOp π → Prop
  | .call _ (.append intent) => ∀ row, h.lastRow intent.intentId = some row →
      row.status = .pending ∧ row.committedAt = none
  | .call _ (.commit id) => ∀ row, h.journal.getIntent id = some row →
      row.status = .pending ∨ row.status = .committed
  | .call _ (.fail id _) => ∀ row, h.journal.getIntent id = some row → row.status ≠ .settled
  | .call _ (.settle _) => True
  | .cleanup _ _ => True

/-! ## One operation -/

theorem rowMoves_some_iff (row row' : IntentRow π) :
    RowMoves (some row) (some row') ↔ StatusMoves row.status row'.status ∧
      (row.committedAt.isSome → row'.committedAt.isSome) := by
  constructor
  · intro h
    cases h with
    | moved _ _ hstatus hcommitted => exact ⟨hstatus, hcommitted⟩
  · intro h
    exact .moved row row' h.1 h.2

theorem statusMoves_pending_iff (s : IntentStatus) : StatusMoves s .pending ↔ s = .pending := by
  constructor
  · intro h
    cases h
    rfl
  · intro h
    subst h
    exact .stay _

theorem statusMoves_committed_iff (s : IntentStatus) :
    StatusMoves s .committed ↔ s = .pending ∨ s = .committed := by
  constructor
  · intro h
    cases h with
    | stay => exact .inr rfl
    | commit => exact .inl rfl
  · intro h
    cases h with
    | inl h => subst h; exact .commit
    | inr h => subst h; exact .stay _

theorem statusMoves_failed_iff (s : IntentStatus) : StatusMoves s .failed ↔ s ≠ .settled := by
  constructor
  · intro h hs
    subst hs
    cases h
  · intro h
    cases s with
    | pending => exact .failPending
    | committed => exact .failCommitted
    | failed => exact .stay _
    | settled => exact absurd rfl h

/-- Nothing leads out of the two closed states. -/
theorem eq_of_statusMoves_closed {s s' : IntentStatus} (h : StatusMoves s s')
    (hclosed : s = .settled ∨ s = .failed) : s' = s := by
  cases h with
  | stay => rfl
  | commit => simp at hclosed
  | settle => simp at hclosed
  | failPending => simp at hclosed
  | failCommitted => simp at hclosed

theorem rowMoves_refl (row : Option (IntentRow π)) : RowMoves row row := by
  cases row with
  | none => exact .absent
  | some row => exact .moved row row (.stay _) id

/-- An intent whose row the operation leaves as it is keeps its last row. -/
theorem lastRow_extend_of_same (h : JournalHistory π) {journal : WriteAheadJournal π} {id : String}
    (hsame : journal.getIntent id = h.journal.getIntent id) :
    (h.extend journal).lastRow id = h.lastRow id := by
  simp only [extend, hsame]
  cases hrow : h.journal.getIntent id with
  | none => rfl
  | some row => simp [h.lastRow_of_row id row hrow]

/-- An update that changes one intent keeps the flow exactly when it moves that row along it. -/
theorem keepsFlow_update_iff (h : JournalHistory π) {journal : WriteAheadJournal π} {target : String}
    {f : IntentRow π → IntentRow π}
    (hupdate : ∀ id, journal.getIntent id =
      if id = target then (h.journal.getIntent id).map f else h.journal.getIntent id) :
    (∀ id, RowMoves (h.lastRow id) ((h.extend journal).lastRow id)) ↔
      ∀ row, h.journal.getIntent target = some row → RowMoves (some row) (some (f row)) := by
  have htarget := hupdate target
  rw [if_pos rfl] at htarget
  constructor
  · intro hflow row hrow
    have hmoves := hflow target
    simpa [extend, htarget, hrow, h.lastRow_of_row target row hrow] using hmoves
  · intro hmoves id
    by_cases hid : id = target
    · subst hid
      cases hrow : h.journal.getIntent id with
      | none =>
          have hsame : journal.getIntent id = h.journal.getIntent id := by rw [htarget, hrow]; rfl
          rw [lastRow_extend_of_same h hsame]
          exact rowMoves_refl _
      | some row =>
          simpa [extend, htarget, hrow, h.lastRow_of_row id row hrow] using hmoves row hrow
    · have hother := hupdate id
      rw [if_neg hid] at hother
      rw [lastRow_extend_of_same h hother]
      exact rowMoves_refl _

theorem keepsFlow_append_iff (h : JournalHistory π) (now : Time) (intent : Intent π) :
    h.KeepsFlow (.call now (.append intent)) ↔ h.Fits (.call now (.append intent)) := by
  have hlast : ∀ id, (h.step (.call now (.append intent))).lastRow id =
      if id = intent.intentId then some (h.journal.pendingRow now intent) else h.lastRow id := by
    intro id
    by_cases hid : id = intent.intentId
    · simp [step, extend, WriteAheadJournal.call, getIntent_append, hid]
    · rw [if_neg hid]
      apply lastRow_extend_of_same
      rw [WriteAheadJournal.call, getIntent_append, if_neg hid]
  unfold KeepsFlow Fits
  constructor
  · intro hflow row hrow
    have hmoves := hflow intent.intentId
    rw [hlast, if_pos rfl, hrow, rowMoves_some_iff] at hmoves
    refine ⟨(statusMoves_pending_iff _).mp hmoves.1, ?_⟩
    cases hcommitted : row.committedAt with
    | none => rfl
    | some t => exact absurd (hmoves.2 (by simp [hcommitted])) (by simp [pendingRow])
  · intro hfits id
    rw [hlast]
    split
    · rename_i hid
      cases hrow : h.lastRow id with
      | none => exact .opened _ rfl
      | some row =>
          have hopen := hfits row (by rw [← hid, hrow])
          rw [rowMoves_some_iff, hopen.2]
          exact ⟨(statusMoves_pending_iff _).mpr hopen.1, by simp⟩
    · exact rowMoves_refl _

/-- An operation keeps every intent on the flow exactly when it fits the status it finds. -/
theorem keepsFlow_iff_fits (h : JournalHistory π) (op : JournalOp π) :
    h.KeepsFlow op ↔ h.Fits op := by
  cases op with
  | cleanup now maxAge =>
      have hlast : ∀ id, (h.step (.cleanup now maxAge)).lastRow id = h.lastRow id := by
        intro id
        simp only [step, extend, getIntent_cleanup]
        cases hrow : h.journal.getIntent id with
        | none => rfl
        | some row =>
            rw [h.lastRow_of_row id row hrow, Option.filter_some]
            split <;> rfl
      simp only [Fits, iff_true]
      intro id
      rw [hlast]
      exact rowMoves_refl _
  | call now c =>
      cases c with
      | append intent => exact keepsFlow_append_iff h now intent
      | commit target =>
          rw [KeepsFlow, step, WriteAheadJournal.call,
            keepsFlow_update_iff h (getIntent_commit h.journal now target)]
          simp [Fits, rowMoves_some_iff, statusMoves_committed_iff]
      | fail target error =>
          rw [KeepsFlow, step, WriteAheadJournal.call,
            keepsFlow_update_iff h (getIntent_fail h.journal now target error)]
          simp [Fits, rowMoves_some_iff, statusMoves_failed_iff]
      | settle target =>
          rw [KeepsFlow, step, WriteAheadJournal.call,
            keepsFlow_update_iff h (getIntent_settle h.journal target)]
          simp only [Fits, iff_true]
          intro row _
          rw [rowMoves_some_iff]
          split
          · rename_i hcommitted
            rw [hcommitted]
            exact ⟨.settle, id⟩
          · exact ⟨.stay _, id⟩

/-! ## Runs -/

/-- A sequence of operations keeps every intent on the documented flow, at every step, exactly when
each operation fits the status it finds. -/
theorem status_flow_iff (start : JournalHistory π) (ops : List (JournalOp π)) :
    StepsMeet step KeepsFlow start ops ↔ StepsMeet step Fits start ops :=
  stepsMeet_congr keepsFlow_iff_fits start ops

/-- Along such a sequence a settled or failed intent keeps its status for good. -/
theorem status_closed_along_run {start : JournalHistory π} {ops : List (JournalOp π)}
    (flow : StepsMeet step KeepsFlow start ops) {id : String} {row : IntentRow π}
    (hrow : start.lastRow id = some row) (hclosed : row.status = .settled ∨ row.status = .failed) :
    ∃ row', (run step start ops).lastRow id = some row' ∧ row'.status = row.status := by
  induction ops generalizing start row with
  | nil => exact ⟨row, hrow, rfl⟩
  | cons op rest ih =>
      have hmoves := flow.1 id
      rw [hrow] at hmoves
      cases hnext : (start.step op).lastRow id with
      | none =>
          rw [hnext] at hmoves
          cases hmoves
      | some row' =>
          rw [hnext, rowMoves_some_iff] at hmoves
          have hsame : row'.status = row.status := eq_of_statusMoves_closed hmoves.1 hclosed
          obtain ⟨last, hlast, hstatus⟩ := ih flow.2 hnext (hsame ▸ hclosed)
          exact ⟨last, hlast, hstatus.trans hsame⟩

/-- An intent filed twice under one id, with a commit in between. -/
def refiledIntent : List (JournalOp Unit) :=
  let intent : Intent Unit := { intentId := "NIFTY_BUY_22500.0_50", action := "place_order"
                                params := () }
  [.call 0 (.append intent), .call 1 (.commit intent.intentId), .call 2 (.append intent)]

/-- The second filing sets a committed intent back to `PENDING` and loses its `committed_at`. -/
theorem refiled_intent_leaves_flow :
    ¬ ∀ ops : List (JournalOp Unit),
      StepsMeet step KeepsFlow (ofJournal WriteAheadJournal.empty) ops := by
  intro h
  have hrefiled := h refiledIntent
  have hmoves := hrefiled.2.2.1 "NIFTY_BUY_22500.0_50"
  cases hmoves with
  | moved _ _ hstatus _ => cases hstatus

end JournalHistory

end AutoTrade.Wal
