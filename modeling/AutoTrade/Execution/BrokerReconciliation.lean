import AutoTrade.Execution.DurableState
import AutoTrade.Library.Run

/-! # Startup reconciliation with the broker

`reconcile_with_broker` of the durable store asks the broker for the status of
every execution that is not terminal. An execution without a broker order id
counts as pending, and a final status or a handled error is counted; any other
status is not, so the counters need not add up to the number checked.
-/

namespace AutoTrade.Execution

open AutoTrade.Library

/-- A port as `reconcile_with_broker` sees it. An answer that is no text compares equal to none. -/
structure OrderStatusPort where
  hasGetOrderStatus : Bool := true
  /-- What the call for the row of an intent comes back with; there is one for each row. -/
  getOrderStatus : String → Except PyExc (Option String)

structure BrokerReconcileResults where
  checked : Nat
  filled : Nat := 0
  stillPending : Nat := 0
  unknown : Nat := 0
  repaired : Nat := 0
deriving DecidableEq, Repr

/-- `DatabaseError`, `sqlite3.Error` and `OSError`, of which `ConnectionError` is a subclass. -/
def reconcileErrors : List ExcClass := [.persistenceError, .osError]

namespace DurableExecutionStore

/-- One turn of the loop. -/
def reconcileRow (now : Time) (port : OrderStatusPort)
    (s : DurableExecutionStore × BrokerReconcileResults) (record : DurableExecutionRecord) :
    (DurableExecutionStore × BrokerReconcileResults) × Option PyExc :=
  if truthy record.brokerOrderId = false then
    ((s.1, { s.2 with stillPending := s.2.stillPending + 1 }), none)
  else if port.hasGetOrderStatus = false then (s, none)
  else
    match port.getOrderStatus record.intentId with
    | .ok status =>
        if status = some "FILLED" ∨ status = some "COMPLETE" then
          ((s.1.updateState now record.intentId .filled none record.quantity,
            { s.2 with filled := s.2.filled + 1 }), none)
        else if status = some "CANCELLED" ∨ status = some "REJECTED" then
          ((s.1.updateState now record.intentId
              (if status = some "CANCELLED" then .cancelled else .rejected),
            { s.2 with repaired := s.2.repaired + 1 }), none)
        else (s, none)
    | .error e =>
        if e.caughtBy reconcileErrors then
          ((s.1, { s.2 with unknown := s.2.unknown + 1 }), none)
        else (s, some e)

def reconcileWithBroker (store : DurableExecutionStore) (now : Time) (port : OrderStatusPort) :
    DurableExecutionStore × Except PyExc BrokerReconcileResults :=
  let nonTerminal := store.getNonTerminalExecutions
  match loop (reconcileRow now port) (store, { checked := nonTerminal.length }) nonTerminal with
  | (s, none) => (s.1, .ok s.2)
  | (s, some e) => (s.1, .error e)

end DurableExecutionStore

/-! ## Accounting for every execution -/

namespace BrokerReconcileResults

def counted (r : BrokerReconcileResults) : Nat :=
  r.filled + r.stillPending + r.unknown + r.repaired

/-- Exactly one of the outcome counters has gone up, by one. -/
def CountsOne (r after : BrokerReconcileResults) : Prop :=
  after = { r with filled := r.filled + 1 } ∨ after = { r with stillPending := r.stillPending + 1 } ∨
    after = { r with unknown := r.unknown + 1 } ∨ after = { r with repaired := r.repaired + 1 }

theorem CountsOne.counted {r after : BrokerReconcileResults} (h : r.CountsOne after) :
    after.counted = r.counted + 1 ∧ after.checked = r.checked := by
  unfold BrokerReconcileResults.counted
  rcases h with rfl | rfl | rfl | rfl
  all_goals
    refine ⟨?_, rfl⟩
    dsimp only
    omega

end BrokerReconcileResults

namespace OrderStatusPort

def finalTexts : List String := ["FILLED", "COMPLETE", "CANCELLED", "REJECTED"]

/-- The answer for the execution was obtained, and it is final. -/
def AnswersFinal (port : OrderStatusPort) (record : DurableExecutionRecord) : Prop :=
  port.hasGetOrderStatus = true ∧
    ∃ status ∈ finalTexts, port.getOrderStatus record.intentId = .ok (some status)

/-- An execution that the broker knows gets a final answer, or an error that is handled. -/
def Settles (port : OrderStatusPort) (record : DurableExecutionRecord) : Prop :=
  truthy record.brokerOrderId = true → port.AnswersFinal record ∨
    port.hasGetOrderStatus = true ∧
      ∃ e, port.getOrderStatus record.intentId = .error e ∧ e.caughtBy reconcileErrors = true

end OrderStatusPort

namespace DurableExecutionStore

open BrokerReconcileResults OrderStatusPort

/-- Every execution goes into exactly one counter, so that the counters add up to the number checked,
and a row changes only where a final answer was obtained. -/
structure AccountsForAll (store : DurableExecutionStore) (now : Time) (port : OrderStatusPort) :
    Prop where
  each : LoopMeets (reconcileRow now port)
    (fun s record => s.2.CountsOne (reconcileRow now port s record).1.2)
    (store, { checked := store.getNonTerminalExecutions.length }) store.getNonTerminalExecutions
  sum : ∃ results, (store.reconcileWithBroker now port).2 = .ok results ∧
    results.counted = results.checked
  changes : ∀ intentId, (store.reconcileWithBroker now port).1.find? intentId ≠ store.find? intentId →
    ∃ record ∈ store.getNonTerminalExecutions, record.intentId = intentId ∧ port.AnswersFinal record

section Row

variable {now : Time} {port : OrderStatusPort} {s : DurableExecutionStore × BrokerReconcileResults}
  {record : DurableExecutionRecord}

theorem reconcileRow_noId (hid : truthy record.brokerOrderId = false) :
    reconcileRow now port s record =
      ((s.1, { s.2 with stillPending := s.2.stillPending + 1 }), none) :=
  if_pos hid

variable (now) in
theorem reconcileRow_final (hid : truthy record.brokerOrderId = true)
    (hfinal : port.AnswersFinal record) : ∃ state quantity results, s.2.CountsOne results ∧
      reconcileRow now port s record =
        ((s.1.updateState now record.intentId state none quantity, results), none) := by
  obtain ⟨hport, status, hstatus, hanswer⟩ := hfinal
  unfold reconcileRow
  rw [if_neg (by simp [hid]), if_neg (by simp [hport]), hanswer]
  simp only [finalTexts, List.mem_cons, List.not_mem_nil, or_false] at hstatus
  rcases hstatus with rfl | rfl | rfl | rfl
  · exact ⟨_, _, _, .inl rfl, if_pos (.inl rfl)⟩
  · exact ⟨_, _, _, .inl rfl, if_pos (.inr rfl)⟩
  · exact ⟨_, _, _, .inr (.inr (.inr rfl)), rfl⟩
  · exact ⟨_, _, _, .inr (.inr (.inr rfl)), rfl⟩

theorem reconcileRow_handled (hid : truthy record.brokerOrderId = true)
    (hport : port.hasGetOrderStatus = true) {e : PyExc}
    (herror : port.getOrderStatus record.intentId = .error e)
    (hcaught : e.caughtBy reconcileErrors = true) :
    reconcileRow now port s record = ((s.1, { s.2 with unknown := s.2.unknown + 1 }), none) := by
  unfold reconcileRow
  rw [if_neg (by simp [hid]), if_neg (by simp [hport]), herror]
  exact if_pos hcaught

/-- An execution that is not settled is passed over, or ends the loop. -/
theorem reconcileRow_unsettled (h : ¬ port.Settles record) :
    (reconcileRow now port s record).1 = s := by
  unfold Settles at h
  push Not at h
  obtain ⟨hid, hfinal, herror⟩ := h
  unfold reconcileRow
  rw [if_neg (by simp [hid])]
  split
  · rfl
  · rename_i hport
    rw [Bool.not_eq_false] at hport
    split
    · rename_i status hanswer
      have hother : ∀ text ∈ finalTexts, status ≠ some text := by
        rintro text htext rfl
        exact hfinal ⟨hport, text, htext, hanswer⟩
      simp only [finalTexts, List.forall_mem_cons] at hother
      obtain ⟨hfilled, hcomplete, hcancelled, hrejected, -⟩ := hother
      rw [if_neg (not_or.mpr ⟨hfilled, hcomplete⟩), if_neg (not_or.mpr ⟨hcancelled, hrejected⟩)]
    · rename_i e hanswer
      rw [if_neg (herror hport e hanswer)]

variable (now s) in
/-- A row that is settled is counted once, and the loop goes on. -/
theorem reconcileRow_settled (h : port.Settles record) :
    (reconcileRow now port s record).2 = none ∧
      s.2.CountsOne (reconcileRow now port s record).1.2 := by
  cases hid : truthy record.brokerOrderId with
  | false =>
      rw [reconcileRow_noId hid]
      exact ⟨rfl, .inr (.inl rfl)⟩
  | true =>
      rcases h hid with hfinal | ⟨hport, e, herror, hcaught⟩
      · obtain ⟨state, quantity, results, hcounts, hrow⟩ := reconcileRow_final now hid hfinal
        rw [hrow]
        exact ⟨rfl, hcounts⟩
      · rw [reconcileRow_handled hid hport herror hcaught]
        exact ⟨rfl, .inr (.inr (.inl rfl))⟩

/-- Only a final answer writes to the store, and to the row it is about. -/
theorem reconcileRow_store (now : Time) (port : OrderStatusPort)
    (s : DurableExecutionStore × BrokerReconcileResults) (record : DurableExecutionRecord) :
    (reconcileRow now port s record).1.1 = s.1 ∨ port.AnswersFinal record ∧
      ∃ state quantity, (reconcileRow now port s record).1.1 =
        s.1.updateState now record.intentId state none quantity := by
  cases hid : truthy record.brokerOrderId with
  | false => exact .inl (congrArg (fun out => out.1.1) (reconcileRow_noId hid))
  | true =>
      by_cases hfinal : port.AnswersFinal record
      · obtain ⟨state, quantity, results, -, hrow⟩ := reconcileRow_final now hid hfinal
        exact .inr ⟨hfinal, state, quantity, congrArg (fun out => out.1.1) hrow⟩
      · by_cases hsettles : port.Settles record
        · obtain ⟨hport, e, herror, hcaught⟩ := (hsettles hid).resolve_left hfinal
          exact .inl (congrArg (fun out => out.1.1) (reconcileRow_handled hid hport herror hcaught))
        · exact .inl (congrArg Prod.fst (reconcileRow_unsettled hsettles))

end Row

/-! ## The loop -/

section Loop

variable {now : Time} {port : OrderStatusPort}

variable (now) in
/-- Rows that are all settled end the loop without an exception, each counted once. -/
theorem loop_settled {rows : List DurableExecutionRecord} (h : ∀ record ∈ rows, port.Settles record)
    (s : DurableExecutionStore × BrokerReconcileResults) :
    (loop (reconcileRow now port) s rows).2 = none ∧
      (loop (reconcileRow now port) s rows).1.2.counted = s.2.counted + rows.length ∧
      (loop (reconcileRow now port) s rows).1.2.checked = s.2.checked := by
  induction rows generalizing s with
  | nil => exact ⟨rfl, rfl, rfl⟩
  | cons record rest ih =>
      obtain ⟨hnone, hcounts⟩ := reconcileRow_settled now s (h record (by simp))
      have hrest := ih (fun r hr => h r (by simp [hr])) (reconcileRow now port s record).1
      have hloop : loop (reconcileRow now port) s (record :: rest) =
          loop (reconcileRow now port) (reconcileRow now port s record).1 rest := by
        rw [loop]
        split
        · rename_i hbody
          rw [hbody]
        · rename_i hbody
          rw [hbody] at hnone
          cases hnone
      obtain ⟨hup, hchecked⟩ := hcounts.counted
      rw [hloop]
      refine ⟨hrest.1, ?_, hrest.2.2.trans hchecked⟩
      rw [hrest.2.1, hup, List.length_cons]
      omega

theorem not_countsOne_self (r : BrokerReconcileResults) : ¬ r.CountsOne r := by
  intro h
  have hup := h.counted.1
  omega

/-- A loop that ends without an exception and counts every row has met settled rows only. -/
theorem settled_of_loop {rows : List DurableExecutionRecord}
    {s : DurableExecutionStore × BrokerReconcileResults}
    (hnone : (loop (reconcileRow now port) s rows).2 = none)
    (each : LoopMeets (reconcileRow now port)
      (fun s record => s.2.CountsOne (reconcileRow now port s record).1.2) s rows) :
    ∀ record ∈ rows, port.Settles record := by
  induction rows generalizing s with
  | nil => exact fun _ h => by cases h
  | cons record rest ih =>
      have hrecord : port.Settles record := by
        by_contra hunsettled
        have hcounts : s.2.CountsOne (reconcileRow now port s record).1.2 := each.1
        rw [reconcileRow_unsettled hunsettled] at hcounts
        exact not_countsOne_self _ hcounts
      have hgoes := (reconcileRow_settled now s hrecord).1
      rw [loop] at hnone
      split at hnone
      · rename_i hbody
        have hlater := each.2 hgoes
        rw [hbody] at hlater
        exact List.forall_mem_cons.mpr ⟨hrecord, ih hnone hlater⟩
      · cases hnone

theorem loop_changes (store : DurableExecutionStore) (rows : List DurableExecutionRecord)
    (results : BrokerReconcileResults) (intentId : String)
    (h : (loop (reconcileRow now port) (store, results) rows).1.1.find? intentId ≠
      store.find? intentId) :
    ∃ record ∈ rows, record.intentId = intentId ∧ port.AnswersFinal record := by
  have hinv : (loop (reconcileRow now port) (store, results) rows).1.1.find? intentId =
      store.find? intentId ∨
        ∃ record ∈ rows, record.intentId = intentId ∧ port.AnswersFinal record := by
    refine loop_invariant (I := fun s : DurableExecutionStore × BrokerReconcileResults =>
      s.1.find? intentId = store.find? intentId ∨
        ∃ record ∈ rows, record.intentId = intentId ∧ port.AnswersFinal record) ?_ (.inl rfl)
    intro s record hrecord hold
    rcases reconcileRow_store now port s record with hsame | ⟨hfinal, state, quantity, hwritten⟩
    · rwa [hsame]
    · by_cases hid : record.intentId = intentId
      · exact .inr ⟨record, hrecord, hid, hfinal⟩
      · rwa [hwritten, find?_updateState_of_ne _ _ _ _ _ _ hid]
  exact hinv.resolve_left h

end Loop

/-- Reconciliation accounts for every execution exactly when each one that the broker knows gets a
final answer or a handled error. -/
theorem accounts_for_all_iff (store : DurableExecutionStore) (now : Time) (port : OrderStatusPort) :
    store.AccountsForAll now port ↔
      ∀ record ∈ store.getNonTerminalExecutions, port.Settles record := by
  have hresult : ∀ s e, loop (reconcileRow now port)
      (store, { checked := store.getNonTerminalExecutions.length })
      store.getNonTerminalExecutions = (s, e) → store.reconcileWithBroker now port =
        (s.1, match e with | none => .ok s.2 | some e => .error e) := by
    intro s e hloop
    unfold reconcileWithBroker
    dsimp only
    rw [hloop]
    cases e <;> rfl
  constructor
  · intro accounts
    obtain ⟨results, hok, -⟩ := accounts.sum
    refine settled_of_loop ?_ accounts.each
    rw [hresult _ _ rfl] at hok
    split at hok
    · assumption
    · cases hok
  · intro settles
    obtain ⟨hnone, hcounted, hchecked⟩ := loop_settled now settles
      (store, { checked := store.getNonTerminalExecutions.length })
    refine ⟨?_, ?_, fun intentId hchange => ?_⟩
    · refine loopMeets_of_forall (fun s record hrecord => ?_) _
      exact (reconcileRow_settled now s (settles record hrecord)).2
    · rw [hresult _ _ rfl, hnone]
      refine ⟨_, rfl, ?_⟩
      rw [hcounted, hchecked]
      exact Nat.zero_add _
    · rw [hresult _ _ rfl] at hchange
      exact loop_changes store _ _ intentId hchange

def submittedAt (intentId brokerOrderId : String) : DurableExecutionRecord where
  intentId
  clientOrderId := "CL-1"
  symbol := "NIFTY"
  direction := "CALL"
  quantity := 50
  strikePrice := 25000
  state := .submitted
  brokerOrderId := some brokerOrderId
  createdAt := 0
  updatedAt := 0

/-- An order that is still open at the broker is checked and not counted. -/
theorem open_order_not_counted :
    let store := saveExecution Table.empty (submittedAt "INT-1" "B-1")
    let port : OrderStatusPort := { getOrderStatus := fun _ => .ok (some "OPEN") }
    (store.reconcileWithBroker 1 port).2 = .ok { checked := 1 } ∧ ¬ store.AccountsForAll 1 port := by
  intro store port
  have hresult : (store.reconcileWithBroker 1 port).2 = .ok { checked := 1 } := by decide +kernel
  refine ⟨hresult, fun accounts => ?_⟩
  obtain ⟨results, hok, hsum⟩ := accounts.sum
  obtain rfl := Except.ok.inj (hresult.symm.trans hok)
  cases hsum

end DurableExecutionStore

end AutoTrade.Execution
