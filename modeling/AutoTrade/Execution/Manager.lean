import AutoTrade.Execution.StateMachineLaws
import AutoTrade.Execution.DurableState

/-! # The manager of execution state machines

`ExecutionStateMachineManager`: machines by client order id, crash recovery
from the durable store, idempotent creation, and the answer to a broker query.
-/

namespace AutoTrade.Execution

open AutoTrade.Library ExecutionStateMachine

structure ExecutionStateMachineManager where
  machines : Dict String ExecutionStateMachine := Table.empty
  /-- Whether `_persistence_callback` is set; machines take it over when they are made. -/
  persistenceCallback : Bool := false
deriving DecidableEq

namespace ExecutionStateMachineManager

/-- Deterministic client order id, from the intent id alone. -/
def generateClientOrderId (intentId : String) : String := "OPB-" ++ intentId

theorem generateClientOrderId_inj {i j : String} :
    generateClientOrderId i = generateClientOrderId j ↔ i = j :=
  String.append_right_inj _

/-- The durable state read back at recovery; `PENDING` means nothing was submitted yet. -/
def recoveredState : DurableExecState → ExecutionState
  | .pending => .pendingSubmission
  | .submitted => .submitted
  | .partiallyFilled => .partialFill
  | .filled => .filled
  | .cancelled => .cancelled
  | .rejected => .rejected
  | .failed => .failed
  | .unknown => .unknown

def recoverMachine (mgr : ExecutionStateMachineManager) (ts : Time) (rec : DurableExecutionRecord) :
    ExecutionStateMachine :=
  { intentId := rec.intentId
    clientOrderId := generateClientOrderId rec.intentId
    symbol := rec.symbol
    quantity := rec.quantity
    price := rec.strikePrice
    direction := rec.direction
    state := recoveredState rec.state
    brokerOrderId := rec.brokerOrderId
    filledQuantity := rec.filledQuantity
    averagePrice := rec.averagePrice
    errorMessage := rec.rejectReason
    createdAt := ts
    updatedAt := ts
    persistenceCallback := mgr.persistenceCallback }

/-- One record of `recover_from_store`, with the count of machines recovered so far; a machine
already loaded is kept. -/
def recoverRecord (ts : Time) (acc : ExecutionStateMachineManager × Nat)
    (rec : DurableExecutionRecord) : ExecutionStateMachineManager × Nat :=
  let clientId := generateClientOrderId rec.intentId
  if acc.1.machines.contains clientId then acc
  else
    ({ acc.1 with machines := acc.1.machines.set clientId (acc.1.recoverMachine ts rec) },
      acc.2 + 1)

def recoverFromStore (ts : Time) (mgr : ExecutionStateMachineManager)
    (store : Option DurableExecutionStore) : ExecutionStateMachineManager × Nat :=
  match store with
  | none => (mgr, 0)
  | some store => store.getNonTerminalExecutions.foldl (recoverRecord ts) (mgr, 0)

/-- The machine for an intent and whether it is new, with the manager that now holds it. -/
def createOrGet (mgr : ExecutionStateMachineManager) (ts : Time) (intentId symbol : String)
    (quantity : Int) (price : ℚ) (direction : String) :
    ExecutionStateMachine × Bool × ExecutionStateMachineManager :=
  let clientOrderId := generateClientOrderId intentId
  match mgr.machines.get? clientOrderId with
  | some existing => (existing, false, mgr)
  | none =>
      let machine : ExecutionStateMachine :=
        { intentId, clientOrderId, symbol, quantity, price, direction
          createdAt := ts, updatedAt := ts
          persistenceCallback := mgr.persistenceCallback }
      (machine, true, { mgr with machines := mgr.machines.set clientOrderId machine })

def getMachine (mgr : ExecutionStateMachineManager) (clientOrderId : String) :
    Option ExecutionStateMachine :=
  mgr.machines.get? clientOrderId

/-- The manager after one of its machines changed. -/
def put (mgr : ExecutionStateMachineManager) (clientOrderId : String) (m : ExecutionStateMachine) :
    ExecutionStateMachineManager :=
  { mgr with machines := mgr.machines.set clientOrderId m }

@[simp] theorem getMachine_put (mgr : ExecutionStateMachineManager) (id : String)
    (m : ExecutionStateMachine) : (mgr.put id m).getMachine id = some m :=
  Dict.get?_set_self _ _ _

theorem getMachine_put_of_ne (mgr : ExecutionStateMachineManager) {id j : String}
    (m : ExecutionStateMachine) (h : j ≠ id) : (mgr.put id m).getMachine j = mgr.getMachine j :=
  Dict.get?_set_of_ne _ _ h

/-- A broker's answer about one order. -/
structure BrokerQuery where
  clientOrderId : String
  brokerOrderId : Option String
  status : String
  filledQty : Int := 0
  avgPrice : ℚ := 0
deriving DecidableEq, Repr

/-- An order id reported for a machine that has none is taken over. -/
def adoptBrokerOrderId (brokerOrderId : Option String) (m : ExecutionStateMachine) :
    ExecutionStateMachine :=
  if truthy brokerOrderId ∧ ¬ truthy m.brokerOrderId then { m with brokerOrderId := brokerOrderId }
  else m

/-- The transition the broker's status calls for. -/
def applyBrokerStatus {σ : Type} (hooks : Hooks σ) (ts : Time) (query : BrokerQuery)
    (m : ExecutionStateMachine) (s : σ) : Step σ Bool :=
  if query.status = "FILLED" then recordFill hooks ts query.filledQty query.avgPrice m s
  else if query.status = "REJECTED" then recordRejection hooks ts "Broker rejected" m s
  else if query.status = "CANCELLED" then tryTransitionTo hooks ts .cancelled m s
  else if m.state = .submitted then recordAcknowledgment hooks ts m s
  else ⟨m, s, .ok false⟩

def recordBrokerQueryResult {σ : Type} (hooks : Hooks σ) (ts : Time) (query : BrokerQuery)
    (mgr : ExecutionStateMachineManager) (s : σ) :
    ExecutionStateMachineManager × σ × Except PyExc Bool :=
  match mgr.getMachine query.clientOrderId with
  | none => (mgr, s, .ok false)
  | some machine =>
      let out := applyBrokerStatus hooks ts query
        (adoptBrokerOrderId query.brokerOrderId machine) s
      (mgr.put query.clientOrderId out.machine, out.world, out.value)

/-! ## Recovery -/

theorem recoveredState_terminal_iff (d : DurableExecState) :
    recoveredState d ∈ Execution.terminalStates ↔ d ∈ DurableExecutionStore.terminalStates := by
  cases d <;> decide

theorem recoverRecord_persistenceCallback (ts : Time) (acc : ExecutionStateMachineManager × Nat)
    (rec : DurableExecutionRecord) :
    (recoverRecord ts acc rec).1.persistenceCallback = acc.1.persistenceCallback := by
  simp only [recoverRecord]
  split <;> rfl

theorem getMachine_recoverRecord (ts : Time) (acc : ExecutionStateMachineManager × Nat)
    (rec : DurableExecutionRecord) (id : String) :
    (recoverRecord ts acc rec).1.getMachine id =
      if id = generateClientOrderId rec.intentId then
        (acc.1.getMachine id).or (some (acc.1.recoverMachine ts rec))
      else acc.1.getMachine id := by
  simp only [recoverRecord]
  by_cases hid : id = generateClientOrderId rec.intentId
  · subst hid
    rw [if_pos rfl, Dict.contains_iff_get?]
    cases h : acc.1.machines.get? (generateClientOrderId rec.intentId) with
    | none => simp [getMachine, h]
    | some m => simp [getMachine, h]
  · rw [if_neg hid]
    split
    · rfl
    · exact Dict.get?_set_of_ne _ _ hid

/-- After loading a list of records, the machine of an intent is the one the manager had,
or the one of the first record for it. -/
theorem getMachine_foldl_recoverRecord (ts : Time) (records : List DurableExecutionRecord)
    (acc : ExecutionStateMachineManager × Nat) (intentId : String) :
    (records.foldl (recoverRecord ts) acc).1.getMachine (generateClientOrderId intentId) =
      (acc.1.getMachine (generateClientOrderId intentId)).or
        ((records.find? fun r => decide (r.intentId = intentId)).map (acc.1.recoverMachine ts)) := by
  induction records generalizing acc with
  | nil => simp
  | cons rec rest ih =>
      have hsame : (recoverRecord ts acc rec).1.recoverMachine ts = acc.1.recoverMachine ts := by
        funext r
        simp [recoverMachine, recoverRecord_persistenceCallback]
      rw [List.foldl_cons, ih, getMachine_recoverRecord, hsame, List.find?_cons]
      simp only [generateClientOrderId_inj]
      by_cases h : intentId = rec.intentId
      · subst h
        cases acc.1.getMachine (generateClientOrderId rec.intentId) <;> simp
      · have hne : rec.intentId ≠ intentId := fun he => h he.symm
        simp [h, hne]

/-- Recovery keeps the machines that are already there. -/
theorem getMachine_recoverFromStore_of_some (ts : Time) {mgr : ExecutionStateMachineManager}
    (store : Option DurableExecutionStore) {id : String} {m : ExecutionStateMachine}
    (h : mgr.getMachine id = some m) :
    (recoverFromStore ts mgr store).1.getMachine id = some m := by
  have hfold : ∀ (records : List DurableExecutionRecord)
      (acc : ExecutionStateMachineManager × Nat), acc.1.getMachine id = some m →
        (records.foldl (recoverRecord ts) acc).1.getMachine id = some m := by
    intro records
    induction records with
    | nil => exact fun acc hacc => hacc
    | cons rec rest ih =>
        intro acc hacc
        apply ih
        rw [getMachine_recoverRecord, hacc]
        split <;> rfl
  cases store with
  | none => exact h
  | some store => exact hfold _ (mgr, 0) h

/-- Creation keeps the machines that are already there. -/
theorem getMachine_createOrGet_of_some {mgr : ExecutionStateMachineManager} (ts : Time)
    (intentId symbol : String) (quantity : Int) (price : ℚ) (direction : String) {id : String}
    {m : ExecutionStateMachine} (h : mgr.getMachine id = some m) :
    (mgr.createOrGet ts intentId symbol quantity price direction).2.2.getMachine id = some m := by
  unfold createOrGet
  dsimp only
  split
  · exact h
  · rename_i hnone
    have hne : id ≠ generateClientOrderId intentId := by
      intro he
      rw [he] at h
      exact absurd (h.symm.trans hnone) (by simp)
    exact (Dict.get?_set_of_ne _ _ hne).trans h

theorem getMachine_recoverFromStore (ts : Time) (mgr : ExecutionStateMachineManager)
    (store : DurableExecutionStore) (intentId : String)
    (hnone : mgr.getMachine (generateClientOrderId intentId) = none) :
    (recoverFromStore ts mgr (some store)).1.getMachine (generateClientOrderId intentId) =
      ((store.find? intentId).filter fun r =>
        decide (r.state ∉ DurableExecutionStore.terminalStates)).map (mgr.recoverMachine ts) := by
  have hperm := List.perm_insertionSort (fun a b : DurableExecutionRecord =>
    a.updatedAt ≤ b.updatedAt)
    (store.rows.filter fun r => decide (r.state ∉ DurableExecutionStore.terminalStates))
  have hnodup : (store.getNonTerminalExecutions.map DurableExecutionRecord.intentId).Nodup := by
    refine (hperm.map DurableExecutionRecord.intentId).nodup_iff.mpr ?_
    exact (store.filter _).nodup
  unfold recoverFromStore
  dsimp only
  rw [getMachine_foldl_recoverRecord, hnone, Option.none_or]
  congr 1
  ext r
  have hloaded : (⟨store.getNonTerminalExecutions, hnodup⟩ : DurableExecutionStore).find? intentId =
      store.getNonTerminalExecutions.find? fun r => decide (r.intentId = intentId) := rfl
  rw [← hloaded, Table.find?_eq_some_iff]
  simp only [Option.filter_eq_some_iff, DurableExecutionStore.mem_getNonTerminalExecutions,
    decide_eq_true_eq]
  constructor
  · rintro ⟨⟨hfind, hstate⟩, rfl⟩
    exact ⟨hfind, hstate⟩
  · rintro ⟨hfind, hstate⟩
    obtain rfl : r.intentId = intentId := Table.find?_key hfind
    exact ⟨⟨hfind, hstate⟩, rfl⟩

end ExecutionStateMachineManager

end AutoTrade.Execution
