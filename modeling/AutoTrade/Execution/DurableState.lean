import AutoTrade.Runtime
import AutoTrade.Library.Table
import Mathlib.Data.List.Sort

/-! # The durable execution store

`core/execution/durable_state.py`: the SQLite table `execution_state`, one row
per `intent_id`. Statements are taken to succeed; a failing one is only logged
by the source and leaves the table as it was.
-/

namespace AutoTrade.Execution

open AutoTrade.Library

/-- `ExecutionState` of `durable_state.py`. -/
inductive DurableExecState
  | pending
  | submitted
  | partiallyFilled
  | filled
  | cancelled
  | rejected
  | failed
  | unknown
deriving DecidableEq, Repr

structure DurableExecutionRecord where
  intentId : String
  clientOrderId : String
  symbol : String
  direction : String
  quantity : Int
  strikePrice : ℚ
  state : DurableExecState
  brokerOrderId : Option String := none
  filledQuantity : Int := 0
  averagePrice : ℚ := 0
  rejectReason : Option String := none
  createdAt : Time
  updatedAt : Time
  retryCount : Int := 0
deriving DecidableEq, Repr

/-- The table, with `intent_id` as its primary key. -/
abbrev DurableExecutionStore :=
  Table DurableExecutionRecord DurableExecutionRecord.intentId

namespace DurableExecutionStore

/-- `_TERMINAL_STATES`. -/
def terminalStates : List DurableExecState := [.filled, .cancelled, .rejected, .failed]

def saveExecution (store : DurableExecutionStore) (record : DurableExecutionRecord) :
    DurableExecutionStore :=
  store.replace record

/-- `ORDER BY updated_at ASC`; the ISO texts order as the instants do. -/
def getNonTerminalExecutions (store : DurableExecutionStore) : List DurableExecutionRecord :=
  (store.rows.filter fun r => decide (r.state ∉ terminalStates)).insertionSort
    fun a b => a.updatedAt ≤ b.updatedAt

/-- The columns `update_state` sets: the optional ones only when given. -/
def updateRow (now : Time) (state : DurableExecState) (brokerOrderId : Option String)
    (filledQuantity : Int) (averagePrice : ℚ) (rejectReason : Option String)
    (r : DurableExecutionRecord) : DurableExecutionRecord :=
  { r with
    state := state
    updatedAt := now
    brokerOrderId := brokerOrderId.or r.brokerOrderId
    filledQuantity := if filledQuantity > 0 then filledQuantity else r.filledQuantity
    averagePrice := if averagePrice > 0 then averagePrice else r.averagePrice
    rejectReason := rejectReason.or r.rejectReason }

def updateState (store : DurableExecutionStore) (now : Time) (intentId : String)
    (state : DurableExecState) (brokerOrderId : Option String := none) (filledQuantity : Int := 0)
    (averagePrice : ℚ := 0) (rejectReason : Option String := none) : DurableExecutionStore :=
  store.update intentId
    (updateRow now state brokerOrderId filledQuantity averagePrice rejectReason) fun _ => rfl

def clearInFlight (store : DurableExecutionStore) (now : Time) (intentId : String) :
    DurableExecutionStore :=
  store.updateState now intentId .failed none 0 0 (some "Cleared for retry")

/-! ## What the writes leave behind -/

theorem find?_saveExecution (store : DurableExecutionStore) (record : DurableExecutionRecord)
    (i : String) :
    (store.saveExecution record).find? i =
      if i = record.intentId then some record else store.find? i :=
  store.find?_replace record i

theorem find?_updateState (store : DurableExecutionStore) (now : Time) (intentId : String)
    (state : DurableExecState) (brokerOrderId : Option String) (filledQuantity : Int)
    (averagePrice : ℚ) (rejectReason : Option String) (i : String) :
    (store.updateState now intentId state brokerOrderId filledQuantity averagePrice
        rejectReason).find? i =
      if i = intentId then
        (store.find? i).map
          (updateRow now state brokerOrderId filledQuantity averagePrice rejectReason)
      else store.find? i :=
  store.find?_update intentId _ _ i

section UpdateState

variable {store : DurableExecutionStore} {intentId : String} (now : Time) (state : DurableExecState)
  (brokerOrderId : Option String) (filledQuantity : Int) (averagePrice : ℚ)
  (rejectReason : Option String)

/-- The row of the intent carries what was written. -/
theorem find?_updateState_self {row : DurableExecutionRecord}
    (h : store.find? intentId = some row) :
    (store.updateState now intentId state brokerOrderId filledQuantity averagePrice
        rejectReason).find? intentId =
      some (updateRow now state brokerOrderId filledQuantity averagePrice rejectReason row) := by
  rw [find?_updateState, if_pos rfl, h]
  rfl

theorem find?_updateState_of_ne {i : String} (h : intentId ≠ i) :
    (store.updateState now intentId state brokerOrderId filledQuantity averagePrice
        rejectReason).find? i = store.find? i := by
  rw [find?_updateState, if_neg (Ne.symm h)]

/-- Other intents keep their rows, and a row of the intent stays a row. -/
theorem find?_updateState_some {i : String} {row : DurableExecutionRecord}
    (h : store.find? i = some row) :
    ∃ row', (store.updateState now intentId state brokerOrderId filledQuantity averagePrice
        rejectReason).find? i = some row' ∧
      (row' = row ∨ row' = updateRow now state brokerOrderId filledQuantity averagePrice
        rejectReason row) := by
  by_cases hi : intentId = i
  · subst hi
    exact ⟨_, find?_updateState_self _ _ _ _ _ _ h, .inr rfl⟩
  · exact ⟨row, (find?_updateState_of_ne _ _ _ _ _ _ hi).trans h, .inl rfl⟩

end UpdateState

theorem mem_getNonTerminalExecutions (store : DurableExecutionStore) (r : DurableExecutionRecord) :
    r ∈ store.getNonTerminalExecutions ↔
      store.find? r.intentId = some r ∧ r.state ∉ terminalStates := by
  simp [getNonTerminalExecutions, Table.find?_eq_some_iff]

end DurableExecutionStore

end AutoTrade.Execution
