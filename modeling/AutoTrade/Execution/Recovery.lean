import AutoTrade.Execution.ServiceLaws

/-! # Resubmission after a crash

A restarted service rebuilds its machines from the durable store, under the ids
of the rows, and looks a resubmitted order up under its idempotency key. The
theorem is about any content of the store, and so about whatever a run left
there at the point where it was cut off.
-/

namespace AutoTrade.Execution.ExecutionService

open AutoTrade.Library ExecutionStateMachine ExecutionStateMachineManager

variable {setup : Setup} {call : OrderCall} {s : ExecutionService}

/-- The manager a restarted process starts with. -/
def recoveredManager (ts : Time) (db : DurableExecutionStore) : ExecutionStateMachineManager :=
  (recoverFromStore ts { persistenceCallback := true } (some db)).1

/-- The machine recovered from a row. -/
def recoveredMachine (ts : Time) (row : DurableExecutionRecord) : ExecutionStateMachine :=
  recoverMachine { persistenceCallback := true } ts row

/-- The call gets the machine recovered from the row, which is not terminal, and does not place the
order again. -/
structure ResubmissionBlocked (setup : Setup) (call : OrderCall) (t : ExecutionService) (ts : Time)
    (row : DurableExecutionRecord) : Prop where
  recovered : (createMachine setup call t).1 = recoveredMachine ts row
  notNew : (createMachine setup call t).2.1 = false
  notTerminal : (createMachine setup call t).1.isTerminal = false
  notPlaced : (executeOrder setup call t).1.placements = t.placements

theorem recoveredMachine_isTerminal (ts : Time) {row : DurableExecutionRecord}
    (h : row.state ∉ DurableExecutionStore.terminalStates) :
    (recoveredMachine ts row).isTerminal = false := by
  rw [Bool.eq_false_iff, ne_eq, isTerminal_iff]
  exact fun hmem => h ((recoveredState_terminal_iff row.state).mp hmem)

/-- An order whose row was left open is blocked after the restart exactly when its idempotency key
spells the id of its row. -/
theorem resubmission_blocked_iff (setup : Setup) (call : OrderCall) (t : ExecutionService)
    (ts : Time) (db : DurableExecutionStore) (row : DurableExecutionRecord)
    (hrow : db.find? (intentOf setup call) = some row)
    (hopen : row.state ∉ DurableExecutionStore.terminalStates)
    (hrestart : t.manager = recoveredManager ts db) :
    ResubmissionBlocked setup call t ts row ↔ keyOf setup call t = intentOf setup call := by
  have hlookup : priorMachine setup call t = ((db.find? (keyOf setup call t)).filter fun r =>
      decide (r.state ∉ DurableExecutionStore.terminalStates)).map (recoveredMachine ts) := by
    unfold priorMachine clientIdOf
    rw [hrestart]
    exact getMachine_recoverFromStore ts _ db _ rfl
  constructor
  · rintro ⟨hmachine, hnew, _, _⟩
    cases hm : priorMachine setup call t with
    | none =>
        rw [createMachine_none hm] at hnew
        cases hnew
    | some m =>
        rw [createMachine_some hm] at hmachine
        rw [hm] at hlookup
        obtain ⟨r, hr, rfl⟩ := Option.map_eq_some_iff.mp hlookup.symm
        have hkey : r.intentId = keyOf setup call t :=
          Table.find?_key (Option.filter_eq_some_iff.mp hr).1
        have hintent : row.intentId = intentOf setup call := Table.find?_key hrow
        have hsame : r.intentId = row.intentId := congrArg ExecutionStateMachine.intentId hmachine
        rw [← hkey, hsame, hintent]
  · intro hkey
    have hm : priorMachine setup call t = some (recoveredMachine ts row) := by
      rw [hlookup, hkey, hrow, Option.filter_some, if_pos (by simpa using hopen)]
      rfl
    have hlive := recoveredMachine_isTerminal ts hopen
    have hstop : proceeds setup call t = false := by
      simp [proceeds, createMachine_some hm, hlive]
    have hno : ¬ Attempted setup call t := fun h => Bool.false_ne_true (hstop.symm.trans h.2)
    refine ⟨?_, ?_, ?_, (executeOrder_not_attempted hno).2.1⟩
    · rw [createMachine_some hm]
    · rw [createMachine_some hm]
    · rw [createMachine_some hm, hlive]

/-- The store as a crash between saving the row and the attempt leaves it. -/
def crashedStore (request : OrderRequest) : DurableExecutionStore :=
  (prepared sampleSetup (sampleCall request .filled 50) freshService).records.store

/-- The service after the restart. -/
def restartedService (request : OrderRequest) : ExecutionService :=
  { freshService with
    manager := recoveredManager 0 (crashedStore request)
    records := { store := crashedStore request } }

def openRow (request : OrderRequest) : DurableExecutionRecord :=
  pendingRecord sampleSetup (sampleCall request .filled 50) 0 freshService.clock

/-- A key that spells the row's id is recognised. -/
theorem resubmission_blocked_of_self_key :
    ResubmissionBlocked sampleSetup (sampleCall selfKeyedRequest .filled 50)
      (restartedService selfKeyedRequest) 0 (openRow selfKeyedRequest) :=
  (resubmission_blocked_iff sampleSetup (sampleCall selfKeyedRequest .filled 50)
    (restartedService selfKeyedRequest) 0 (crashedStore selfKeyedRequest)
    (openRow selfKeyedRequest) (by decide +kernel) (by decide +kernel) rfl).mpr (by decide +kernel)

/-- Any other key is not: the recovered machine is missed and the order placed again. -/
theorem resubmission_places_again :
    (crashedStore sampleRequest).find? (intentOf sampleSetup
        (sampleCall sampleRequest .filled 50)) = some (openRow sampleRequest) ∧
      (openRow sampleRequest).state ∉ DurableExecutionStore.terminalStates ∧
      (createMachine sampleSetup (sampleCall sampleRequest .filled 50)
        (restartedService sampleRequest)).2.1 = true ∧
      ¬ ResubmissionBlocked sampleSetup (sampleCall sampleRequest .filled 50)
        (restartedService sampleRequest) 0 (openRow sampleRequest) ∧
      (executeOrder sampleSetup (sampleCall sampleRequest .filled 50)
        (restartedService sampleRequest)).1.placements =
          [⟨"signal-1", freshService.clock, some .filled⟩] := by
  have hnew : (createMachine sampleSetup (sampleCall sampleRequest .filled 50)
      (restartedService sampleRequest)).2.1 = true := by
    decide +kernel
  refine ⟨by decide +kernel, by decide +kernel, hnew, fun hblocked => ?_, by decide +kernel⟩
  rw [hblocked.notNew] at hnew
  cases hnew

end AutoTrade.Execution.ExecutionService
