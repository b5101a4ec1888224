import AutoTrade.Execution.ServiceLaws

/-! # What a call leaves behind for its order

Two questions about a submitted call: whether the machine shows what the broker
answered, and whether an order the broker still works on can be found again in
the durable store and the journal.
-/

namespace AutoTrade.Execution.ExecutionService

open AutoTrade.Library AutoTrade.Wal ExecutionStateMachine

variable {setup : Setup} {call : OrderCall} {s : ExecutionService}

/-! ## The machine and the broker's answer -/

/-- The machine shows the result of the attempt. -/
def Agrees (result : OrderResult) (m : ExecutionStateMachine) : Prop :=
  match result.status with
  | .filled => m.state = .filled ∧ m.filledQuantity = result.filledQuantity
  | .partiallyFilled => m.state = .partialFill ∧ m.filledQuantity = result.filledQuantity
  | .submitted => m.state = .submitted ∨ m.state = .acknowledged
  | .rejected => m.state = .rejected ∨ m.state = .failed
  | _ => True

/-- The results the driving of the machine is made for: a fill of exactly the requested lot on a
machine that can take it, and a rejection of an order that had already failed. -/
def ResultFits (request : OrderRequest) (result : OrderResult) :
    Option ExecutionStateMachine → Prop
  | none =>
      match result.status with
      | .filled => result.filledQuantity = request.lotSize
      | .partiallyFilled | .submitted | .rejected => False
      | _ => True
  | some prior =>
      match result.status with
      | .filled => prior.state = .filled ∧
          result.filledQuantity = prior.filledQuantity + request.lotSize
      | .partiallyFilled | .submitted => False
      | .rejected => prior.state = .rejected ∨ prior.state = .failed
      | _ => True

theorem agrees_new_iff (h : priorMachine setup call s = none) {result : OrderResult}
    (hok : (attemptOf setup call s).outcome = .ok result) :
    Agrees result (driveMachine setup call s).machine ↔ ResultFits call.request result none := by
  obtain ⟨_, hstate, hqty⟩ := driveMachine_new h
  rw [hok] at hstate hqty
  cases hstatus : result.status <;>
    simp [Agrees, ResultFits, hstatus, hstate, hqty, newState, leavesValidated, bookedBy, eq_comm]

theorem agrees_prior_iff {prior : ExecutionStateMachine}
    (h : priorMachine setup call s = some prior) (hterminal : prior.isTerminal = true)
    {result : OrderResult} (hok : (attemptOf setup call s).outcome = .ok result) :
    Agrees result (driveMachine setup call s).machine ↔
      ResultFits call.request result (some prior) := by
  obtain ⟨m', hstep, hstate, hqty⟩ := driveMachine_some h hterminal
  have hmem : prior.state = .filled ∨ prior.state = .rejected ∨ prior.state = .cancelled ∨
      prior.state = .failed := by
    simpa [isTerminal_iff, terminalStates] using hterminal
  rw [hok] at hqty
  rw [hstep]
  cases hstatus : result.status with
  | partiallyFilled | submitted =>
      rcases hmem with h | h | h | h <;> simp [Agrees, ResultFits, hstatus, hstate, h]
  | filled => simp [Agrees, ResultFits, hstatus, hstate, hqty, bookedBy, eq_comm]
  | rejected | pending | cancelled | expired => simp [Agrees, ResultFits, hstatus, hstate]

/-- The machine agrees with the result exactly when the result fits the machine the order had. -/
theorem machine_agrees_iff (setup : Setup) (call : OrderCall) (s : ExecutionService)
    (result : OrderResult) (hgo : proceeds setup call s = true)
    (hok : (attemptOf setup call s).outcome = .ok result) :
    (executeWithRetries setup call s).2 = .ok result ∧
      ∃ m, (executeWithRetries setup call s).1.manager.getMachine (clientIdOf setup call s) =
          some m ∧
        (Agrees result m ↔ ResultFits call.request result (priorMachine setup call s)) := by
  obtain ⟨_, hterminal⟩ := (proceeds_iff setup call s).mp hgo
  rw [executeWithRetries_proceeds hgo]
  refine ⟨?_, (driveMachine setup call s).machine, ExecutionStateMachineManager.getMachine_put _ _ _,
    ?_⟩
  · dsimp only
    rw [driveMachine_value hgo, hok]
    rfl
  · cases hm : priorMachine setup call s with
    | none => exact agrees_new_iff hm hok
    | some prior => exact agrees_prior_iff hm (hterminal prior hm) hok

/-- A full fill of a new order agrees. -/
theorem machine_agrees_on_full_fill :
    proceeds sampleSetup (sampleCall sampleRequest .filled 50) freshService = true ∧
      ∃ m, (executeWithRetries sampleSetup (sampleCall sampleRequest .filled 50)
          freshService).1.manager.getMachine "OPB-signal-1" = some m ∧
        Agrees (sampleResult .filled 50) m := by
  obtain ⟨_, m, hm, hiff⟩ := machine_agrees_iff sampleSetup (sampleCall sampleRequest .filled 50)
    freshService (sampleResult .filled 50) (by decide +kernel) rfl
  exact ⟨by decide +kernel, m, hm, hiff.mpr rfl⟩

/-- An order the broker accepted but has not filled leaves its machine `VALIDATED`. -/
theorem machine_stuck_on_submitted :
    proceeds sampleSetup (sampleCall sampleRequest .submitted 0) freshService = true ∧
      (executeWithRetries sampleSetup (sampleCall sampleRequest .submitted 0) freshService).2 =
        .ok (sampleResult .submitted 0) ∧
      ¬ ∃ m, (executeWithRetries sampleSetup (sampleCall sampleRequest .submitted 0)
          freshService).1.manager.getMachine "OPB-signal-1" = some m ∧
        Agrees (sampleResult .submitted 0) m := by
  refine ⟨by decide +kernel, by rfl, ?_⟩
  rintro ⟨m, hm, hagrees⟩
  have hstate : ((executeWithRetries sampleSetup (sampleCall sampleRequest .submitted 0)
      freshService).1.manager.getMachine "OPB-signal-1").map (·.state) = some .validated := by
    decide +kernel
  rw [hm] at hstate
  simp_all [Agrees, sampleResult]

/-! ## Orders the broker still works on -/

/-- The durable row still says that the order is open and names it at the broker. -/
def RowRecoverable (setup : Setup) (call : OrderCall) (result : OrderResult)
    (t : ExecutionService) : Prop :=
  ∃ row, t.records.store.find? (intentOf setup call) = some row ∧
    row.state ∉ DurableExecutionStore.terminalStates ∧ row.brokerOrderId = result.brokerOrderId

/-- The journalled intent, where there is a journal, has not failed. -/
def IntentOpen (setup : Setup) (call : OrderCall) (t : ExecutionService) : Prop :=
  ∀ journal, t.journal = some journal →
    ∃ row, journal.getIntent (intentOf setup call) = some row ∧ row.status ≠ .failed

theorem getIntent_openIntent (setup : Setup) (call : OrderCall)
    {journal : WriteAheadJournal OrderParams} (h : s.journal = some journal) :
    ∃ opened, (openIntent setup call s).journal = some opened ∧
      ∃ row, opened.getIntent (intentOf setup call) = some row ∧
        row.correlationId = .uuid journal.uuids := by
  refine ⟨_, by simp [openIntent, h]; rfl, ?_⟩
  rw [WriteAheadJournal.getIntent_append, if_pos rfl]
  exact ⟨_, rfl, rfl⟩

/-- An accepted order that is not yet final is filed as failed in the durable store and, where there
is one, in the journal. -/
theorem live_order_never_recoverable (setup : Setup) (call : OrderCall) (s t : ExecutionService)
    (result : OrderResult) (hsubmitted : Submitted setup call s)
    (hreturn : executeOrder setup call s = (t, .ok result))
    (hlive : result.status = .submitted ∨ result.status = .pending) :
    ¬ RowRecoverable setup call result t ∧
      ∀ journal, s.journal = some journal → ¬ IntentOpen setup call t := by
  have hfill : isFill result = false := by rcases hlive with h | h <;> simp [isFill, h]
  have hrejected : result.status ≠ .rejected := by rcases hlive with h | h <;> simp [h]
  obtain ⟨hjournal, _⟩ := executeWithRetries_frame setup call (prepared setup call s)
  rw [prepared_journal] at hjournal
  rcases executeOrder_cases hsubmitted with ⟨r, _, hexec⟩ | ⟨e, hexec⟩
  · rw [hexec, Prod.mk.injEq, Except.ok.injEq] at hreturn
    obtain ⟨rfl, rfl⟩ := hreturn
    rw [hfill, if_neg Bool.false_ne_true]
    constructor
    · rintro ⟨row, hrow, hopen, _⟩
      have hstore : (settleFailure setup call r
          (executeWithRetries setup call (prepared setup call s)).1).records.store.find?
          (intentOf setup call) = _ := DurableExecutionStore.find?_updateState _ _ _ _ _ _ _ _ _
      rw [hstore, if_pos rfl, if_neg hrejected] at hrow
      obtain ⟨old, _, rfl⟩ := Option.map_eq_some_iff.mp hrow
      exact hopen (by simp [DurableExecutionStore.updateRow, DurableExecutionStore.terminalStates])
    · intro journal hsome hopen
      obtain ⟨opened, hopened, row, hrow, _⟩ :=
        getIntent_openIntent setup call hsome
      obtain ⟨final, hfinal, hstatus⟩ := hopen (opened.fail _ (intentOf setup call) _) (by
        simp only [settleFailure, failIntent, hjournal, hopened, Option.map_some]
        rfl)
      rw [WriteAheadJournal.getIntent_fail, if_pos rfl, hrow] at hfinal
      cases hfinal
      exact hstatus rfl
  · rw [hexec] at hreturn
    simp at hreturn

/-- The same for an order answered `PENDING`. -/
theorem pending_order_not_recoverable :
    Submitted sampleSetup (sampleCall sampleRequest .pending 0) freshService ∧
      ¬ RowRecoverable sampleSetup (sampleCall sampleRequest .pending 0) (sampleResult .pending 0)
        (executeOrder sampleSetup (sampleCall sampleRequest .pending 0) freshService).1 := by
  have hsub : Submitted sampleSetup (sampleCall sampleRequest .pending 0) freshService := by
    decide +kernel
  exact ⟨hsub, (live_order_never_recoverable sampleSetup (sampleCall sampleRequest .pending 0)
    freshService _ (sampleResult .pending 0) hsub (Prod.ext rfl rfl) (.inr rfl)).1⟩

/-- An order answered `SUBMITTED` is on record as failed while the broker works on it. -/
theorem submitted_order_filed_as_failed :
    (executeOrder sampleSetup (sampleCall sampleRequest .submitted 0) freshService).2 =
        .ok (sampleResult .submitted 0) ∧
      ¬ (RowRecoverable sampleSetup (sampleCall sampleRequest .submitted 0)
          (sampleResult .submitted 0)
          (executeOrder sampleSetup (sampleCall sampleRequest .submitted 0) freshService).1 ∧
        IntentOpen sampleSetup (sampleCall sampleRequest .submitted 0)
          (executeOrder sampleSetup (sampleCall sampleRequest .submitted 0) freshService).1) := by
  refine ⟨rfl, ?_⟩
  rintro ⟨⟨row, hrow, hopen, _⟩, _⟩
  have hstate : ((executeOrder sampleSetup (sampleCall sampleRequest .submitted 0)
      freshService).1.records.store.find? (intentOf sampleSetup
        (sampleCall sampleRequest .submitted 0))).map (·.state) = some .failed := by
    decide +kernel
  rw [hrow, Option.map_some, Option.some.injEq] at hstate
  exact hopen (by rw [hstate]; decide)

end AutoTrade.Execution.ExecutionService
