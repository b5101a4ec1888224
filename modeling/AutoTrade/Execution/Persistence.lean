import AutoTrade.Execution.ServiceRuns

/-! # The durable store as the image of the machines

`execute_order` saves the row of an order under its intent id, the persistence
callback updates the row under the machine's intent id, which is the
idempotency key. A transition is on record when the row of its order shows the
state the callback's map assigns; it is so along every run in which the machines
that move are keyed like their rows.
-/

namespace AutoTrade.Execution.ExecutionService

open AutoTrade.Library ExecutionStateMachine ExecutionStateMachineManager

variable {setup : Setup} {call : OrderCall} {s : ExecutionService} {platform : Platform}

/-- The id under which `execute_order` saved the row of a machine's order. -/
def rowKey (platform : Platform) (m : ExecutionStateMachine) : String :=
  intentText platform m.symbol m.direction m.price m.quantity

/-- Right after the transition the row of the order held the machine's state. -/
def OnRecord (platform : Platform) (event : TransitionEvent) : Prop :=
  ∃ row, event.store.find? (rowKey platform event.machine) = some row ∧
    row.state = durableState event.machine.state

/-- Every successful transition so far was on record. -/
def Refined (platform : Platform) (records : Records) : Prop :=
  ∀ event ∈ records.transitions, OnRecord platform event

theorem rowKey_of_identity (platform : Platform) {m m' : ExecutionStateMachine}
    (h : identity m' = identity m) :
    rowKey platform m' = rowKey platform m := by
  simp only [identity, Prod.mk.injEq] at h
  simp only [rowKey, h]

/-! ## Machines keyed like their rows -/

/-- The machine persists under the id of its row, the row exists, and the records are refined. -/
structure Tracked (platform : Platform) (m : ExecutionStateMachine) (records : Records) : Prop where
  wired : m.persistenceCallback = true
  keyed : m.intentId = rowKey platform m
  saved : ∃ row, records.store.find? m.intentId = some row
  refined : Refined platform records

/-- Nothing but the fields of its identity matters for a machine to be tracked. -/
theorem Tracked.congr {m m' : ExecutionStateMachine} {records : Records}
    (h : Tracked platform m records) (hsame : identity m' = identity m) :
    Tracked platform m' records := by
  have hid : m'.intentId = m.intentId := congrArg Prod.fst hsame
  refine ⟨(persistenceCallback_of_identity hsame).trans h.wired, ?_, ?_, h.refined⟩
  · rw [hid, h.keyed, rowKey_of_identity platform hsame]
  · rw [hid]
    exact h.saved

/-- A persisted transition of a tracked machine is on record. -/
theorem Tracked.tryTransitionTo {m : ExecutionStateMachine} {records : Records}
    (h : Tracked platform m records) {new : ExecutionState} (hnew : new ∈ persistedStates)
    (now ts : Time) :
    Tracked platform (tryTransitionTo (serviceHooks now) ts new m records).machine
      (tryTransitionTo (serviceHooks now) ts new m records).world := by
  by_cases hallow : m.Allows new
  · have hpersist : m.persistenceCallback = true ∧ new ∈ persistedStates := ⟨h.wired, hnew⟩
    obtain ⟨row, hrow⟩ := h.saved
    have hrow' := DurableExecutionStore.find?_updateState_self now (durableState new)
      m.brokerOrderId m.filledQuantity m.averagePrice m.errorMessage hrow
    rw [tryTransitionTo_success hallow (by rw [persistOutcome, if_pos hpersist]; rfl)]
    refine ⟨h.wired, h.keyed, ⟨_, hrow'⟩, ?_⟩
    intro event hevent
    rcases List.mem_cons.mp hevent with rfl | hold
    · exact ⟨_, (congrArg (Table.find? _) h.keyed.symm).trans hrow', rfl⟩
    · exact h.refined event hold
  · rw [tryTransitionTo_refused hallow]
    exact h

theorem Tracked.recordSubmission {m : ExecutionStateMachine} {records : Records}
    (h : Tracked platform m records) (id : String) (now ts : Time) :
    Tracked platform (recordSubmission (serviceHooks now) ts id m records).machine
      (recordSubmission (serviceHooks now) ts id m records).world := by
  unfold ExecutionStateMachine.recordSubmission
  split
  · exact h
  · have hnoted : Tracked platform
        { m with brokerOrderId := some id, submittedAt := some ts } records := h.congr rfl
    exact hnoted.tryTransitionTo (by decide) now ts

theorem Tracked.recordAcknowledgment {m : ExecutionStateMachine} {records : Records}
    (h : Tracked platform m records) (now ts : Time) :
    Tracked platform (recordAcknowledgment (serviceHooks now) ts m records).machine
      (recordAcknowledgment (serviceHooks now) ts m records).world := by
  unfold ExecutionStateMachine.recordAcknowledgment
  split
  · have hnoted : Tracked platform { m with acknowledgedAt := some ts } records := h.congr rfl
    exact hnoted.tryTransitionTo (by decide) now ts
  · exact h

theorem tracked_andThen {α β : Type} {step : Step Records α}
    {op : ExecutionStateMachine → Records → Step Records β}
    (h : Tracked platform step.machine step.world)
    (hop : ∀ m records, Tracked platform m records →
      Tracked platform (op m records).machine (op m records).world) :
    Tracked platform (step.andThen op).machine (step.andThen op).world := by
  unfold Step.andThen
  split
  · exact hop _ _ h
  · exact h

/-- The walk of a new machine to `FILLED` is on record. -/
theorem Tracked.recordFilledResult {m : ExecutionStateMachine} {records : Records}
    (h : Tracked platform m records) (hvalidated : m.state = .validated) {request : OrderRequest}
    (hq : m.quantity ≤ request.lotSize) (result : OrderResult) (now ts : Time) :
    Refined platform
      (recordFilledResult (serviceHooks now) ts request result m records).world := by
  set brokerId := orElse result.brokerOrderId (orElse (some result.orderId) m.clientOrderId)
    with hbroker
  have hadvanced : Tracked platform
      (advanceToAcknowledged (serviceHooks now) ts brokerId m records).machine
      (advanceToAcknowledged (serviceHooks now) ts brokerId m records).world :=
    tracked_andThen (tracked_andThen (h.tryTransitionTo (by decide) now ts)
      fun _ _ ht => ht.recordSubmission brokerId now ts) fun _ _ ht => ht.recordAcknowledgment now ts
  obtain ⟨hvalue, hstate, _, hquantity⟩ := movedTo_advanceToAcknowledged ts
    (serviceHooks_silent now) hvalidated brokerId records
  have hresult : Execution.recordFilledResult (serviceHooks now) ts request result m records =
      recordFill (serviceHooks now) ts request.lotSize request.strikePrice
        (advanceToAcknowledged (serviceHooks now) ts brokerId m records).machine
        (advanceToAcknowledged (serviceHooks now) ts brokerId m records).world := by
    simp only [Execution.recordFilledResult, ← hbroker, hvalue]
  rw [hresult, recordFill_acknowledged hstate, hquantity, if_pos hq]
  have hbooked : Tracked platform (addFill ts request.lotSize request.strikePrice
      (advanceToAcknowledged (serviceHooks now) ts brokerId m records).machine)
      (advanceToAcknowledged (serviceHooks now) ts brokerId m records).world := hadvanced.congr rfl
  exact (hbooked.tryTransitionTo (by decide) now ts).refined

/-- A new machine keyed like its row stays on record whatever the outcome. -/
theorem refined_concludeAttempt {m : ExecutionStateMachine} {records : Records}
    (h : Tracked platform m records) (hvalidated : m.state = .validated) {request : OrderRequest}
    (hq : m.quantity ≤ request.lotSize) (outcome : Except PyExc OrderResult) (now ts : Time) :
    Refined platform
      (concludeAttempt (serviceHooks now) ts now request outcome m records).world := by
  cases hleaves : leavesValidated outcome with
  | true =>
      obtain ⟨m', hstep, _⟩ := concludeAttempt_validated (serviceHooks now) ts
        hvalidated now request hleaves records
      rw [hstep]
      exact h.refined
  | false =>
      by_cases hfill : ∃ result, outcome = .ok result ∧ result.status = .filled
      · obtain ⟨result, rfl, hstatus⟩ := hfill
        rw [(concludeAttempt_filled ts (serviceHooks_silent now) hvalidated hq hstatus now
          records).2.2.2]
        exact h.recordFilledResult hvalidated hq result now ts
      · rw [(concludeAttempt_failed ts (serviceHooks_silent now) hvalidated now request
          hleaves (fun result hok hst => hfill ⟨result, hok, hst⟩) records).2.2.2.2]
        exact (h.tryTransitionTo (by decide) now ts).refined

/-! ## Calls -/

/-- The row of the order is there, `PENDING`, when the attempt starts. -/
theorem find?_prepared :
    (prepared setup call s).records.store.find? (intentOf setup call) =
      some (pendingRecord setup call s.executionCounter s.clock) := by
  rw [prepared_records]
  exact (DurableExecutionStore.find?_saveExecution _ _ _).trans (if_pos rfl)

/-- Validating a new machine is on record. -/
theorem refined_validatedRecords (call : OrderCall) (h : Refined setup.platform s.records) :
    Refined setup.platform (validatedRecords setup call (prepared setup call s)) := by
  intro event hevent
  rcases List.mem_cons.mp hevent with rfl | hold
  · exact ⟨_, find?_prepared, rfl⟩
  · rw [prepared_records] at hold
    exact h event hold

/-- A call keeps the records refined when its new machine is keyed like its row, or its outcome
leaves the machine `VALIDATED`. -/
theorem refined_executeOrder (hrest : AtRest s.manager) (h : Refined setup.platform s.records)
    (hkeyed : Attempted setup call s → priorMachine setup call s = none →
      keyOf setup call s = intentOf setup call ∨
        leavesValidated (attemptOf setup call s).outcome = true) :
    Refined setup.platform (executeOrder setup call s).1.records := by
  by_cases hattempt : Attempted setup call s
  · obtain ⟨_, hterminal⟩ := (proceeds_iff setup call s).mp hattempt.2
    unfold Refined
    rw [(executeOrder_attempted hattempt).2.2.2]
    have hpm : priorMachine setup call (prepared setup call s) = priorMachine setup call s :=
      priorMachine_prepared
    cases hm : priorMachine setup call s with
    | some m =>
        obtain ⟨m', hstep, _⟩ := driveMachine_some (hpm.trans hm) (hterminal m hm)
        rw [hstep, prepared_records]
        exact h
    | none =>
        have hvalidated := refined_validatedRecords call h
        rw [driveMachine_none (hpm.trans hm), attemptOf_prepared]
        rcases hkeyed hattempt hm with hkey | hleaves
        · refine refined_concludeAttempt ⟨?_, ?_, ?_, hvalidated⟩ rfl le_rfl _ _ _
          · exact (congrArg _ prepared_manager).trans hrest.wired
          · exact keyOf_prepared.trans hkey
          · have hid : (validatedMachine setup call (prepared setup call s)).intentId =
                intentOf setup call := keyOf_prepared.trans hkey
            rw [hid]
            exact ⟨_, find?_prepared⟩
        · obtain ⟨m', hstep, _⟩ := concludeAttempt_validated
            (serviceHooks ((prepared setup call s).clock + call.latency))
            (formatTs ((prepared setup call s).clock + call.latency))
            (m := validatedMachine setup call (prepared setup call s)) rfl
            ((prepared setup call s).clock + call.latency) call.request hleaves
            (validatedRecords setup call (prepared setup call s))
          rw [hstep]
          exact hvalidated
  · unfold Refined
    rw [(executeOrder_not_attempted hattempt).2.2.2]
    exact h

/-! ## Rows of the machines -/

/-- The store has a row under the id. -/
def HasRow (intentId : String) (store : DurableExecutionStore) : Prop :=
  ∃ row, store.find? intentId = some row

/-- The row under the id is there and `FAILED`. -/
def RowFailed (intentId : String) (store : DurableExecutionStore) : Prop :=
  ∃ row, store.find? intentId = some row ∧ row.state = .failed

theorem HasRow.updateState {intentId : String} {store : DurableExecutionStore}
    (h : HasRow intentId store) (now : Time) (intent : String) (state : DurableExecState)
    (id : Option String) (filled : Int) (average : ℚ) (reason : Option String) :
    HasRow intentId (store.updateState now intent state id filled average reason) := by
  obtain ⟨row, hrow⟩ := h
  obtain ⟨row', hrow', _⟩ := DurableExecutionStore.find?_updateState_some now state id filled
    average reason hrow
  exact ⟨row', hrow'⟩

theorem RowFailed.updateState {intentId : String} {store : DurableExecutionStore}
    (h : RowFailed intentId store) (now : Time) (intent : String) (id : Option String)
    (filled : Int) (average : ℚ) (reason : Option String) :
    RowFailed intentId (store.updateState now intent .failed id filled average reason) := by
  obtain ⟨row, hrow, hstate⟩ := h
  obtain ⟨row', hrow', hcases⟩ := DurableExecutionStore.find?_updateState_some now .failed id filled
    average reason hrow
  refine ⟨row', hrow', ?_⟩
  rcases hcases with rfl | rfl
  · exact hstate
  · rfl

/-- Rows are never deleted by a call. -/
theorem hasRow_executeOrder {intentId : String} (h : HasRow intentId s.records.store) :
    HasRow intentId (executeOrder setup call s).1.records.store := by
  refine executeOrder_elim (P := fun t => HasRow intentId t.records.store) h h fun hsub => ?_
  refine executeOrder_store hsub ?_ fun _ now intent state id filled average reason _ _ hP =>
    hP.updateState now intent state id filled average reason
  obtain ⟨row, hrow⟩ := h
  unfold HasRow
  rw [DurableExecutionStore.find?_saveExecution, hrow]
  split
  · exact ⟨_, rfl⟩
  · exact ⟨row, rfl⟩

/-- A submitted call leaves a row for its order. -/
theorem hasRow_intentOf (h : Submitted setup call s) :
    HasRow (intentOf setup call) (executeOrder setup call s).1.records.store := by
  refine executeOrder_store h ⟨pendingRecord setup call s.executionCounter s.clock, ?_⟩
    fun _ now intent state id filled average reason _ _ hP =>
      hP.updateState now intent state id filled average reason
  exact (DurableExecutionStore.find?_saveExecution _ _ _).trans (if_pos rfl)

/-- Every machine rests and has the row of its order, and every transition was on record. -/
structure StoreInvariant (setup : Setup) (s : ExecutionService) : Prop where
  atRest : AtRest s.manager
  rows : ∀ id m, s.manager.getMachine id = some m →
    HasRow (rowKey setup.platform m) s.records.store
  refined : Refined setup.platform s.records

/-- The machines that move are keyed like their rows: a call with a new machine runs under a key
that spells its intent id, or its outcome leaves the machine `VALIDATED`; a machine the sweep fails
is keyed so, or its row says `FAILED` already. -/
def RowsKeyed (setup : Setup) (s : ExecutionService) : ServiceStep → Prop
  | .executeOrder call => Attempted setup call s → priorMachine setup call s = none →
      keyOf setup call s = intentOf setup call ∨
        leavesValidated (attemptOf setup call s).outcome = true
  | .runStaleOrderTimeout _ maxStale => ∀ id m, s.manager.getMachine id = some m →
      isStale s.clock maxStale m = true → m.intentId = rowKey setup.platform m ∨
        RowFailed (rowKey setup.platform m) s.records.store
  | _ => True

theorem storeInvariant_executeOrder (h : StoreInvariant setup s)
    (hkeyed : RowsKeyed setup s (.executeOrder call)) :
    StoreInvariant setup (executeOrder setup call s).1 := by
  refine ⟨step_atRest setup h.atRest (.executeOrder call), fun id m hget => ?_,
    refined_executeOrder h.atRest h.refined hkeyed⟩
  by_cases hattempt : Attempted setup call s
  · rw [getMachine_executeOrder hattempt] at hget
    split at hget
    · rw [Option.some.injEq] at hget
      subst hget
      have hidentity := identity_driveMachine setup call (prepared setup call s)
      rw [rowKey_of_identity setup.platform hidentity]
      cases hm : priorMachine setup call (prepared setup call s) with
      | none =>
          rw [createMachine_none hm]
          exact hasRow_intentOf hattempt.1
      | some prior =>
          rw [createMachine_some hm]
          rw [priorMachine_prepared] at hm
          exact hasRow_executeOrder (h.rows _ prior hm)
    · exact hasRow_executeOrder (h.rows id m hget)
  · rw [(executeOrder_not_attempted hattempt).1] at hget
    exact hasRow_executeOrder (h.rows id m hget)

/-! ## The sweep -/

/-- What one iteration of the sweep adds to the records: the row under the machine's intent id turns
`FAILED`, and one transition. -/
theorem recordFailure_records {m : ExecutionStateMachine} {now : Time} {maxStale : ℚ}
    (hrest : m.state ∈ restingStates) (hwired : m.persistenceCallback = true)
    (hstale : isStale now maxStale m = true) (records : Records) :
    ∃ store failed, store = records.store.updateState now m.intentId .failed m.brokerOrderId
        m.filledQuantity m.averagePrice (some (staleReason now m)) ∧
      identity failed = identity m ∧ failed.state = .failed ∧
      recordFailure (serviceHooks now) (formatTs now) (staleReason now m) m records =
        ⟨failed, ⟨store, ⟨failed, store⟩ :: records.transitions⟩, .ok true⟩ := by
  have hallow := (recordFailure_of_stale hrest hstale).2
  refine ⟨_, { m with errorMessage := some (staleReason now m), state := .failed,
                      updatedAt := formatTs now }, rfl, rfl, rfl, ?_⟩
  rw [recordFailure, tryTransitionTo_success hallow
    (by rw [persistOutcome, if_pos ⟨hwired, by decide⟩]; rfl)]
  rfl

theorem storeInvariant_runStaleOrderTimeout (h : StoreInvariant setup s) {answers : LifecycleAnswers}
    {maxStale : ℚ} (hkeyed : RowsKeyed setup s (.runStaleOrderTimeout answers maxStale)) :
    StoreInvariant setup (step setup s (.runStaleOrderTimeout answers maxStale)) := by
  -- the loop keeps the rows, the failed rows, the identities and the transitions on record
  have hloop := runStaleOrderTimeout_invariant (serviceHooks s.clock) s.clock setup.port
    answers maxStale s.manager s.records (fun mgr records =>
      (∀ i, HasRow i s.records.store → HasRow i records.store) ∧
      (∀ i, RowFailed i s.records.store → RowFailed i records.store) ∧
      (∀ id m, mgr.getMachine id = some m →
        ∃ m₀, s.manager.getMachine id = some m₀ ∧ identity m = identity m₀) ∧
      Refined setup.platform records) (by
    rintro mgr records id m hget hstale _ ⟨hrows, hfailed, hsame, hrefined⟩
    obtain ⟨hrest, hwired⟩ := h.atRest.machines id m hget
    obtain ⟨store, failed, hstore, hidentity, hstate, hstep⟩ :=
      recordFailure_records hrest hwired hstale records
    rw [hstep]
    refine ⟨fun i hi => ?_, fun i hi => ?_, fun j m' hj => ?_, fun event hevent => ?_⟩
    · rw [hstore]
      exact (hrows i hi).updateState _ _ _ _ _ _ _
    · rw [hstore]
      exact (hfailed i hi).updateState _ _ _ _ _ _
    · by_cases hid : j = id
      · subst hid
        rw [getMachine_put, Option.some.injEq] at hj
        subst hj
        exact ⟨m, hget, hidentity⟩
      · rw [getMachine_put_of_ne _ _ hid] at hj
        exact hsame j m' hj
    · rcases List.mem_cons.mp hevent with rfl | hold
      · have hkey := rowKey_of_identity setup.platform hidentity
        unfold OnRecord
        rw [hkey, hstate, hstore]
        rcases hkeyed id m hget hstale with heq | hrow
        · obtain ⟨row, hrow⟩ := hrows _ (h.rows id m hget)
          rw [← heq] at hrow ⊢
          exact ⟨_, DurableExecutionStore.find?_updateState_self _ _ _ _ _ _ hrow, rfl⟩
        · exact (hfailed _ hrow).updateState _ _ _ _ _ _
      · exact hrefined event hold) ⟨fun _ hi => hi, fun _ hi => hi,
        fun _ m hget => ⟨m, hget, rfl⟩, h.refined⟩
  obtain ⟨hrows, _, hsame, hrefined⟩ := hloop
  refine ⟨step_atRest setup h.atRest _, fun id m hget => ?_, hrefined⟩
  obtain ⟨m₀, hget₀, hidentity⟩ := hsame id m hget
  rw [rowKey_of_identity setup.platform hidentity]
  exact hrows _ (h.rows id m₀ hget₀)

/-! ## Runs -/

theorem step_storeInvariant (h : StoreInvariant setup s) (op : ServiceStep)
    (hkeyed : RowsKeyed setup s op) : StoreInvariant setup (step setup s op) := by
  cases op with
  | executeOrder call => exact storeInvariant_executeOrder h hkeyed
  | runAckWatchdog answers maxAge =>
      rw [step_runAckWatchdog h.atRest]
      exact h
  | runStaleOrderTimeout answers maxStale => exact storeInvariant_runStaleOrderTimeout h hkeyed
  | recordBrokerQueryResult query =>
      have hrest := step_atRest setup h.atRest (.recordBrokerQueryResult query)
      obtain ⟨mgr, hstep, _, hsame⟩ := step_recordBrokerQueryResult setup h.atRest query
      rw [hstep] at hrest ⊢
      refine ⟨hrest, fun id m hget => ?_, h.refined⟩
      obtain ⟨m', hget', _, hidentity⟩ := hsame.exists hget
      rw [← rowKey_of_identity setup.platform hidentity]
      exact h.rows id m' hget'
  | advance elapsed => exact ⟨h.atRest, h.rows, h.refined⟩

theorem Fresh.storeInvariant (h : s.Fresh) : StoreInvariant setup s := by
  refine ⟨h.atRest, fun id m hget => ?_, fun event hevent => ?_⟩
  · rw [h.manager] at hget
    cases hget
  · rw [h.transitions] at hevent
    cases hevent

/-- Along a run whose moving machines are keyed like their rows, every successful transition is on
record in the durable store. -/
theorem transitions_on_record_along_run (setup : Setup) (start : ExecutionService)
    (ops : List ServiceStep) (hfresh : start.Fresh)
    (hkeyed : StepsMeet (step setup) (RowsKeyed setup) start ops) :
    Always (step setup) (fun s => Refined setup.platform s.records) start ops :=
  (always_of_stepsMeet (I := StoreInvariant setup) (fun _ op _ h => step_storeInvariant h op)
    hfresh.storeInvariant hkeyed).mono fun _ h => h.refined

/-- A filled order under a key that spells its intent id. -/
theorem transitions_on_record_of_self_key :
    StepsMeet (step sampleSetup) (RowsKeyed sampleSetup) freshService
        [.executeOrder (sampleCall selfKeyedRequest .filled 50), .advance 1000000] ∧
      Always (step sampleSetup) (fun s => Refined samplePlatform s.records) freshService
        [.executeOrder (sampleCall selfKeyedRequest .filled 50), .advance 1000000] := by
  have hkeyed : StepsMeet (step sampleSetup) (RowsKeyed sampleSetup) freshService
      [.executeOrder (sampleCall selfKeyedRequest .filled 50), .advance 1000000] :=
    ⟨fun _ _ => .inl (by decide +kernel), trivial, trivial⟩
  exact ⟨hkeyed, transitions_on_record_along_run sampleSetup freshService _ freshService_fresh
    hkeyed⟩

/-- Under any other key the fill of an order leaves its row `PENDING` while the machine is already
`SUBMITTED`. -/
theorem transition_off_record :
    ¬ Always (step sampleSetup) (fun s => Refined samplePlatform s.records) freshService
      [.executeOrder (sampleCall sampleRequest .filled 50)] := by
  intro halways
  have hrefined := halways.final
  have hevent : ((run (step sampleSetup) freshService
      [.executeOrder (sampleCall sampleRequest .filled 50)]).records.transitions[2]?).map
      (fun event => (event.machine.state,
        (event.store.find? (rowKey samplePlatform event.machine)).map (·.state))) =
      some (.submitted, some .pending) := by
    decide +kernel
  obtain ⟨event, hget, hpair⟩ := Option.map_eq_some_iff.mp hevent
  rw [Prod.mk.injEq] at hpair
  obtain ⟨row, hrow, hstate⟩ := hrefined event (List.mem_of_getElem? hget)
  rw [hrow, Option.map_some, Option.some.injEq, hstate, hpair.1] at hpair
  exact absurd hpair.2 (by decide)

end AutoTrade.Execution.ExecutionService
