import AutoTrade.Execution.ResultLaws

/-! # What one call of the service does

The branches of `execute_order` are taken apart once: a call is blocked by the
operating mode, answered as a duplicate, or submitted; a submitted call is
stopped before its attempt or drives its machine. The machine, the records and
the placements after a submitted call follow from whether the order already had
a machine and from the outcome of the attempt.
-/

namespace AutoTrade.Execution.ExecutionService

open AutoTrade.Library AutoTrade.Wal ExecutionStateMachine ExecutionStateMachineManager

variable {setup : Setup} {call : OrderCall} {s : ExecutionService}

/-! ## The machine of a call -/

/-- The id under which the manager keeps the machine of a call. -/
def clientIdOf (setup : Setup) (call : OrderCall) (s : ExecutionService) : String :=
  generateClientOrderId (keyOf setup call s)

/-- The machine the order already has. -/
def priorMachine (setup : Setup) (call : OrderCall) (s : ExecutionService) :
    Option ExecutionStateMachine :=
  s.manager.getMachine (clientIdOf setup call s)

/-- The machine `create_or_get` makes for an order without one. -/
def newMachine (setup : Setup) (call : OrderCall) (s : ExecutionService) : ExecutionStateMachine :=
  { intentId := keyOf setup call s
    clientOrderId := clientIdOf setup call s
    symbol := call.request.symbol
    quantity := call.request.lotSize
    price := call.request.strikePrice
    direction := call.request.direction
    createdAt := formatTs s.clock
    updatedAt := formatTs s.clock
    persistenceCallback := s.manager.persistenceCallback }

theorem machineIntent_eq_key (setup : Setup) (call : OrderCall) (s : ExecutionService) :
    machineIntent setup call s = keyOf setup call s :=
  orElse_some (OrderRequest.key_ne_empty _ _ _) _

theorem createMachine_none (h : priorMachine setup call s = none) :
    createMachine setup call s = (newMachine setup call s, true,
      s.manager.put (clientIdOf setup call s) (newMachine setup call s)) := by
  unfold createMachine createOrGet
  rw [machineIntent_eq_key]
  have hget : s.manager.machines.get? (generateClientOrderId (keyOf setup call s)) = none := h
  simp only [hget]
  rfl

theorem createMachine_some {m : ExecutionStateMachine} (h : priorMachine setup call s = some m) :
    createMachine setup call s = (m, false, s.manager) := by
  unfold createMachine createOrGet
  rw [machineIntent_eq_key]
  have hget : s.manager.machines.get? (generateClientOrderId (keyOf setup call s)) = some m := h
  simp only [hget]

theorem proceeds_iff (setup : Setup) (call : OrderCall) (s : ExecutionService) :
    proceeds setup call s = true ↔ call.hardHalted = false ∧
      ∀ m, priorMachine setup call s = some m → m.isTerminal = true := by
  unfold proceeds
  cases h : priorMachine setup call s with
  | none => simp [createMachine_none h]
  | some m => simp [createMachine_some h]

/-- A call stopped before its attempt leaves the service alone and is rejected. -/
theorem executeWithRetries_stopped (h : proceeds setup call s = false) :
    ∃ result, executeWithRetries setup call s = (s, .ok result) ∧ result.status = .rejected := by
  unfold executeWithRetries
  cases hhalt : call.hardHalted with
  | true => exact ⟨_, rfl, rfl⟩
  | false =>
      cases hm : priorMachine setup call s with
      | none => simp [proceeds, hhalt, createMachine_none hm] at h
      | some m =>
          have hlive : m.isTerminal = false := by
            simpa [proceeds, hhalt, createMachine_some hm] using h
          simp only [createMachine_some hm, Bool.false_eq_true, if_false, hlive, not_false_eq_true,
            and_self, if_true]
          exact ⟨_, rfl, rfl⟩

/-- The placement log after an attempt. -/
def placementsAfter (setup : Setup) (call : OrderCall) (s : ExecutionService) : List Placement :=
  if (attemptOf setup call s).placed then
    s.placements ++ [⟨keyOf setup call s, s.clock, (attemptOf setup call s).answer⟩]
  else s.placements

theorem executeWithRetries_proceeds (h : proceeds setup call s = true) :
    executeWithRetries setup call s =
      ({ s with
          clock := s.clock + call.latency
          manager := (createMachine setup call s).2.2.put (clientIdOf setup call s)
            (driveMachine setup call s).machine
          records := (driveMachine setup call s).world
          placements := placementsAfter setup call s },
        (driveMachine setup call s).value) := by
  obtain ⟨hhalt, hterminal⟩ := (proceeds_iff setup call s).mp h
  have hgo : ¬ (¬ (createMachine setup call s).2.1 = true ∧
      ¬ (createMachine setup call s).1.isTerminal = true) := by
    cases hm : priorMachine setup call s with
    | none => simp [createMachine_none hm]
    | some m => simp [createMachine_some hm, hterminal m hm]
  unfold executeWithRetries
  dsimp only
  rw [hhalt, if_neg Bool.false_ne_true, if_neg hgo, machineIntent_eq_key]
  rfl

/-! ## The outcome of an attempt -/

theorem serviceHooks_silent (now : Time) : Silent (serviceHooks now) := fun _ _ => rfl

/-- A new machine once it is validated. -/
def validatedMachine (setup : Setup) (call : OrderCall) (s : ExecutionService) :
    ExecutionStateMachine :=
  { newMachine setup call s with state := .validated }

/-- The records after a new machine was validated. -/
def validatedRecords (setup : Setup) (call : OrderCall) (s : ExecutionService) : Records :=
  { s.records with
    transitions := ⟨validatedMachine setup call s, s.records.store⟩ :: s.records.transitions }

theorem driveMachine_none (h : priorMachine setup call s = none) :
    driveMachine setup call s = concludeAttempt (serviceHooks (s.clock + call.latency))
      (formatTs (s.clock + call.latency)) (s.clock + call.latency) call.request
      (attemptOf setup call s).outcome (validatedMachine setup call s)
      (validatedRecords setup call s) := by
  have hallow : (newMachine setup call s).Allows .validated := by
    simp [Allows, newMachine, validTransitions]
  unfold driveMachine
  rw [createMachine_none h, tryTransitionTo_unpersisted hallow (by decide)]
  rfl

theorem driveMachine_some {m : ExecutionStateMachine} (h : priorMachine setup call s = some m)
    (hm : m.isTerminal = true) :
    ∃ m', driveMachine setup call s =
        ⟨m', s.records, returnedFor (s.clock + call.latency) (attemptOf setup call s).outcome⟩ ∧
      m'.state = m.state ∧
      m'.filledQuantity = m.filledQuantity +
        bookedBy call.request (attemptOf setup call s).outcome := by
  have hterminal := (isTerminal_iff m).mp hm
  unfold driveMachine
  rw [createMachine_some h, tryTransitionTo_of_terminal hterminal]
  exact concludeAttempt_of_terminal hterminal _ _ _ _

/-- Driving leaves the machine the machine of its order. -/
theorem identity_driveMachine (setup : Setup) (call : OrderCall) (s : ExecutionService) :
    identity (driveMachine setup call s).machine = identity (createMachine setup call s).1 :=
  (identity_concludeAttempt _ _ _ _ _).trans (identity_tryTransitionTo _ _ _)

/-- The state of a new machine after its attempt. -/
def newState (outcome : Except PyExc OrderResult) : ExecutionState :=
  if leavesValidated outcome then .validated
  else match outcome with
    | .ok result => if result.status = .filled then .filled else .failed
    | .error _ => .failed

/-- A new machine's state, quantity and return value after the attempt. -/
theorem driveMachine_new (h : priorMachine setup call s = none) :
    (driveMachine setup call s).value =
        returnedFor (s.clock + call.latency) (attemptOf setup call s).outcome ∧
      (driveMachine setup call s).machine.state = newState (attemptOf setup call s).outcome ∧
      (driveMachine setup call s).machine.filledQuantity =
        bookedBy call.request (attemptOf setup call s).outcome := by
  have hsilent := serviceHooks_silent (s.clock + call.latency)
  have hzero : (validatedMachine setup call s).filledQuantity = 0 := rfl
  rw [driveMachine_none h]
  cases hleaves : leavesValidated (attemptOf setup call s).outcome with
  | true =>
      obtain ⟨m', hstep, hstate, hqty⟩ := concludeAttempt_validated
        (serviceHooks (s.clock + call.latency)) (formatTs (s.clock + call.latency))
        (m := validatedMachine setup call s) rfl (s.clock + call.latency)
        call.request hleaves (validatedRecords setup call s)
      rw [hstep]
      exact ⟨rfl, by simp [hstate, newState, hleaves], by simpa [hzero] using hqty⟩
  | false =>
      by_cases hfill : ∃ result, (attemptOf setup call s).outcome = .ok result ∧
          result.status = .filled
      · obtain ⟨result, hok, hstatus⟩ := hfill
        have hdone := concludeAttempt_filled (formatTs (s.clock + call.latency)) hsilent
          (m := validatedMachine setup call s) rfl le_rfl hstatus
          (s.clock + call.latency) (validatedRecords setup call s)
        rw [hok] at hleaves ⊢
        refine ⟨hdone.1, ?_, ?_⟩
        · rw [hdone.2.1]
          simp [newState, hleaves, hstatus]
        · rw [hdone.2.2.1, hzero, zero_add]
          simp [bookedBy, hstatus]
      · have hno : ∀ result, (attemptOf setup call s).outcome = .ok result →
            result.status ≠ .filled := fun result hok hst => hfill ⟨result, hok, hst⟩
        have hdone := concludeAttempt_failed (formatTs (s.clock + call.latency)) hsilent
          (m := validatedMachine setup call s) rfl (s.clock + call.latency)
          call.request hleaves hno (validatedRecords setup call s)
        refine ⟨hdone.1, ?_, ?_⟩
        · rw [hdone.2.2.1]
          cases hout : (attemptOf setup call s).outcome with
          | error e => simp [newState, ← hout, hleaves]
          | ok result => simp [newState, ← hout, hleaves, hno result hout]
        · rw [hdone.2.2.2.1, hzero]
          cases hout : (attemptOf setup call s).outcome with
          | error e => rfl
          | ok result =>
              rw [hout] at hleaves
              have hne := hno result hout
              cases hstatus : result.status <;> simp_all [bookedBy, leavesValidated]

theorem driveMachine_value (h : proceeds setup call s = true) :
    (driveMachine setup call s).value =
      returnedFor (s.clock + call.latency) (attemptOf setup call s).outcome := by
  obtain ⟨_, hterminal⟩ := (proceeds_iff setup call s).mp h
  cases hm : priorMachine setup call s with
  | none => exact (driveMachine_new hm).1
  | some m =>
      obtain ⟨m', hstep, _⟩ := driveMachine_some hm (hterminal m hm)
      rw [hstep]

/-! ## The branches of a call -/

/-- The service a submitted call makes its attempt from. -/
def prepared (setup : Setup) (call : OrderCall) (s : ExecutionService) : ExecutionService :=
  saveAndMark setup call (checkDuplicate setup call (openIntent setup call s))

/-- The call passes the operating-mode gate and the duplicate check. -/
def Submitted (setup : Setup) (call : OrderCall) (s : ExecutionService) : Prop :=
  blockedBy call = none ∧ isDuplicateCall setup call s = false

instance (setup : Setup) (call : OrderCall) (s : ExecutionService) :
    Decidable (Submitted setup call s) :=
  inferInstanceAs (Decidable (_ ∧ _))

theorem executeOrder_blocked {message : String} (h : blockedBy call = some message) :
    (executeOrder setup call s).1 = s := by
  simp [executeOrder, h]

theorem executeOrder_duplicate (hmode : blockedBy call = none)
    (hdup : isDuplicateCall setup call s = true) :
    executeOrder setup call s =
      ((answerDuplicate setup call (openIntent setup call s)).1,
        .ok (answerDuplicate setup call (openIntent setup call s)).2) := by
  have hopened : isDuplicateCall setup call (openIntent setup call s) = true := hdup
  simp [executeOrder, hmode, hopened]

/-- What holds before a blocked call, after a duplicate was answered and after a submitted call,
holds after every call. -/
theorem executeOrder_elim {P : ExecutionService → Prop} (blocked : P s)
    (duplicate : P (answerDuplicate setup call (openIntent setup call s)).1)
    (submitted : Submitted setup call s → P (executeOrder setup call s).1) :
    P (executeOrder setup call s).1 := by
  cases hmode : blockedBy call with
  | some message =>
      rw [executeOrder_blocked hmode]
      exact blocked
  | none =>
      cases hdup : isDuplicateCall setup call s with
      | true =>
          rw [executeOrder_duplicate hmode hdup]
          exact duplicate
      | false => exact submitted ⟨hmode, hdup⟩

@[simp] theorem prepared_clock : (prepared setup call s).clock = s.clock := by
  simp only [prepared, saveAndMark, checkDuplicate]
  split <;> rfl

@[simp] theorem prepared_manager : (prepared setup call s).manager = s.manager := by
  simp only [prepared, saveAndMark, checkDuplicate]
  split <;> rfl

@[simp] theorem prepared_placements : (prepared setup call s).placements = s.placements := by
  simp only [prepared, saveAndMark, checkDuplicate]
  split <;> rfl

theorem prepared_journal :
    (prepared setup call s).journal = (openIntent setup call s).journal := by
  simp only [prepared, saveAndMark, checkDuplicate]
  split <;> rfl

theorem prepared_records :
    (prepared setup call s).records = s.records.write (s.records.store.saveExecution
      (pendingRecord setup call s.executionCounter s.clock)) := by
  simp only [prepared, saveAndMark, checkDuplicate]
  split <;> rfl

/-- With duplicate prevention the expired entries are gone and the key is marked. -/
theorem prepared_idempotency (h : setup.enableDuplicatePrevention = true) :
    (prepared setup call s).idempotency =
      (s.idempotency.cleanup s.clock).markInFlight s.clock (keyOf setup call s) := by
  simp only [prepared, saveAndMark, checkDuplicate, h, if_true]
  rfl

/-- Only the clock enters the key of a call. -/
theorem keyOf_congr {t : ExecutionService} (h : t.clock = s.clock) :
    keyOf setup call t = keyOf setup call s := by
  unfold keyOf contextOf
  rw [h]

@[simp] theorem keyOf_prepared : keyOf setup call (prepared setup call s) = keyOf setup call s :=
  keyOf_congr prepared_clock

@[simp] theorem attemptOf_prepared :
    attemptOf setup call (prepared setup call s) = attemptOf setup call s := by
  simp [attemptOf, contextOf]

@[simp] theorem clientIdOf_prepared :
    clientIdOf setup call (prepared setup call s) = clientIdOf setup call s := by
  simp [clientIdOf]

@[simp] theorem priorMachine_prepared :
    priorMachine setup call (prepared setup call s) = priorMachine setup call s := by
  simp [priorMachine]

@[simp] theorem proceeds_prepared :
    proceeds setup call (prepared setup call s) = proceeds setup call s := by
  rw [Bool.eq_iff_iff, proceeds_iff, proceeds_iff, priorMachine_prepared]

theorem executeOrder_submitted (h : Submitted setup call s) :
    executeOrder setup call s = settle setup call (keyOf setup call s)
      (executeWithRetries setup call (prepared setup call s)) := by
  have hopened : isDuplicateCall setup call (openIntent setup call s) = false := h.2
  have hkey : keyOf setup call (checkDuplicate setup call (openIntent setup call s)) =
      keyOf setup call s := keyOf_prepared
  simp only [executeOrder, h.1, hopened, Bool.false_eq_true, if_false, submit, hkey]
  rfl

/-! ## Settling -/

theorem returnedFor_error {now : Time} {outcome : Except PyExc OrderResult} {e : PyExc}
    (h : returnedFor now outcome = .error e) : e.caughtBy handledErrors = false := by
  cases outcome with
  | ok result => cases h
  | error e' =>
      simp only [returnedFor] at h
      split at h
      · cases h
      · rename_i hno
        cases h
        simpa using hno

/-- What a submitted call returns: a rejection when it is stopped, else what its attempt gave. -/
theorem executeWithRetries_value (setup : Setup) (call : OrderCall) (s : ExecutionService) :
    (proceeds setup call s = true ∧ (executeWithRetries setup call s).2 =
      returnedFor (s.clock + call.latency) (attemptOf setup call s).outcome) ∨
    (proceeds setup call s = false ∧ ∃ result, executeWithRetries setup call s = (s, .ok result) ∧
      result.status = .rejected) := by
  cases h : proceeds setup call s with
  | true =>
      refine .inl ⟨rfl, ?_⟩
      rw [executeWithRetries_proceeds h]
      exact driveMachine_value h
  | false => exact .inr ⟨rfl, executeWithRetries_stopped h⟩

/-- The attempt touches neither the journal nor the idempotency manager. -/
theorem executeWithRetries_frame (setup : Setup) (call : OrderCall) (s : ExecutionService) :
    (executeWithRetries setup call s).1.journal = s.journal ∧
      (executeWithRetries setup call s).1.idempotency = s.idempotency := by
  cases h : proceeds setup call s with
  | true =>
      rw [executeWithRetries_proceeds h]
      exact ⟨rfl, rfl⟩
  | false =>
      obtain ⟨result, hstop, _⟩ := executeWithRetries_stopped h
      rw [hstop]
      exact ⟨rfl, rfl⟩

/-- A submitted call either settles a result or passes on an exception it does not handle. -/
theorem executeOrder_cases (h : Submitted setup call s) :
    (∃ result, (executeWithRetries setup call (prepared setup call s)).2 = .ok result ∧
      executeOrder setup call s =
        (if isFill result then
            settleFill setup call (keyOf setup call s) result
              (executeWithRetries setup call (prepared setup call s)).1
          else settleFailure setup call result
              (executeWithRetries setup call (prepared setup call s)).1, .ok result)) ∨
    (∃ e, executeOrder setup call s =
      ((executeWithRetries setup call (prepared setup call s)).1, .error e)) := by
  rw [executeOrder_submitted h]
  cases hv : (executeWithRetries setup call (prepared setup call s)).2 with
  | ok result =>
      refine .inl ⟨result, rfl, ?_⟩
      rw [settle, hv]
  | error e =>
      refine .inr ⟨e, ?_⟩
      have huncaught : e.caughtBy handledErrors = false := by
        rcases executeWithRetries_value setup call (prepared setup call s) with
          ⟨_, hval⟩ | ⟨_, result, hstop, _⟩
        · exact returnedFor_error (hval.symm.trans hv)
        · rw [hstop] at hv
          cases hv
      simp [settle, hv, settleRaised, huncaught]

/-- A result that counts as a fill comes from the attempt. -/
theorem outcome_of_fill {result : OrderResult}
    (h : (executeWithRetries setup call (prepared setup call s)).2 = .ok result)
    (hfill : isFill result = true) :
    proceeds setup call s = true ∧ (attemptOf setup call s).outcome = .ok result := by
  have hne : result.status ≠ .rejected := by
    intro hrejected
    simp [isFill, hrejected] at hfill
  rcases executeWithRetries_value setup call (prepared setup call s) with
    ⟨hgo, hval⟩ | ⟨_, r, hstop, hrejected⟩
  · rw [proceeds_prepared] at hgo
    refine ⟨hgo, ?_⟩
    rw [hval, attemptOf_prepared] at h
    cases hout : (attemptOf setup call s).outcome with
    | ok r =>
        rw [hout] at h
        exact h
    | error e =>
        rw [hout] at h
        simp only [returnedFor] at h
        split at h
        · cases h
          exact (hne rfl).elim
        · cases h
  · rw [hstop] at h
    cases h
    exact (hne hrejected).elim

/-- The result of an attempt that filled is what the call settles. -/
theorem fill_of_outcome {result : OrderResult} (hgo : proceeds setup call s = true)
    (hok : (attemptOf setup call s).outcome = .ok result) :
    (executeWithRetries setup call (prepared setup call s)).2 = .ok result := by
  rcases executeWithRetries_value setup call (prepared setup call s) with ⟨_, hval⟩ | ⟨hstop, _⟩
  · rw [hval, attemptOf_prepared, hok]
    rfl
  · rw [proceeds_prepared, hgo] at hstop
    cases hstop

theorem executeOrder_value_of_outcome {result : OrderResult} (h : Submitted setup call s)
    (hgo : proceeds setup call s = true) (hok : (attemptOf setup call s).outcome = .ok result) :
    (executeOrder setup call s).2 = .ok result := by
  rw [executeOrder_submitted h, settle, fill_of_outcome hgo hok]

/-- A submitted call found its key neither confirmed nor in flight. -/
theorem not_duplicate (hprevent : setup.enableDuplicatePrevention = true)
    (h : Submitted setup call s) :
    (s.idempotency.cleanup s.clock).cache.get? (keyOf setup call s) = none ∧
      (s.idempotency.cleanup s.clock).inFlight.get? (keyOf setup call s) = none := by
  rw [← IdempotencyManager.isDuplicate_eq_false_iff]
  simpa [isDuplicateCall, hprevent] using h.2

/-- The mark of a submitted call is turned into a confirmation by a fill and left alone otherwise. -/
theorem executeOrder_idempotency (hprevent : setup.enableDuplicatePrevention = true)
    (h : Submitted setup call s) :
    (∃ result, proceeds setup call s = true ∧ (attemptOf setup call s).outcome = .ok result ∧
      isFill result = true ∧ (executeOrder setup call s).1.idempotency =
        ((s.idempotency.cleanup s.clock).markInFlight s.clock
          (keyOf setup call s)).confirmExecution (s.clock + call.latency) (keyOf setup call s)
          result) ∨
    (¬ (proceeds setup call s = true ∧ ∃ result, (attemptOf setup call s).outcome = .ok result ∧
        isFill result = true) ∧
      (executeOrder setup call s).1.idempotency =
        (s.idempotency.cleanup s.clock).markInFlight s.clock (keyOf setup call s)) := by
  obtain ⟨_, hidem⟩ := executeWithRetries_frame setup call (prepared setup call s)
  rw [prepared_idempotency hprevent] at hidem
  by_cases hfill : proceeds setup call s = true ∧
      ∃ result, (attemptOf setup call s).outcome = .ok result ∧ isFill result = true
  · obtain ⟨hgo, result, hout, hisFill⟩ := hfill
    have hclock : (executeWithRetries setup call (prepared setup call s)).1.clock =
        s.clock + call.latency := by
      rw [executeWithRetries_proceeds (by rw [proceeds_prepared, hgo])]
      simp
    refine .inl ⟨result, hgo, hout, hisFill, ?_⟩
    rw [executeOrder_submitted h, settle, fill_of_outcome hgo hout]
    simp only [hisFill, if_true]
    rw [← hidem, ← hclock]
    rfl
  · refine .inr ⟨hfill, ?_⟩
    rw [← hidem]
    rcases executeOrder_cases h with ⟨result, hval, hexec⟩ | ⟨e, hexec⟩
    · have hno : isFill result = false := by
        by_contra hyes
        rw [Bool.not_eq_false] at hyes
        obtain ⟨hgo, hout⟩ := outcome_of_fill hval hyes
        exact hfill ⟨hgo, result, hout, hyes⟩
      rw [hexec, hno]
      rfl
    · rw [hexec]

theorem answerDuplicate_idempotency :
    (answerDuplicate setup call (openIntent setup call s)).1.idempotency =
      s.idempotency.cleanup s.clock :=
  IdempotencyManager.cleanup_cleanup s.idempotency s.clock

/-- Nothing but the journal, the idempotency manager and the records changes while settling. -/
theorem settle_frame (setup : Setup) (call : OrderCall) (key : String)
    (out : ExecutionService × Except PyExc OrderResult) :
    (settle setup call key out).1.clock = out.1.clock ∧
      (settle setup call key out).1.manager = out.1.manager ∧
      (settle setup call key out).1.placements = out.1.placements ∧
      (settle setup call key out).1.records.transitions = out.1.records.transitions := by
  unfold settle
  split
  · split <;> exact ⟨rfl, rfl, rfl, rfl⟩
  · unfold settleRaised
    split <;> exact ⟨rfl, rfl, rfl, rfl⟩

/-- The call gets as far as its attempt. -/
def Attempted (setup : Setup) (call : OrderCall) (s : ExecutionService) : Prop :=
  Submitted setup call s ∧ proceeds setup call s = true

instance (setup : Setup) (call : OrderCall) (s : ExecutionService) :
    Decidable (Attempted setup call s) :=
  inferInstanceAs (Decidable (_ ∧ _))

/-- The components of the service a call without an attempt leaves alone. -/
theorem executeOrder_not_attempted (h : ¬ Attempted setup call s) :
    (executeOrder setup call s).1.manager = s.manager ∧
      (executeOrder setup call s).1.placements = s.placements ∧
      (executeOrder setup call s).1.clock = s.clock ∧
      (executeOrder setup call s).1.records.transitions = s.records.transitions := by
  refine executeOrder_elim (P := fun t => t.manager = s.manager ∧ t.placements = s.placements ∧
    t.clock = s.clock ∧ t.records.transitions = s.records.transitions)
    ⟨rfl, rfl, rfl, rfl⟩ ⟨rfl, rfl, rfl, rfl⟩ fun hsub => ?_
  have hstopped : proceeds setup call (prepared setup call s) = false := by
    rw [proceeds_prepared, Bool.eq_false_iff]
    exact fun hgo => h ⟨hsub, hgo⟩
  obtain ⟨_, hstop, _⟩ := executeWithRetries_stopped hstopped
  obtain ⟨hclock, hmanager, hplacements, htransitions⟩ := settle_frame setup call
    (keyOf setup call s) (executeWithRetries setup call (prepared setup call s))
  rw [executeOrder_submitted hsub, hclock, hmanager, hplacements, htransitions, hstop,
    prepared_records]
  exact ⟨prepared_manager, prepared_placements, prepared_clock, rfl⟩

/-- The same components after an attempt. -/
theorem executeOrder_attempted (h : Attempted setup call s) :
    (executeOrder setup call s).1.manager =
        (createMachine setup call (prepared setup call s)).2.2.put (clientIdOf setup call s)
          (driveMachine setup call (prepared setup call s)).machine ∧
      (executeOrder setup call s).1.placements = placementsAfter setup call s ∧
      (executeOrder setup call s).1.clock = s.clock + call.latency ∧
      (executeOrder setup call s).1.records.transitions =
        (driveMachine setup call (prepared setup call s)).world.transitions := by
  have hgo : proceeds setup call (prepared setup call s) = true := by
    rw [proceeds_prepared]
    exact h.2
  obtain ⟨hclock, hmanager, hplacements, htransitions⟩ := settle_frame setup call
    (keyOf setup call s) (executeWithRetries setup call (prepared setup call s))
  rw [executeOrder_submitted h.1, hclock, hmanager, hplacements, htransitions,
    executeWithRetries_proceeds hgo]
  simp [placementsAfter]

theorem clock_le_executeOrder (h : Attempted setup call s) :
    s.clock ≤ (executeOrder setup call s).1.clock := by
  rw [(executeOrder_attempted h).2.2.1]
  simp

/-- After an attempt the machine of the order is the driven one, and every other as before. -/
theorem getMachine_executeOrder (h : Attempted setup call s) (id : String) :
    (executeOrder setup call s).1.manager.getMachine id =
      if id = clientIdOf setup call s then
        some (driveMachine setup call (prepared setup call s)).machine
      else s.manager.getMachine id := by
  rw [(executeOrder_attempted h).1]
  by_cases hid : id = clientIdOf setup call s
  · rw [if_pos hid, hid, getMachine_put]
  · rw [if_neg hid, getMachine_put_of_ne _ _ hid]
    cases hm : priorMachine setup call (prepared setup call s) with
    | none =>
        rw [createMachine_none hm, clientIdOf_prepared, getMachine_put_of_ne _ _ hid,
          prepared_manager]
    | some m => rw [createMachine_some hm, prepared_manager]

theorem persistenceCallback_executeOrder :
    (executeOrder setup call s).1.manager.persistenceCallback =
      s.manager.persistenceCallback := by
  by_cases h : Attempted setup call s
  · rw [(executeOrder_attempted h).1]
    cases hm : priorMachine setup call (prepared setup call s) with
    | none =>
        rw [createMachine_none hm, prepared_manager]
        rfl
    | some m =>
        rw [createMachine_some hm, prepared_manager]
        rfl
  · rw [(executeOrder_not_attempted h).1]

/-! ## The durable store -/

/-- A persisted transition updates the row of its machine's intent. -/
theorem store_tryTransitionTo_persisted (now ts : Time) {new : ExecutionState}
    {m : ExecutionStateMachine} (hallow : m.Allows new)
    (hpersist : m.persistenceCallback = true ∧ new ∈ persistedStates) (records : Records) :
    (tryTransitionTo (serviceHooks now) ts new m records).world.store =
      records.store.updateState now m.intentId (durableState new) m.brokerOrderId
        m.filledQuantity m.averagePrice m.errorMessage := by
  rw [tryTransitionTo_success hallow (by rw [persistOutcome, if_pos hpersist]; rfl)]
  rfl

/-- A transition attempt either leaves the store alone or updates the row of its machine. -/
theorem store_tryTransitionTo (now ts : Time) (new : ExecutionState) (m : ExecutionStateMachine)
    (records : Records) :
    (tryTransitionTo (serviceHooks now) ts new m records).world.store = records.store ∨
      (tryTransitionTo (serviceHooks now) ts new m records).world.store =
        records.store.updateState now m.intentId (durableState new) m.brokerOrderId
          m.filledQuantity m.averagePrice m.errorMessage := by
  by_cases hallow : m.Allows new
  · by_cases hpersist : m.persistenceCallback = true ∧ new ∈ persistedStates
    · exact .inr (store_tryTransitionTo_persisted now ts hallow hpersist records)
    · refine .inl ?_
      rw [tryTransitionTo_success hallow (by rw [persistOutcome, if_neg hpersist])]
      rfl
  · refine .inl ?_
    rw [tryTransitionTo_refused hallow]

/-- What updates of the order's own row keep true of the store, its transitions keep. -/
theorem keeps_store {now ts : Time} {who : String × String × String × Int × ℚ × String × Bool}
    {P : DurableExecutionStore → Prop}
    (hupdate : ∀ store state id filled average reason, P store →
      P (store.updateState now who.1 state id filled average reason)) :
    Keeps (serviceHooks now) ts who fun records : Records => P records.store := by
  intro new m records hwho hP
  rcases store_tryTransitionTo now ts new m records with hsame | hmoved
  · rw [hsame]
    exact hP
  · have hid : m.intentId = who.1 := congrArg Prod.fst hwho
    rw [hmoved, hid]
    exact hupdate _ _ _ _ _ _ hP

theorem driveMachine_store {P : DurableExecutionStore → Prop} (hgo : proceeds setup call s = true)
    (hstart : P s.records.store)
    (hupdate : ∀ store state id filled average reason, P store →
      P (store.updateState (s.clock + call.latency) (keyOf setup call s) state id filled average
        reason)) :
    P (driveMachine setup call s).world.store := by
  obtain ⟨_, hterminal⟩ := (proceeds_iff setup call s).mp hgo
  cases hm : priorMachine setup call s with
  | none =>
      rw [driveMachine_none hm]
      have hkeeps : Keeps (serviceHooks (s.clock + call.latency))
          (formatTs (s.clock + call.latency)) (identity (validatedMachine setup call s))
          fun records => P records.store := keeps_store hupdate
      exact (hkeeps.concludeAttempt _ _ _ rfl (s := validatedRecords setup call s) hstart).2
  | some m =>
      obtain ⟨m', hstep, _⟩ := driveMachine_some hm (hterminal m hm)
      rw [hstep]
      exact hstart

/-- An order that had a machine, or whose outcome a new machine cannot follow, writes no row while
its machine is driven. -/
theorem driveMachine_store_still (hgo : proceeds setup call s = true)
    (hstill : priorMachine setup call s ≠ none ∨
      leavesValidated (attemptOf setup call s).outcome = true) :
    (driveMachine setup call s).world.store = s.records.store := by
  obtain ⟨_, hterminal⟩ := (proceeds_iff setup call s).mp hgo
  cases hm : priorMachine setup call s with
  | none =>
      have hleaves := hstill.resolve_left (not_not.mpr hm)
      obtain ⟨m', hstep, _⟩ := concludeAttempt_validated
        (serviceHooks (s.clock + call.latency)) (formatTs (s.clock + call.latency))
        (m := validatedMachine setup call s) rfl (s.clock + call.latency) call.request hleaves
        (validatedRecords setup call s)
      rw [driveMachine_none hm, hstep]
      rfl
  | some m =>
      obtain ⟨m', hstep, _⟩ := driveMachine_some hm (hterminal m hm)
      rw [hstep]

theorem clock_le_executeWithRetries (setup : Setup) (call : OrderCall) (s : ExecutionService) :
    s.clock ≤ (executeWithRetries setup call s).1.clock := by
  cases hgo : proceeds setup call s with
  | true =>
      rw [executeWithRetries_proceeds hgo]
      simp
  | false =>
      obtain ⟨_, hstop, _⟩ := executeWithRetries_stopped hgo
      rw [hstop]

/-- Settling writes the row of the call's intent. -/
theorem settled_store {P : DurableExecutionStore → Prop} (h : Submitted setup call s)
    (hdriven : P (executeWithRetries setup call (prepared setup call s)).1.records.store)
    (hupdate : ∀ store now state id filled average reason, s.clock ≤ now → P store →
      P (store.updateState now (intentOf setup call) state id filled average reason)) :
    P (executeOrder setup call s).1.records.store := by
  have hclock := clock_le_executeWithRetries setup call (prepared setup call s)
  rw [prepared_clock] at hclock
  rcases executeOrder_cases h with ⟨result, _, hexec⟩ | ⟨e, hexec⟩
  · rw [hexec]
    dsimp only
    split <;> exact hupdate _ _ _ _ _ _ _ hclock hdriven
  · rw [hexec]
    exact hdriven

/-- What the updates of its key's and its intent's rows keep, a submitted call keeps from the
moment its row is saved. -/
theorem executeOrder_store {P : DurableExecutionStore → Prop} (h : Submitted setup call s)
    (hsaved : P (s.records.store.saveExecution
      (pendingRecord setup call s.executionCounter s.clock)))
    (hupdate : ∀ store now intent state id filled average reason,
      intent = keyOf setup call s ∨ intent = intentOf setup call → s.clock ≤ now → P store →
      P (store.updateState now intent state id filled average reason)) :
    P (executeOrder setup call s).1.records.store := by
  have hprepared : P (prepared setup call s).records.store := by
    rw [prepared_records]
    exact hsaved
  refine settled_store h ?_ fun store now state id filled average reason =>
    hupdate store now _ state id filled average reason (.inr rfl)
  cases hgo : proceeds setup call (prepared setup call s) with
  | true =>
      rw [executeWithRetries_proceeds hgo]
      refine driveMachine_store hgo hprepared ?_
      intro store state id filled average reason hP
      exact hupdate _ _ _ _ _ _ _ _ (.inl (by simp)) (by simp) hP
  | false =>
      obtain ⟨_, hstop, _⟩ := executeWithRetries_stopped hgo
      rw [hstop]
      exact hprepared

end AutoTrade.Execution.ExecutionService
