import AutoTrade.Execution.ServiceLaws

/-! # Whose records a call writes

The journal and the durable store file an order under a text made of its
symbol, direction, strike and lot, the machine under its key. A call therefore
touches the records of another order as soon as these texts meet: the duplicate
of an order rewrites its journal row, and a new order on the same contract
replaces both rows.
-/

namespace AutoTrade.Execution.ExecutionService

open AutoTrade.Library AutoTrade.Wal ExecutionStateMachine ExecutionStateMachineManager

variable {setup : Setup} {call : OrderCall} {s : ExecutionService}

/-- The journal row of an intent, where there is a journal. -/
def intentRow (s : ExecutionService) (intentId : String) : Option (IntentRow OrderParams) :=
  s.journal.bind fun journal => journal.getIntent intentId

/-! ## Duplicates -/

theorem step_marksDisjoint (hprevent : setup.enableDuplicatePrevention = true) (op : ServiceStep)
    (h : s.idempotency.MarksDisjoint) : (step setup s op).idempotency.MarksDisjoint := by
  cases op with
  | executeOrder call =>
      refine executeOrder_elim (P := fun t => t.idempotency.MarksDisjoint) h ?_ fun hsub => ?_
      · rw [answerDuplicate_idempotency]
        exact h.cleanup s.clock
      · have hnew := (not_duplicate hprevent hsub).1
        have hmarked := (h.cleanup s.clock).markInFlight s.clock hnew
        rcases executeOrder_idempotency hprevent hsub with ⟨result, _, _, _, hidem⟩ | ⟨_, hidem⟩
        · rw [hidem]
          exact hmarked.confirmExecution _ hnew result
        · rw [hidem]
          exact hmarked
  | runAckWatchdog answers maxAge => exact h
  | runStaleOrderTimeout answers maxStale => exact h
  | recordBrokerQueryResult query => exact h
  | advance elapsed => exact h

theorem Fresh.marksDisjoint (h : s.Fresh) : s.idempotency.MarksDisjoint := by
  intro k
  rw [h.inFlight]
  exact .inr rfl

theorem run_marksDisjoint (hprevent : setup.enableDuplicatePrevention = true) (h : s.Fresh)
    (ops : List ServiceStep) : (run (step setup) s ops).idempotency.MarksDisjoint :=
  run_invariant (I := fun s : ExecutionService => s.idempotency.MarksDisjoint)
    (fun _ op => step_marksDisjoint hprevent op) h.marksDisjoint ops

/-- The records of the order filed under `intentId` and `key` are the same in both states. -/
structure Untouched (intentId key : String) (s t : ExecutionService) : Prop where
  intent : intentRow t intentId = intentRow s intentId
  row : t.records.store.find? intentId = s.records.store.find? intentId
  cached : t.idempotency.cache.get? key = s.idempotency.cache.get? key
  machine : t.manager.getMachine (generateClientOrderId key) =
    s.manager.getMachine (generateClientOrderId key)

/-- Opening and failing an intent rewrites its own row and no other. -/
theorem intentRow_reopened (setup : Setup) (call : OrderCall) (s : ExecutionService)
    (reason : String) (t : ExecutionService) (ht : t.journal = (openIntent setup call s).journal)
    (intentId : String) :
    intentRow (failIntent setup call reason t) intentId = intentRow s intentId ↔
      s.journal = none ∨ intentOf setup call ≠ intentId := by
  cases hj : s.journal with
  | none => simp [intentRow, failIntent, ht, openIntent, hj]
  | some journal =>
      simp only [intentRow, failIntent, ht, openIntent, hj, Option.map_some, Option.bind_some,
        WriteAheadJournal.getIntent_fail, WriteAheadJournal.getIntent_append, reduceCtorEq,
        false_or]
      by_cases hid : intentId = intentOf setup call
      · subst hid
        simp only [if_true, Option.map_some, ne_eq, not_true_eq_false, iff_false]
        exact fun heq => journal.getIntent_ne_of_uuid _ rfl heq.symm
      · simp [hid, Ne.symm hid]

/-- In every reachable state a duplicate leaves the records of the original alone exactly when there
is no journal or the two requests are filed under different intents. -/
theorem duplicate_untouched_iff (setup : Setup) (start : ExecutionService) (ops : List ServiceStep)
    (call : OrderCall) (original : OrderRequest) (hfresh : start.Fresh)
    (hmode : blockedBy call = none)
    (hdup : isDuplicateCall setup call (run (step setup) start ops) = true) :
    Untouched (original.intentId setup.platform)
        (keyOf setup call (run (step setup) start ops)) (run (step setup) start ops)
        (executeOrder setup call (run (step setup) start ops)).1 ↔
      (run (step setup) start ops).journal = none ∨
        intentOf setup call ≠ original.intentId setup.platform := by
  have hprevent : setup.enableDuplicatePrevention = true := by
    simp only [isDuplicateCall, Bool.and_eq_true] at hdup
    exact hdup.1
  have hdisjoint := run_marksDisjoint hprevent hfresh ops
  revert hdup hdisjoint
  generalize run (step setup) start ops = s
  intro hdup hdisjoint
  have hfound : (s.idempotency.isDuplicate s.clock (keyOf setup call s)).1 = true := by
    simpa [isDuplicateCall, hprevent] using hdup
  rw [executeOrder_duplicate hmode hdup]
  constructor
  · intro h
    exact (intentRow_reopened _ _ _ "Duplicate order detected" _ rfl _).mp h.intent
  · intro h
    refine ⟨(intentRow_reopened _ _ _ "Duplicate order detected" _ rfl _).mpr h, rfl, ?_, rfl⟩
    rw [answerDuplicate_idempotency, IdempotencyManager.cache_get?_cleanup]
    rcases (IdempotencyManager.isDuplicate_eq_true_iff _ _ _).mp hfound with hcached | hflight
    · rw [IdempotencyManager.cache_get?_cleanup] at hcached
      cases hentry : s.idempotency.cache.get? (keyOf setup call s) with
      | none => rfl
      | some entry =>
          rw [hentry, Option.filter_some] at hcached
          rw [Option.filter_some]
          split at hcached
          · rename_i hlive
            rw [if_pos hlive]
          · exact (hcached rfl).elim
    · rcases hdisjoint (keyOf setup call s) with hnone | hnone
      · rw [hnone]
        rfl
      · rw [IdempotencyManager.inFlight_get?_cleanup, hnone] at hflight
        exact (hflight rfl).elim

/-- The order of `sampleRequest` on a different strike, under the same key. -/
def otherStrike : OrderRequest := { sampleRequest with strikePrice := 22600 }

/-- A duplicate that names another strike leaves the original alone. -/
theorem duplicate_of_other_strike_untouched :
    isDuplicateCall sampleSetup (sampleCall otherStrike .filled 50)
        (run (step sampleSetup) freshService
          [.executeOrder (sampleCall sampleRequest .filled 50)]) = true ∧
      Untouched "NIFTY_BUY_22500.0_50" "signal-1"
        (run (step sampleSetup) freshService [.executeOrder (sampleCall sampleRequest .filled 50)])
        (executeOrder sampleSetup (sampleCall otherStrike .filled 50)
          (run (step sampleSetup) freshService
            [.executeOrder (sampleCall sampleRequest .filled 50)])).1 := by
  have hdup : isDuplicateCall sampleSetup (sampleCall otherStrike .filled 50)
      (run (step sampleSetup) freshService
        [.executeOrder (sampleCall sampleRequest .filled 50)]) = true := by
    decide +kernel
  exact ⟨hdup, (duplicate_untouched_iff sampleSetup freshService
    [.executeOrder (sampleCall sampleRequest .filled 50)] (sampleCall otherStrike .filled 50)
    sampleRequest freshService_fresh rfl hdup).mpr (.inr (by decide +kernel))⟩

/-- Repeating a filled order turns its committed journal row into a failed one. -/
theorem duplicate_fails_committed_intent :
    isDuplicateCall sampleSetup (sampleCall sampleRequest .filled 50)
        (run (step sampleSetup) freshService
          [.executeOrder (sampleCall sampleRequest .filled 50)]) = true ∧
      ¬ Untouched "NIFTY_BUY_22500.0_50" "signal-1"
        (run (step sampleSetup) freshService [.executeOrder (sampleCall sampleRequest .filled 50)])
        (executeOrder sampleSetup (sampleCall sampleRequest .filled 50)
          (run (step sampleSetup) freshService
            [.executeOrder (sampleCall sampleRequest .filled 50)])).1 := by
  refine ⟨by decide +kernel, fun h => ?_⟩
  have hbefore : (intentRow (run (step sampleSetup) freshService
      [.executeOrder (sampleCall sampleRequest .filled 50)]) "NIFTY_BUY_22500.0_50").map
      (·.status) = some .committed := by
    decide +kernel
  have hafter : (intentRow (executeOrder sampleSetup (sampleCall sampleRequest .filled 50)
      (run (step sampleSetup) freshService
        [.executeOrder (sampleCall sampleRequest .filled 50)])).1 "NIFTY_BUY_22500.0_50").map
      (·.status) = some .failed := by
    decide +kernel
  rw [h.intent, hbefore] at hafter
  cases hafter

/-! ## Two orders -/

/-- The durable row and the journalled intent under `intentId` are the same in both states. -/
def RecordsKept (intentId : String) (s t : ExecutionService) : Prop :=
  intentRow t intentId = intentRow s intentId ∧
    t.records.store.find? intentId = s.records.store.find? intentId

/-- The call's machine writes to the row filed under `intentId`: the key spells that id, there is
such a row, and a new machine is driven beyond `VALIDATED`. -/
def MachineWrites (setup : Setup) (call : OrderCall) (s : ExecutionService) (intentId : String) :
    Prop :=
  keyOf setup call s = intentId ∧ s.records.store.find? intentId ≠ none ∧
    proceeds setup call s = true ∧ priorMachine setup call s = none ∧
    leavesValidated (attemptOf setup call s).outcome = false

/-- The call is filed apart from the records under `intentId`. -/
def FiledApart (setup : Setup) (call : OrderCall) (s : ExecutionService) (intentId : String) :
    Prop :=
  blockedBy call = none →
    if isDuplicateCall setup call s then s.journal = none ∨ intentOf setup call ≠ intentId
    else intentOf setup call ≠ intentId ∧ ¬ MachineWrites setup call s intentId

/-- A submitted call writes the journal row of its own intent only. -/
theorem intentRow_executeOrder_of_ne (h : Submitted setup call s) {intentId : String}
    (hid : intentOf setup call ≠ intentId) :
    intentRow (executeOrder setup call s).1 intentId = intentRow s intentId := by
  obtain ⟨hjournal, _⟩ := executeWithRetries_frame setup call (prepared setup call s)
  rw [prepared_journal] at hjournal
  have hne : ¬ intentId = intentOf setup call := fun heq => hid heq.symm
  have hopened : intentRow (executeWithRetries setup call (prepared setup call s)).1 intentId =
      intentRow s intentId := by
    unfold intentRow
    rw [hjournal]
    cases hj : s.journal with
    | none => simp [openIntent, hj]
    | some journal => simp [openIntent, hj, WriteAheadJournal.getIntent_append, hne]
  rcases executeOrder_cases h with ⟨result, _, hexec⟩ | ⟨e, hexec⟩
  · rw [hexec, ← hopened]
    dsimp only
    split
    · cases hj : (executeWithRetries setup call (prepared setup call s)).1.journal <;>
        simp [intentRow, settleFill, commitIntent, hj, WriteAheadJournal.getIntent_commit, hne]
    · cases hj : (executeWithRetries setup call (prepared setup call s)).1.journal <;>
        simp [intentRow, settleFailure, failIntent, hj, WriteAheadJournal.getIntent_fail, hne]
  · rw [hexec, hopened]

/-- A submitted call keeps the row of another intent unless its machine writes to it. -/
theorem find?_executeOrder_of_apart (h : Submitted setup call s) {intentId : String}
    (hid : intentOf setup call ≠ intentId) (hquiet : ¬ MachineWrites setup call s intentId) :
    (executeOrder setup call s).1.records.store.find? intentId =
      s.records.store.find? intentId := by
  have hsaved : (s.records.store.saveExecution
      (pendingRecord setup call s.executionCounter s.clock)).find? intentId =
      s.records.store.find? intentId := by
    rw [DurableExecutionStore.find?_saveExecution]
    exact if_neg fun heq => hid heq.symm
  by_cases hkey : keyOf setup call s = intentId
  · by_cases hrow : s.records.store.find? intentId = none
    · rw [hrow] at hsaved ⊢
      refine executeOrder_store (P := fun store => store.find? intentId = none) h hsaved ?_
      intro store now intent state id filled average reason _ _ hnone
      rw [DurableExecutionStore.find?_updateState, hnone]
      simp
    · have hstill : (executeWithRetries setup call (prepared setup call s)).1.records.store =
          (prepared setup call s).records.store := by
        cases hgo : proceeds setup call (prepared setup call s) with
        | true =>
            rw [executeWithRetries_proceeds hgo]
            refine driveMachine_store_still hgo ?_
            rw [proceeds_prepared] at hgo
            rw [priorMachine_prepared, attemptOf_prepared]
            by_contra hwrites
            rw [not_or, not_not, Bool.not_eq_true] at hwrites
            exact hquiet ⟨hkey, hrow, hgo, hwrites.1, hwrites.2⟩
        | false =>
            obtain ⟨_, hstop, _⟩ := executeWithRetries_stopped hgo
            rw [hstop]
      refine settled_store
        (P := fun store => store.find? intentId = s.records.store.find? intentId) h ?_ ?_
      · rw [hstill, prepared_records]
        exact hsaved
      · intro store now state id filled average reason _ hP
        rw [DurableExecutionStore.find?_updateState_of_ne _ _ _ _ _ _ hid, hP]
  · refine executeOrder_store
      (P := fun store => store.find? intentId = s.records.store.find? intentId) h hsaved ?_
    intro store now intent state id filled average reason hintent _ hP
    have hne : intent ≠ intentId := by
      rcases hintent with rfl | rfl
      · exact hkey
      · exact hid
    rw [DurableExecutionStore.find?_updateState_of_ne _ _ _ _ _ _ hne, hP]

/-- The row was written at the time of the call or later. -/
def RowTouched (intentId : String) (since : Time) (store : DurableExecutionStore) : Prop :=
  ∃ row, store.find? intentId = some row ∧ since ≤ row.updatedAt

theorem rowTouched_updateState {store : DurableExecutionStore} {intentId : String}
    {row : DurableExecutionRecord} (hrow : store.find? intentId = some row) {since now : Time}
    (hnow : since ≤ now) (state : DurableExecState) (id : Option String) (filled : Int)
    (average : ℚ) (reason : Option String) :
    RowTouched intentId since (store.updateState now intentId state id filled average reason) := by
  exact ⟨_, DurableExecutionStore.find?_updateState_self _ _ _ _ _ _ hrow, hnow⟩

theorem RowTouched.updateState {intentId : String} {since : Time} {store : DurableExecutionStore}
    (h : RowTouched intentId since store) {now : Time} (hnow : since ≤ now) (intent : String)
    (state : DurableExecState) (id : Option String) (filled : Int) (average : ℚ)
    (reason : Option String) :
    RowTouched intentId since (store.updateState now intent state id filled average reason) := by
  obtain ⟨row, hrow, hsince⟩ := h
  obtain ⟨row', hrow', hcases⟩ := DurableExecutionStore.find?_updateState_some now state id filled
    average reason hrow
  refine ⟨row', hrow', ?_⟩
  rcases hcases with rfl | rfl
  · exact hsince
  · exact hnow

theorem rowTouched_tryTransitionTo {now ts : Time} {new : ExecutionState}
    {m : ExecutionStateMachine} (hallow : m.Allows new)
    (hpersist : m.persistenceCallback = true ∧ new ∈ persistedStates) {records : Records}
    {row : DurableExecutionRecord} (hrow : records.store.find? m.intentId = some row) :
    RowTouched m.intentId now
      (tryTransitionTo (serviceHooks now) ts new m records).world.store := by
  rw [store_tryTransitionTo_persisted now ts hallow hpersist]
  exact rowTouched_updateState hrow le_rfl _ _ _ _ _

/-- A new machine driven beyond `VALIDATED` writes to the row its key spells. -/
theorem rowTouched_driveMachine (setup : Setup) (call : OrderCall) (s : ExecutionService)
    (hwired : s.manager.persistenceCallback = true)
    (hm : priorMachine setup call s = none)
    (hleaves : leavesValidated (attemptOf setup call s).outcome = false)
    {row : DurableExecutionRecord}
    (hrow : s.records.store.find? (keyOf setup call s) = some row) :
    RowTouched (keyOf setup call s) (s.clock + call.latency)
      (driveMachine setup call s).world.store := by
  have hsilent := serviceHooks_silent (s.clock + call.latency)
  have hallow : ∀ new, new = .persisted ∨ new = .failed →
      (validatedMachine setup call s).Allows new := by
    rintro new (rfl | rfl) <;> simp [Allows, validatedMachine, validTransitions]
  have hfirst : ∀ new, new = .persisted ∨ new = .failed →
      RowTouched (keyOf setup call s) (s.clock + call.latency)
        (tryTransitionTo (serviceHooks (s.clock + call.latency))
          (formatTs (s.clock + call.latency)) new (validatedMachine setup call s)
          (validatedRecords setup call s)).world.store := by
    intro new hnew
    refine rowTouched_tryTransitionTo (hallow new hnew) ⟨hwired, ?_⟩ hrow
    rcases hnew with rfl | rfl <;> decide
  rw [driveMachine_none hm]
  by_cases hfill : ∃ result, (attemptOf setup call s).outcome = .ok result ∧
      result.status = .filled
  · obtain ⟨result, hok, hstatus⟩ := hfill
    have hdone := concludeAttempt_filled (formatTs (s.clock + call.latency)) hsilent
      (m := validatedMachine setup call s) rfl le_rfl hstatus (s.clock + call.latency)
      (validatedRecords setup call s)
    rw [hok, hdone.2.2.2]
    have hkeeps : Keeps (serviceHooks (s.clock + call.latency))
        (formatTs (s.clock + call.latency)) (identity (validatedMachine setup call s))
        fun records => RowTouched (keyOf setup call s) (s.clock + call.latency) records.store :=
      keeps_store fun store state id filled average reason hP =>
        hP.updateState le_rfl _ _ _ _ _ _
    exact (hkeeps.recordFilledResult_of_persisted _ _
      ⟨identity_tryTransitionTo _ _ _, hfirst .persisted (.inl rfl)⟩).2
  · have hdone := concludeAttempt_failed (formatTs (s.clock + call.latency)) hsilent
      (m := validatedMachine setup call s) rfl (s.clock + call.latency) call.request hleaves
      (fun result hok hst => hfill ⟨result, hok, hst⟩) (validatedRecords setup call s)
    rw [hdone.2.2.2.2]
    exact hfirst .failed (.inr rfl)

/-- A submitted call that is not filed apart writes to the row. -/
theorem rowTouched_executeOrder (hwired : s.manager.persistenceCallback = true)
    (h : Submitted setup call s) {intentId : String}
    (hmeets : intentOf setup call = intentId ∨ MachineWrites setup call s intentId) :
    RowTouched intentId s.clock (executeOrder setup call s).1.records.store := by
  by_cases hid : intentOf setup call = intentId
  · refine executeOrder_store h ⟨pendingRecord setup call s.executionCounter s.clock, ?_, le_rfl⟩
      fun store now intent state id filled average reason _ hnow hP =>
        hP.updateState hnow intent state id filled average reason
    rw [DurableExecutionStore.find?_saveExecution]
    exact if_pos hid.symm
  · obtain ⟨hkey, hrow, hgo, hm, hleaves⟩ := hmeets.resolve_left hid
    obtain ⟨row, hrow⟩ := Option.ne_none_iff_exists'.mp hrow
    refine settled_store h ?_ fun store now state id filled average reason hnow hP =>
      hP.updateState hnow _ state id filled average reason
    have hgo' : proceeds setup call (prepared setup call s) = true := by
      rw [proceeds_prepared, hgo]
    rw [executeWithRetries_proceeds hgo']
    have hsaved : (prepared setup call s).records.store.find? intentId = some row := by
      rw [prepared_records, ← hrow]
      exact (DurableExecutionStore.find?_saveExecution _ _ _).trans
        (if_neg fun heq => hid heq.symm)
    have htouched := rowTouched_driveMachine setup call (prepared setup call s)
      (by rw [prepared_manager, hwired])
      (by rw [priorMachine_prepared, hm]) (by rw [attemptOf_prepared, hleaves])
      (by rw [keyOf_prepared, hkey, hsaved])
    rw [keyOf_prepared, hkey, prepared_clock] at htouched
    obtain ⟨final, hfinal, hsince⟩ := htouched
    exact ⟨final, hfinal, le_trans (by simp) hsince⟩

/-- The records of one order survive the call of another when the two are filed apart; and, for a
service that persists its machines and a row older than the call, only then. -/
theorem records_kept_iff_filed_apart (setup : Setup) (first second : OrderCall)
    (s : ExecutionService) :
    (FiledApart setup second s (intentOf setup first) →
      RecordsKept (intentOf setup first) s (executeOrder setup second s).1) ∧
    (s.manager.persistenceCallback = true →
      (∀ row, s.records.store.find? (intentOf setup first) = some row → row.updatedAt < s.clock) →
      RecordsKept (intentOf setup first) s (executeOrder setup second s).1 →
      FiledApart setup second s (intentOf setup first)) := by
  cases hmode : blockedBy second with
  | some message =>
      rw [executeOrder_blocked hmode]
      exact ⟨fun _ => ⟨rfl, rfl⟩, fun _ _ _ hopen => by rw [hmode] at hopen; cases hopen⟩
  | none =>
      cases hdup : isDuplicateCall setup second s with
      | true =>
          rw [executeOrder_duplicate hmode hdup]
          simp only [FiledApart, hmode, hdup, if_true, true_implies]
          have hiff := intentRow_reopened setup second s
            "Duplicate order detected" _ rfl (intentOf setup first)
          exact ⟨fun hapart => ⟨hiff.mpr hapart, rfl⟩, fun _ _ hkept => hiff.mp hkept.1⟩
      | false =>
          have hsub : Submitted setup second s := ⟨hmode, hdup⟩
          simp only [FiledApart, hmode, hdup, Bool.false_eq_true, if_false, true_implies]
          constructor
          · rintro ⟨hid, hquiet⟩
            exact ⟨intentRow_executeOrder_of_ne hsub hid,
              find?_executeOrder_of_apart hsub hid hquiet⟩
          · intro hwired hold hkept
            by_contra hmeets
            obtain ⟨row, hrow, hsince⟩ := rowTouched_executeOrder hwired hsub
              (show intentOf setup second = intentOf setup first ∨
                MachineWrites setup second s (intentOf setup first) by tauto)
            rw [hkept.2] at hrow
            exact absurd (hold row hrow) (not_lt.mpr hsince)

/-- The sample order under another key. -/
def secondSignal : OrderRequest := { sampleRequest with idempotencyKey := some "signal-2" }

/-- A second signal on the contract of a filled order replaces its row and its intent. -/
theorem second_signal_replaces_records :
    keyOf sampleSetup (sampleCall sampleRequest .filled 50) freshService ≠
        keyOf sampleSetup (sampleCall secondSignal .rejected 0)
          (executeOrder sampleSetup (sampleCall sampleRequest .filled 50) freshService).1 ∧
    ¬ RecordsKept (intentOf sampleSetup (sampleCall sampleRequest .filled 50))
      (executeOrder sampleSetup (sampleCall sampleRequest .filled 50) freshService).1
      (executeOrder sampleSetup (sampleCall secondSignal .rejected 0)
        (executeOrder sampleSetup (sampleCall sampleRequest .filled 50) freshService).1).1 := by
  refine ⟨by decide +kernel, ?_⟩
  rintro ⟨_, hrow⟩
  have hbefore : ((executeOrder sampleSetup (sampleCall sampleRequest .filled 50)
      freshService).1.records.store.find? (intentOf sampleSetup
        (sampleCall sampleRequest .filled 50))).map (·.state) = some .filled := by
    decide +kernel
  have hafter : ((executeOrder sampleSetup (sampleCall secondSignal .rejected 0)
      (executeOrder sampleSetup (sampleCall sampleRequest .filled 50)
        freshService).1).1.records.store.find? (intentOf sampleSetup
        (sampleCall sampleRequest .filled 50))).map (·.state) = some .rejected := by
    decide +kernel
  rw [hrow, hbefore] at hafter
  cases hafter

end AutoTrade.Execution.ExecutionService
