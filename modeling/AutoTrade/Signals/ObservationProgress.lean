import AutoTrade.Library.Backlog
import AutoTrade.Library.Run
import AutoTrade.Signals.Readiness

/-! # Progress of the synchronisation

A synchronisation takes a limited number of the observations in flight, the
oldest first. Measurements that resolve nothing keep their observations in
flight, so those are taken again by every synchronisation. An observation is
resolved in the end exactly when fewer of them stand before it than are taken.
-/

namespace AutoTrade.Signals

open AutoTrade.Library

/-! ## Measurements of closed signals -/

/-- Made by `build_signal_outcome_measurement`. -/
def Measured (m : OutcomeMeasurement) : Prop := ∃ p l events, m = measure m.signalId p l events

section Measured

variable {id : String} {p : Prediction} {l : Lifecycle} {events : List OutcomeEvent}

theorem valid_dataQuality {r : BarrierRecord} {isValid : Bool}
    (h : r.dataQuality isValid = .validData) :
    isValid = true ∧ r.isAmbiguous = false ∧ r.hasObservations = true := by
  unfold BarrierRecord.dataQuality at h
  cases hvalid : isValid
  · simp [hvalid] at h
  · cases hambiguous : r.isAmbiguous
    · cases hobserved : r.hasObservations
      · simp [hvalid, hambiguous, hobserved] at h
      · exact ⟨rfl, rfl, rfl⟩
    · simp [hvalid, hambiguous] at h

theorem outcome_of_valid (h : (measure id p l events).dataQualityStatus = .validData) :
    (measure id p l events).outcome ∈
      [.reversed, .targetFirst, .slFirst, .timeout, .unresolved] := by
  obtain ⟨hvalid, hclear, hobserved⟩ := valid_dataQuality h
  have hlifecycle : (barrierRecord p l events).lifecycle = l := rfl
  simp only [BarrierRecord.isAmbiguous, decide_eq_false_iff_not, not_or, hlifecycle] at hclear
  have hunclear : ¬((barrierRecord p l events).firstTouch ∈ [.ambiguous, .ambiguousSameBar] ∨
      l.status ∈ [.ambiguous, .ambiguousSameBar]) := not_or.mpr ⟨hclear.1, hclear.2.1⟩
  simp only [measure, normalizeOutcomeState, hvalid, hobserved, Bool.not_true, Bool.false_eq_true,
    if_false, if_neg hunclear]
  repeat' split
  all_goals simp

/-- The test of its own status answers each closed status, if none before it does. -/
theorem normalizeOutcomeState_of_closed {status : OutcomeState}
    (h : status ∈ BarrierRecord.closedStatuses) (firstTouch : FirstTouch)
    (hasObservations isValid : Bool) (exitReason : String) :
    normalizeOutcomeState firstTouch status hasObservations isValid exitReason ≠ .unresolved := by
  have hresolves : status = .closedOnReversal ∨ status ∈ [OutcomeState.target1Hit, .target2Hit] ∨
      status = .slHit ∨ status = .expired := by
    revert h
    cases status <;> decide
  unfold normalizeOutcomeState
  intro hunresolved
  split_ifs at hunresolved with _ _ _ hreversal htarget hstop hexpired
  rcases hresolves with h | h | h | h
  · exact hreversal (.inl h)
  · exact htarget (.inr h)
  · exact hstop (.inr h)
  · exact hexpired (.inr h)

theorem outcome_of_closed (h : l.status ∈ BarrierRecord.closedStatuses) :
    (measure id p l events).outcome ≠ .unresolved :=
  normalizeOutcomeState_of_closed h _ _ _ _

/-- What is stored of a closed signal and kept is settled and has an exit. -/
theorem exit_of_kept {m : OutcomeMeasurement} {status : OutcomeState}
    (hclosed : status ∈ BarrierRecord.closedStatuses)
    (h : needsRematerialize (some m) (some status) = false) :
    m.outcome ≠ .unresolved ∧ m.exitPrice.isSome = true := by
  simp only [needsRematerialize, Bool.or_eq_false_iff, decide_eq_false_iff_not, Option.any_some,
    decide_eq_true hclosed, Bool.true_and] at h
  refine ⟨h.1.1.1.1.1.1, ?_⟩
  cases hexit : m.exitPrice with
  | none => simp [hexit] at h
  | some price => rfl

/-- A first target has an exit only after its signal was closed. -/
theorem closed_of_exit (houtcome : (measure id p l events).outcome = .targetFirst)
    (hexit : (measure id p l events).exitPrice.isSome = true) :
    l.status ∈ BarrierRecord.closedStatuses := by
  by_contra hopen
  have hother : (measure id p l events).outcome ∉ [.slFirst, .timeout, .reversed] := by
    simp [houtcome]
  have hnone : (barrierRecord p l events).exit p (measure id p l events).outcome = none := by
    unfold BarrierRecord.exit
    exact if_neg (not_or.mpr ⟨hopen, hother⟩)
  have hprice : (measure id p l events).exitPrice = none := by
    change ((barrierRecord p l events).exit p (measure id p l events).outcome).map (·.1) = none
    rw [hnone]
    rfl
  rw [hprice] at hexit
  cases hexit

end Measured

/-- The first target of a closed signal is not an interim one. -/
theorem interimTarget_of_closed {m : OutcomeMeasurement}
    (h : m.rawLifecycleState ∈ BarrierRecord.closedStatuses) (status : Option OutcomeState) :
    interimTarget m status = false := by
  have hraw : m.rawLifecycleState ∉ [.target1Hit, .active, .opened] := by
    simp only [BarrierRecord.closedStatuses, List.mem_cons, List.not_mem_nil, or_false] at h
    rcases h with h | h | h | h <;> simp [h]
  simp [interimTarget, hraw]

theorem mapOutcome_resolves {m : OutcomeMeasurement} {status : Option OutcomeState}
    (houtcome : m.outcome ∈ [.reversed, .targetFirst, .slFirst, .timeout])
    (hinterim : m.outcome = .targetFirst → interimTarget m status = false) :
    (mapOutcome m status).2 = true := by
  simp only [List.mem_cons, List.not_mem_nil, or_false] at houtcome
  rcases houtcome with h | h | h | h
  · simp [mapOutcome, h]
  · simp [mapOutcome, h, hinterim h]
  · simp [mapOutcome, h]
  · simp [mapOutcome, h]

/-! ## What stays the same -/

section Runtime

variable (rt : ForwardRuntime)

/-- What was chosen and is kept is chosen again. -/
theorem chosen_again {α : Type} (needs : Option α → Bool) (stored built chosen : Option α)
    (h : chosen = if needs stored = true then built else stored) :
    (if needs (chosen.or stored) = true then built else chosen.or stored) = chosen := by
  subst h
  by_cases hneeds : needs stored = true
  · cases built with
    | none => simp [hneeds]
    | some b => simp [hneeds]
  · simp [hneeds]

/-- A synchronisation consumes the measurement it has stored. -/
theorem consumed_syncOne (db : ForwardDb) (now : Time) (k id : String) :
    consumed rt (syncOne rt now db k) id = consumed rt db id := by
  by_cases h : id = k
  · subst h
    have hagain := chosen_again (needsRematerialize · (signalStatus db id))
      (db.measurements.find? id) (builtMeasurement rt db id) (consumed rt db id) rfl
    have hstored := measurement_syncOne rt db now id id
    rw [if_pos rfl] at hstored
    unfold consumed
    rw [hstored, signalStatus_syncOne, builtMeasurement_syncOne]
    exact hagain
  · exact consumed_syncOne_of_ne rt db now h

theorem consumed_foldl (now : Time) (ids : List String) (db : ForwardDb) (id : String) :
    consumed rt (ids.foldl (syncOne rt now) db) id = consumed rt db id := by
  induction ids generalizing db with
  | nil => rfl
  | cons k rest ih =>
      rw [List.foldl_cons, ih]
      exact consumed_syncOne rt db now k id

theorem signals_foldl (now : Time) (ids : List String) (db : ForwardDb) :
    (ids.foldl (syncOne rt now) db).signals = db.signals := by
  induction ids generalizing db with
  | nil => rfl
  | cons k rest ih =>
      rw [List.foldl_cons, ih]
      exact (syncOne_frame rt db now k).2.1

variable (db : ForwardDb) (cohortId : Option String) (limit : Nat) (now : Time)

theorem consumed_sync (id : String) :
    consumed rt (syncForwardOutcomes rt db cohortId limit now) id = consumed rt db id :=
  consumed_foldl rt now _ db id

theorem signalStatus_sync (id : String) :
    signalStatus (syncForwardOutcomes rt db cohortId limit now) id = signalStatus db id := by
  unfold signalStatus syncForwardOutcomes
  rw [signals_foldl]

theorem inFlight_sync (o : ForwardObservation) :
    inFlight (syncForwardOutcomes rt db cohortId limit now) o = inFlight db o := by
  unfold inFlight
  rw [signalStatus_sync]

/-! ## Observations that stay in flight -/

/-- The measurement does not resolve an observation, or leaves it short of a second target. -/
def keepsInFlight (m : OutcomeMeasurement) (status : Option OutcomeState) : Bool :=
  decide (m.outcome ∈ [.ambiguous, .ambiguousSameBar, .noData, .invalidated, .unresolved]) ||
    interimTarget m status || (decide (m.outcome = .timeout) && decide (status = some .target2Hit))

/-- A synchronisation of the signal leaves its observation in flight. -/
def isStuck (id : String) : Bool :=
  (consumed rt db id).all fun m => keepsInFlight m (signalStatus db id)

/-- The signals a synchronisation without a limit would take, in their order. -/
def backlogOf : List String :=
  (db.observations.rows.filter fun o => inCohort cohortId o && inFlight db o).map
    ForwardObservation.signalId

theorem inFlight_syncedRow {m : OutcomeMeasurement} {o : ForwardObservation} :
    inFlight db (syncedRow rt m (signalStatus db o.signalId) now o) =
      keepsInFlight m (signalStatus db o.signalId) := by
  generalize hstatus : signalStatus db o.signalId = status
  have hid : signalStatus db (syncedRow rt m status now o).signalId = status := hstatus
  unfold inFlight
  rw [hid]
  cases houtcome : m.outcome
  case targetFirst =>
    cases hinterim : interimTarget m status <;>
      simp [syncedRow, mapOutcome, keepsInFlight, houtcome, hinterim]
  case slFirst => simp [syncedRow, mapOutcome, keepsInFlight, interimTarget, houtcome]
  case timeout => simp [syncedRow, mapOutcome, keepsInFlight, interimTarget, houtcome]
  case reversed => simp [syncedRow, mapOutcome, keepsInFlight, interimTarget, houtcome]
  all_goals
    have hflag := (mapOutcome_unsettled (m := m) (by rw [houtcome]; decide) status).1
    simp [syncedRow, hflag, keepsInFlight, houtcome]

theorem inFlight_synced {o : ForwardObservation} (h : inFlight db o = true) :
    inFlight db (synced rt db now o) = isStuck rt db o.signalId := by
  unfold synced isStuck
  split
  · rename_i m hm
    rw [hm]
    exact inFlight_syncedRow rt db now
  · rename_i hm
    rw [hm]
    exact h

/-! ## The backlog of a run -/

theorem nodup_backlogOf : (backlogOf db cohortId).Nodup :=
  db.observations.nodup.sublist (List.filter_sublist.map _)

theorem inFlightRows_eq : (inFlightRows db cohortId limit).map ForwardObservation.signalId =
    (backlogOf db cohortId).take limit := by
  unfold inFlightRows backlogOf Table.limited
  rw [if_neg (not_lt.mpr (Int.natCast_nonneg limit)), Int.toNat_natCast, List.map_take]

theorem mem_inFlightRows {o : ForwardObservation} (ho : o ∈ db.observations.rows) :
    o ∈ inFlightRows db cohortId limit ↔ o.signalId ∈ (backlogOf db cohortId).take limit := by
  rw [← inFlightRows_eq, List.mem_map]
  constructor
  · intro h
    exact ⟨o, h, rfl⟩
  · intro h
    obtain ⟨x, hx, hid⟩ := h
    exact List.inj_on_of_nodup_map db.observations.nodup (inFlight_subset hx) ho hid ▸ hx

theorem mem_backlogOf {o : ForwardObservation} (ho : o ∈ db.observations.rows)
    (hcohort : inCohort cohortId o = true) (hresolved : o.isResolved = false) :
    o.signalId ∈ backlogOf db cohortId := by
  refine List.mem_map.mpr ⟨o, List.mem_filter.mpr ⟨ho, ?_⟩, rfl⟩
  simp [hcohort, inFlight, hresolved]

/-- A row after a synchronisation. -/
def rowAfter (o : ForwardObservation) : ForwardObservation :=
  if o ∈ inFlightRows db cohortId limit then synced rt db now o else o

theorem rowAfter_signalId (o : ForwardObservation) :
    (rowAfter rt db cohortId limit now o).signalId = o.signalId := by
  unfold rowAfter
  split
  · exact synced_signalId rt db now o
  · rfl

theorem rowAfter_cohortId (o : ForwardObservation) :
    (rowAfter rt db cohortId limit now o).cohortId = o.cohortId := by
  unfold rowAfter synced
  split
  · split <;> rfl
  · rfl

theorem inCohort_rowAfter (o : ForwardObservation) :
    inCohort cohortId (rowAfter rt db cohortId limit now o) = inCohort cohortId o := by
  unfold inCohort
  rw [rowAfter_cohortId]

/-- A synchronisation takes a batch of the backlog. -/
theorem backlogOf_sync : backlogOf (syncForwardOutcomes rt db cohortId limit now) cohortId =
    afterBatch (isStuck rt db) limit (backlogOf db cohortId) := by
  have hrows : (syncForwardOutcomes rt db cohortId limit now).observations.rows =
      db.observations.rows.map (rowAfter rt db cohortId limit now) :=
    rows_syncForwardOutcomes rt db cohortId limit now
  rw [← filter_eq_afterBatch (nodup_backlogOf db cohortId)]
  unfold backlogOf
  rw [hrows, List.filter_map, List.map_map, List.filter_map, List.filter_filter]
  have hkey : ForwardObservation.signalId ∘ rowAfter rt db cohortId limit now =
      ForwardObservation.signalId := funext (rowAfter_signalId rt db cohortId limit now)
  rw [hkey]
  refine congrArg (List.map _) (List.filter_congr fun o ho => ?_)
  have hmem := mem_inFlightRows db cohortId limit ho
  simp only [Function.comp_apply, inFlight_sync, inCohort_rowAfter]
  by_cases hbatch : o ∈ inFlightRows db cohortId limit
  · have hselected : (inCohort cohortId o && inFlight db o) = true := by
      obtain ⟨x, hx, hid⟩ := List.mem_map.mp (List.mem_of_mem_take (hmem.mp hbatch))
      obtain ⟨hxrows, hxsel⟩ := List.mem_filter.mp hx
      exact List.inj_on_of_nodup_map db.observations.nodup hxrows ho hid ▸ hxsel
    obtain ⟨hcohort, hflight⟩ := Bool.and_eq_true_iff.mp hselected
    have htaken : o.signalId ∈ (backlogOf db cohortId).take limit := hmem.mp hbatch
    unfold backlogOf at htaken
    simp [rowAfter, hbatch, htaken, hcohort, hflight, inFlight_synced]
  · have hleft : o.signalId ∉ (backlogOf db cohortId).take limit := fun h => hbatch (hmem.mpr h)
    unfold backlogOf at hleft
    simp [rowAfter, hbatch, hleft]

theorem isStuck_sync :
    isStuck rt (syncForwardOutcomes rt db cohortId limit now) = isStuck rt db := by
  funext id
  unfold isStuck
  rw [consumed_sync, signalStatus_sync]

/-- The synchronisations of a run, at the times given. -/
def syncRun (nows : List Time) : ForwardDb :=
  run (fun t now => syncForwardOutcomes rt t cohortId limit now) db nows

theorem signalStatus_syncRun (nows : List Time) (id : String) :
    signalStatus (syncRun rt db cohortId limit nows) id = signalStatus db id :=
  run_invariant (I := fun t => signalStatus t id = signalStatus db id)
    (fun t now ht => (signalStatus_sync rt t cohortId limit now id).trans ht) rfl nows

theorem consumed_syncRun (nows : List Time) (id : String) :
    consumed rt (syncRun rt db cohortId limit nows) id = consumed rt db id :=
  run_invariant (I := fun t => consumed rt t id = consumed rt db id)
    (fun t now ht => (consumed_sync rt t cohortId limit now id).trans ht) rfl nows

/-- An observation that no batch reaches stays as it is. -/
theorem unreached_stays (nows : List Time) {db : ForwardDb} {o : ForwardObservation}
    (ho : o ∈ db.observations.rows)
    (h : ∀ i, o.signalId ∉
      (afterBatches (isStuck rt db) limit (backlogOf db cohortId) i).take limit) :
    o ∈ (syncRun rt db cohortId limit nows).observations.rows := by
  induction nows generalizing db with
  | nil => exact ho
  | cons now rest ih =>
      have hunread : o ∉ inFlightRows db cohortId limit := fun hread =>
        h 0 ((mem_inFlightRows db cohortId limit ho).mp hread)
      refine @ih (syncForwardOutcomes rt db cohortId limit now) ?_ fun i => ?_
      · rw [rows_syncForwardOutcomes]
        exact List.mem_map.mpr ⟨o, ho, if_neg hunread⟩
      · rw [isStuck_sync, backlogOf_sync]
        exact h (i + 1)

/-- A measurement that resolves the observation of its signal. -/
def Resolvable (id : String) : Prop :=
  ∃ m, consumed rt db id = some m ∧ (mapOutcome m (signalStatus db id)).2 = true

theorem isResolved_synced {o : ForwardObservation} (h : Resolvable rt db o.signalId) :
    (synced rt db now o).isResolved = true := by
  obtain ⟨m, hm, hresolved⟩ := h
  unfold synced
  rw [hm]
  exact hresolved

theorem resolvable_sync {id : String} (h : Resolvable rt db id) :
    Resolvable rt (syncForwardOutcomes rt db cohortId limit now) id := by
  obtain ⟨m, hm, hresolved⟩ := h
  refine ⟨m, ?_, ?_⟩
  · rw [consumed_sync, hm]
  · rw [signalStatus_sync, hresolved]

/-- A resolvable observation is resolved once it is reached, and from then on. -/
theorem resolved_of_reached (nows : List Time) {db : ForwardDb} {o : ForwardObservation}
    (ho : o ∈ db.observations.rows) (hresolvable : Resolvable rt db o.signalId)
    (h : o.isResolved = true ∨ ∃ i < nows.length, o.signalId ∈
      (afterBatches (isStuck rt db) limit (backlogOf db cohortId) i).take limit) :
    ∀ o' ∈ (syncRun rt db cohortId limit nows).observations.rows, o'.signalId = o.signalId →
      o'.isResolved = true := by
  induction nows generalizing db o with
  | nil =>
      intro o' ho' hid
      rcases h with hresolved | ⟨i, hi, -⟩
      · exact List.inj_on_of_nodup_map db.observations.nodup ho' ho hid ▸ hresolved
      · exact absurd hi (Nat.not_lt_zero i)
  | cons now rest ih =>
      intro o' ho' hid
      have hrow : rowAfter rt db cohortId limit now o ∈
          (syncForwardOutcomes rt db cohortId limit now).observations.rows := by
        rw [rows_syncForwardOutcomes]
        exact List.mem_map.mpr ⟨o, ho, rfl⟩
      have hkey := rowAfter_signalId rt db cohortId limit now o
      refine ih hrow ?_ ?_ o' ho' (hid.trans hkey.symm)
      · rw [hkey]
        exact resolvable_sync rt db cohortId limit now hresolvable
      · rw [hkey, isStuck_sync, backlogOf_sync]
        unfold rowAfter
        rcases h with hresolved | ⟨i, hi, hreached⟩
        · refine Or.inl ?_
          split
          · exact isResolved_synced rt db now hresolvable
          · exact hresolved
        · cases i with
          | zero =>
              refine Or.inl ?_
              rw [if_pos ((mem_inFlightRows db cohortId limit ho).mpr hreached)]
              exact isResolved_synced rt db now hresolvable
          | succ i => exact Or.inr ⟨i, Nat.lt_of_succ_lt_succ hi, hreached⟩

/-- Every observation after a run was there before it. -/
theorem row_before (nows : List Time) {db : ForwardDb} {o' : ForwardObservation}
    (ho' : o' ∈ (syncRun rt db cohortId limit nows).observations.rows) :
    ∃ o ∈ db.observations.rows, o'.signalId = o.signalId ∧ o'.cohortId = o.cohortId := by
  induction nows generalizing db with
  | nil => exact ⟨o', ho', rfl, rfl⟩
  | cons now rest ih =>
      obtain ⟨x, hx, hid, hcohort⟩ := @ih (syncForwardOutcomes rt db cohortId limit now) ho'
      rw [rows_syncForwardOutcomes] at hx
      obtain ⟨o, ho, rfl⟩ := List.mem_map.mp hx
      exact ⟨o, ho, hid.trans (rowAfter_signalId rt db cohortId limit now o),
        hcohort.trans (rowAfter_cohortId rt db cohortId limit now o)⟩

/-! ## No observation is starved -/

/-- The signal is closed and its measurement is valid. -/
def Due (o : ForwardObservation) : Prop :=
  inCohort cohortId o = true ∧
    (∃ status ∈ BarrierRecord.closedStatuses, signalStatus db o.signalId = some status) ∧
    ∃ m, consumed rt db o.signalId = some m ∧ m.dataQualityStatus = .validData

/-- After enough synchronisations, whenever they are, every observation that is due is resolved. -/
def NoneStarves : Prop :=
  ∃ n, ∀ nows : List Time, n ≤ nows.length →
    ∀ o ∈ (syncRun rt db cohortId limit nows).observations.rows,
      Due rt (syncRun rt db cohortId limit nows) cohortId o → o.isResolved = true

theorem due_syncRun (nows : List Time) {o o' : ForwardObservation} (hid : o'.signalId = o.signalId)
    (hcohort : o'.cohortId = o.cohortId) :
    Due rt (syncRun rt db cohortId limit nows) cohortId o' ↔ Due rt db cohortId o := by
  unfold Due inCohort
  rw [signalStatus_syncRun, consumed_syncRun, hid, hcohort]

theorem resolvable_of_due {db : ForwardDb} (hmeasured : ∀ m ∈ db.measurements.rows, Measured m)
    {o : ForwardObservation} (h : Due rt db cohortId o) : Resolvable rt db o.signalId := by
  obtain ⟨-, ⟨status, hclosed, hstatus⟩, m, hm, hvalid⟩ := h
  refine ⟨m, hm, ?_⟩
  unfold consumed at hm
  dsimp only at hm
  split at hm
  · -- measured anew, from the signal as it was closed
    obtain ⟨p, -, rfl⟩ := Option.map_eq_some_iff.mp hm
    obtain ⟨s, hs, rfl⟩ := Option.map_eq_some_iff.mp hstatus
    have hraw : (lifecycleOf (db.signals.find? o.signalId)).status ∈
        BarrierRecord.closedStatuses := by
      rw [hs]
      exact hclosed
    have houtcome := outcome_of_valid hvalid
    have hsettled := @outcome_of_closed o.signalId p _
      (validEvents rt db.events o.signalId p.observedFrom) hraw
    refine mapOutcome_resolves ?_ fun _ => interimTarget_of_closed hraw _
    simpa [hsettled] using houtcome
  · -- a stored measurement that the status does not ask to make again
    rename_i hkept
    rw [hm, hstatus] at hkept
    obtain ⟨hsettled, hexit⟩ := exit_of_kept hclosed (Bool.eq_false_of_not_eq_true hkept)
    obtain ⟨p, l, events, hmade⟩ := hmeasured m ((Table.find?_eq_some_iff _ _ _).mp hm).1
    rw [hmade] at hvalid hsettled hexit ⊢
    have houtcome := outcome_of_valid hvalid
    refine mapOutcome_resolves (by simpa [hsettled] using houtcome) fun htarget => ?_
    exact interimTarget_of_closed (closed_of_exit htarget hexit) _

/-- No observation is starved exactly when each one that is due and not resolved has fewer
observations that stay in flight before it than a synchronisation takes. -/
theorem none_starves_iff (db : ForwardDb) (hmeasured : ∀ m ∈ db.measurements.rows, Measured m) :
    NoneStarves rt db cohortId limit ↔
      ∀ o ∈ db.observations.rows, Due rt db cohortId o → o.isResolved = false →
        stuckBefore (isStuck rt db) (backlogOf db cohortId) o.signalId < limit := by
  constructor
  · intro hnone o ho hdue hopen
    obtain ⟨n, hn⟩ := hnone
    have hwaits := mem_backlogOf db cohortId ho hdue.1 hopen
    rw [← reached_iff (nodup_backlogOf db cohortId) hwaits]
    by_contra hnever
    have hstays := unreached_stays rt cohortId limit (List.replicate n 0) ho fun i hi =>
      hnever ⟨i, hi⟩
    have hresolved := hn (List.replicate n 0) (List.length_replicate ..).ge o hstays
      ((due_syncRun rt db cohortId limit _ rfl rfl).mpr hdue)
    rw [hopen] at hresolved
    cases hresolved
  · intro hbefore
    refine ⟨(backlogOf db cohortId).length, fun nows hlength o' ho' hdue' => ?_⟩
    obtain ⟨o, ho, hid, hcohort⟩ := row_before rt cohortId limit nows ho'
    have hdue := (due_syncRun rt db cohortId limit nows hid hcohort).mp hdue'
    have hresolvable := resolvable_of_due rt cohortId hmeasured hdue
    refine resolved_of_reached rt cohortId limit nows ho hresolvable ?_ o' ho' hid
    cases hopen : o.isResolved with
    | true => exact Or.inl rfl
    | false =>
        obtain ⟨i, hi, hreached⟩ := reached_within (mem_backlogOf db cohortId ho hdue.1 hopen)
          (hbefore o ho hdue hopen)
        exact Or.inr ⟨i, hi.trans_le hlength, hreached⟩

end Runtime

/-! ## An ambiguous signal before a closed one -/

/-- The sample signal under an id and a status, with the touch it had. -/
def signalWith (signalId : String) (status : OutcomeState) (firstTouch : FirstTouch) :
    SystemSignal :=
  { sampleSignal with signalId, status, firstTouch, currentPrice := 89 }

def snapshotWith (signalId : String) : PredictionSnapshot := { sampleSnapshot with signalId }

def observedWith (signalId : String) : ForwardObservation :=
  observationOf (snapshotWith signalId) { signalId } "2024-01-05T10:01:00+05:30"

/-- An ambiguous signal and one at its stop, registered in this order and not yet measured. -/
def sampleBacklog : ForwardDb where
  snapshots := ⟨[snapshotWith "SIG-A", snapshotWith "SIG-B"], by decide⟩
  signals :=
    ⟨[signalWith "SIG-A" .ambiguous .absent, signalWith "SIG-B" .slHit .sl], by decide⟩
  events := []
  measurements := Table.empty
  observations := ⟨[observedWith "SIG-A", observedWith "SIG-B"], by decide⟩

theorem none_starves_two : NoneStarves sampleForwardRuntime sampleBacklog none 2 := by
  have hbefore : ∀ o ∈ sampleBacklog.observations.rows,
      stuckBefore (isStuck sampleForwardRuntime sampleBacklog) (backlogOf sampleBacklog none)
        o.signalId < 2 := by decide +kernel
  refine (none_starves_iff sampleForwardRuntime none 2 sampleBacklog ?_).mpr fun o ho _ _ =>
    hbefore o ho
  intro m hm
  cases hm

/-- One at a time, only the ambiguous signal is ever taken. -/
theorem closed_behind_ambiguous : ¬ NoneStarves sampleForwardRuntime sampleBacklog none 1 := by
  intro h
  obtain ⟨n, hn⟩ := h
  have hmem : observedWith "SIG-B" ∈ sampleBacklog.observations.rows :=
    List.mem_cons_of_mem _ List.mem_cons_self
  have hstuck : ¬ stuckBefore (isStuck sampleForwardRuntime sampleBacklog)
      (backlogOf sampleBacklog none) "SIG-B" < 1 := by decide +kernel
  have hwaits : "SIG-B" ∈ backlogOf sampleBacklog none := by decide +kernel
  have hstays := unreached_stays sampleForwardRuntime none 1 (List.replicate n 0) hmem fun i hi =>
    hstuck ((reached_iff (nodup_backlogOf sampleBacklog none) hwaits).mp ⟨i, hi⟩)
  have hdue : Due sampleForwardRuntime sampleBacklog none (observedWith "SIG-B") := by
    refine ⟨rfl, ⟨.slHit, by decide, by decide +kernel⟩, ?_⟩
    refine ⟨(builtMeasurement sampleForwardRuntime sampleBacklog "SIG-B").get (by decide +kernel),
      ?_, ?_⟩ <;> decide +kernel
  have hresolved := hn (List.replicate n 0) (List.length_replicate ..).ge _ hstays
    ((due_syncRun sampleForwardRuntime sampleBacklog none 1 _ rfl rfl).mpr hdue)
  cases hresolved

end AutoTrade.Signals
