import AutoTrade.Signals.OutcomeTracker

/-! # Forward observations

Signals are registered with the prediction made of them, measured from their
lifecycle and its events, and the measurements are synchronised into the
observations that the readiness gates count. Timestamps are stored without
blanks around them, and exit reasons and sources in upper case.
-/

namespace AutoTrade.Signals

open AutoTrade.Library
open AutoTrade.Execution (Platform)

/-! ## Predictions and events -/

/-- A row of `signal_prediction_snapshots`. -/
structure PredictionSnapshot where
  signalId : String
  capturedAt : String
  direction : String
  symbol : String
  category : String
  score : Int
  entryPrice : ℚ
  stopLoss : ℚ
  target1 : ℚ
  target2 : ℚ
  source : String := "GENERATION"
  rawSignalJson : String := ""
  snapshotHash : String := ""
deriving DecidableEq, Repr

/-- A row of `signal_outcome_events`. -/
structure OutcomeEvent where
  signalId : String
  observedAt : String
  observedPrice : ℚ
  hitSl : Bool
  hitT1 : Bool
  hitT2 : Bool
deriving DecidableEq, Repr

/-! ## Measurements -/

inductive NormalizedOutcome
  | targetFirst
  | slFirst
  | timeout
  | invalidated
  | ambiguous
  | ambiguousSameBar
  | noData
  | reversed
  | unresolved
deriving DecidableEq, Repr

inductive DataQuality
  | validData
  | noData
  | ambiguousBar
  | ambiguousData
  | invalidData
deriving DecidableEq, Repr

/-- A row of `signal_outcome_measurements`, without its excursions. -/
structure OutcomeMeasurement where
  signalId : String
  outcome : NormalizedOutcome
  rawLifecycleState : OutcomeState
  firstTouchAt : Option String
  target1Hit : Bool
  target2Hit : Bool
  target2HitAt : Option String
  stopLossHit : Bool
  exitPrice : Option ℚ
  exitAt : Option String
  dataQualityStatus : DataQuality
deriving DecidableEq, Repr

/-! ## Observations -/

inductive ScoreBucket
  | below70
  | from70
  | from75
  | from80
  | from85
deriving DecidableEq, Repr

inductive ObservationStatus
  | observing
  | resolved
  | timeout
  | ambiguous
  | noData
  | invalidated
deriving DecidableEq, Repr

/-- `ForwardObservationRecord`, without its excursions and levels. -/
structure ForwardObservation where
  signalId : String
  cohortId : String
  registeredAt : String
  marketDate : String
  score : Int
  scoreBucket : ScoreBucket
  category : String
  observationStatus : ObservationStatus := .observing
  terminalOutcome : Option NormalizedOutcome := none
  isResolved : Bool := false
  resolutionTimestamp : Option String := none
  dataQualityStatus : DataQuality := .validData
deriving DecidableEq, Repr

/-- `CANONICAL_SCORE_BUCKETS`. -/
def canonicalScoreBuckets : List ScoreBucket := [.below70, .from70, .from75, .from80, .from85]

def assignScoreBucket (score : Int) : ScoreBucket :=
  if 85 ≤ score then .from85
  else if 80 ≤ score then .from80
  else if 75 ≤ score then .from75
  else if 70 ≤ score then .from70
  else .below70

/-- The tables of `signals_history.db` that the observations are made from, and the observations. -/
structure ForwardDb where
  snapshots : Table PredictionSnapshot PredictionSnapshot.signalId
  signals : SystemSignals
  events : List OutcomeEvent
  measurements : Table OutcomeMeasurement OutcomeMeasurement.signalId
  observations : Table ForwardObservation ForwardObservation.signalId

/-- What `datetime` makes of the texts of timestamps. -/
structure ForwardRuntime extends Platform where
  /-- `parse_timestamp`. -/
  parseTimestamp : String → Option Time

/-! ## Measuring -/

/-- What is read of a signal's lifecycle; a signal without a row is active. -/
structure Lifecycle where
  status : OutcomeState := .active
  firstTouch : FirstTouch := .absent
  firstTouchAt : String := ""
  firstTouchPrice : ℚ := 0
  currentPrice : ℚ := 0
  outcomeConfidence : OutcomeConfidence := .unknown
  exitReason : String := ""
  exitPrice : Option ℚ := none
  exitAt : String := ""
deriving DecidableEq, Repr

def lifecycleOf : Option SystemSignal → Lifecycle
  | some s =>
      { status := s.status
        firstTouch := s.firstTouch
        firstTouchAt := s.firstTouchAt
        firstTouchPrice := s.firstTouchPrice
        currentPrice := s.currentPrice
        outcomeConfidence := s.outcomeConfidence
        exitReason := s.exitReason
        exitPrice := s.exitPrice
        exitAt := s.exitAt }
  | none => {}

/-- What a signal was predicted to do, and when. -/
structure Prediction where
  entryPrice : ℚ
  stopLoss : ℚ
  target1 : ℚ
  target2 : ℚ
  observedFrom : String
deriving DecidableEq, Repr

/-- The snapshot has precedence over the row of the signal. -/
def predictionOf : Option PredictionSnapshot → Option SystemSignal → Option Prediction
  | some p, _ => some ⟨p.entryPrice, p.stopLoss, p.target1, p.target2, p.capturedAt⟩
  | none, some s => some ⟨s.entryPrice, s.stopLoss, s.target1, s.target2, s.timestamp⟩
  | none, none => none

def Prediction.isValid (p : Prediction) : Bool :=
  decide (0 < p.entryPrice ∧ 0 < p.stopLoss ∧ 0 < p.target1)

/-- `normalize_outcome_state`. -/
def normalizeOutcomeState (firstTouch : FirstTouch) (rawStatus : OutcomeState)
    (hasObservations isValid : Bool) (exitReason : String) : NormalizedOutcome :=
  if !isValid then .invalidated
  else if !hasObservations then .noData
  else if firstTouch ∈ [.ambiguous, .ambiguousSameBar] ∨
      rawStatus ∈ [.ambiguous, .ambiguousSameBar] then .ambiguous
  else if rawStatus = .closedOnReversal ∨ inText "REVERSAL" exitReason then .reversed
  else if firstTouch ∈ [.t1, .t2] ∨ rawStatus ∈ [.target1Hit, .target2Hit] then .targetFirst
  else if firstTouch = .sl ∨ rawStatus = .slHit then .slFirst
  else if firstTouch = .expired ∨ rawStatus = .expired then .timeout
  else .unresolved

/-- When and at what price a barrier was hit. -/
structure BarrierHit where
  hitAt : Option String
  hitPrice : Option ℚ
deriving DecidableEq, Repr

/-- The first event that hits a barrier. -/
def firstHit (events : List OutcomeEvent) (hit : OutcomeEvent → Bool) : Option BarrierHit :=
  (events.find? hit).map fun e => ⟨some e.observedAt, some e.observedPrice⟩

/-- A price joins the prices observed. -/
def addPrice (prices : List ℚ) (price : ℚ) : List ℚ :=
  if 0 < price ∧ price ∉ prices then prices ++ [price] else prices

/-- `price or fallback`. -/
def priceOr (price : Option ℚ) (fallback : ℚ) : ℚ := orPrice (price.getD 0) fallback

section Runtime

variable (rt : ForwardRuntime)

/-- The events of a signal in the order they were observed, none of them before the prediction. -/
def validEvents (events : List OutcomeEvent) (signalId observedFrom : String) : List OutcomeEvent :=
  ((events.filter fun e => decide (e.signalId = signalId)).mergeSort
    fun d e => decide (d.observedAt ≤ e.observedAt)).filter fun e =>
      match rt.parseTimestamp e.observedAt, rt.parseTimestamp observedFrom with
      | some observed, some t0 => decide (t0 ≤ observed)
      | _, _ => true

/-- The touch of a barrier that a measurement knows. -/
def physicalTouch (touch : FirstTouch) : FirstTouch :=
  if touch ∈ [.t1, .t2, .sl] then touch else .absent

/-- What the events and the lifecycle of a signal say of its prices and barriers. -/
structure BarrierRecord where
  lifecycle : Lifecycle
  firstTouch : FirstTouch
  firstTouchAt : Option String
  firstTouchPrice : Option ℚ
  t1Hit : Bool
  t2 : Option BarrierHit
  sl : Option BarrierHit
  prices : List ℚ
  latestObsAt : String
deriving DecidableEq, Repr

/-- A hit that the lifecycle knows of counts without an event. -/
def barrierRecord (p : Prediction) (l : Lifecycle) (events : List OutcomeEvent) : BarrierRecord :=
  let priced := events.filter fun e => decide (0 < e.observedPrice)
  let latestObsAt := (priced.getLast?.map OutcomeEvent.observedAt).getD p.observedFrom
  let firstTouch := physicalTouch l.firstTouch
  let firstTouchAt := if truthy (some l.firstTouchAt) then some l.firstTouchAt else none
  let firstTouchPrice := if 0 < l.firstTouchPrice then some l.firstTouchPrice else none
  let pastT1 := decide (firstTouch = .t1 ∨ l.status = .target1Hit)
  let pastT2 := decide (l.status = .target2Hit ∨ firstTouch = .t2)
  let pastSl := decide (firstTouch = .sl ∨ l.status = .slHit)
  let known (past : Bool) (hit : Option BarrierHit) (hitAt : Option String) (price : Option ℚ) :=
    if past && hit.isNone then some ⟨hitAt, price⟩ else hit
  let observed := priced.map OutcomeEvent.observedPrice
  let observed := if pastT1 then addPrice observed p.target1 else observed
  let observed := if pastT2 then addPrice observed p.target2 else observed
  let observed := if pastSl then addPrice observed p.stopLoss else observed
  let observed := addPrice observed (firstTouchPrice.getD 0)
  { lifecycle := l
    firstTouch
    firstTouchAt
    firstTouchPrice
    t1Hit := pastT1 || events.any OutcomeEvent.hitT1
    t2 :=
      known pastT2 (firstHit events OutcomeEvent.hitT2)
        (if firstTouch = .t2 then firstTouchAt else some latestObsAt)
        (if firstTouch = .t2 then firstTouchPrice else some p.target2)
    sl :=
      known pastSl (firstHit events OutcomeEvent.hitSl) firstTouchAt
        (some (priceOr firstTouchPrice p.stopLoss))
    prices := addPrice observed l.currentPrice
    latestObsAt }

namespace BarrierRecord

def hasObservations (r : BarrierRecord) : Bool := !r.prices.isEmpty

def isAmbiguous (r : BarrierRecord) : Bool :=
  decide (r.firstTouch ∈ [.ambiguous, .ambiguousSameBar] ∨
    r.lifecycle.status ∈ [.ambiguous, .ambiguousSameBar] ∨
    r.lifecycle.outcomeConfidence = .ambiguous)

def dataQuality (r : BarrierRecord) (isValid : Bool) : DataQuality :=
  if !isValid then .invalidData
  else if r.isAmbiguous then .ambiguousData
  else if !r.hasObservations then .noData
  else .validData

/-- The statuses of a signal that is closed. -/
def closedStatuses : List OutcomeState := [.slHit, .expired, .closedOnReversal, .target2Hit]

/-- The exit of a signal that is closed; an interim target is none. -/
def exit (r : BarrierRecord) (p : Prediction) (outcome : NormalizedOutcome) :
    Option (ℚ × String) :=
  let l := r.lifecycle
  if l.status ∈ closedStatuses ∨ outcome ∈ [.slFirst, .timeout, .reversed] then
    if l.status = .target2Hit then
      some (priceOr (r.t2.bind BarrierHit.hitPrice) p.target2,
        orElse (r.t2.bind BarrierHit.hitAt) r.latestObsAt)
    else if l.status = .slHit ∨ outcome = .slFirst then
      some (priceOr (r.sl.bind BarrierHit.hitPrice) p.stopLoss,
        orElse (r.sl.bind BarrierHit.hitAt) (orElse r.firstTouchAt r.latestObsAt))
    else if l.status = .expired ∨ outcome = .timeout then
      some (if 0 < l.currentPrice then l.currentPrice else priceOr r.firstTouchPrice p.entryPrice,
        orElse (some l.exitAt) (orElse (some r.latestObsAt) (r.firstTouchAt.getD "")))
    else
      some (priceOr l.exitPrice (orPrice l.currentPrice (priceOr r.firstTouchPrice p.entryPrice)),
        orElse (some l.exitAt) (orElse (some r.latestObsAt) (r.firstTouchAt.getD "")))
  else none

end BarrierRecord

/-- The measurement of a signal with a prediction. -/
def measure (signalId : String) (p : Prediction) (l : Lifecycle) (events : List OutcomeEvent) :
    OutcomeMeasurement :=
  let r := barrierRecord p l events
  let outcome :=
    normalizeOutcomeState r.firstTouch l.status r.hasObservations p.isValid l.exitReason
  { signalId
    outcome
    rawLifecycleState := l.status
    firstTouchAt := r.firstTouchAt
    target1Hit := r.t1Hit
    target2Hit := r.t2.isSome
    target2HitAt := r.t2.bind BarrierHit.hitAt
    stopLossHit := r.sl.isSome
    exitPrice := (r.exit p outcome).map (·.1)
    exitAt := (r.exit p outcome).map (·.2)
    dataQualityStatus := r.dataQuality p.isValid }

/-- The measurement `build_signal_outcome_measurement` makes, without writing it. -/
def builtMeasurement (db : ForwardDb) (signalId : String) : Option OutcomeMeasurement :=
  let signal := db.signals.find? signalId
  (predictionOf (db.snapshots.find? signalId) signal).map fun p =>
    measure signalId p (lifecycleOf signal) (validEvents rt db.events signalId p.observedFrom)

/-! ## Registering -/

/-- What `register_forward_signal` is given. -/
structure Registration where
  signalId : String
  cohortId : Option String := none
  cutoff : Option String := none
  registeredAt : Option String := none
deriving DecidableEq, Repr

def defaultForwardCutoff : String := "2026-09-26T00:00:00+05:30"

/-- `text[:n] if len(text) >= n else fallback`. -/
def firstChars (n : Nat) (text fallback : String) : String :=
  if n ≤ text.length then String.ofList (text.toList.take n) else fallback

/-- The first time is before the second, where both can be read. -/
def readBefore (earlier later : String) : Bool :=
  match rt.parseTimestamp earlier, rt.parseTimestamp later with
  | some e, some l => decide (e < l)
  | _, _ => false

def excludedSources : List String := ["SEED", "TEST", "MOCK", "BACKFILL"]

/-- The snapshot is from before the cutoff, from after the registration, or not a live one. -/
def rejectsSnapshot (snap : PredictionSnapshot) (cutoff registeredAt : String) : Bool :=
  readBefore rt snap.capturedAt cutoff || readBefore rt registeredAt snap.capturedAt ||
    decide (snap.source ∈ excludedSources) || inText "is_seed_sample" snap.rawSignalJson

def observationOf (snap : PredictionSnapshot) (r : Registration) (registeredAt : String) :
    ForwardObservation :=
  let marketDate := firstChars 10 snap.capturedAt (dateText registeredAt)
  { signalId := r.signalId
    cohortId := orElse r.cohortId ("FWD_" ++ firstChars 7 marketDate "UNKNOWN")
    registeredAt
    marketDate
    score := snap.score
    scoreBucket := assignScoreBucket snap.score
    category := snap.category }

/-- `register_forward_signal`; a signal that is registered stays as it is. -/
def registerForwardSignal (db : ForwardDb) (r : Registration) (now : Time) : ForwardDb :=
  let registeredAt := orElse r.registeredAt (rt.isoformat now)
  match db.snapshots.find? r.signalId with
  | none => db
  | some snap =>
      if rejectsSnapshot rt snap (orElse r.cutoff defaultForwardCutoff) registeredAt then db
      else
        { db with
          observations := db.observations.insertOrIgnore (observationOf snap r registeredAt) }

/-! ## Synchronising -/

/-- The status of the signal an observation is joined with, if it has a row. -/
def signalStatus (db : ForwardDb) (signalId : String) : Option OutcomeState :=
  (db.signals.find? signalId).map SystemSignal.status

/-- The selection of `sync_forward_outcomes`. -/
def inFlight (db : ForwardDb) (o : ForwardObservation) : Bool :=
  !o.isResolved ||
    (decide (signalStatus db o.signalId = some .target2Hit) &&
      decide (o.observationStatus ≠ .resolved)) ||
    ((signalStatus db o.signalId).any (fun st =>
      decide (st ∈ [.slHit, .expired, .closedOnReversal])) && !o.isResolved)

def inCohort (cohortId : Option String) (o : ForwardObservation) : Bool :=
  !truthy cohortId || decide (cohortId = some o.cohortId)

/-- The rows are selected in the order they were inserted. -/
def inFlightRows (db : ForwardDb) (cohortId : Option String) (limit : Int) :
    List ForwardObservation :=
  Table.limited limit (db.observations.rows.filter fun o => inCohort cohortId o && inFlight db o)

/-- The measurement is missing or behind the lifecycle of its signal. -/
def needsRematerialize (stored : Option OutcomeMeasurement) (status : Option OutcomeState) : Bool :=
  match stored with
  | none => true
  | some m =>
      decide (m.outcome = .unresolved) ||
        (decide (status = some .target2Hit) && !m.target2Hit) ||
        (decide (status = some .slHit) && !m.stopLossHit) ||
        (decide (status = some .target1Hit) && m.exitPrice.isSome) ||
        (status.any (fun st => decide (st ∈ BarrierRecord.closedStatuses)) && m.exitPrice.isNone) ||
        (status.any (fun st => decide (st ∈ [.target1Hit, .target2Hit])) && !m.target1Hit) ||
        (status.any (fun st => decide (st ∈ [.expired, .closedOnReversal])) &&
          decide (status ≠ some m.rawLifecycleState))

/-- The measurement a synchronisation consumes. -/
def consumed (db : ForwardDb) (signalId : String) : Option OutcomeMeasurement :=
  let stored := db.measurements.find? signalId
  if needsRematerialize stored (signalStatus db signalId) then builtMeasurement rt db signalId
  else stored

/-- A first target of a signal that is not closed: it stays in flight. -/
def interimTarget (m : OutcomeMeasurement) (status : Option OutcomeState) : Bool :=
  decide (m.outcome = .targetFirst) &&
    decide (m.rawLifecycleState ∈ [.target1Hit, .active, .opened]) &&
    !status.any fun st => decide (st ∈ [.expired, .closedOnReversal])

/-- The observation status of a measurement, and whether it is resolved. -/
def mapOutcome (m : OutcomeMeasurement) (status : Option OutcomeState) : ObservationStatus × Bool :=
  if m.outcome = .targetFirst then
    if interimTarget m status then (.observing, false) else (.resolved, true)
  else if m.outcome = .slFirst then (.resolved, true)
  else if m.outcome = .timeout then (.timeout, true)
  else if m.outcome = .reversed then (.resolved, true)
  else if m.outcome ∈ [.ambiguous, .ambiguousSameBar] ∨
      m.dataQualityStatus ∈ [.ambiguousBar, .ambiguousData] then (.ambiguous, false)
  else if m.outcome = .noData ∨ m.dataQualityStatus = .noData then (.noData, false)
  else if m.outcome = .invalidated ∨ m.dataQualityStatus = .invalidData then (.invalidated, false)
  else (.observing, false)

/-- An outcome that settles nothing leaves the observation unresolved. -/
theorem mapOutcome_unsettled {m : OutcomeMeasurement}
    (h : m.outcome ∉ [.targetFirst, .slFirst, .timeout, .reversed]) (status : Option OutcomeState) :
    (mapOutcome m status).2 = false ∧
      (mapOutcome m status).1 ∈ [.observing, .ambiguous, .noData, .invalidated] := by
  simp only [List.mem_cons, List.not_mem_nil, or_false, not_or] at h
  obtain ⟨htarget, hstop, htimeout, hreversed⟩ := h
  unfold mapOutcome
  rw [if_neg htarget, if_neg hstop, if_neg htimeout, if_neg hreversed]
  split
  · exact ⟨rfl, by decide⟩
  · split
    · exact ⟨rfl, by decide⟩
    · split
      · exact ⟨rfl, by decide⟩
      · exact ⟨rfl, by decide⟩

/-- Only a target asks when the second one was hit. -/
def resolutionTime (m : OutcomeMeasurement) (now : Time) : String :=
  let touched := orElse m.firstTouchAt (rt.isoformat now)
  orElse m.exitAt (if m.outcome = .targetFirst then orElse m.target2HitAt touched else touched)

/-- The columns a synchronisation writes. -/
def syncedRow (m : OutcomeMeasurement) (status : Option OutcomeState) (now : Time)
    (o : ForwardObservation) : ForwardObservation :=
  { o with
    observationStatus := (mapOutcome m status).1
    terminalOutcome := some m.outcome
    isResolved := (mapOutcome m status).2
    resolutionTimestamp := if (mapOutcome m status).2 then some (resolutionTime rt m now) else none
    dataQualityStatus := m.dataQualityStatus }

/-- One signal of a synchronisation; a measurement made for it is stored. -/
def syncOne (now : Time) (db : ForwardDb) (signalId : String) : ForwardDb :=
  match consumed rt db signalId with
  | none => db
  | some m =>
      { db with
        measurements :=
          if needsRematerialize (db.measurements.find? signalId) (signalStatus db signalId) then
            db.measurements.upsert m
          else db.measurements
        observations :=
          db.observations.update signalId (syncedRow rt m (signalStatus db signalId) now)
            fun _ => rfl }

/-- `sync_forward_outcomes`. -/
def syncForwardOutcomes (db : ForwardDb) (cohortId : Option String) (limit : Int) (now : Time) :
    ForwardDb :=
  ((inFlightRows db cohortId limit).map ForwardObservation.signalId).foldl (syncOne rt now) db

/-! ## What a synchronisation leaves -/

/-- An observation after its synchronisation. -/
def synced (db : ForwardDb) (now : Time) (o : ForwardObservation) : ForwardObservation :=
  match consumed rt db o.signalId with
  | some m => syncedRow rt m (signalStatus db o.signalId) now o
  | none => o

@[simp] theorem synced_signalId (db : ForwardDb) (now : Time) (o : ForwardObservation) :
    (synced rt db now o).signalId = o.signalId := by
  unfold synced
  split <;> rfl

theorem consumed_signalId {db : ForwardDb} {id : String} {m : OutcomeMeasurement}
    (h : consumed rt db id = some m) : m.signalId = id := by
  unfold consumed at h
  dsimp only at h
  split at h
  · unfold builtMeasurement at h
    obtain ⟨p, -, rfl⟩ := Option.map_eq_some_iff.mp h
    rfl
  · exact Table.find?_key h

theorem syncOne_frame (db : ForwardDb) (now : Time) (k : String) :
    (syncOne rt now db k).snapshots = db.snapshots ∧ (syncOne rt now db k).signals = db.signals ∧
      (syncOne rt now db k).events = db.events := by
  unfold syncOne
  split <;> exact ⟨rfl, rfl, rfl⟩

theorem signalStatus_syncOne (db : ForwardDb) (now : Time) (k id : String) :
    signalStatus (syncOne rt now db k) id = signalStatus db id := by
  unfold signalStatus
  rw [(syncOne_frame rt db now k).2.1]

/-- The measurement that was consumed is the one that is stored. -/
theorem measurement_syncOne (db : ForwardDb) (now : Time) (k id : String) :
    (syncOne rt now db k).measurements.find? id =
      if id = k then (consumed rt db k).or (db.measurements.find? k)
      else db.measurements.find? id := by
  unfold syncOne
  cases hm : consumed rt db k with
  | none =>
      by_cases h : id = k
      · simp [h]
      · simp [h]
  | some m =>
      have hkey : m.signalId = k := consumed_signalId rt hm
      by_cases hneeds : needsRematerialize (db.measurements.find? k) (signalStatus db k) = true
      · simp only [if_pos hneeds]
        rw [Table.find?_upsert, hkey]
        rfl
      · simp only [if_neg hneeds]
        have hstored : db.measurements.find? k = some m := by
          unfold consumed at hm
          simpa only [if_neg hneeds] using hm
        by_cases h : id = k
        · simp [h, hstored]
        · simp [h]

theorem builtMeasurement_syncOne (db : ForwardDb) (now : Time) (k id : String) :
    builtMeasurement rt (syncOne rt now db k) id = builtMeasurement rt db id := by
  obtain ⟨hsnapshots, hsignals, hevents⟩ := syncOne_frame rt db now k
  unfold builtMeasurement
  rw [hsnapshots, hsignals, hevents]

theorem consumed_syncOne_of_ne (db : ForwardDb) (now : Time) {k id : String} (h : id ≠ k) :
    consumed rt (syncOne rt now db k) id = consumed rt db id := by
  unfold consumed
  rw [measurement_syncOne, if_neg h, signalStatus_syncOne, builtMeasurement_syncOne]

theorem synced_syncOne_of_ne (db : ForwardDb) (now : Time) {k : String} {o : ForwardObservation}
    (h : o.signalId ≠ k) : synced rt (syncOne rt now db k) now o = synced rt db now o := by
  unfold synced
  rw [consumed_syncOne_of_ne rt db now h, signalStatus_syncOne]

theorem rows_syncOne (db : ForwardDb) (now : Time) (k : String) :
    (syncOne rt now db k).observations.rows =
      db.observations.rows.map fun o => if o.signalId = k then synced rt db now o else o := by
  unfold syncOne
  cases hm : consumed rt db k with
  | none =>
      symm
      refine (List.map_congr_left fun o _ => ?_).trans (List.map_id _)
      by_cases h : o.signalId = k
      · simp [h, synced, hm]
      · simp [h]
  | some m =>
      refine List.map_congr_left fun o _ => ?_
      by_cases h : o.signalId = k
      · simp [h, synced, hm]
      · simp [h]

/-- The synchronisations of different signals do not meet. -/
theorem rows_foldl_syncOne (now : Time) {ids : List String} (hnodup : ids.Nodup) (db : ForwardDb) :
    (ids.foldl (syncOne rt now) db).observations.rows =
      db.observations.rows.map fun o => if o.signalId ∈ ids then synced rt db now o else o := by
  induction ids generalizing db with
  | nil => simp
  | cons k rest ih =>
      obtain ⟨hk, hrest⟩ := List.nodup_cons.mp hnodup
      rw [List.foldl_cons, ih hrest, rows_syncOne, List.map_map]
      refine List.map_congr_left fun o _ => ?_
      by_cases h : o.signalId = k
      · simp [h, hk]
      · by_cases hmem : o.signalId ∈ rest
        · simp [h, hmem, synced_syncOne_of_ne rt db now h]
        · simp [h, hmem]

theorem nodup_inFlight (db : ForwardDb) (cohortId : Option String) (limit : Int) :
    ((inFlightRows db cohortId limit).map ForwardObservation.signalId).Nodup := by
  have hsub : (inFlightRows db cohortId limit).Sublist db.observations.rows := by
    unfold inFlightRows Table.limited
    split
    · exact List.filter_sublist
    · exact (List.take_sublist _ _).trans List.filter_sublist
  exact db.observations.nodup.sublist (hsub.map _)

theorem inFlight_subset {db : ForwardDb} {cohortId : Option String} {limit : Int}
    {o : ForwardObservation} (h : o ∈ inFlightRows db cohortId limit) :
    o ∈ db.observations.rows := by
  unfold inFlightRows Table.limited at h
  split at h
  · exact List.mem_of_mem_filter h
  · exact List.mem_of_mem_filter (List.mem_of_mem_take h)

/-- A synchronisation rewrites the rows it selected, where they are. -/
theorem rows_syncForwardOutcomes (db : ForwardDb) (cohortId : Option String) (limit : Int)
    (now : Time) :
    (syncForwardOutcomes rt db cohortId limit now).observations.rows =
      db.observations.rows.map fun o =>
        if o ∈ inFlightRows db cohortId limit then synced rt db now o else o := by
  refine (rows_foldl_syncOne rt now (nodup_inFlight db cohortId limit) db).trans
    (List.map_congr_left fun o ho => if_congr ?_ rfl rfl)
  rw [List.mem_map]
  constructor
  · intro h
    obtain ⟨x, hx, hid⟩ := h
    exact List.inj_on_of_nodup_map db.observations.nodup (inFlight_subset hx) ho hid ▸ hx
  · intro h
    exact ⟨o, h, rfl⟩

end Runtime

end AutoTrade.Signals
