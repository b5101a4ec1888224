import AutoTrade.Signals.ForwardObservation
import Mathlib.Data.List.Dedup

/-! # Readiness gates

The gates count what is resolved by the outcomes that were stored, and what is
unresolved by a flag. The two agree as long as no synchronisation stores the
interim first target of a signal in flight, which has an outcome and no flag, or
a reversal, which has the flag and an outcome of its own.
-/

namespace AutoTrade.Signals

open AutoTrade.Library

inductive ReadinessStatus
  | inactiveBucket
  | insufficientSample
  | collecting
  | dataQualityBlocked
  | readyForReview
deriving DecidableEq, Repr

structure BucketReadinessSummary where
  bucket : ScoreBucket
  nForward : Nat
  targetFirstCount : Nat
  slFirstCount : Nat
  timeoutCount : Nat
  ambiguousCount : Nat
  noDataCount : Nat
  unresolvedCount : Nat
  nResolved : Nat
  targetFirstRate : Option ℚ
  slFirstRate : Option ℚ
  requiredResolved : Nat
  remainingResolvedNeeded : Nat
  bucketStatus : ReadinessStatus
  isActive : Bool
deriving DecidableEq, Repr

def gateMinResolvedPerActiveBucket : Nat := 100

def gateMinTotalResolved : Nat := 300

def gateMinDistinctMonths : Nat := 2

def gateMinResolvedPerMonth : Nat := 30

def gateMaxDataQualityErrorRate : ℚ := 5 / 100

def gateMaxStaleRate : ℚ := 2 / 100

namespace ForwardObservation

def hasOutcome (outcome : NormalizedOutcome) (o : ForwardObservation) : Bool :=
  decide (o.terminalOutcome = some outcome)

def hasStatus (status : ObservationStatus) (o : ForwardObservation) : Bool :=
  decide (o.observationStatus = status)

def hasDataError (o : ForwardObservation) : Bool :=
  decide (o.observationStatus ∈ [.ambiguous, .noData, .invalidated])

def isUnresolved (o : ForwardObservation) : Bool := !o.isResolved && !o.hasDataError

/-- An outcome of those that make up `n_resolved`. -/
def countsResolved (o : ForwardObservation) : Bool :=
  o.hasOutcome .targetFirst || o.hasOutcome .slFirst || o.hasOutcome .timeout

/-- The five ways an observation is counted. -/
def counted (o : ForwardObservation) : List Bool :=
  [o.countsResolved, o.hasStatus .ambiguous, o.hasStatus .noData, o.hasStatus .invalidated,
    o.isUnresolved]

/-- `market_date[:7]`, the month of an observation. -/
def month (o : ForwardObservation) : String := firstChars 7 o.marketDate "UNKNOWN"

def isSwing (o : ForwardObservation) : Bool :=
  inText "SWING" o.category || inText "DELIVERY" o.category ||
    decide (o.category ∈ ["MID_SMALL_CAP", "LARGE_CAP_EQUITY"])

end ForwardObservation

def rateOf (count total : Nat) : Option ℚ :=
  if 0 < total then some (roundTo 4 ((count : ℚ) / total)) else none

def bucketStatusOf (nForward nResolved : Nat) : ReadinessStatus :=
  if nForward = 0 then .inactiveBucket
  else if nForward < 10 then .insufficientSample
  else if nResolved < gateMinResolvedPerActiveBucket then .collecting
  else .readyForReview

def bucketRows (rows : List ForwardObservation) (bucket : ScoreBucket) : List ForwardObservation :=
  rows.filter fun o => decide (o.scoreBucket = bucket)

def resolvedCount (rows : List ForwardObservation) : Nat :=
  rows.countP (·.hasOutcome .targetFirst) + rows.countP (·.hasOutcome .slFirst) +
    rows.countP (·.hasOutcome .timeout)

def bucketSummary (rows : List ForwardObservation) (bucket : ScoreBucket) :
    BucketReadinessSummary :=
  let own := bucketRows rows bucket
  let nResolved := resolvedCount own
  { bucket
    nForward := own.length
    targetFirstCount := own.countP (·.hasOutcome .targetFirst)
    slFirstCount := own.countP (·.hasOutcome .slFirst)
    timeoutCount := own.countP (·.hasOutcome .timeout)
    ambiguousCount := own.countP (·.hasStatus .ambiguous)
    noDataCount := own.countP (·.hasStatus .noData)
    unresolvedCount := own.countP (·.isUnresolved)
    nResolved
    targetFirstRate := rateOf (own.countP (·.hasOutcome .targetFirst)) nResolved
    slFirstRate := rateOf (own.countP (·.hasOutcome .slFirst)) nResolved
    requiredResolved := gateMinResolvedPerActiveBucket
    remainingResolvedNeeded := gateMinResolvedPerActiveBucket - nResolved
    bucketStatus := bucketStatusOf own.length nResolved
    isActive := decide (0 < own.length) }

/-- The months with enough observations whose flag is set. -/
def qualifyingMonths (rows : List ForwardObservation) : List String :=
  let months := (rows.filter (·.isResolved)).map ForwardObservation.month
  months.dedup.filter fun m => decide (gateMinResolvedPerMonth ≤ months.count m)

section Runtime

variable (rt : ForwardRuntime)

/-- In flight for more than two days, or a week for a swing. -/
def isStale (now : Time) (o : ForwardObservation) : Bool :=
  o.hasStatus .observing && (rt.parseTimestamp o.registeredAt).any fun registered =>
    decide ((if o.isSwing then 7 * 24 else 48) * hour < now - registered)

def overallStatus (rows : List ForwardObservation) (summaries : List BucketReadinessSummary)
    (now : Time) : ReadinessStatus :=
  let errors := rows.countP (·.hasDataError)
  let stale := rows.countP (isStale rt now)
  let active := summaries.filter (·.isActive)
  if rows.length = 0 then .insufficientSample
  else if gateMaxDataQualityErrorRate < roundTo 4 ((errors : ℚ) / rows.length) then
    .dataQualityBlocked
  else if gateMaxStaleRate < roundTo 4 ((stale : ℚ) / rows.length) then .collecting
  else if active.length = 0 then .insufficientSample
  else if active.any fun b => decide (b.bucketStatus ≠ .readyForReview) then .collecting
  else if (summaries.map (·.nResolved)).sum < gateMinTotalResolved then .collecting
  else if (qualifyingMonths rows).length < gateMinDistinctMonths then .collecting
  else .readyForReview

def cohortRows (db : ForwardDb) (cohortId : Option String) : List ForwardObservation :=
  db.observations.rows.filter (inCohort cohortId)

/-- `evaluate_readiness_gates`, without its explanation. -/
def evaluateReadinessGates (db : ForwardDb) (cohortId : Option String) (now : Time) :
    List BucketReadinessSummary × ReadinessStatus :=
  let rows := cohortRows db cohortId
  let summaries := canonicalScoreBuckets.map (bucketSummary rows)
  (summaries, overallStatus rt rows summaries now)

/-- Every observation is counted once, what is counted as resolved has its flag set, and the gates
open on resolved observations only. -/
structure CountsEvidence (db : ForwardDb) (cohortId : Option String) (now : Time) : Prop where
  once : ∀ o ∈ cohortRows db cohortId, o.counted.count true = 1
  resolved : ∀ b ∈ (evaluateReadinessGates rt db cohortId now).1,
    b.nResolved = (bucketRows (cohortRows db cohortId) b.bucket).countP (·.isResolved)
  ready : (evaluateReadinessGates rt db cohortId now).2 = .readyForReview →
    (∀ b ∈ (evaluateReadinessGates rt db cohortId now).1, b.isActive = true →
      100 ≤ (bucketRows (cohortRows db cohortId) b.bucket).countP (·.isResolved)) ∧
    300 ≤ (cohortRows db cohortId).countP (·.isResolved)

end Runtime

/-! ## Observations that are counted once -/

/-- Counted once, and as resolved exactly when the flag is set. -/
structure WellCounted (o : ForwardObservation) : Prop where
  once : o.counted.count true = 1
  flag : o.countsResolved = o.isResolved

theorem wellCounted_observationOf (snap : PredictionSnapshot) (r : Registration)
    (registeredAt : String) : WellCounted (observationOf snap r registeredAt) := ⟨rfl, rfl⟩

/-- An outcome that is in none of the gate's counts is filed under its status, without the flag. -/
theorem counted_of_outcome {o : ForwardObservation} {outcome : NormalizedOutcome}
    (houtcome : o.terminalOutcome = some outcome)
    (hother : outcome ∉ [.targetFirst, .slFirst, .timeout]) (hflag : o.isResolved = false)
    (hstatus : o.observationStatus ∈ [.observing, .ambiguous, .noData, .invalidated]) :
    WellCounted o := by
  have hcounts : o.countsResolved = false := by
    simp only [List.mem_cons, List.not_mem_nil, or_false, not_or] at hother
    simp [ForwardObservation.countsResolved, ForwardObservation.hasOutcome, houtcome, hother]
  refine ⟨?_, hcounts.trans hflag.symm⟩
  unfold ForwardObservation.counted
  rw [hcounts]
  simp only [List.mem_cons, List.not_mem_nil, or_false] at hstatus
  rcases hstatus with hstatus | hstatus | hstatus | hstatus <;>
    simp [ForwardObservation.hasStatus, ForwardObservation.isUnresolved,
      ForwardObservation.hasDataError, hstatus, hflag]

/-- An outcome of the gate's counts with its flag set. -/
theorem counted_of_resolved {o : ForwardObservation} (hcounts : o.countsResolved = true)
    (hflag : o.isResolved = true) (hstatus : o.observationStatus ∈ [.resolved, .timeout]) :
    WellCounted o := by
  refine ⟨?_, hcounts.trans hflag.symm⟩
  unfold ForwardObservation.counted
  rw [hcounts]
  simp only [List.mem_cons, List.not_mem_nil, or_false] at hstatus
  rcases hstatus with hstatus | hstatus <;>
    simp [ForwardObservation.hasStatus, ForwardObservation.isUnresolved,
      ForwardObservation.hasDataError, hstatus, hflag]

section Synced

variable (rt : ForwardRuntime) (m : OutcomeMeasurement) (status : Option OutcomeState) (now : Time)
  (o : ForwardObservation)

/-- What is stored of a measurement is counted well unless it is an interim target or a reversal. -/
theorem wellCounted_syncedRow (hinterim : interimTarget m status = false)
    (hreversed : m.outcome ≠ .reversed) : WellCounted (syncedRow rt m status now o) := by
  cases houtcome : m.outcome
  case targetFirst =>
    refine counted_of_resolved ?_ ?_ ?_ <;>
      simp [syncedRow, mapOutcome, houtcome, hinterim, ForwardObservation.countsResolved,
        ForwardObservation.hasOutcome]
  case slFirst =>
    refine counted_of_resolved ?_ ?_ ?_ <;>
      simp [syncedRow, mapOutcome, houtcome, ForwardObservation.countsResolved,
        ForwardObservation.hasOutcome]
  case timeout =>
    refine counted_of_resolved ?_ ?_ ?_ <;>
      simp [syncedRow, mapOutcome, houtcome, ForwardObservation.countsResolved,
        ForwardObservation.hasOutcome]
  case reversed => exact absurd houtcome hreversed
  all_goals
    obtain ⟨hflag, hstatus⟩ := mapOutcome_unsettled (m := m) (by rw [houtcome]; decide) status
    exact counted_of_outcome (congrArg some houtcome) (by decide) hflag hstatus

/-- The interim target is counted as resolved and as unresolved, the reversal not at all. -/
theorem once_syncedRow (h : (syncedRow rt m status now o).counted.count true = 1) :
    interimTarget m status = false ∧ m.outcome ≠ .reversed := by
  refine ⟨?_, fun hreversed => ?_⟩
  · by_contra hinterim
    rw [Bool.not_eq_false] at hinterim
    have houtcome : m.outcome = .targetFirst := by
      unfold interimTarget at hinterim
      simp only [Bool.and_eq_true, decide_eq_true_eq] at hinterim
      exact hinterim.1.1
    simp [syncedRow, mapOutcome, houtcome, hinterim, ForwardObservation.counted,
      ForwardObservation.countsResolved, ForwardObservation.hasOutcome,
      ForwardObservation.hasStatus, ForwardObservation.isUnresolved,
      ForwardObservation.hasDataError] at h
  · simp [syncedRow, mapOutcome, hreversed, ForwardObservation.counted,
      ForwardObservation.countsResolved, ForwardObservation.hasOutcome,
      ForwardObservation.hasStatus, ForwardObservation.isUnresolved,
      ForwardObservation.hasDataError] at h

end Synced

/-! ## The counts of the gates -/

theorem resolvedCount_eq (rows : List ForwardObservation) :
    resolvedCount rows = rows.countP (·.countsResolved) := by
  unfold resolvedCount
  induction rows with
  | nil => rfl
  | cons o rest ih =>
      have hone : (if o.hasOutcome .targetFirst then 1 else 0) +
          (if o.hasOutcome .slFirst then 1 else 0) + (if o.hasOutcome .timeout then 1 else 0) =
          if o.countsResolved then 1 else 0 := by
        unfold ForwardObservation.countsResolved ForwardObservation.hasOutcome
        by_cases htarget : o.terminalOutcome = some .targetFirst
        · simp [htarget]
        · by_cases hsl : o.terminalOutcome = some .slFirst
          · simp [hsl]
          · simp [htarget, hsl]
      simp only [List.countP_cons]
      omega

theorem countP_bucketRows (p : ForwardObservation → Bool) (rows : List ForwardObservation) :
    (canonicalScoreBuckets.map fun b => (bucketRows rows b).countP p).sum = rows.countP p := by
  induction rows with
  | nil => rfl
  | cons o rest ih =>
      unfold canonicalScoreBuckets bucketRows at ih ⊢
      simp only [List.map_cons, List.map_nil, List.sum_cons, List.sum_nil] at ih ⊢
      rw [List.countP_cons, ← ih]
      cases hbucket : o.scoreBucket <;> simp [List.countP_cons, hbucket] <;> omega

section Runtime

variable {rt : ForwardRuntime}

theorem bucketStatusOf_ready {nForward nResolved : Nat}
    (h : bucketStatusOf nForward nResolved = .readyForReview) :
    gateMinResolvedPerActiveBucket ≤ nResolved := by
  unfold bucketStatusOf at h
  split at h
  · cases h
  · split at h
    · cases h
    · split at h
      · cases h
      · omega

theorem overallStatus_ready {rows : List ForwardObservation}
    {summaries : List BucketReadinessSummary} {now : Time}
    (h : overallStatus rt rows summaries now = .readyForReview) :
    (∀ b ∈ summaries, b.isActive = true → b.bucketStatus = .readyForReview) ∧
      gateMinTotalResolved ≤ (summaries.map (·.nResolved)).sum := by
  unfold overallStatus at h
  dsimp only at h
  repeat' split at h
  all_goals try cases h
  rename_i hready htotal hmonths
  refine ⟨fun b hb hactive => ?_, not_lt.mp htotal⟩
  by_contra hstatus
  refine hready (List.any_eq_true.mpr ⟨b, List.mem_filter.mpr ⟨hb, hactive⟩, ?_⟩)
  exact decide_eq_true hstatus

/-- Where every observation is counted well, the gates count resolved evidence. -/
theorem countsEvidence_of_wellCounted {db : ForwardDb}
    (h : ∀ o ∈ db.observations.rows, WellCounted o) (cohortId : Option String) (now : Time) :
    CountsEvidence rt db cohortId now := by
  have hrows : ∀ o ∈ cohortRows db cohortId, WellCounted o := fun o ho =>
    h o (List.mem_of_mem_filter ho)
  have hbucket : ∀ b, (bucketSummary (cohortRows db cohortId) b).nResolved =
      (bucketRows (cohortRows db cohortId) b).countP (·.isResolved) := by
    intro b
    refine (resolvedCount_eq _).trans (List.countP_congr fun o ho => ?_)
    rw [(hrows o (List.mem_of_mem_filter ho)).flag]
  have hresolved : ∀ b ∈ (evaluateReadinessGates rt db cohortId now).1,
      b.nResolved = (bucketRows (cohortRows db cohortId) b.bucket).countP (·.isResolved) := by
    intro b hb
    obtain ⟨bucket, -, rfl⟩ := List.mem_map.mp hb
    exact hbucket bucket
  refine ⟨fun o ho => (hrows o ho).once, hresolved, fun hready => ?_⟩
  obtain ⟨hactive, htotal⟩ := overallStatus_ready hready
  refine ⟨fun b hb hb' => ?_, ?_⟩
  · rw [← hresolved b hb]
    obtain ⟨bucket, -, rfl⟩ := List.mem_map.mp hb
    exact bucketStatusOf_ready (hactive _ hb hb')
  · rw [List.map_map] at htotal
    have hsum : (canonicalScoreBuckets.map (BucketReadinessSummary.nResolved ∘
        bucketSummary (cohortRows db cohortId))).sum =
        (cohortRows db cohortId).countP (·.isResolved) := by
      rw [← countP_bucketRows]
      exact congrArg List.sum (List.map_congr_left fun b _ => hbucket b)
    rw [hsum] at htotal
    exact htotal

end Runtime

/-! ## Registrations and synchronisations -/

/-- What happens to the tables between two evaluations of the gates. -/
inductive ForwardOp
  | register (r : Registration) (now : Time)
  | sync (cohortId : Option String) (limit : Int) (now : Time)
  | outside (snapshots : Table PredictionSnapshot PredictionSnapshot.signalId)
      (signals : SystemSignals) (events : List OutcomeEvent)
      (measurements : Table OutcomeMeasurement OutcomeMeasurement.signalId)

section Runtime

variable (rt : ForwardRuntime)

/-- The rest of the system writes all tables but the observations. -/
def ForwardDb.step (db : ForwardDb) : ForwardOp → ForwardDb
  | .register r now => registerForwardSignal rt db r now
  | .sync cohortId limit now => syncForwardOutcomes rt db cohortId limit now
  | .outside snapshots signals events measurements =>
      { db with snapshots, signals, events, measurements }

/-- No measurement that is consumed is an interim target or a reversal. -/
def MapsEvidence (db : ForwardDb) : ForwardOp → Prop
  | .sync cohortId limit _ => ∀ o ∈ inFlightRows db cohortId limit, ∀ m,
      consumed rt db o.signalId = some m →
        interimTarget m (signalStatus db o.signalId) = false ∧ m.outcome ≠ .reversed
  | _ => True

variable {rt}

theorem wellCounted_register {db : ForwardDb} (h : ∀ o ∈ db.observations.rows, WellCounted o)
    (r : Registration) (now : Time) :
    ∀ o ∈ (registerForwardSignal rt db r now).observations.rows, WellCounted o := by
  unfold registerForwardSignal
  dsimp only
  split
  · exact h
  · rename_i snap _
    split
    · exact h
    · intro o ho
      unfold Table.insertOrIgnore at ho
      dsimp only at ho
      split at ho
      · exact h o ho
      · rcases List.mem_append.mp ho with hold | hnew
        · exact h o hold
        · rw [List.mem_singleton.mp hnew]
          exact wellCounted_observationOf snap r _

theorem wellCounted_sync {db : ForwardDb} (h : ∀ o ∈ db.observations.rows, WellCounted o)
    {cohortId : Option String} {limit : Int} {now : Time}
    (hmaps : MapsEvidence rt db (.sync cohortId limit now)) :
    ∀ o ∈ (syncForwardOutcomes rt db cohortId limit now).observations.rows, WellCounted o := by
  intro o ho
  rw [rows_syncForwardOutcomes] at ho
  obtain ⟨old, hold, rfl⟩ := List.mem_map.mp ho
  by_cases hselected : old ∈ inFlightRows db cohortId limit
  · rw [if_pos hselected]
    unfold synced
    split
    · rename_i m hm
      obtain ⟨hinterim, hreversed⟩ := hmaps old hselected m hm
      exact wellCounted_syncedRow rt m _ now old hinterim hreversed
    · exact h old hold
  · rw [if_neg hselected]
    exact h old hold

theorem mapsEvidence_of_countsEvidence {db : ForwardDb} {op : ForwardOp}
    (h : ∀ cohortId now, CountsEvidence rt (db.step rt op) cohortId now) : MapsEvidence rt db op := by
  cases op with
  | register r now => trivial
  | outside snapshots signals events measurements => trivial
  | sync cohortId limit now =>
      intro o ho m hm
      have hmem : syncedRow rt m (signalStatus db o.signalId) now o ∈
          cohortRows (syncForwardOutcomes rt db cohortId limit now) none := by
        refine List.mem_filter.mpr ⟨?_, rfl⟩
        rw [rows_syncForwardOutcomes]
        refine List.mem_map.mpr ⟨o, inFlight_subset ho, ?_⟩
        rw [if_pos ho]
        unfold synced
        rw [hm]
      exact once_syncedRow rt m _ now o ((h none now).once _ hmem)

/-- In every run of registrations and synchronisations the gates count resolved evidence throughout
exactly when no synchronisation consumes an interim target or a reversal. -/
theorem gates_count_evidence_iff (rt : ForwardRuntime) (db : ForwardDb) (ops : List ForwardOp) :
    Always (ForwardDb.step rt) (fun t => ∀ cohortId now, CountsEvidence rt t cohortId now)
        { db with observations := Table.empty } ops ↔
      StepsMeet (ForwardDb.step rt) (MapsEvidence rt) { db with observations := Table.empty } ops := by
  refine always_iff_stepsMeet_of_stronger (J := fun t => ∀ o ∈ t.observations.rows, WellCounted o)
    (fun t ht => countsEvidence_of_wellCounted ht) ?_ ?_ ?_
  · intro t op _ ht hop
    cases op with
    | register r now => exact wellCounted_register ht r now
    | sync cohortId limit now => exact wellCounted_sync ht hop
    | outside snapshots signals events measurements => exact ht
  · intro t op _ _ hnext
    exact mapsEvidence_of_countsEvidence hnext
  · intro o ho
    exact absurd ho List.not_mem_nil

end Runtime

/-! ## A first target in flight -/

/-- The prediction made of the sample signal. -/
def sampleSnapshot : PredictionSnapshot where
  signalId := sampleSignal.signalId
  capturedAt := "2024-01-05T10:00:00+05:30"
  direction := sampleSignal.direction
  symbol := sampleSignal.symbol
  category := sampleSignal.category
  score := 82
  entryPrice := sampleSignal.entryPrice
  stopLoss := sampleSignal.stopLoss
  target1 := sampleSignal.target1
  target2 := sampleSignal.target2

/-- The sample signal at its first target. -/
def sampleTouched : SystemSignal :=
  { sampleSignal with
    currentPrice := 112
    status := .target1Hit
    pnlPct := 12
    firstTouch := .t1
    firstTouchAt := "2024-01-05T11:00:00+05:30"
    firstTouchPrice := 110 }

def sampleForwardDb : ForwardDb where
  snapshots := Table.empty.upsert sampleSnapshot
  signals := Table.empty.upsert sampleTouched
  events := []
  measurements := Table.empty
  observations := Table.empty

def sampleForwardRuntime : ForwardRuntime where
  toPlatform := sampleRuntime.toPlatform
  parseTimestamp text := do
    let date ← sampleRuntime.dateOf text
    let clock ← sampleRuntime.clockOf text
    return date * day + clock

def sampleRegistration : Registration where
  signalId := sampleSignal.signalId
  cutoff := some "2024-01-05T09:00:00+05:30"

/-- The observation counts as resolved without its flag, and as unresolved as well. -/
theorem interim_target_counted_twice :
    ¬ Always (ForwardDb.step sampleForwardRuntime)
      (fun t => ∀ cohortId now, CountsEvidence sampleForwardRuntime t cohortId now)
      { sampleForwardDb with observations := Table.empty }
      [.register sampleRegistration (fridayAt 61), .sync none 1000 (fridayAt 125)] := by
  intro h
  have honce := (h.final none 0).once
  revert honce
  decide +kernel

end AutoTrade.Signals
