import AutoTrade.Events.EventStore
import AutoTrade.Signals.ScoreBuckets

/-! # The score report

The rows of the joined dataset are counted by score bucket and, a second time, by
month. The monthly counts look at the outcome alone, the bucket counts at the
quality of the data first.
-/

namespace AutoTrade.Signals.ScoreDiscrimination

open AutoTrade.Library

/-- The members of `SCORE_BUCKETS`. -/
inductive ScoreBucket
  | from70
  | from75
  | from80
  | from85
deriving DecidableEq, Repr

inductive ScoreLabel
  | bucket (b : ScoreBucket)
  | below70
deriving DecidableEq, Repr

def scoreBuckets : List ScoreBucket := [.from70, .from75, .from80, .from85]

def assignScoreBucket : Option ℚ → Option ScoreLabel
  | none => none
  | some s =>
      if 85 ≤ s then some (.bucket .from85)
      else if 80 ≤ s ∧ s < 85 then some (.bucket .from80)
      else if 75 ≤ s ∧ s < 80 then some (.bucket .from75)
      else if 70 ≤ s ∧ s < 75 then some (.bucket .from70)
      else some .below70

/-- A row of the joined dataset, with the columns that the report reads. -/
structure JoinedRow where
  score : Option ℚ := none
  outcome : Option String := none
  dataQualityStatus : Option String := none
  capturedAt : Option String := none
  observedFrom : Option String := none
  mfeR : Option ℚ := none
  maeR : Option ℚ := none
  realizedR : Option ℚ := none
  timeToFirstEventSeconds : Option ℚ := none
deriving DecidableEq, Repr

def inBucket (b : ScoreBucket) (row : JoinedRow) : Bool :=
  decide (assignScoreBucket row.score = some (.bucket b))

/-! ## Counts by bucket -/

structure OutcomeCounts where
  targetFirst : Nat := 0
  slFirst : Nat := 0
  timeout : Nat := 0
  ambiguous : Nat := 0
  unresolved : Nat := 0
  noData : Nat := 0
deriving DecidableEq, Repr

def OutcomeCounts.add (c : OutcomeCounts) (row : JoinedRow) : OutcomeCounts :=
  let out := (orElse row.outcome "UNRESOLVED").toUpper
  let dq := (orElse row.dataQualityStatus "VALID_DATA").toUpper
  if dq = "NO_DATA" ∨ out = "NO_DATA" then { c with noData := c.noData + 1 }
  else if dq = "AMBIGUOUS_BAR" ∨ out = "AMBIGUOUS" then { c with ambiguous := c.ambiguous + 1 }
  else if out = "TARGET_FIRST" then { c with targetFirst := c.targetFirst + 1 }
  else if out = "SL_FIRST" then { c with slFirst := c.slFirst + 1 }
  else if out = "TIMEOUT" then { c with timeout := c.timeout + 1 }
  else { c with unresolved := c.unresolved + 1 }

/-- What a rate is out of, if anything. -/
def rateOf (count total : Nat) : Option ℚ :=
  if 0 < total then some (roundTo 4 ((count : ℚ) / total)) else none

inductive SampleStatus
  | validSample
  | insufficientSample
deriving DecidableEq, Repr

def sampleStatus (n : Nat) : SampleStatus :=
  if minInferenceSampleSize ≤ n then .validSample else .insufficientSample

structure ExpectancyInfo where
  expectancy : Option ℚ
  median : Option ℚ
  std : Option ℚ
  sampleSize : Nat
  status : SampleStatus
deriving DecidableEq, Repr

def calculateExpectancy (sqrt : ℚ → ℚ) (realizedR : List (Option ℚ)) : ExpectancyInfo :=
  let n := (realizedR.filterMap id).length
  let dist := calculateDistributionStats sqrt realizedR
  { expectancy := dist.mean, median := dist.median, std := dist.std, sampleSize := n
    status := sampleStatus n }

inductive ProfitFactorStatus
  | insufficientSample
  | undefinedNoLosses
  | noActivity
  | zeroWins
  | valid
deriving DecidableEq, Repr

def calculateProfitFactor (realizedR : List (Option ℚ)) : Option ℚ × ProfitFactorStatus :=
  let validR := realizedR.filterMap id
  if validR = [] then (none, .insufficientSample)
  else
    let posSum := (validR.filter fun r => decide (0 < r)).sum
    let negSum := |(validR.filter fun r => decide (r < 0)).sum|
    if negSum = 0 then if 0 < posSum then (none, .undefinedNoLosses) else (some 0, .noActivity)
    else if posSum = 0 then (some 0, .zeroWins)
    else (some (roundTo 4 (posSum / negSum)), .valid)

/-- `ScoreBucketMetrics`, without the confidence intervals. -/
structure ScoreBucketMetrics where
  nTotal : Nat
  counts : OutcomeCounts
  validResolvedCount : Nat
  targetFirstRate : Option ℚ
  slFirstRate : Option ℚ
  timeoutRate : Option ℚ
  ambiguousRate : Option ℚ
  unresolvedRate : Option ℚ
  noDataRate : Option ℚ
  mfeRStats : DistributionStats
  maeRStats : DistributionStats
  realizedRStats : DistributionStats
  expectancyInfo : ExpectancyInfo
  profitFactor : Option ℚ × ProfitFactorStatus
  timeToFirstEventMedian : Option ℚ
  timeToFirstEventMean : Option ℚ
  sampleSizeStatus : SampleStatus
deriving DecidableEq, Repr

def bucketMetrics (sqrt : ℚ → ℚ) (rows : List JoinedRow) : ScoreBucketMetrics :=
  let counts := rows.foldl OutcomeCounts.add {}
  let validResolved := counts.targetFirst + counts.slFirst + counts.timeout
  let tDist := calculateDistributionStats sqrt (rows.map JoinedRow.timeToFirstEventSeconds)
  { nTotal := rows.length
    counts
    validResolvedCount := validResolved
    targetFirstRate := rateOf counts.targetFirst validResolved
    slFirstRate := rateOf counts.slFirst validResolved
    timeoutRate := rateOf counts.timeout validResolved
    ambiguousRate := rateOf counts.ambiguous rows.length
    unresolvedRate := rateOf counts.unresolved rows.length
    noDataRate := rateOf counts.noData rows.length
    mfeRStats := calculateDistributionStats sqrt (rows.map JoinedRow.mfeR)
    maeRStats := calculateDistributionStats sqrt (rows.map JoinedRow.maeR)
    realizedRStats := calculateDistributionStats sqrt (rows.map JoinedRow.realizedR)
    expectancyInfo := calculateExpectancy sqrt (rows.map JoinedRow.realizedR)
    profitFactor := calculateProfitFactor (rows.map JoinedRow.realizedR)
    timeToFirstEventMedian := tDist.median
    timeToFirstEventMean := tDist.mean
    sampleSizeStatus := sampleStatus rows.length }

structure DataQualitySummary where
  validData : Nat := 0
  ambiguousBar : Nat := 0
  noData : Nat := 0
  invalidData : Nat := 0
  other : Nat := 0
deriving DecidableEq, Repr

def DataQualitySummary.add (c : DataQualitySummary) (row : JoinedRow) : DataQualitySummary :=
  let dq := orElse row.dataQualityStatus "VALID_DATA"
  if dq = "VALID_DATA" then { c with validData := c.validData + 1 }
  else if dq = "AMBIGUOUS_BAR" then { c with ambiguousBar := c.ambiguousBar + 1 }
  else if dq = "NO_DATA" then { c with noData := c.noData + 1 }
  else if dq = "INVALID_DATA" then { c with invalidData := c.invalidData + 1 }
  else { c with other := c.other + 1 }

/-! ## Counts by month -/

def monthKey (row : JoinedRow) : String :=
  let ts := Events.strip (orElse row.capturedAt (orElse row.observedFrom ""))
  if 7 ≤ ts.length ∧ ts.toList[4]? = some '-' then String.ofList (ts.toList.take 7)
  else "UNKNOWN_DATE"

/-- The three counters that a month has for a bucket. -/
structure PeriodCounts where
  total : Nat := 0
  targetFirst : Nat := 0
  resolved : Nat := 0
deriving DecidableEq, Repr

def isResolved (row : JoinedRow) : Bool :=
  decide ((orElse row.outcome "").toUpper ∈ ["TARGET_FIRST", "SL_FIRST", "TIMEOUT"])

def isTargetFirst (row : JoinedRow) : Bool :=
  decide ((orElse row.outcome "").toUpper = "TARGET_FIRST")

def PeriodCounts.add (b : ScoreBucket) (c : PeriodCounts) (row : JoinedRow) : PeriodCounts :=
  if inBucket b row then
    { total := c.total + 1
      targetFirst := c.targetFirst + (if isTargetFirst row then 1 else 0)
      resolved := c.resolved + (if isResolved row then 1 else 0) }
  else c

inductive PeriodStatus
  | descriptiveOnly
  | insufficientSample
deriving DecidableEq, Repr

structure TemporalBucketPeriod where
  period : String
  totalSignals : Nat
  bucketCounts : ScoreBucket → PeriodCounts
  bucketTargetRates : ScoreBucket → Option ℚ
  status : PeriodStatus

def temporalPeriod (period : String) (rows : List JoinedRow) : TemporalBucketPeriod :=
  let counts := fun b => rows.foldl (PeriodCounts.add b) {}
  { period
    totalSignals := rows.length
    bucketCounts := counts
    bucketTargetRates := fun b => rateOf (counts b).targetFirst (counts b).resolved
    status := if minInferenceSampleSize ≤ rows.length then .descriptiveOnly else .insufficientSample }

def evaluateTemporalStability (dataset : List JoinedRow) : List TemporalBucketPeriod :=
  let months := (Dict.groupInto monthKey Table.empty dataset).rows.mergeSort
    fun a b => decide (a.1 ≤ b.1)
  months.map fun e => temporalPeriod e.1 e.2

/-! ## The report -/

/-- `ScoreDiscriminationReport`, without the statistical tests. -/
structure ScoreDiscriminationReport where
  totalSnapshots : Nat
  actualScoreMin : Option ℚ
  actualScoreMax : Option ℚ
  actualScoreMean : Option ℚ
  bucketMetrics : ScoreBucket → ScoreBucketMetrics
  temporalStability : List TemporalBucketPeriod
  dataQualitySummary : DataQualitySummary

def analyzeScoreBuckets (sqrt : ℚ → ℚ) (dataset : List JoinedRow) : ScoreDiscriminationReport :=
  let scores := dataset.filterMap JoinedRow.score
  { totalSnapshots := dataset.length
    actualScoreMin := scores.min?
    actualScoreMax := scores.max?
    actualScoreMean := if scores = [] then none else some (roundTo 2 (scores.sum / scores.length))
    bucketMetrics := fun b => bucketMetrics sqrt (dataset.filter (inBucket b))
    temporalStability := evaluateTemporalStability dataset
    dataQualitySummary := dataset.foldl DataQualitySummary.add {} }

/-! ## Every row is counted once -/

def OutcomeCounts.sum (c : OutcomeCounts) : Nat :=
  c.targetFirst + c.slFirst + c.timeout + c.ambiguous + c.unresolved + c.noData

def OutcomeCounts.resolved (c : OutcomeCounts) : Nat := c.targetFirst + c.slFirst + c.timeout

def DataQualitySummary.sum (c : DataQualitySummary) : Nat :=
  c.validData + c.ambiguousBar + c.noData + c.invalidData + c.other

/-- The quality of the data alone decides how the row is counted. -/
def isFlagged (row : JoinedRow) : Bool :=
  decide ((orElse row.dataQualityStatus "VALID_DATA").toUpper ∈ ["NO_DATA", "AMBIGUOUS_BAR"])

theorem sum_add_outcome (c : OutcomeCounts) (row : JoinedRow) : (c.add row).sum = c.sum + 1 := by
  unfold OutcomeCounts.add
  dsimp only
  split_ifs <;> simp only [OutcomeCounts.sum] <;> omega

theorem sum_add_quality (c : DataQualitySummary) (row : JoinedRow) :
    (c.add row).sum = c.sum + 1 := by
  unfold DataQualitySummary.add
  dsimp only
  split_ifs <;> simp only [DataQualitySummary.sum] <;> omega

/-- An outcome that is missing reads as none of the resolved ones, by either default. -/
theorem toUpper_orElse_eq (outcome : Option String) {text : String}
    (htext : text ∈ ["TARGET_FIRST", "SL_FIRST", "TIMEOUT"]) :
    (orElse outcome "UNRESOLVED").toUpper = text ↔ (orElse outcome "").toUpper = text := by
  unfold orElse
  split
  · rename_i hsome
    cases outcome with
    | none => simp [truthy] at hsome
    | some _ => rfl
  · have hdefault : "UNRESOLVED".toUpper ≠ text ∧ "".toUpper ≠ text := by
      simp only [List.mem_cons, List.not_mem_nil, or_false] at htext
      rcases htext with rfl | rfl | rfl <;> decide +kernel
    exact iff_of_false hdefault.1 hdefault.2

theorem isResolved_eq (row : JoinedRow) :
    isResolved row = decide ((orElse row.outcome "UNRESOLVED").toUpper ∈
      ["TARGET_FIRST", "SL_FIRST", "TIMEOUT"]) := by
  unfold isResolved
  refine decide_eq_decide.mpr ⟨fun h => ?_, fun h => ?_⟩
  · rwa [(toUpper_orElse_eq row.outcome h).mpr rfl]
  · rwa [(toUpper_orElse_eq row.outcome h).mp rfl]

theorem isTargetFirst_eq (row : JoinedRow) :
    isTargetFirst row = decide ((orElse row.outcome "UNRESOLVED").toUpper = "TARGET_FIRST") :=
  decide_eq_decide.mpr (toUpper_orElse_eq row.outcome (by simp)).symm

/-- Counted as resolved is a row with a resolved outcome and without a flag. -/
theorem resolved_add (c : OutcomeCounts) (row : JoinedRow) :
    (c.add row).resolved = c.resolved + (if isResolved row && !isFlagged row then 1 else 0) ∧
    (c.add row).targetFirst =
      c.targetFirst + (if isTargetFirst row && !isFlagged row then 1 else 0) := by
  rw [isResolved_eq, isTargetFirst_eq]
  unfold OutcomeCounts.add isFlagged
  generalize (orElse row.outcome "UNRESOLVED").toUpper = out
  generalize (orElse row.dataQualityStatus "VALID_DATA").toUpper = dq
  dsimp only
  split_ifs <;> simp_all [OutcomeCounts.resolved] <;> omega

theorem outcomes_of (rows : List JoinedRow) :
    (rows.foldl OutcomeCounts.add {}).sum = rows.length ∧
    (rows.foldl OutcomeCounts.add {}).resolved =
      rows.countP (fun row => isResolved row && !isFlagged row) ∧
    (rows.foldl OutcomeCounts.add {}).targetFirst =
      rows.countP fun row => isTargetFirst row && !isFlagged row := by
  have hsum : ∀ (c : OutcomeCounts) (row : JoinedRow),
      (c.add row).sum = c.sum + if (fun _ => true) row = true then 1 else 0 := sum_add_outcome
  have htotal := counter_foldl hsum rows {}
  have hresolved := counter_foldl (fun c row => (resolved_add c row).1) rows {}
  have htarget := counter_foldl (fun c row => (resolved_add c row).2) rows {}
  rw [List.countP_true] at htotal
  exact ⟨htotal.trans (Nat.zero_add _), hresolved.trans (Nat.zero_add _),
    htarget.trans (Nat.zero_add _)⟩

theorem periodCounts_of (b : ScoreBucket) (rows : List JoinedRow) :
    rows.foldl (PeriodCounts.add b) {} =
      { total := rows.countP (inBucket b)
        targetFirst := rows.countP fun row => inBucket b row && isTargetFirst row
        resolved := rows.countP fun row => inBucket b row && isResolved row } := by
  have htotal : ∀ (c : PeriodCounts) (row : JoinedRow),
      (PeriodCounts.add b c row).total = c.total + if inBucket b row then 1 else 0 := by
    intro c row
    unfold PeriodCounts.add
    split <;> simp_all
  have htarget : ∀ (c : PeriodCounts) (row : JoinedRow), (PeriodCounts.add b c row).targetFirst =
      c.targetFirst + if inBucket b row && isTargetFirst row then 1 else 0 := by
    intro c row
    unfold PeriodCounts.add
    split <;> simp_all
  have hresolved : ∀ (c : PeriodCounts) (row : JoinedRow), (PeriodCounts.add b c row).resolved =
      c.resolved + if inBucket b row && isResolved row then 1 else 0 := by
    intro c row
    unfold PeriodCounts.add
    split <;> simp_all
  have hfold := counter_foldl htotal rows {}
  have hfold' := counter_foldl htarget rows {}
  have hfold'' := counter_foldl hresolved rows {}
  rw [Nat.zero_add] at hfold hfold' hfold''
  rw [← hfold, ← hfold', ← hfold'']

/-- The counts of the months together are the count over the dataset. -/
theorem sum_countP_months (p : JoinedRow → Bool) (dataset : List JoinedRow) :
    ((((Dict.groupInto monthKey Table.empty dataset).rows.mergeSort
      fun a b => decide (a.1 ≤ b.1)).map fun e => e.2.countP p)).sum = dataset.countP p := by
  rw [((List.mergeSort_perm _ _).map fun e : String × List JoinedRow => e.2.countP p).sum_eq]
  exact Dict.sum_countP_groupInto p dataset

theorem months_sorted (dataset : List JoinedRow) :
    ((evaluateTemporalStability dataset).map TemporalBucketPeriod.period).Pairwise (· < ·) := by
  set months := Dict.groupInto monthKey (Table.empty : Dict String (List JoinedRow)) dataset
    with hmonths
  have hperiods : (evaluateTemporalStability dataset).map TemporalBucketPeriod.period =
      (months.rows.mergeSort fun a b => decide (a.1 ≤ b.1)).map Prod.fst := by
    rw [evaluateTemporalStability, List.map_map]
    rfl
  have hordered : ((months.rows.mergeSort fun a b => decide (a.1 ≤ b.1)).map Prod.fst).Pairwise
      (· ≤ ·) := by
    rw [List.pairwise_map]
    refine (List.pairwise_mergeSort (fun a b c hab hbc => ?_) (fun a b => ?_) _).imp ?_
    · exact decide_eq_true ((of_decide_eq_true hab).trans (of_decide_eq_true hbc))
    · simpa using le_total a.1 b.1
    · exact fun h => of_decide_eq_true h
  have hdistinct : ((months.rows.mergeSort fun a b => decide (a.1 ≤ b.1)).map Prod.fst).Nodup :=
    ((List.mergeSort_perm _ _).map Prod.fst).nodup_iff.mpr months.nodup
  rw [hperiods]
  exact (hordered.and hdistinct).imp fun h => lt_of_le_of_ne h.1 h.2

theorem assignScoreBucket_eq_none_iff (score : Option ℚ) :
    assignScoreBucket score = none ↔ score = none := by
  cases score with
  | none => exact iff_of_true rfl rfl
  | some s =>
      unfold assignScoreBucket
      dsimp only
      split_ifs <;> simp

/-- A row is in one bucket, or below all of them, or without a score. -/
theorem buckets_partition (dataset : List JoinedRow) :
    (scoreBuckets.map fun b => dataset.countP (inBucket b)).sum +
        dataset.countP (fun row => decide (assignScoreBucket row.score = some .below70)) +
        dataset.countP (fun row => decide (row.score = none)) = dataset.length := by
  induction dataset with
  | nil => rfl
  | cons row rest ih =>
      simp only [scoreBuckets, List.map_cons, List.map_nil, List.sum_cons, List.sum_nil] at ih ⊢
      simp only [List.countP_cons, List.length_cons, ← assignScoreBucket_eq_none_iff, inBucket] at ih ⊢
      obtain ⟨label, hlabel⟩ : ∃ label, assignScoreBucket row.score = label := ⟨_, rfl⟩
      rcases label with _ | ⟨b⟩ | _
      · simp [hlabel]
        omega
      · cases b <;> simp [hlabel] <;> omega
      · simp [hlabel]
        omega

theorem countP_and_split (dataset : List JoinedRow) (p q f : JoinedRow → Bool) :
    dataset.countP (fun row => p row && q row) =
      (dataset.filter p).countP (fun row => q row && !f row) +
        dataset.countP fun row => p row && q row && f row := by
  induction dataset with
  | nil => rfl
  | cons row rest ih =>
      rw [List.countP_cons, List.countP_cons, List.filter_cons, ih]
      cases hp : p row <;> cases hq : q row <;> cases hf : f row <;> simp [hq, hf] <;> omega

/-- The report counts every row of the dataset once: in a bucket under one outcome, below the
buckets or without a score; under one quality; and in one month. The months have the bucket totals
of the report; of the resolved rows and of the targets they have more, by the rows whose quality was
flagged, which the buckets do not count as resolved. -/
theorem report_reconciles (sqrt : ℚ → ℚ) (dataset : List JoinedRow) :
    let r := analyzeScoreBuckets sqrt dataset
    let overMonths := fun count : TemporalBucketPeriod → Nat => (r.temporalStability.map count).sum
    (∀ b, (r.bucketMetrics b).counts.sum = (r.bucketMetrics b).nTotal) ∧
      (scoreBuckets.map fun b => (r.bucketMetrics b).nTotal).sum +
        dataset.countP (fun row => decide (assignScoreBucket row.score = some .below70)) +
        dataset.countP (fun row => decide (row.score = none)) = r.totalSnapshots ∧
      r.dataQualitySummary.sum = r.totalSnapshots ∧
      (r.temporalStability.map TemporalBucketPeriod.period).Pairwise (· < ·) ∧
      overMonths TemporalBucketPeriod.totalSignals = r.totalSnapshots ∧
      ∀ b, overMonths (fun period => (period.bucketCounts b).total) = (r.bucketMetrics b).nTotal ∧
        overMonths (fun period => (period.bucketCounts b).resolved) =
          (r.bucketMetrics b).validResolvedCount +
            dataset.countP (fun row => inBucket b row && isResolved row && isFlagged row) ∧
        overMonths (fun period => (period.bucketCounts b).targetFirst) =
          (r.bucketMetrics b).counts.targetFirst +
            dataset.countP (fun row => inBucket b row && isTargetFirst row && isFlagged row) := by
  intro r overMonths
  have hmonths : ∀ (count : TemporalBucketPeriod → Nat) (p : JoinedRow → Bool),
      (∀ period rows, count (temporalPeriod period rows) = rows.countP p) →
        overMonths count = dataset.countP p := by
    intro count p hcount
    rw [← sum_countP_months]
    simp only [overMonths, r, analyzeScoreBuckets, evaluateTemporalStability, List.map_map,
      Function.comp_def, hcount]
  have hquality := counter_foldl (p := fun _ => true) (fun c row => sum_add_quality c row) dataset {}
  rw [List.countP_true] at hquality
  refine ⟨fun b => (outcomes_of _).1, ?_, hquality.trans (Nat.zero_add _), months_sorted dataset, ?_,
    fun b => ⟨?_, ?_, ?_⟩⟩
  · have hparts := buckets_partition dataset
    simp only [List.countP_eq_length_filter] at hparts ⊢
    exact hparts
  · rw [hmonths _ (fun _ => true) fun _ rows => (congrFun List.countP_true rows).symm,
      List.countP_true]
    rfl
  · rw [hmonths _ (inBucket b) fun _ rows => congrArg PeriodCounts.total (periodCounts_of b rows),
      List.countP_eq_length_filter]
    rfl
  · rw [hmonths _ _ fun _ rows => congrArg PeriodCounts.resolved (periodCounts_of b rows),
      countP_and_split dataset (inBucket b) isResolved isFlagged, ← (outcomes_of _).2.1]
    rfl
  · rw [hmonths _ _ fun _ rows => congrArg PeriodCounts.targetFirst (periodCounts_of b rows),
      countP_and_split dataset (inBucket b) isTargetFirst isFlagged, ← (outcomes_of _).2.2]
    rfl

end AutoTrade.Signals.ScoreDiscrimination
