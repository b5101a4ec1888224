import AutoTrade.Backtest.WalkForward
import AutoTrade.Library.Table
import Mathlib.Algebra.BigOperators.Ring.List
import Mathlib.Algebra.Order.Field.Basic
import Mathlib.Data.List.Dedup
import Mathlib.Tactic.Linarith
import Mathlib.Tactic.Ring

/-! # Parameter drift

`analyze_parameter_drift` of `walkforward_engine.py`: the values of a parameter
in the earlier windows are compared with those in the later ones. The rating
tests the moderate thresholds before the significant ones, which are higher, and
the drift is relative to a mean that has the sign of the values. `math.sqrt` and
`math.exp` are parameters.
-/

namespace AutoTrade.Backtest

open AutoTrade.Library

inductive StabilityRating
  | stable
  | caution
  | unstable
deriving DecidableEq, Repr

/-- The larger, the more alarming. -/
def StabilityRating.severity : StabilityRating → Nat
  | .stable => 0
  | .caution => 1
  | .unstable => 2

structure ParameterDriftReport where
  parameter : String
  trainValues : List ℚ
  testValues : List ℚ
  driftDetected : Bool
  driftPct : ℚ
  stabilityRating : StabilityRating
  recommendation : String
  statisticalConfidence : ℚ := 0
deriving DecidableEq, Repr

def mean (vals : List ℚ) : ℚ := vals.sum / vals.length

def variance (vals : List ℚ) : ℚ :=
  (vals.map fun x => (x - mean vals) ^ 2).sum / (vals.length - 1)

/-- `calculate_statistical_significance`: the drift in percent and its confidence. -/
def calculateStatisticalSignificance (sqrt exp : ℚ → ℚ) (trainVals testVals : List ℚ) : ℚ × ℚ :=
  if trainVals.length < 2 ∨ testVals.length < 2 then (0, 0)
  else
    let shift := |mean testVals - mean trainVals|
    let spread := variance trainVals / trainVals.length + variance testVals / testVals.length
    let se := if 0 < spread then sqrt spread else 1 / 10000
    let tStat := if 0 < se then shift / se else 0
    let confidence := if 0 < tStat then min (99 / 100) (1 - exp (-(1 / 2) * tStat)) else 0
    let meanAll := (trainVals.sum + testVals.sum) / (trainVals.length + testVals.length)
    (if meanAll ≠ 0 then shift / meanAll * 100 else 0, confidence)

section Analysis

variable (sqrt exp : ℚ → ℚ) (driftThresholdPct minConfidence : ℚ)

def stability (driftPct confidence : ℚ) : StabilityRating :=
  let hasSignificantDrift := driftThresholdPct ≤ driftPct ∧ minConfidence ≤ confidence
  let hasModerateDrift :=
    driftThresholdPct * (1 / 2) ≤ driftPct ∧ minConfidence * (8 / 10) ≤ confidence
  if ¬ hasSignificantDrift ∧ ¬ hasModerateDrift then .stable
  else if hasModerateDrift then .caution
  else .unstable

def recommendation (rating : StabilityRating) (confidence : ℚ) : String :=
  match rating with
  | .stable => "Continue using current parameters"
  | .caution =>
      "Monitor closely (confidence: " ++ formatPercent confidence ++ "), consider retraining"
  | .unstable =>
      "RETRAIN REQUIRED - parameters drifted with " ++ formatPercent confidence ++ " confidence"

/-- The values of a parameter in the first half of the windows that have it. -/
def trainVals (windowParams : List (Dict String ℚ)) (param : String) : List ℚ :=
  (windowParams.take (windowParams.length / 2)).filterMap fun wp => wp.get? param

def testVals (windowParams : List (Dict String ℚ)) (param : String) : List ℚ :=
  (windowParams.drop (windowParams.length / 2)).filterMap fun wp => wp.get? param

/-- The report of one parameter, where it has values in both halves. -/
def driftReport (windowParams : List (Dict String ℚ)) (param : String) :
    Option ParameterDriftReport :=
  let train := trainVals windowParams param
  let test := testVals windowParams param
  if train = [] ∨ test = [] then none
  else
    let (driftPct, confidence) := calculateStatisticalSignificance sqrt exp train test
    let rating := stability driftThresholdPct minConfidence driftPct confidence
    some
      { parameter := param
        trainValues := train
        testValues := test
        driftDetected := decide (rating ≠ .stable)
        driftPct := roundTo 2 driftPct
        stabilityRating := rating
        recommendation := recommendation rating confidence
        statisticalConfidence := roundTo 3 confidence }

/-- `sorted(param_names)`. -/
def paramNames (windowParams : List (Dict String ℚ)) : List String :=
  (windowParams.flatMap fun wp => wp.rows.map Prod.fst).dedup.mergeSort (· ≤ ·)

/-- `window_params`. -/
def windowParams (windows : List WalkForwardWindow)
    (paramExtractor : BacktestReport → Dict String ℚ) : List (Dict String ℚ) :=
  windows.map fun window => paramExtractor window.report

def analyzeParameterDrift (windows : List WalkForwardWindow)
    (paramExtractor : BacktestReport → Dict String ℚ) : List ParameterDriftReport :=
  let params := windowParams windows paramExtractor
  (paramNames params).filterMap (driftReport sqrt exp driftThresholdPct minConfidence params)

end Analysis

/-! ## What makes the ratings sound -/

/-- The rating of a parameter, if it is reported. -/
def ratingOf (reports : List ParameterDriftReport) (param : String) : Option StabilityRating :=
  (reports.find? fun report => report.parameter = param).map ParameterDriftReport.stabilityRating

/-- The drift of a parameter and its confidence. -/
def changeOf (sqrt exp : ℚ → ℚ) (windowParams : List (Dict String ℚ)) (param : String) : ℚ × ℚ :=
  calculateStatisticalSignificance sqrt exp (trainVals windowParams param)
    (testVals windowParams param)

/-- The same parameters, one of them with the other sign. -/
def negated (param : String) (wp : Dict String ℚ) : Dict String ℚ :=
  wp.mapRows (fun e => (e.1, if e.1 = param then -e.2 else e.2)) fun _ => rfl

section Soundness

variable (sqrt exp : ℚ → ℚ) (driftThresholdPct minConfidence : ℚ)
  (windows : List WalkForwardWindow) (paramExtractor : BacktestReport → Dict String ℚ)

/-- A parameter that drifts by the threshold at the least confidence is unstable, a drift or confidence
that grows is never rated milder, and the sign of a parameter does not matter. -/
structure SoundRatings : Prop where
  significant : ∀ report ∈ analyzeParameterDrift sqrt exp driftThresholdPct minConfidence windows
      paramExtractor,
    driftThresholdPct ≤
      (calculateStatisticalSignificance sqrt exp report.trainValues report.testValues).1 →
    minConfidence ≤
      (calculateStatisticalSignificance sqrt exp report.trainValues report.testValues).2 →
    report.stabilityRating = .unstable
  monotone : ∀ drift drift' confidence confidence' : ℚ, drift ≤ drift' →
    confidence ≤ confidence' →
    (stability driftThresholdPct minConfidence drift confidence).severity ≤
      (stability driftThresholdPct minConfidence drift' confidence').severity
  signBlind : ∀ param,
    ratingOf (analyzeParameterDrift sqrt exp driftThresholdPct minConfidence windows
        fun report => negated param (paramExtractor report)) param =
      ratingOf (analyzeParameterDrift sqrt exp driftThresholdPct minConfidence windows
        paramExtractor) param

/-- A move by half the threshold in either direction, at four fifths of the confidence; none at all
only where the threshold asks for none. -/
def Drifts (drift confidence : ℚ) : Prop :=
  if drift = 0 then driftThresholdPct ≤ 0 ∧ minConfidence ≤ confidence
  else driftThresholdPct * (1 / 2) ≤ |drift| ∧ minConfidence * (8 / 10) ≤ confidence

/-- The thresholds are not negative, and no parameter drifts. -/
structure Undrifted : Prop where
  threshold : 0 ≤ driftThresholdPct
  confidence : 0 ≤ minConfidence
  still : ∀ param,
    trainVals (windowParams windows paramExtractor) param ≠ [] →
    testVals (windowParams windows paramExtractor) param ≠ [] →
    ¬ Drifts driftThresholdPct minConfidence
      (changeOf sqrt exp (windowParams windows paramExtractor) param).1
      (changeOf sqrt exp (windowParams windows paramExtractor) param).2

end Soundness

/-! ## The rating -/

section Rating

variable {thr minConf drift drift' confidence confidence' : ℚ}

/-- Where no threshold is negative, what is significant is moderate too, and that is tested first. -/
theorem stability_of_nonneg (hthr : 0 ≤ thr) (hconf : 0 ≤ minConf) (drift confidence : ℚ) :
    stability thr minConf drift confidence =
      if thr * (1 / 2) ≤ drift ∧ minConf * (8 / 10) ≤ confidence then .caution else .stable := by
  have hmoderate : thr ≤ drift ∧ minConf ≤ confidence →
      thr * (1 / 2) ≤ drift ∧ minConf * (8 / 10) ≤ confidence := by
    rintro ⟨hdrift, hconfidence⟩
    constructor <;> linarith
  unfold stability
  by_cases h : thr * (1 / 2) ≤ drift ∧ minConf * (8 / 10) ≤ confidence
  · rw [if_neg fun hnone => hnone.2 h, if_pos h, if_pos h]
  · rw [if_pos ⟨fun hsignificant => h (hmoderate hsignificant), h⟩, if_neg h]

theorem stability_mono (hthr : 0 ≤ thr) (hconf : 0 ≤ minConf) (hdrift : drift ≤ drift')
    (hconfidence : confidence ≤ confidence') :
    (stability thr minConf drift confidence).severity ≤
      (stability thr minConf drift' confidence').severity := by
  rw [stability_of_nonneg hthr hconf, stability_of_nonneg hthr hconf]
  by_cases h : thr * (1 / 2) ≤ drift ∧ minConf * (8 / 10) ≤ confidence
  · rw [if_pos h, if_pos ⟨h.1.trans hdrift, h.2.trans hconfidence⟩]
  · rw [if_neg h]
    exact Nat.zero_le _

/-- Below a negative threshold there are values that are significant without being moderate. -/
theorem stability_unstable (hsignificant : thr ≤ drift ∧ minConf ≤ confidence)
    (hmoderate : ¬ (thr * (1 / 2) ≤ drift ∧ minConf * (8 / 10) ≤ confidence)) :
    stability thr minConf drift confidence = .unstable := by
  unfold stability
  rw [if_neg fun hnone => hnone.1 hsignificant, if_neg hmoderate]

theorem stability_caution
    (hmoderate : thr * (1 / 2) ≤ drift ∧ minConf * (8 / 10) ≤ confidence) :
    stability thr minConf drift confidence = .caution := by
  unfold stability
  rw [if_neg fun hnone => hnone.2 hmoderate, if_pos hmoderate]

/-- The rating never gets milder exactly where neither threshold is negative. -/
theorem stability_mono_iff :
    (∀ drift drift' confidence confidence' : ℚ, drift ≤ drift' → confidence ≤ confidence' →
      (stability thr minConf drift confidence).severity ≤
        (stability thr minConf drift' confidence').severity) ↔ 0 ≤ thr ∧ 0 ≤ minConf := by
  constructor
  · intro h
    by_contra hnegative
    have hbelow : ∃ drift confidence, (thr ≤ drift ∧ minConf ≤ confidence) ∧
        ¬ (thr * (1 / 2) ≤ drift ∧ minConf * (8 / 10) ≤ confidence) := by
      rw [not_and_or, not_le, not_le] at hnegative
      rcases hnegative with hthr | hconf
      · exact ⟨thr, minConf, ⟨le_rfl, le_rfl⟩, fun h => by linarith [h.1]⟩
      · exact ⟨thr, minConf, ⟨le_rfl, le_rfl⟩, fun h => by linarith [h.2]⟩
    obtain ⟨drift, confidence, hsignificant, hmoderate⟩ := hbelow
    have hmilder := h drift (max drift (thr * (1 / 2))) confidence
      (max confidence (minConf * (8 / 10))) (le_max_left _ _) (le_max_left _ _)
    rw [stability_unstable hsignificant hmoderate,
      stability_caution ⟨le_max_right _ _, le_max_right _ _⟩] at hmilder
    exact absurd hmilder (by decide)
  · rintro ⟨hthr, hconf⟩ drift drift' confidence confidence' hdrift hconfidence
    exact stability_mono hthr hconf hdrift hconfidence

end Rating

/-! ## Values with the other sign -/

section Sign

variable {sqrt exp : ℚ → ℚ}

theorem mean_map_neg (vals : List ℚ) : mean (vals.map Neg.neg) = -mean vals := by
  rw [mean, mean, List.length_map, ← neg_div, List.sum_neg]

theorem variance_map_neg (vals : List ℚ) : variance (vals.map Neg.neg) = variance vals := by
  have hsquare : (vals.map Neg.neg).map (fun x => (x - mean (vals.map Neg.neg)) ^ 2) =
      vals.map fun x => (x - mean vals) ^ 2 := by
    rw [List.map_map, mean_map_neg]
    refine List.map_congr_left fun x _ => ?_
    simp only [Function.comp_apply]
    ring
  rw [variance, variance, hsquare, List.length_map]

/-- The other sign turns the drift around and leaves its confidence. -/
theorem significance_map_neg (train test : List ℚ) :
    calculateStatisticalSignificance sqrt exp (train.map Neg.neg) (test.map Neg.neg) =
      (-(calculateStatisticalSignificance sqrt exp train test).1,
        (calculateStatisticalSignificance sqrt exp train test).2) := by
  unfold calculateStatisticalSignificance
  have hsum : ∀ vals : List ℚ, (vals.map Neg.neg).sum = -vals.sum := fun vals =>
    (List.sum_neg vals).symm
  simp only [List.length_map, mean_map_neg, variance_map_neg, hsum]
  have hshift : |-mean test - -mean train| = |mean test - mean train| := by
    rw [← abs_neg]
    congr 1
    ring
  have hall : -train.sum + -test.sum = -(train.sum + test.sum) := by ring
  rw [hshift, hall, neg_div]
  split
  · simp
  · simp only [ne_eq, neg_eq_zero, div_neg, neg_mul, Prod.mk.injEq, and_true]
    split
    · rfl
    · rw [neg_zero]

theorem get?_negated (param : String) (wp : Dict String ℚ) :
    (negated param wp).get? param = (wp.get? param).map Neg.neg := by
  unfold negated Dict.get?
  rw [Table.find?_mapRows, Option.map_map, Option.map_map]
  cases hfind : wp.find? param with
  | none => rfl
  | some e => simp [Table.find?_key hfind]

theorem trainVals_negated (windowParams : List (Dict String ℚ)) (param : String) :
    trainVals (windowParams.map (negated param)) param =
      (trainVals windowParams param).map Neg.neg := by
  rw [trainVals, trainVals, List.length_map, ← List.map_take, List.filterMap_map,
    List.map_filterMap]
  exact List.filterMap_congr fun wp _ => get?_negated param wp

theorem testVals_negated (windowParams : List (Dict String ℚ)) (param : String) :
    testVals (windowParams.map (negated param)) param =
      (testVals windowParams param).map Neg.neg := by
  rw [testVals, testVals, List.length_map, ← List.map_drop, List.filterMap_map,
    List.map_filterMap]
  exact List.filterMap_congr fun wp _ => get?_negated param wp

end Sign

/-! ## The reports -/

section Reports

variable {sqrt exp : ℚ → ℚ} {thr minConf : ℚ} {params : List (Dict String ℚ)}
  {param : String}

/-- A report is of the values in both halves, rated by their drift. -/
structure ReportOf (sqrt exp : ℚ → ℚ) (thr minConf : ℚ) (params : List (Dict String ℚ))
    (param : String) (report : ParameterDriftReport) : Prop where
  train : trainVals params param ≠ []
  test : testVals params param ≠ []
  parameter : report.parameter = param
  trainValues : report.trainValues = trainVals params param
  testValues : report.testValues = testVals params param
  rating : report.stabilityRating =
    stability thr minConf (changeOf sqrt exp params param).1
      (changeOf sqrt exp params param).2

theorem reportOf_driftReport {report : ParameterDriftReport}
    (h : driftReport sqrt exp thr minConf params param = some report) :
    ReportOf sqrt exp thr minConf params param report := by
  unfold driftReport at h
  obtain ⟨hvalues, h⟩ := Option.ite_none_left_eq_some.mp h
  rw [not_or] at hvalues
  obtain rfl := Option.some.inj h
  exact ⟨hvalues.1, hvalues.2, rfl, rfl, rfl, rfl⟩

theorem driftReport_eq_none_iff :
    driftReport sqrt exp thr minConf params param = none ↔
      trainVals params param = [] ∨ testVals params param = [] := by
  unfold driftReport
  by_cases h : trainVals params param = [] ∨ testVals params param = []
  · simp [h]
  · simp only [h, if_false, reduceCtorEq]

/-- A parameter with values is one of the names. -/
theorem mem_paramNames (h : trainVals params param ≠ []) :
    param ∈ paramNames params := by
  obtain ⟨value, hvalue⟩ := List.exists_mem_of_ne_nil _ h
  obtain ⟨wp, hwp, hget⟩ := List.mem_filterMap.mp hvalue
  have hrow := (Dict.get?_eq_some_iff wp param value).mp hget
  rw [paramNames, List.mem_mergeSort, List.mem_dedup]
  exact List.mem_flatMap.mpr ⟨wp, List.mem_of_mem_take hwp, List.mem_map_of_mem hrow⟩

theorem mem_analyze {windows : List WalkForwardWindow}
    {paramExtractor : BacktestReport → Dict String ℚ} {report : ParameterDriftReport} :
    report ∈ analyzeParameterDrift sqrt exp thr minConf windows paramExtractor ↔
      ∃ param, driftReport sqrt exp thr minConf (windowParams windows paramExtractor) param =
        some report := by
  unfold analyzeParameterDrift
  rw [List.mem_filterMap]
  constructor
  · rintro ⟨param, -, hreport⟩
    exact ⟨param, hreport⟩
  · rintro ⟨param, hreport⟩
    exact ⟨param, mem_paramNames (reportOf_driftReport hreport).train, hreport⟩

theorem ratingOf_analyze (windows : List WalkForwardWindow)
    (paramExtractor : BacktestReport → Dict String ℚ) (param : String) :
    ratingOf (analyzeParameterDrift sqrt exp thr minConf windows paramExtractor) param =
      (driftReport sqrt exp thr minConf (windowParams windows paramExtractor) param).map
        ParameterDriftReport.stabilityRating := by
  unfold ratingOf
  congr 1
  cases hfind : (analyzeParameterDrift sqrt exp thr minConf windows paramExtractor).find?
      fun report => report.parameter = param with
  | none =>
      symm
      refine Option.eq_none_iff_forall_ne_some.mpr fun report hreport => ?_
      have hother := List.find?_eq_none.mp hfind report (mem_analyze.mpr ⟨param, hreport⟩)
      exact hother (decide_eq_true (reportOf_driftReport hreport).parameter)
  | some report =>
      obtain ⟨other, hreport⟩ := mem_analyze.mp (List.mem_of_find?_eq_some hfind)
      have hparam : report.parameter = param := by simpa using List.find?_some hfind
      rw [(reportOf_driftReport hreport).parameter] at hparam
      rw [← hparam, hreport]

/-- The rating of a parameter with its values negated. -/
theorem ratingOf_negated (windows : List WalkForwardWindow)
    (paramExtractor : BacktestReport → Dict String ℚ) (param : String) :
    ratingOf (analyzeParameterDrift sqrt exp thr minConf windows
        fun report => negated param (paramExtractor report)) param =
      (driftReport sqrt exp thr minConf
        ((windowParams windows paramExtractor).map (negated param)) param).map
          ParameterDriftReport.stabilityRating := by
  rw [ratingOf_analyze, windowParams, windowParams, List.map_map]
  rfl

theorem rating_driftReport (hvalues : trainVals params param ≠ [])
    (hlater : testVals params param ≠ []) :
    (driftReport sqrt exp thr minConf params param).map
        ParameterDriftReport.stabilityRating =
      some (stability thr minConf (changeOf sqrt exp params param).1
        (changeOf sqrt exp params param).2) := by
  cases hreport : driftReport sqrt exp thr minConf params param with
  | none => exact absurd (driftReport_eq_none_iff.mp hreport) (not_or.mpr ⟨hvalues, hlater⟩)
  | some report => exact congrArg some (reportOf_driftReport hreport).rating

theorem changeOf_negated (sqrt exp : ℚ → ℚ) (params : List (Dict String ℚ))
    (param : String) :
    changeOf sqrt exp (params.map (negated param)) param =
      (-(changeOf sqrt exp params param).1, (changeOf sqrt exp params param).2) := by
  rw [changeOf, trainVals_negated, testVals_negated, significance_map_neg]
  rfl

theorem rating_negated (hvalues : trainVals params param ≠ [])
    (hlater : testVals params param ≠ []) :
    (driftReport sqrt exp thr minConf (params.map (negated param)) param).map
        ParameterDriftReport.stabilityRating =
      some (stability thr minConf (-(changeOf sqrt exp params param).1)
        (changeOf sqrt exp params param).2) := by
  have htrain : trainVals (params.map (negated param)) param ≠ [] := by
    rw [trainVals_negated]
    exact List.map_eq_nil_iff.not.mpr hvalues
  have htest : testVals (params.map (negated param)) param ≠ [] := by
    rw [testVals_negated]
    exact List.map_eq_nil_iff.not.mpr hlater
  rw [rating_driftReport htrain htest, changeOf_negated]

end Reports

/-! ## Which analyses are sound -/

section Law

variable {sqrt exp : ℚ → ℚ} {thr minConf drift confidence : ℚ}

/-- The other sign is rated alike exactly where there is no drift, or one too small to be rated. -/
theorem stability_neg_iff (hthr : 0 ≤ thr) (hconf : 0 ≤ minConf) :
    stability thr minConf (-drift) confidence = stability thr minConf drift confidence ↔
      drift = 0 ∨ ¬ (thr * (1 / 2) ≤ |drift| ∧ minConf * (8 / 10) ≤ confidence) := by
  rw [stability_of_nonneg hthr hconf, stability_of_nonneg hthr hconf]
  by_cases hconfidence : minConf * (8 / 10) ≤ confidence
  · simp only [hconfidence, and_true]
    rcases lt_trichotomy drift 0 with hneg | hzero | hpos
    · have hdown : ¬ thr * (1 / 2) ≤ drift := by linarith
      rw [if_neg hdown, abs_of_neg hneg, or_iff_right hneg.ne]
      simp
    · simp [hzero]
    · have hdown : ¬ thr * (1 / 2) ≤ -drift := by linarith
      rw [if_neg hdown, abs_of_pos hpos, or_iff_right hpos.ne']
      simp
  · simp [hconfidence]

theorem drifts_of_significant (hthr : 0 ≤ thr) (hconf : 0 ≤ minConf) (hdrift : thr ≤ drift)
    (hconfidence : minConf ≤ confidence) : Drifts thr minConf drift confidence := by
  unfold Drifts
  split
  · rename_i hzero
    exact ⟨hdrift.trans hzero.le, hconfidence⟩
  · have habs := le_abs_self drift
    constructor <;> linarith

/-- The last branch is never reached. -/
theorem stability_ne_unstable (hthr : 0 ≤ thr) (hconf : 0 ≤ minConf) (drift confidence : ℚ) :
    stability thr minConf drift confidence ≠ .unstable := by
  rw [stability_of_nonneg hthr hconf]
  split <;> decide

/-- The ratings are sound exactly where no threshold is negative and no parameter drifts: whatever does
drift is rated milder than it should be, or by its sign. -/
theorem drift_ratings_sound_iff (sqrt exp : ℚ → ℚ) (thr minConf : ℚ)
    (windows : List WalkForwardWindow) (paramExtractor : BacktestReport → Dict String ℚ) :
    SoundRatings sqrt exp thr minConf windows paramExtractor ↔
      Undrifted sqrt exp thr minConf windows paramExtractor := by
  constructor
  · intro h
    obtain ⟨hthr, hconf⟩ := stability_mono_iff.mp h.monotone
    refine ⟨hthr, hconf, fun param htrain htest hdrifts => ?_⟩
    by_cases hzero : (changeOf sqrt exp (windowParams windows paramExtractor) param).1 = 0
    · rw [Drifts, if_pos hzero] at hdrifts
      cases hreport : driftReport sqrt exp thr minConf (windowParams windows paramExtractor)
          param with
      | none => exact absurd (driftReport_eq_none_iff.mp hreport) (not_or.mpr ⟨htrain, htest⟩)
      | some report =>
          have hof := reportOf_driftReport hreport
          have hunstable := h.significant report (mem_analyze.mpr ⟨param, hreport⟩)
          rw [hof.trainValues, hof.testValues, hof.rating] at hunstable
          exact stability_ne_unstable hthr hconf _ _
            (hunstable (hdrifts.1.trans hzero.ge) hdrifts.2)
    · rw [Drifts, if_neg hzero] at hdrifts
      have hblind := h.signBlind param
      rw [ratingOf_negated, ratingOf_analyze, rating_driftReport htrain htest,
        rating_negated htrain htest] at hblind
      rcases (stability_neg_iff hthr hconf).mp (Option.some.inj hblind) with hnone | hsmall
      · exact hzero hnone
      · exact hsmall hdrifts
  · intro h
    refine ⟨?_, stability_mono_iff.mpr ⟨h.threshold, h.confidence⟩, fun param => ?_⟩
    · intro report hreport hdrift hconfidence
      obtain ⟨param, hreport⟩ := mem_analyze.mp hreport
      have hof := reportOf_driftReport hreport
      rw [hof.trainValues, hof.testValues] at hdrift hconfidence
      exact absurd (drifts_of_significant h.threshold h.confidence hdrift hconfidence)
        (h.still param hof.train hof.test)
    · rw [ratingOf_negated, ratingOf_analyze]
      have hstill := h.still param
      generalize windowParams windows paramExtractor = params at hstill ⊢
      by_cases hvalues : trainVals params param = [] ∨ testVals params param = []
      · have hnegated : trainVals (params.map (negated param)) param = [] ∨
            testVals (params.map (negated param)) param = [] := by
          rw [trainVals_negated, testVals_negated]
          exact hvalues.imp List.map_eq_nil_iff.mpr List.map_eq_nil_iff.mpr
        rw [driftReport_eq_none_iff.mpr hvalues, driftReport_eq_none_iff.mpr hnegated]
      · rw [not_or] at hvalues
        rw [rating_driftReport hvalues.1 hvalues.2, rating_negated hvalues.1 hvalues.2,
          (stability_neg_iff h.threshold h.confidence).mpr]
        by_cases hzero : (changeOf sqrt exp params param).1 = 0
        · exact Or.inl hzero
        · refine Or.inr fun hmove => hstill hvalues.1 hvalues.2 ?_
          rw [Drifts, if_neg hzero]
          exact hmove

/-! ## A parameter that moves by a quarter -/

/-- The report of a window with one result and nothing else. -/
def pnlWindow (netPnl : ℚ) : WalkForwardWindow :=
  { trainStart := 0, trainEnd := 0, testStart := 0, testEnd := 0
    report :=
      { name := "NIFTY", initialCapital := 5000, endingCapital := 5000 + netPnl, trades := []
        totalTrades := 0, wins := 0, losses := 0, winRate := 0, netPnl := netPnl
        maxDrawdown := 0 } }

def pnlOf (report : BacktestReport) : Dict String ℚ := Dict.set Table.empty "net_pnl" report.netPnl

/-- Ten, ten, thirteen and thirteen: with no spread in either half the exponential is zero to machine
precision. The parameter drifts by more than a fifth at the highest confidence and is rated `CAUTION`. -/
theorem significant_drift_is_caution :
    ¬ SoundRatings id (fun _ => 0) 20 (8 / 10)
      [pnlWindow 10, pnlWindow 10, pnlWindow 13, pnlWindow 13] pnlOf := by
  intro h
  generalize hparams : windowParams [pnlWindow 10, pnlWindow 10, pnlWindow 13, pnlWindow 13]
    pnlOf = params
  have htrain : trainVals params "net_pnl" = [10, 10] := by
    rw [← hparams]
    decide +kernel
  have htest : testVals params "net_pnl" = [13, 13] := by
    rw [← hparams]
    decide +kernel
  have hchange : changeOf id (fun _ => 0) params "net_pnl" = (600 / 23, 99 / 100) := by
    rw [changeOf, htrain, htest]
    decide +kernel
  cases hreport : driftReport id (fun _ => 0) 20 (8 / 10) params "net_pnl" with
  | none =>
      rw [driftReport_eq_none_iff, htrain, htest] at hreport
      simp at hreport
  | some report =>
      have hof := reportOf_driftReport hreport
      have hunstable := h.significant report (mem_analyze.mpr ⟨"net_pnl", hparams ▸ hreport⟩)
      rw [hof.trainValues, hof.testValues, ← changeOf, hof.rating, hchange] at hunstable
      exact absurd (hunstable (by decide +kernel) (by decide +kernel)) (by decide +kernel)

end Law

end AutoTrade.Backtest
