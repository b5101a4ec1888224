import AutoTrade.Library.PyJson

/-! # The hash of a prediction snapshot

The snapshot part of `record_generated_signal`, `get_prediction_snapshot` and
`compute_prediction_snapshot_hash` of `core/signals/signal_tracker.py`. The hash
is taken of the Python values before they are stored; reading back goes through
the column types of `signal_prediction_snapshots` and through the JSON texts of
two dictionaries. The columns hold what `str`, `int` and `float` made of the
fields of the signal. A signal is not stored where an exception is raised.
-/

namespace AutoTrade.Signals

open AutoTrade.Library

/-- The columns that are hashed, other than the two dictionaries. -/
structure SnapshotColumns where
  signalId : String
  capturedAt : String
  snapshotSchemaVersion : String
  engineVersion : String
  strategyVersion : String
  modelVersion : String
  calibrationVersion : String
  featureSchemaVersion : String
  symbol : String
  category : String
  direction : String
  strategy : String
  score : Int
  rawScore : Option PyFloat
  normalizedScore : Option PyFloat
  scoreSaturated : Int
  tier : String
  entryPrice : Option PyFloat
  stopLoss : Option PyFloat
  target1 : Option PyFloat
  target2 : Option PyFloat
  marketRegime : String
  regimeConfidence : Option PyFloat
  compositeScore : Option PyFloat
  pT1 : Option PyFloat
  pT2 : Option PyFloat
  pSl : Option PyFloat
  pTimeout : Option PyFloat
  expectedValueR : Option PyFloat
  netRrT1 : Option PyFloat
  netRrT2 : Option PyFloat
  source : String

/-- What a REAL column gives back: NaN is stored as NULL, and a whole number as an integer, which has
no negative zero. -/
def realColumn : PyFloat → Option PyFloat
  | .nan => none
  | .infinite negative => some (.infinite negative)
  | .finite negative magnitude => some (.finite (negative && decide (magnitude ≠ 0)) magnitude)

/-- An integer beyond 64 bits raises `OverflowError`. -/
def fitsInteger (i : Int) : Bool := decide (-9223372036854775808 ≤ i ∧ i < 9223372036854775808)

def optionalFloat : Option PyFloat → PyValue
  | none => .none
  | some x => .float x

namespace SnapshotColumns

/-- The columns as they are read back. -/
def stored (c : SnapshotColumns) : SnapshotColumns where
  signalId := c.signalId
  capturedAt := c.capturedAt
  snapshotSchemaVersion := c.snapshotSchemaVersion
  engineVersion := c.engineVersion
  strategyVersion := c.strategyVersion
  modelVersion := c.modelVersion
  calibrationVersion := c.calibrationVersion
  featureSchemaVersion := c.featureSchemaVersion
  symbol := c.symbol
  category := c.category
  direction := c.direction
  strategy := c.strategy
  score := c.score
  rawScore := c.rawScore.bind realColumn
  normalizedScore := c.normalizedScore.bind realColumn
  scoreSaturated := c.scoreSaturated
  tier := c.tier
  entryPrice := c.entryPrice.bind realColumn
  stopLoss := c.stopLoss.bind realColumn
  target1 := c.target1.bind realColumn
  target2 := c.target2.bind realColumn
  marketRegime := c.marketRegime
  regimeConfidence := c.regimeConfidence.bind realColumn
  compositeScore := c.compositeScore.bind realColumn
  pT1 := c.pT1.bind realColumn
  pT2 := c.pT2.bind realColumn
  pSl := c.pSl.bind realColumn
  pTimeout := c.pTimeout.bind realColumn
  expectedValueR := c.expectedValueR.bind realColumn
  netRrT1 := c.netRrT1.bind realColumn
  netRrT2 := c.netRrT2.bind realColumn
  source := c.source

/-- The REAL columns. -/
def reals (c : SnapshotColumns) : List (Option PyFloat) :=
  [c.rawScore, c.normalizedScore, c.entryPrice, c.stopLoss, c.target1, c.target2,
    c.regimeConfidence, c.compositeScore, c.pT1, c.pT2, c.pSl, c.pTimeout, c.expectedValueR,
    c.netRrT1, c.netRrT2]

/-- Whether the row can be inserted: both integers fit, and the four prices are NOT NULL. -/
def insertable (c : SnapshotColumns) : Bool :=
  fitsInteger c.score && fitsInteger c.scoreSaturated &&
    [c.stored.entryPrice, c.stored.stopLoss, c.stored.target1, c.stored.target2].all Option.isSome

/-- `hash_payload`. -/
def payload (c : SnapshotColumns) (features components : PyValue) : List (PyKey × PyValue) :=
  [(.text "signal_id", .text c.signalId),
    (.text "captured_at", .text c.capturedAt),
    (.text "snapshot_schema_version", .text c.snapshotSchemaVersion),
    (.text "engine_version", .text c.engineVersion),
    (.text "strategy_version", .text c.strategyVersion),
    (.text "model_version", .text c.modelVersion),
    (.text "calibration_version", .text c.calibrationVersion),
    (.text "feature_schema_version", .text c.featureSchemaVersion),
    (.text "symbol", .text c.symbol),
    (.text "category", .text c.category),
    (.text "direction", .text c.direction),
    (.text "strategy", .text c.strategy),
    (.text "score", .int c.score),
    (.text "raw_score", optionalFloat c.rawScore),
    (.text "normalized_score", optionalFloat c.normalizedScore),
    (.text "score_saturated", .int c.scoreSaturated),
    (.text "tier", .text c.tier),
    (.text "entry_price", optionalFloat c.entryPrice),
    (.text "stop_loss", optionalFloat c.stopLoss),
    (.text "target_1", optionalFloat c.target1),
    (.text "target_2", optionalFloat c.target2),
    (.text "market_regime", .text c.marketRegime),
    (.text "regime_confidence", optionalFloat c.regimeConfidence),
    (.text "composite_score", optionalFloat c.compositeScore),
    (.text "p_t1", optionalFloat c.pT1),
    (.text "p_t2", optionalFloat c.pT2),
    (.text "p_sl", optionalFloat c.pSl),
    (.text "p_timeout", optionalFloat c.pTimeout),
    (.text "expected_value_r", optionalFloat c.expectedValueR),
    (.text "net_rr_t1", optionalFloat c.netRrT1),
    (.text "net_rr_t2", optionalFloat c.netRrT2),
    (.text "features", features),
    (.text "score_components", components),
    (.text "source", .text c.source)]

end SnapshotColumns

/-- A row of `signal_prediction_snapshots`, as far as it is hashed. -/
structure SnapshotRow (η : Type) where
  columns : SnapshotColumns
  featuresJson : Json
  scoreComponentsJson : Json
  snapshotHash : η

/-- Python truth of a value. -/
def isTrue : PyValue → Bool
  | .none => false
  | .bool b => b
  | .int i => decide (i ≠ 0)
  | .float x => decide (x.value? ≠ some (0, 0))
  | .text s => decide (s ≠ "")
  | .list items => !items.isEmpty
  | .dict entries => !entries.isEmpty

/-- `raw = signal_dict.get(first) or signal_dict.get(second) or {}`, kept where it is a dictionary. -/
def cleanDict (first second : Option PyValue) : List (PyKey × PyValue) :=
  match (first.filter isTrue).or (second.filter isTrue) with
  | some (.dict entries) => entries
  | _ => []

section Hash

variable (floatText : PyFloat → String) {η : Type} (sha256 : Json → η)

/-- The digest of the canonical text; `none` where `json.dumps` raises. -/
def computePredictionSnapshotHash (payload : List (PyKey × PyValue)) : Option η :=
  (dumps floatText (.dict (payload.filter fun e => decide (e.1 ≠ .text "snapshot_hash")))).map sha256

/-- The row that is stored, if one is. -/
def recordSnapshot (c : SnapshotColumns)
    (features featureSnapshot scoreComponents components : Option PyValue) :
    Option (SnapshotRow η) :=
  let featuresClean := PyValue.dict (cleanDict features featureSnapshot)
  let componentsClean := PyValue.dict (cleanDict scoreComponents components)
  (dumps floatText featuresClean).bind fun featuresJson =>
    (dumps floatText componentsClean).bind fun scoreComponentsJson =>
      (computePredictionSnapshotHash floatText sha256
          (c.payload featuresClean componentsClean)).bind fun snapshotHash =>
        if c.insertable then
          some { columns := c.stored, featuresJson, scoreComponentsJson, snapshotHash }
        else none

/-- The hash of the hashed fields as `get_prediction_snapshot` returns them. -/
def recomputedHash (row : SnapshotRow η) : Option η :=
  computePredictionSnapshotHash floatText sha256
    (row.columns.payload (loads row.featuresJson) (loads row.scoreComponentsJson))

end Hash

/-! ## What the hash is taken of -/

/-- A float that a REAL column gives back as it was. -/
def Lossless (x : PyFloat) : Prop := x ≠ .nan ∧ x ≠ .finite true 0

theorem realColumn_eq_self_iff (x : PyFloat) : realColumn x = some x ↔ Lossless x := by
  unfold Lossless
  cases x with
  | nan => simp [realColumn]
  | infinite negative => simp [realColumn]
  | finite negative magnitude => cases negative <;> simp [realColumn]

theorem bind_realColumn_eq_self_iff (x : Option PyFloat) :
    x.bind realColumn = x ↔ ∀ v, x = some v → Lossless v := by
  cases x with
  | none => simp
  | some v => simp [realColumn_eq_self_iff]

theorem stored_eq_self_iff (c : SnapshotColumns) :
    c.stored = c ↔ ∀ x ∈ c.reals, ∀ v, x = some v → Lossless v := by
  obtain ⟨⟩ := c
  simp only [SnapshotColumns.stored, SnapshotColumns.mk.injEq, bind_realColumn_eq_self_iff, true_and,
    and_true, SnapshotColumns.reals, List.forall_mem_cons, List.not_mem_nil, false_implies,
    implies_true]

def optionalJson : Option PyFloat → Json
  | none => .null
  | some x => .float x

theorem optionalJson_inj {x y : Option PyFloat} : optionalJson x = optionalJson y ↔ x = y := by
  cases x <;> cases y <;> simp [optionalJson]

/-- The members of the text that is hashed, before they are sorted. -/
def SnapshotColumns.members (c : SnapshotColumns) (features components : Json) :
    List (String × Json) :=
  [("signal_id", .text c.signalId),
    ("captured_at", .text c.capturedAt),
    ("snapshot_schema_version", .text c.snapshotSchemaVersion),
    ("engine_version", .text c.engineVersion),
    ("strategy_version", .text c.strategyVersion),
    ("model_version", .text c.modelVersion),
    ("calibration_version", .text c.calibrationVersion),
    ("feature_schema_version", .text c.featureSchemaVersion),
    ("symbol", .text c.symbol),
    ("category", .text c.category),
    ("direction", .text c.direction),
    ("strategy", .text c.strategy),
    ("score", .int c.score),
    ("raw_score", optionalJson c.rawScore),
    ("normalized_score", optionalJson c.normalizedScore),
    ("score_saturated", .int c.scoreSaturated),
    ("tier", .text c.tier),
    ("entry_price", optionalJson c.entryPrice),
    ("stop_loss", optionalJson c.stopLoss),
    ("target_1", optionalJson c.target1),
    ("target_2", optionalJson c.target2),
    ("market_regime", .text c.marketRegime),
    ("regime_confidence", optionalJson c.regimeConfidence),
    ("composite_score", optionalJson c.compositeScore),
    ("p_t1", optionalJson c.pT1),
    ("p_t2", optionalJson c.pT2),
    ("p_sl", optionalJson c.pSl),
    ("p_timeout", optionalJson c.pTimeout),
    ("expected_value_r", optionalJson c.expectedValueR),
    ("net_rr_t1", optionalJson c.netRrT1),
    ("net_rr_t2", optionalJson c.netRrT2),
    ("features", features),
    ("score_components", components),
    ("source", .text c.source)]

section Hash

variable (floatText : PyFloat → String)

theorem filter_payload (c : SnapshotColumns) (features components : PyValue) :
    (c.payload features components).filter (fun e => decide (e.1 ≠ .text "snapshot_hash")) =
      c.payload features components := by
  simp [SnapshotColumns.payload]

theorem dumps_optionalFloat (x : Option PyFloat) :
    dumps floatText (optionalFloat x) = some (optionalJson x) := by
  cases x <;> rfl

theorem dumpsEntries_payload (c : SnapshotColumns) {features components : PyValue}
    {featuresJson componentsJson : Json} (hfeatures : dumps floatText features = some featuresJson)
    (hcomponents : dumps floatText components = some componentsJson) :
    dumpsEntries floatText (c.payload features components) =
      some ((c.members featuresJson componentsJson).map fun m => (PyKey.text m.1, m.2)) := by
  simp [SnapshotColumns.payload, SnapshotColumns.members, dumpsEntries, dumps_optionalFloat,
    hfeatures, hcomponents, dumps]

theorem keys_members (c c' : SnapshotColumns) (features features' components components' : Json) :
    (c.members features components).map Prod.fst = (c'.members features' components').map Prod.fst :=
  rfl

theorem nodup_keys_members (c : SnapshotColumns) (features components : Json) :
    ((c.members features components).map Prod.fst).Nodup := by
  simp [SnapshotColumns.members]

theorem members_inj {c c' : SnapshotColumns} {features features' components components' : Json} :
    c.members features components = c'.members features' components' ↔
      c = c' ∧ features = features' ∧ components = components' := by
  obtain ⟨⟩ := c
  obtain ⟨⟩ := c'
  simp only [SnapshotColumns.members, List.cons.injEq, Prod.mk.injEq, true_and, and_true,
    Json.text.injEq, Json.int.injEq, optionalJson_inj, SnapshotColumns.mk.injEq]
  tauto

variable {η : Type} (sha256 : Json → η)

/-- The hash is taken of the members in the order of their keys. -/
theorem hash_payload_eq_some_iff (c : SnapshotColumns) (features components : PyValue) (hash : η) :
    computePredictionSnapshotHash floatText sha256 (c.payload features components) = some hash ↔
      ∃ featuresJson componentsJson, dumps floatText features = some featuresJson ∧
        dumps floatText components = some componentsJson ∧
        sha256 (.object ((c.members featuresJson componentsJson).insertionSort
          fun m m' => m.1 ≤ m'.1)) = hash := by
  rw [computePredictionSnapshotHash, filter_payload, Option.map_eq_some_iff]
  constructor
  · rintro ⟨text, htext, rfl⟩
    obtain ⟨members, hdump, rfl⟩ := Option.map_eq_some_iff.mp htext
    obtain ⟨encoded, hentries, hdict⟩ := Option.bind_eq_some_iff.mp hdump
    obtain ⟨featuresJson, hfeatures⟩ := exists_dumps_of_mem floatText hentries
      (e := (.text "features", features)) (by simp [SnapshotColumns.payload])
    obtain ⟨componentsJson, hcomponents⟩ := exists_dumps_of_mem floatText hentries
      (e := (.text "score_components", components)) (by simp [SnapshotColumns.payload])
    rw [dumpsEntries_payload floatText c hfeatures hcomponents, Option.some.injEq] at hentries
    rw [← hentries, dumpDict_text, Option.some.injEq] at hdict
    exact ⟨featuresJson, componentsJson, hfeatures, hcomponents, by rw [hdict]⟩
  · rintro ⟨featuresJson, componentsJson, hfeatures, hcomponents, rfl⟩
    refine ⟨_, ?_, rfl⟩
    rw [dumps, dumpsEntries_payload floatText c hfeatures hcomponents, Option.bind_some,
      dumpDict_text, Option.map_some]

theorem recordSnapshot_eq_some_iff (c : SnapshotColumns)
    (features featureSnapshot scoreComponents components : Option PyValue) (row : SnapshotRow η) :
    recordSnapshot floatText sha256 c features featureSnapshot scoreComponents components = some row ↔
      dumps floatText (.dict (cleanDict features featureSnapshot)) = some row.featuresJson ∧
      dumps floatText (.dict (cleanDict scoreComponents components)) = some row.scoreComponentsJson ∧
      c.insertable = true ∧ row.columns = c.stored ∧
      row.snapshotHash = sha256 (.object
        ((c.members row.featuresJson row.scoreComponentsJson).insertionSort fun m m' => m.1 ≤ m'.1)) := by
  obtain ⟨columns, featuresJson, componentsJson, hash⟩ := row
  unfold recordSnapshot
  simp only [Option.bind_eq_some_iff, hash_payload_eq_some_iff, Option.ite_none_right_eq_some,
    Option.some.injEq, SnapshotRow.mk.injEq]
  constructor
  · rintro ⟨f, hf, g, hg, h, ⟨f', g', hf', hg', hhash⟩, hinsert, hcolumns, rfl, rfl, rfl⟩
    obtain rfl : f' = f := Option.some.inj (hf'.symm.trans hf)
    obtain rfl : g' = g := Option.some.inj (hg'.symm.trans hg)
    exact ⟨hf, hg, hinsert, hcolumns.symm, hhash.symm⟩
  · rintro ⟨hf, hg, hinsert, rfl, rfl⟩
    exact ⟨featuresJson, hf, componentsJson, hg, _, ⟨featuresJson, componentsJson, hf, hg, rfl⟩, hinsert,
      rfl, rfl, rfl, rfl⟩

/-- A stored snapshot hashes to its hash exactly when the columns give back what they were given and
both texts are spelled the same when they are dumped again. -/
theorem recomputedHash_eq_iff (hsha : Function.Injective sha256) {c : SnapshotColumns}
    {row : SnapshotRow η} (hcolumns : row.columns = c.stored)
    (hhash : row.snapshotHash = sha256 (.object
      ((c.members row.featuresJson row.scoreComponentsJson).insertionSort fun m m' => m.1 ≤ m'.1))) :
    recomputedHash floatText sha256 row = some row.snapshotHash ↔
      c.stored = c ∧ row.featuresJson.Canonical ∧ row.scoreComponentsJson.Canonical := by
  rw [recomputedHash, hash_payload_eq_some_iff, hhash, hcolumns, ← dumps_loads_iff floatText,
    ← dumps_loads_iff floatText]
  constructor
  · rintro ⟨f, g, hf, hg, heq⟩
    have hmembers := insertionSort_inj_of_keys (keys_members c.stored c f _ g _)
      (nodup_keys_members c.stored f g) (Json.object.inj (hsha heq))
    obtain ⟨hstored, rfl, rfl⟩ := members_inj.mp hmembers
    exact ⟨hstored, hf, hg⟩
  · rintro ⟨hstored, hf, hg⟩
    exact ⟨_, _, hf, hg, by rw [hstored]⟩

/-- A stored snapshot verifies exactly when no REAL column was given NaN or a negative zero and every
dictionary in the features and the components has keys whose order is that of their texts. -/
theorem snapshot_verifies_iff (hsha : Function.Injective sha256) {c : SnapshotColumns}
    {features featureSnapshot scoreComponents components : Option PyValue} {row : SnapshotRow η}
    (hstored : recordSnapshot floatText sha256 c features featureSnapshot scoreComponents components =
      some row) :
    recomputedHash floatText sha256 row = some row.snapshotHash ↔
      (∀ x ∈ c.reals, ∀ v, x = some v → Lossless v) ∧
        (PyValue.dict (cleanDict features featureSnapshot)).KeepsKeyOrder floatText ∧
        (PyValue.dict (cleanDict scoreComponents components)).KeepsKeyOrder floatText := by
  obtain ⟨hfeatures, hcomponents, -, hcolumns, hhash⟩ :=
    (recordSnapshot_eq_some_iff floatText sha256 _ _ _ _ _ row).mp hstored
  rw [recomputedHash_eq_iff floatText sha256 hsha hcolumns hhash, stored_eq_self_iff,
    canonical_dumps_iff floatText hfeatures, canonical_dumps_iff floatText hcomponents]

end Hash

/-- A call on an index at a whole price, without probabilities. -/
def sampleColumns : SnapshotColumns where
  signalId := "SIG-20260115091500-NIFTY-abc123"
  capturedAt := "2026-01-15T09:15:00+05:30"
  snapshotSchemaVersion := "v1.0"
  engineVersion := "2.60.0"
  strategyVersion := ""
  modelVersion := ""
  calibrationVersion := "UNCALIBRATED"
  featureSchemaVersion := ""
  symbol := "NIFTY"
  category := "INDEX_OPTIONS"
  direction := "CALL"
  strategy := "default"
  score := 80
  rawScore := some (.finite false 80)
  normalizedScore := some (.finite false 80)
  scoreSaturated := 0
  tier := "STRONG"
  entryPrice := some (.finite false 100)
  stopLoss := some (.finite false 97)
  target1 := some (.finite false 104)
  target2 := some (.finite false 108)
  marketRegime := ""
  regimeConfidence := none
  compositeScore := none
  pT1 := none
  pT2 := none
  pSl := none
  pTimeout := none
  expectedValueR := none
  netRrT1 := none
  netRrT2 := none
  source := "GENERATION"

/-- Features under text keys. -/
def textFeatures : PyValue :=
  .dict [(.text "rsi", .float (.finite false 55)), (.text "atr", .float (.finite false 12))]

/-- Open interest by strike. -/
def strikeFeatures : PyValue :=
  .dict [(.int 9500, .float (.finite false 1)), (.int 10000, .float (.finite false 2))]

/-- The stored row of the sample where the features are dumped to a document. -/
def sampleRow (featuresJson : Json) : SnapshotRow Json where
  columns := sampleColumns.stored
  featuresJson
  scoreComponentsJson := .object []
  snapshotHash := .object
    ((sampleColumns.members featuresJson (.object [])).insertionSort fun m m' => m.1 ≤ m'.1)

theorem recordSnapshot_sample (features : PyValue) {featuresJson : Json}
    (h : dumps (fun _ => "0.0") (.dict (cleanDict (some features) none)) = some featuresJson) :
    recordSnapshot (fun _ => "0.0") id sampleColumns (some features) none none none =
      some (sampleRow featuresJson) :=
  (recordSnapshot_eq_some_iff _ id _ _ _ _ _ _).mpr ⟨h, rfl, by decide, rfl, rfl⟩

/-- The text of `textFeatures`. -/
def textFeaturesJson : Json :=
  .object [("atr", .float (.finite false 12)), ("rsi", .float (.finite false 55))]

theorem text_snapshot_verifies :
    recordSnapshot (fun _ => "0.0") id sampleColumns (some textFeatures) none none none =
        some (sampleRow textFeaturesJson) ∧
      recomputedHash (fun _ => "0.0") id (sampleRow textFeaturesJson) =
        some (sampleRow textFeaturesJson).snapshotHash := by
  have hrecord := recordSnapshot_sample textFeatures (show _ = some textFeaturesJson from rfl)
  refine ⟨hrecord, (snapshot_verifies_iff _ id Function.injective_id hrecord).mpr ⟨?_, ?_, ?_⟩⟩
  · simp [sampleColumns, SnapshotColumns.reals, Lossless]
  · exact ⟨by decide +kernel, trivial, trivial, trivial⟩
  · exact ⟨by decide +kernel, trivial⟩

/-- The text of `strikeFeatures`, whose keys are in the order of the numbers. -/
def strikeFeaturesJson : Json :=
  .object [("9500", .float (.finite false 1)), ("10000", .float (.finite false 2))]

/-- Read back, the strikes are texts, and "10000" comes before "9500". -/
theorem strike_snapshot_does_not_verify :
    recordSnapshot (fun _ => "0.0") id sampleColumns (some strikeFeatures) none none none =
        some (sampleRow strikeFeaturesJson) ∧
      recomputedHash (fun _ => "0.0") id (sampleRow strikeFeaturesJson) ≠
        some (sampleRow strikeFeaturesJson).snapshotHash := by
  refine ⟨recordSnapshot_sample strikeFeatures rfl, ?_⟩
  rw [Ne, recomputedHash_eq_iff _ id Function.injective_id rfl rfl]
  rintro ⟨-, hordered, -⟩
  exact absurd hordered.1 (by decide +kernel)

end AutoTrade.Signals
