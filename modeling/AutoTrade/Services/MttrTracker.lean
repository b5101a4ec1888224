import AutoTrade.Library.Grouping
import AutoTrade.Library.Quantiles
import AutoTrade.Library.Run
import AutoTrade.Runtime
import Mathlib.Data.Rat.Floor

/-! # Incident resolution times

The tracker of `core/mttr_tracker.py`. The records of the incidents are kept in a list;
the open ones are looked up by their identifier, under which there is the place of
the record in that list.
-/

namespace AutoTrade.Services.Mttr

open AutoTrade.Library

structure IncidentRecord where
  category : String
  severity : String
  incidentId : String
  startedAt : ℚ
  resolvedAt : Option ℚ := none
  description : String := ""
  resolutionTimeSeconds : ℚ := 0
deriving DecidableEq, Repr

/-- A breach that is alerted: the category, the time and the threshold. -/
structure SlaBreach where
  category : String
  resolutionTime : ℚ
  threshold : ℚ
deriving DecidableEq, Repr

/-- `MTTRTracker`. -/
structure Tracker where
  incidents : List IncidentRecord := []
  openIncidents : Dict String Nat := Table.empty
  hasAlertFn : Bool
  startTime : ℚ
  lastResolvedTime : Option ℚ := none
  resolutionTimes : List ℚ := []
  alerts : List SlaBreach := []

namespace Tracker

/-- The identifier that is given, or one of the clock and of how many incidents there are. -/
def identifier (t : Tracker) (incidentId : String) (idTime : ℚ) : String :=
  if incidentId ≠ "" then incidentId
  else "inc_" ++ toString (truncate (idTime * 1000)) ++ "_" ++ toString t.incidents.length

/-- `record_incident`; the clock is read for the identifier and for the start. -/
def recordIncident (t : Tracker) (category severity incidentId description : String)
    (idTime now : ℚ) : Tracker × String :=
  let iid := t.identifier incidentId idTime
  let record : IncidentRecord :=
    { category, severity := severity.toUpper, incidentId := iid, startedAt := now, description }
  ({ t with
      incidents := t.incidents ++ [record]
      openIncidents := t.openIncidents.set iid t.incidents.length }, iid)

def severityThreshold (severity : String) : ℚ :=
  if severity = "CRITICAL" then 60
  else if severity = "ERROR" then 300
  else if severity = "WARNING" then 900
  else if severity = "INFO" then 3600
  else 300

/-- The record that is open under the identifier, with its place. -/
def openRecord? (t : Tracker) (incidentId : String) : Option (Nat × IncidentRecord) :=
  (t.openIncidents.get? incidentId).bind fun i => (t.incidents[i]?).map fun record => (i, record)

def resolveIncident (t : Tracker) (incidentId : String) (now : ℚ) : Tracker × Bool :=
  match t.openRecord? incidentId with
  | none => (t, false)
  | some (i, record) =>
      let resolutionTime := now - record.startedAt
      let threshold := severityThreshold record.severity
      ({ t with
          incidents := t.incidents.set i
            { record with resolvedAt := some now, resolutionTimeSeconds := resolutionTime }
          openIncidents := t.openIncidents.erase incidentId
          lastResolvedTime := some now
          resolutionTimes := t.resolutionTimes ++ [resolutionTime]
          alerts := if threshold < resolutionTime ∧ t.hasAlertFn = true then
              t.alerts ++ [⟨record.category, resolutionTime, threshold⟩]
            else t.alerts }, true)

def openCount (t : Tracker) : Nat := t.openIncidents.size

def computeMttr (t : Tracker) : ℚ :=
  if t.resolutionTimes = [] then 0 else t.resolutionTimes.sum / t.resolutionTimes.length

def computeMtbfHours (t : Tracker) (now : ℚ) : ℚ :=
  if t.resolutionTimes.length < 2 then 0
  else
    let uptime := max (now - t.startTime - t.resolutionTimes.sum) 1
    uptime / max t.resolutionTimes.length 1 / 3600

end Tracker

def isResolved (r : IncidentRecord) : Bool := r.resolvedAt.isSome

/-- `_percentile`, of a percentage between 0 and 100. -/
def percentile (sortedTimes : List ℚ) (pct : ℚ) : ℚ :=
  if sortedTimes = [] then 0
  else
    let k := ((sortedTimes.length - 1 : Nat) : ℚ) * pct / 100
    let f := (truncate k).toNat
    let c := min (f + 1) (sortedTimes.length - 1)
    if f = c then sortedTimes.getD f 0
    else sortedTimes.getD f 0 * (c - k) + sortedTimes.getD c 0 * (k - f)

/-- `MTTRReport`, without its time stamp. -/
structure MttrReport where
  overallMttr : ℚ
  overallMtbf : ℚ
  mtbfHours : ℚ
  byCategory : Dict String ℚ
  bySeverity : Dict String ℚ
  openIncidents : Nat
  totalIncidents : Nat
  resolvedIncidents : Nat
  p50Mttr : ℚ
  p90Mttr : ℚ
  p99Mttr : ℚ
  maxMttr : ℚ
  minMttr : ℚ

/-- The mean of each group of resolved incidents. -/
def meansBy (label : IncidentRecord → String) (resolved : List IncidentRecord) : Dict String ℚ :=
  (Dict.groupInto label Table.empty resolved).mapValues fun group =>
    (group.map IncidentRecord.resolutionTimeSeconds).sum / group.length

/-- `get_report` at one reading of the clock. -/
def Tracker.getReport (t : Tracker) (now : ℚ) : MttrReport :=
  let resolved := t.incidents.filter isResolved
  let openInc := t.incidents.filter fun r => !isResolved r
  let sortedTimes := ascending t.resolutionTimes
  { overallMttr := t.computeMttr
    overallMtbf := max (now - t.startTime - t.resolutionTimes.sum) 1 / max resolved.length 1
    mtbfHours := t.computeMtbfHours now
    byCategory := meansBy IncidentRecord.category resolved
    bySeverity := meansBy IncidentRecord.severity resolved
    openIncidents := openInc.length
    totalIncidents := t.incidents.length
    resolvedIncidents := resolved.length
    p50Mttr := percentile sortedTimes 50
    p90Mttr := percentile sortedTimes 90
    p99Mttr := percentile sortedTimes 99
    maxMttr := sortedTimes.getLast?.getD 0
    minMttr := sortedTimes.head?.getD 0 }

/-! ## Steps -/

inductive Op
  | recordIncident (category severity incidentId description : String) (idTime now : ℚ)
  | resolveIncident (incidentId : String) (now : ℚ)
deriving DecidableEq, Repr

def step (t : Tracker) : Op → Tracker
  | .recordIncident category severity incidentId description idTime now =>
      (t.recordIncident category severity incidentId description idTime now).1
  | .resolveIncident incidentId now => (t.resolveIncident incidentId now).1

/-- The incident is recorded under an identifier that is open. -/
def Op.shadows (t : Tracker) : Op → Bool
  | .recordIncident category severity incidentId description idTime now =>
      t.openIncidents.contains
        (t.recordIncident category severity incidentId description idTime now).2
  | .resolveIncident .. => false

/-- How many steps of the run record an incident under an open identifier. -/
def shadowings : Tracker → List Op → Nat
  | _, [] => 0
  | t, op :: rest => (if op.shadows t then 1 else 0) + shadowings (step t op) rest

/-- The places are those of unresolved records, and the times those of the resolved ones. -/
structure Consistent (t : Tracker) : Prop where
  pointed : ∀ id i, t.openIncidents.get? id = some i →
    ∃ r, t.incidents[i]? = some r ∧ r.incidentId = id ∧ r.resolvedAt = none
  times : t.resolutionTimes.Perm ((t.incidents.filter isResolved).map
    IncidentRecord.resolutionTimeSeconds)
  timed : ∀ r ∈ t.incidents, ∀ endedAt, r.resolvedAt = some endedAt →
    r.resolutionTimeSeconds = endedAt - r.startedAt

def unresolved (t : Tracker) : Nat := t.incidents.countP fun r => !isResolved r

section Steps

variable {t : Tracker}

theorem openRecord?_eq_some {id : String} {i : Nat} {record : IncidentRecord}
    (h : t.openRecord? id = some (i, record)) :
    t.openIncidents.get? id = some i ∧ t.incidents[i]? = some record := by
  obtain ⟨j, hj, hmap⟩ := Option.bind_eq_some_iff.mp h
  obtain ⟨r, hr, hpair⟩ := Option.map_eq_some_iff.mp hmap
  cases hpair
  exact ⟨hj, hr⟩

/-- The list around the record that a resolution rewrites. -/
theorem incidents_set {i : Nat} {record : IncidentRecord} (h : t.incidents[i]? = some record) :
    ∃ before after, t.incidents = before ++ record :: after ∧
      ∀ r, t.incidents.set i r = before ++ r :: after := by
  obtain ⟨hi, hget⟩ := List.getElem?_eq_some_iff.mp h
  refine ⟨t.incidents.take i, t.incidents.drop (i + 1), ?_, fun r => ?_⟩
  · rw [← hget, ← List.drop_eq_getElem_cons hi, List.take_append_drop]
  · rw [List.set_eq_take_append_cons_drop, if_pos hi]

theorem consistent_recordIncident (h : Consistent t) (category severity incidentId description : String)
    (idTime now : ℚ) :
    Consistent (t.recordIncident category severity incidentId description idTime now).1 := by
  refine ⟨fun id i hid => ?_, ?_, fun r hr endedAt hended => ?_⟩
  · simp only [Tracker.recordIncident, Dict.get?_set] at hid ⊢
    split at hid
    · rename_i hsame
      cases hid
      exact ⟨_, List.getElem?_concat_length, hsame.symm, rfl⟩
    · obtain ⟨r, hr, hrest⟩ := h.pointed id i hid
      exact ⟨r, by rw [List.getElem?_append_left (List.getElem?_eq_some_iff.mp hr).1]; exact hr, hrest⟩
  · simpa [Tracker.recordIncident, List.filter_append, isResolved] using h.times
  · rcases List.mem_append.mp hr with hr | hr
    · exact h.timed r hr endedAt hended
    · cases List.mem_singleton.mp hr
      cases hended

theorem consistent_resolveIncident (h : Consistent t) (incidentId : String) (now : ℚ) :
    Consistent (t.resolveIncident incidentId now).1 := by
  unfold Tracker.resolveIncident
  split
  · exact h
  · rename_i i record hopen
    obtain ⟨hget, hat⟩ := openRecord?_eq_some hopen
    obtain ⟨before, after, hsplit, hset⟩ := incidents_set hat
    obtain ⟨r, hr, hname, hunresolved⟩ := h.pointed incidentId i hget
    cases hat.symm.trans hr
    refine ⟨fun id j hid => ?_, ?_, fun r hr endedAt hended => ?_⟩
    · dsimp only at hid ⊢
      rw [Dict.get?_erase] at hid
      split at hid
      · cases hid
      · rename_i hother
        obtain ⟨r, hr, hid', hopen'⟩ := h.pointed id j hid
        have hne : i ≠ j := by
          rintro rfl
          cases hat.symm.trans hr
          exact hother (hid'.symm.trans hname)
        exact ⟨r, by rw [List.getElem?_set_ne hne]; exact hr, hid', hopen'⟩
    · have htimes := h.times
      rw [hsplit] at htimes
      dsimp only
      rw [hset]
      simp only [List.filter_append, List.filter_cons, isResolved, hunresolved, Option.isSome_none,
        Option.isSome_some, if_true, Bool.false_eq_true, if_false, List.map_append,
        List.map_cons] at htimes ⊢
      refine (htimes.append_right _).trans (List.perm_append_comm.trans ?_)
      rw [List.singleton_append]
      exact List.perm_middle.symm
    · dsimp only at hr
      rw [hset] at hr
      rcases List.mem_append.mp hr with hr | hr
      · exact h.timed r (hsplit ▸ List.mem_append_left _ hr) endedAt hended
      · rcases List.mem_cons.mp hr with rfl | hr
        · cases hended
          rfl
        · exact h.timed r (hsplit ▸ List.mem_append_right _ (List.mem_cons_of_mem _ hr)) endedAt hended

theorem consistent_step (h : Consistent t) (op : Op) : Consistent (step t op) := by
  cases op with
  | recordIncident category severity incidentId description idTime now =>
      exact consistent_recordIncident h category severity incidentId description idTime now
  | resolveIncident incidentId now => exact consistent_resolveIncident h incidentId now

theorem size_eq_erase {d : Dict String Nat} {k : String} {i : Nat} (h : d.get? k = some i) :
    d.size = (d.erase k).size + 1 := by
  have hperm := Dict.rows_perm_cons_erase (d := d) h fun _ _ => rfl
  exact hperm.length_eq

theorem size_set_eq (d : Dict String Nat) (k : String) (i : Nat) :
    (d.set k i).size = d.size + if d.contains k then 0 else 1 := by
  have hset : (d.set k i).size = (d.erase k).size + 1 := (Dict.rows_set_perm d k i).length_eq
  rw [hset, Dict.contains_iff_get?]
  cases hk : d.get? k with
  | none =>
      have herase : (d.erase k).rows = d.rows := Dict.rows_erase_of_get?_none hk
      simp [Table.size, herase]
  | some j => simp [size_eq_erase hk]

/-- What a step adds to the unresolved incidents it adds to the open ones, except that an incident
recorded under an open identifier takes the place of another. -/
theorem unresolved_step (h : Consistent t) (op : Op) :
    unresolved (step t op) + t.openCount =
      unresolved t + (step t op).openCount + if op.shadows t then 1 else 0 := by
  cases op with
  | recordIncident category severity incidentId description idTime now =>
      have hsize := size_set_eq t.openIncidents (t.identifier incidentId idTime) t.incidents.length
      simp only [step, Tracker.recordIncident, unresolved, Tracker.openCount, Op.shadows, hsize,
        List.countP_append]
      by_cases hopen : t.openIncidents.contains (t.identifier incidentId idTime) = true <;>
        simp [isResolved, hopen] <;> omega
  | resolveIncident incidentId now =>
      simp only [step, Tracker.resolveIncident, Op.shadows]
      split
      · simp
      · rename_i i record hopen
        obtain ⟨hget, hat⟩ := openRecord?_eq_some hopen
        obtain ⟨before, after, hsplit, hset⟩ := incidents_set hat
        obtain ⟨r, hr, -, hunresolved⟩ := h.pointed incidentId i hget
        cases hat.symm.trans hr
        have hsize := size_eq_erase hget
        simp only [unresolved, Tracker.openCount, hset]
        rw [hsplit, hsize]
        simp [List.countP_append, isResolved, hunresolved]
        omega

/-- The incident is unresolved, and no identifier leads to it. -/
def Lost (t : Tracker) (i : Nat) : Prop :=
  (∃ r, t.incidents[i]? = some r ∧ r.resolvedAt = none) ∧
    ∀ id, t.openIncidents.get? id ≠ some i

theorem lost_step {i : Nat} (h : Lost t i) (op : Op) : Lost (step t op) i := by
  obtain ⟨⟨r, hr, hunresolved⟩, hnone⟩ := h
  have hi := (List.getElem?_eq_some_iff.mp hr).1
  cases op with
  | recordIncident category severity incidentId description idTime now =>
      refine ⟨⟨r, ?_, hunresolved⟩, fun id => ?_⟩
      · simp only [step, Tracker.recordIncident]
        rw [List.getElem?_append_left hi]
        exact hr
      · simp only [step, Tracker.recordIncident, Dict.get?_set]
        split
        · intro hplace
          cases hplace
          exact absurd hi (lt_irrefl _)
        · exact hnone id
  | resolveIncident incidentId now =>
      simp only [step, Tracker.resolveIncident]
      split
      · exact ⟨⟨r, hr, hunresolved⟩, hnone⟩
      · rename_i j record hopen
        obtain ⟨hget, -⟩ := openRecord?_eq_some hopen
        have hne : j ≠ i := by
          rintro rfl
          exact hnone incidentId hget
        refine ⟨⟨r, by rw [List.getElem?_set_ne hne]; exact hr, hunresolved⟩, fun id => ?_⟩
        dsimp only
        rw [Dict.get?_erase]
        split
        · simp
        · exact hnone id

/-- An incident recorded under an open identifier leaves the one before it lost. -/
theorem lost_of_shadowed (h : Consistent t) (category severity : String) {incidentId : String}
    (description : String) {idTime : ℚ} (now : ℚ) {i : Nat}
    (hopen : t.openIncidents.get? (t.identifier incidentId idTime) = some i) :
    Lost (step t (.recordIncident category severity incidentId description idTime now)) i := by
  obtain ⟨r, hr, hname, hunresolved⟩ := h.pointed _ i hopen
  have hi := (List.getElem?_eq_some_iff.mp hr).1
  refine ⟨⟨r, ?_, hunresolved⟩, fun id => ?_⟩
  · simp only [step, Tracker.recordIncident]
    rw [List.getElem?_append_left hi]
    exact hr
  · simp only [step, Tracker.recordIncident, Dict.get?_set]
    split
    · intro hplace
      cases hplace
      exact absurd hi (lt_irrefl _)
    · rename_i hother
      intro hplace
      obtain ⟨r', hr', hname', -⟩ := h.pointed id i hplace
      cases hr.symm.trans hr'
      exact hother (hname'.symm.trans hname)

/-! ## Runs -/

theorem consistent_run (h : Consistent t) (ops : List Op) : Consistent (run step t ops) := by
  induction ops generalizing t with
  | nil => exact h
  | cons op rest ih => exact ih (consistent_step h op)

theorem lost_run {i : Nat} (h : Lost t i) (ops : List Op) : Lost (run step t ops) i := by
  induction ops generalizing t with
  | nil => exact h
  | cons op rest ih => exact ih (lost_step h op)

theorem unresolved_run (h : Consistent t) (ops : List Op) :
    unresolved (run step t ops) + t.openCount =
      unresolved t + (run step t ops).openCount + shadowings t ops := by
  induction ops generalizing t with
  | nil => rfl
  | cons op rest ih =>
      have hfirst := unresolved_step h op
      have hrest := ih (consistent_step h op)
      have hrun : run step t (op :: rest) = run step (step t op) rest := rfl
      rw [hrun, shadowings]
      omega

end Steps

/-! ## The report -/

/-- How long the resolved ones among the incidents took. -/
def durations (incidents : List IncidentRecord) : List ℚ :=
  incidents.filterMap fun r => r.resolvedAt.map fun endedAt => endedAt - r.startedAt

theorem times_eq_durations {incidents : List IncidentRecord}
    (htimed : ∀ r ∈ incidents, ∀ endedAt, r.resolvedAt = some endedAt →
      r.resolutionTimeSeconds = endedAt - r.startedAt) :
    (incidents.filter isResolved).map IncidentRecord.resolutionTimeSeconds = durations incidents := by
  induction incidents with
  | nil => rfl
  | cons r rest ih =>
      have hrest := ih fun x hx => htimed x (List.mem_cons_of_mem r hx)
      cases hended : r.resolvedAt with
      | none => simpa [durations, isResolved, hended] using hrest
      | some endedAt =>
          have hown := htimed r List.mem_cons_self endedAt hended
          simpa [durations, isResolved, hended, hown] using hrest

theorem percentile_eq_quantile {xs : List ℚ} (hne : xs ≠ []) {pct : ℚ}
    (hpct : 0 ≤ pct ∧ pct ≤ 100) : percentile xs pct = quantile xs (pct / 100) := by
  have hlast : (0 : ℚ) ≤ ((xs.length - 1 : Nat) : ℚ) := Nat.cast_nonneg _
  have hk : ((xs.length - 1 : Nat) : ℚ) * pct / 100 = pct / 100 * ((xs.length - 1 : Nat) : ℚ) := by
    ring
  have hplace : pct / 100 * ((xs.length - 1 : Nat) : ℚ) ≤ ((xs.length - 1 : Nat) : ℚ) :=
    mul_le_of_le_one_left hlast (by linarith [hpct.2])
  have hpos : 0 ≤ pct / 100 * ((xs.length - 1 : Nat) : ℚ) :=
    mul_nonneg (by linarith [hpct.1]) hlast
  have hfloor : (truncate (pct / 100 * ((xs.length - 1 : Nat) : ℚ))).toNat =
      ⌊pct / 100 * ((xs.length - 1 : Nat) : ℚ)⌋₊ := by
    rw [truncate, if_pos hpos]
    rfl
  unfold percentile quantile valueAt
  rw [if_neg hne, hk]
  dsimp only
  rw [hfloor]
  rcases (Nat.floor_le_of_le hplace).lt_or_eq with hinner | hend
  · rw [min_eq_left (by omega), if_neg (by omega)]
    push_cast
    ring
  · have hle := Nat.floor_le hpos
    rw [hend] at hle
    rw [hend, min_eq_right (by omega), if_pos rfl, le_antisymm hplace hle]
    ring

theorem get?_meansBy (label : IncidentRecord → String) (resolved : List IncidentRecord) (k : String)
    (m : ℚ) :
    (meansBy label resolved).get? k = some m ↔
      (resolved.filter fun r => decide (label r = k)) ≠ [] ∧
        m = ((resolved.filter fun r => decide (label r = k)).map
          IncidentRecord.resolutionTimeSeconds).sum /
            (resolved.filter fun r => decide (label r = k)).length := by
  have hnone : Dict.get? (Table.empty : Dict String (List IncidentRecord)) k = none := rfl
  rw [meansBy, Dict.get?_mapValues, Dict.get?_groupInto, hnone]
  split
  · rename_i hempty
    simp [hempty.2]
  · rename_i hsome
    have hne : (resolved.filter fun r => decide (label r = k)) ≠ [] := fun h => hsome ⟨rfl, h⟩
    rw [Option.map_some, Option.getD_none, List.nil_append, Option.some.injEq]
    exact ⟨fun h => ⟨hne, h.symm⟩, fun h => h.2.symm⟩

/-- A label's mean is over the incidents that have it and are resolved. -/
theorem get?_meansBy_durations {t : Tracker} (h : Consistent t) (label : IncidentRecord → String)
    (k : String) (m : ℚ) :
    (meansBy label (t.incidents.filter isResolved)).get? k = some m ↔
      let times := durations (t.incidents.filter fun r => decide (label r = k))
      times ≠ [] ∧ m = times.sum / times.length := by
  have hcomm : (t.incidents.filter isResolved).filter (fun r => decide (label r = k)) =
      (t.incidents.filter fun r => decide (label r = k)).filter isResolved := List.filter_comm _ _ _
  have htimes := @times_eq_durations (t.incidents.filter fun r => decide (label r = k))
    fun r hr => h.timed r (List.mem_filter.mp hr).1
  rw [get?_meansBy, hcomm, ← htimes]
  simp only [List.length_map, ne_eq, List.map_eq_nil_iff]

theorem sum_durations {t : Tracker} (h : Consistent t) :
    t.resolutionTimes.Perm (durations t.incidents) ∧
      t.resolutionTimes.length = (t.incidents.filter isResolved).length := by
  have htimes := times_eq_durations h.timed
  exact ⟨htimes ▸ h.times, h.times.length_eq.trans (List.length_map _)⟩

/-- The extremes, the percentiles and the mean of the resolution times, in order. -/
theorem report_ordered {t : Tracker} (hne : t.resolutionTimes ≠ []) (now : ℚ) :
    let r := t.getReport now
    (r.minMttr ≤ r.p50Mttr ∧ r.p50Mttr ≤ r.p90Mttr ∧ r.p90Mttr ≤ r.p99Mttr ∧ r.p99Mttr ≤ r.maxMttr) ∧
      (r.minMttr ∈ t.resolutionTimes ∧ r.maxMttr ∈ t.resolutionTimes ∧
        ∀ time ∈ t.resolutionTimes, r.minMttr ≤ time ∧ time ≤ r.maxMttr) ∧
      r.minMttr ≤ r.overallMttr ∧ r.overallMttr ≤ r.maxMttr := by
  intro r
  have hperm := ascending_perm t.resolutionTimes
  have hsorted := pairwise_ascending t.resolutionTimes
  have hsome : ascending t.resolutionTimes ≠ [] := fun h => hne (List.nil_perm.mp (h ▸ hperm))
  have hlength := List.length_pos_of_ne_nil hsome
  have hmin : r.minMttr = quantile (ascending t.resolutionTimes) 0 := by
    rw [quantile_zero, List.getD_eq_getElem?_getD, ← List.head?_eq_getElem?]
    rfl
  have hmax : r.maxMttr = quantile (ascending t.resolutionTimes) 1 := by
    rw [quantile_one, List.getD_eq_getElem?_getD, ← List.getLast?_eq_getElem?]
    rfl
  have hbounds : ∀ time ∈ t.resolutionTimes, r.minMttr ≤ time ∧ time ≤ r.maxMttr := by
    intro time htime
    rw [hmin, hmax, quantile_zero, quantile_one]
    exact ends_bound hsorted (hperm.mem_iff.mpr htime)
  have hmem : ∀ i < (ascending t.resolutionTimes).length,
      (ascending t.resolutionTimes).getD i 0 ∈ t.resolutionTimes := by
    intro i hi
    rw [List.getD_eq_getElem _ _ hi]
    exact hperm.mem_iff.mp (List.getElem_mem hi)
  have hp50 : r.p50Mttr = quantile (ascending t.resolutionTimes) (50 / 100) :=
    percentile_eq_quantile hsome (by norm_num)
  have hp90 : r.p90Mttr = quantile (ascending t.resolutionTimes) (90 / 100) :=
    percentile_eq_quantile hsome (by norm_num)
  have hp99 : r.p99Mttr = quantile (ascending t.resolutionTimes) (99 / 100) :=
    percentile_eq_quantile hsome (by norm_num)
  have hmttr : r.overallMttr = t.resolutionTimes.sum / t.resolutionTimes.length := if_neg hne
  refine ⟨⟨?_, ?_, ?_, ?_⟩, ⟨?_, ?_, hbounds⟩, ?_⟩
  · rw [hmin, hp50]
    exact quantile_mono hsorted (by norm_num) (by norm_num) (by norm_num)
  · rw [hp50, hp90]
    exact quantile_mono hsorted (by norm_num) (by norm_num) (by norm_num)
  · rw [hp90, hp99]
    exact quantile_mono hsorted (by norm_num) (by norm_num) (by norm_num)
  · rw [hp99, hmax]
    exact quantile_mono hsorted (by norm_num) (by norm_num) (by norm_num)
  · rw [hmin, quantile_zero]
    exact hmem 0 hlength
  · rw [hmax, quantile_one]
    exact hmem _ (by omega)
  · rw [hmttr]
    exact mean_bounds hne hbounds

/-- In every run the incidents of the report are the resolved and the unresolved ones; of the latter
there are more than are open, by the steps that recorded an incident under an open identifier. Such a
step leaves the incident before it without an identifier, and that is never resolved. The means, of all and by category and severity, are over
the resolved incidents, and the percentiles lie between the extremes in order. -/
theorem tracker_runs (hasAlertFn : Bool) (startTime : ℚ) (ops : List Op) (now : ℚ) :
    let t := run step { hasAlertFn, startTime } ops
    let r := t.getReport now
    (r.totalIncidents = r.resolvedIncidents + r.openIncidents ∧
        r.openIncidents = t.openCount + shadowings { hasAlertFn, startTime } ops) ∧
      (∀ category severity id description idTime at_ i,
        t.openIncidents.get? (t.identifier id idTime) = some i → ∀ later,
          Lost (run step t (.recordIncident category severity id description idTime at_ :: later)) i) ∧
      r.overallMttr * r.resolvedIncidents = (durations t.incidents).sum ∧
      (∀ k m, r.byCategory.get? k = some m ↔
        let times := durations (t.incidents.filter fun record => decide (record.category = k))
        times ≠ [] ∧ m = times.sum / times.length) ∧
      (∀ k m, r.bySeverity.get? k = some m ↔
        let times := durations (t.incidents.filter fun record => decide (record.severity = k))
        times ≠ [] ∧ m = times.sum / times.length) ∧
      (r.resolvedIncidents ≠ 0 →
        r.minMttr ≤ r.p50Mttr ∧ r.p50Mttr ≤ r.p90Mttr ∧ r.p90Mttr ≤ r.p99Mttr ∧
          r.p99Mttr ≤ r.maxMttr ∧ r.minMttr ≤ r.overallMttr ∧ r.overallMttr ≤ r.maxMttr) ∧
      r.mtbfHours * 3600 = if 2 ≤ r.resolvedIncidents then r.overallMtbf else 0 := by
  intro t r
  have hstart : Consistent { hasAlertFn, startTime } := by
    refine ⟨fun id i h => ?_, List.Perm.refl _, fun r hr => ?_⟩
    · cases h
    · cases hr
  have ht : Consistent t := consistent_run hstart ops
  obtain ⟨hdurations, hcount⟩ := sum_durations ht
  have hopen : r.openIncidents = unresolved t := List.countP_eq_length_filter.symm
  have hresolved : r.resolvedIncidents = t.resolutionTimes.length := hcount.symm
  refine ⟨⟨?_, ?_⟩, fun category severity id description idTime at_ i h later =>
      lost_run (lost_of_shadowed ht category severity description at_ h) later, ?_,
    fun k m => get?_meansBy_durations ht _ k m, fun k m => get?_meansBy_durations ht _ k m,
    fun hne => ?_, ?_⟩
  · exact List.length_eq_length_filter_add isResolved
  · have hrun := unresolved_run hstart ops
    change unresolved t + 0 = 0 + t.openCount + shadowings _ ops at hrun
    omega
  · rw [← hdurations.sum_eq, hresolved]
    change t.computeMttr * _ = _
    unfold Tracker.computeMttr
    split
    · rename_i hempty
      simp [hempty]
    · rename_i hne
      exact div_mul_cancel₀ _ (by simpa using hne)
  · have hsome : t.resolutionTimes ≠ [] := fun h => hne (by rw [hresolved, h]; rfl)
    obtain ⟨⟨h50, h90, h99, hmax⟩, -, hmean⟩ := report_ordered hsome now
    exact ⟨h50, h90, h99, hmax, hmean⟩
  · have hmtbf : r.overallMtbf = max (now - t.startTime - t.resolutionTimes.sum) 1 /
        (max (t.incidents.filter isResolved).length 1 : Nat) := rfl
    have hhours : r.mtbfHours = t.computeMtbfHours now := rfl
    rw [hhours, hmtbf, hresolved, ← hcount, Tracker.computeMtbfHours]
    split
    · rw [if_neg (by omega), zero_mul]
    · rw [if_pos (by omega), div_mul_cancel₀ _ (by norm_num)]

end AutoTrade.Services.Mttr
