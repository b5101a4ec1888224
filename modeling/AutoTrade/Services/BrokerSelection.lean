import AutoTrade.Services.BrokerHealth

/-! # Selection by the last check

What is stored of a broker is what its last check returned, unless that check
found the connection lost: it returns before it stores anything. Then a broker
that was connected stays available, and may be recommended.
-/

namespace AutoTrade.Services

open AutoTrade.Library BrokerHealthService

/-! ## One check -/

namespace AdapterBehaviour

/-- The connectivity call fails, in a way that is a result without success. -/
def connectionLost (a : AdapterBehaviour) : Bool :=
  match a.connectivity with
  | .ok up => !up
  | .error e => decide (e.cls ∈ connectivityHandled)

/-- The calls raise what the service handles. -/
def Handled (a : AdapterBehaviour) : Prop :=
  ∀ e, (a.connectivity = .error e ∨ a.latency = .error e ∨ a.authentication = .error e) →
    e.cls ∈ checkHandled

end AdapterBehaviour

/-- A probe raises only what its call raises. -/
theorem probe_error {checkType : HealthCheckType} {handled : List HealthExcClass}
    {call : Except HealthExc Bool} {latencyMs : ℚ} {now : Time} {e : HealthExc}
    (h : probe checkType handled call latencyMs now = .error e) : call = .error e := by
  unfold probe at h
  cases call with
  | ok success => cases h
  | error e' =>
      dsimp only at h
      split at h
      · cases h
      · exact congrArg _ (Except.error.inj h)

theorem checkConnectivity_ok {a : AdapterBehaviour} {now : Time} {r : HealthCheckResult}
    (h : checkConnectivity a now = .ok r) : r.success = !a.connectionLost := by
  unfold checkConnectivity probe at h
  unfold AdapterBehaviour.connectionLost
  cases hcall : a.connectivity with
  | ok up =>
      rw [hcall] at h
      rw [← Except.ok.inj h, Bool.not_not]
  | error e =>
      rw [hcall] at h
      dsimp only at h
      split at h
      · rename_i hmem
        rw [← Except.ok.inj h]
        exact (congrArg not (decide_eq_true hmem)).symm
      · cases h

theorem checkConnectivity_error {a : AdapterBehaviour} {now : Time} {e : HealthExc}
    (h : checkConnectivity a now = .error e) : a.connectionLost = false := by
  have hcall : a.connectivity = .error e := probe_error h
  unfold checkConnectivity probe at h
  unfold AdapterBehaviour.connectionLost
  rw [hcall] at h ⊢
  dsimp only at h ⊢
  split at h
  · cases h
  · rename_i hmem
    exact decide_eq_false hmem

section Check

variable {config : BrokerHealthServiceConfig} {s : BrokerHealthService} {name : String}
  {a : AdapterBehaviour} {now : Time}

/-- A check that stores the metrics it returns. -/
def StoresCheck (s : BrokerHealthService) (name : String) (now : Time)
    (r : BrokerHealthService × Except HealthExc BrokerHealthMetrics) : Prop :=
  ∃ history m, r = (({ s with healthHistory := history }).storeMetrics name m now, .ok m)

theorem checkFailed_stores {latencyMs checkMs : ℚ} {e : HealthExc} (h : e.cls ∈ checkHandled) :
    StoresCheck s name now (s.checkFailed config name latencyMs checkMs e now) := by
  unfold checkFailed
  rw [if_pos h]
  exact ⟨_, _, rfl⟩

/-- A check of a known broker stores what it returns, unless the connection is lost. -/
theorem check_cases (config : BrokerHealthServiceConfig) (now : Time) (hname : name ∈ s.brokers)
    (hhandled : a.Handled) :
    (a.connectionLost = true ∧ ∃ history m, m.status = .disconnected ∧
      s.checkBrokerHealth config name a now = ({ s with healthHistory := history }, .ok m)) ∨
    (a.connectionLost = false ∧
      StoresCheck s name now (s.checkBrokerHealth config name a now)) := by
  unfold checkBrokerHealth
  rw [if_neg (not_not.mpr hname)]
  split
  · rename_i e he
    exact .inr ⟨checkConnectivity_error he,
      checkFailed_stores (hhandled e (.inl (probe_error he)))⟩
  · rename_i connectivity hconnectivity
    have hsuccess := checkConnectivity_ok hconnectivity
    rw [hsuccess, Bool.not_not]
    cases hlost : a.connectionLost
    · refine .inr ⟨rfl, ?_⟩
      rw [if_neg Bool.false_ne_true]
      split
      · rename_i e he
        exact checkFailed_stores (hhandled e (.inr (.inl (probe_error he))))
      · split
        · rename_i e he
          exact checkFailed_stores (hhandled e (.inr (.inr (probe_error he))))
        · exact ⟨_, _, rfl⟩
    · exact .inl ⟨rfl, _, _, rfl, if_pos rfl⟩

end Check

/-! ## What is stored -/

section Stored

variable (s : BrokerHealthService) {name : String} {now : Time}

def isSelectable (status : BrokerStatus) : Bool := decide (status ∈ [.connected, .recovering])

theorem available_storeMetrics (m : BrokerHealthMetrics) (other : String) :
    (s.storeMetrics name m now).isBrokerAvailable other =
      if other = name then isSelectable m.status else s.isBrokerAvailable other := by
  unfold isBrokerAvailable getBrokerMetrics storeMetrics
  rw [Dict.get?_set]
  split <;> rfl

theorem fresh_storeMetrics_of_ne (config : BrokerHealthServiceConfig) (m : BrokerHealthMetrics)
    {other : String} (h : other ≠ name) (later : Time) :
    (s.storeMetrics name m now).isCacheFresh config other later =
      s.isCacheFresh config other later := by
  unfold isCacheFresh storeMetrics
  rw [Dict.get?_set, if_neg h]

/-- The metrics that are made for a new name are those it had by default. -/
theorem metrics_of_initialized (h : s.healthMetrics.contains name = false) (other : String) :
    (s.initializeBrokerMetrics name).getBrokerMetrics other = s.getBrokerMetrics other := by
  unfold getBrokerMetrics initializeBrokerMetrics
  rw [Dict.get?_set]
  split
  · rename_i hsame
    have hnone : s.healthMetrics.get? name = none := by
      rw [Dict.contains_iff_get?] at h
      exact Option.isSome_eq_false_iff.mp h |> Option.isNone_iff_eq_none.mp
    rw [hsame, hnone]
    rfl
  · rfl

theorem available_modifyMetrics {f : BrokerHealthMetrics → BrokerHealthMetrics}
    (hf : ∀ m, (f m).status = m.status) (other : String) :
    (s.modifyMetrics name f).isBrokerAvailable other = s.isBrokerAvailable other := by
  have hknown : (if s.healthMetrics.contains name then s else s.initializeBrokerMetrics
      name).getBrokerMetrics = s.getBrokerMetrics := by
    cases h : s.healthMetrics.contains name with
    | true => rfl
    | false => exact funext (metrics_of_initialized s h)
  unfold modifyMetrics isBrokerAvailable
  dsimp only
  generalize (if s.healthMetrics.contains name then s else s.initializeBrokerMetrics name) = known
    at hknown ⊢
  rw [← hknown]
  unfold getBrokerMetrics
  dsimp only
  rw [Dict.get?_set]
  by_cases h : other = name
  · rw [if_pos h, Option.getD_some, hf, h]
  · rw [if_neg h]

theorem available_recordBrokerSuccess (latencyMs : ℚ) (other : String) :
    (s.recordBrokerSuccess name latencyMs now).isBrokerAvailable other =
      s.isBrokerAvailable other := by
  unfold recordBrokerSuccess
  refine available_modifyMetrics s ?_ other
  intro m
  rfl

theorem available_recordBrokerError (latencyMs : ℚ) (other : String) :
    (s.recordBrokerError name latencyMs now).isBrokerAvailable other =
      s.isBrokerAvailable other := by
  unfold recordBrokerError
  refine available_modifyMetrics s ?_ other
  intro m
  rfl

/-- No broker is available before it is checked. -/
theorem available_init (brokers : List String) (hnodup : brokers.Nodup) (name : String) :
    (init brokers hnodup).isBrokerAvailable name = false := by
  have hall : ∀ (names : List String) (t : BrokerHealthService),
      t.isBrokerAvailable name = false →
        (names.foldl initializeBrokerMetrics t).isBrokerAvailable name = false := by
    intro names
    induction names with
    | nil => exact fun t ht => ht
    | cons first rest ih =>
        intro t ht
        refine ih _ ?_
        unfold isBrokerAvailable getBrokerMetrics initializeBrokerMetrics
        rw [Dict.get?_set]
        split
        · rfl
        · exact ht
  exact hall brokers _ rfl

theorem brokers_modifyMetrics (f : BrokerHealthMetrics → BrokerHealthMetrics) :
    (s.modifyMetrics name f).brokers = s.brokers := by
  unfold modifyMetrics
  cases s.healthMetrics.contains name <;> rfl

/-- Only what is available is recommended. -/
theorem available_of_recommended (h : s.getRecommendedBroker = some name) :
    s.isBrokerAvailable name = true := by
  unfold getRecommendedBroker at h
  dsimp only at h
  obtain ⟨e, he, rfl⟩ := Option.map_eq_some_iff.mp h
  obtain ⟨hmem, hhealthy⟩ := List.mem_filter.mp (List.mem_mergeSort.mp (List.mem_of_head? he))
  have hget : s.healthMetrics.get? e.1 = some e.2 :=
    (Dict.get?_eq_some_iff s.healthMetrics e.1 e.2).mpr hmem
  unfold isBrokerAvailable getBrokerMetrics
  rw [hget]
  have hstatus : e.2.status = .connected ∨ e.2.status = .recovering :=
    (of_decide_eq_true hhealthy).imp id And.left
  rcases hstatus with hs | hs <;> simp [hs]

end Stored

/-! ## Runs -/

/-- The service, what the last check of each broker returned, and whether a call has raised. -/
structure HealthRun where
  service : BrokerHealthService
  returned : Dict String BrokerStatus := Table.empty
  raised : Bool := false

inductive HealthOp
  | check (name : String) (a : AdapterBehaviour) (now : Time)
  | success (name : String) (latencyMs : ℚ) (now : Time)
  | failure (name : String) (latencyMs : ℚ) (now : Time)
  | getAll (observe : String → AdapterBehaviour) (now : Time)

def HealthOp.Handled : HealthOp → Prop
  | .check _ a _ => a.Handled
  | .getAll observe _ => ∀ name, (observe name).Handled
  | _ => True

namespace HealthRun

variable (config : BrokerHealthServiceConfig)

def check (s : HealthRun) (name : String) (a : AdapterBehaviour) (now : Time) :
    HealthRun × Option HealthExc :=
  match s.service.checkBrokerHealth config name a now with
  | (service, .ok m) => ({ s with service, returned := s.returned.set name m.status }, none)
  | (service, .error e) => ({ s with service, raised := true }, some e)

/-- What a request for all brokers does to one of them. -/
def ask (observe : String → AdapterBehaviour) (now : Time) (s : HealthRun) (name : String) :
    HealthRun × Option HealthExc :=
  if s.service.isCacheFresh config name now then (s, none) else s.check config name (observe name) now

def step (s : HealthRun) : HealthOp → HealthRun
  | .check name a now => (s.check config name a now).1
  | .success name latencyMs now =>
      { s with service := s.service.recordBrokerSuccess name latencyMs now }
  | .failure name latencyMs now =>
      { s with service := s.service.recordBrokerError name latencyMs now }
  | .getAll observe now =>
      { (loop (ask config observe now) s s.service.brokers).1 with
        service := (s.service.getAllBrokersHealth config observe now).1 }

/-- The last check of the broker returned a status it can be selected by. -/
def lastSelectable (s : HealthRun) (name : String) : Bool := (s.returned.get? name).any isSelectable

/-- No call has raised, availability follows the last checks, and so do recommendations. -/
structure FollowsChecks (s : HealthRun) : Prop where
  quiet : s.raised = false
  available : ∀ name, s.service.isBrokerAvailable name = s.lastSelectable name
  recommended : ∀ name, s.service.getRecommendedBroker = some name →
    s.returned.get? name ≠ some .disconnected ∧ s.returned.get? name ≠ some .error

/-- A broker whose connection is lost is not available when that is found. -/
def LosesNone (s : HealthRun) : HealthOp → Prop
  | .check name a _ => name ∈ s.service.brokers → a.connectionLost = true →
      s.service.isBrokerAvailable name = false
  | .getAll observe now => ∀ name ∈ s.service.brokers,
      s.service.isCacheFresh config name now = false → (observe name).connectionLost = true →
        s.service.isBrokerAvailable name = false
  | _ => True

/-! ## Steps -/

/-- The availability of a broker follows its last check. -/
def Tracks (s : HealthRun) (name : String) : Prop :=
  s.service.isBrokerAvailable name = s.lastSelectable name

theorem followsChecks_of_tracks {s : HealthRun} (hquiet : s.raised = false)
    (h : ∀ name, s.Tracks name) : s.FollowsChecks := by
  refine ⟨hquiet, h, fun name hname => ?_⟩
  have hselectable : s.lastSelectable name = true :=
    (h name).symm.trans (available_of_recommended s.service hname)
  unfold lastSelectable at hselectable
  constructor <;> intro hreturned <;> rw [hreturned] at hselectable <;> cases hselectable

variable {config} {s : HealthRun} {name : String} {a : AdapterBehaviour} {now : Time}

/-- The ways a check ends: the name is unknown, the connection is lost, or the metrics are stored. -/
inductive CheckEnd (s : HealthRun) (name : String) (a : AdapterBehaviour) (now : Time) :
    HealthRun × Option HealthExc → Prop
  | unknown (hname : name ∉ s.service.brokers) :
      CheckEnd s name a now ({ s with returned := s.returned.set name .unknown }, none)
  | lost (hname : name ∈ s.service.brokers) (hlost : a.connectionLost = true)
      (history : Dict String (List HealthCheckResult)) :
      CheckEnd s name a now
        ({ s with
            service := { s.service with healthHistory := history }
            returned := s.returned.set name .disconnected }, none)
  | stored (hname : name ∈ s.service.brokers) (hfound : a.connectionLost = false)
      (history : Dict String (List HealthCheckResult)) (m : BrokerHealthMetrics) :
      CheckEnd s name a now
        ({ s with
            service := { s.service with healthHistory := history }.storeMetrics name m now
            returned := s.returned.set name m.status }, none)

theorem check_end (hhandled : a.Handled) : CheckEnd s name a now (s.check config name a now) := by
  unfold check
  by_cases hname : name ∈ s.service.brokers
  · rcases check_cases config now hname hhandled with
      ⟨hlost, history, m, hm, hcheck⟩ | ⟨hfound, history, m, hcheck⟩
    · rw [hcheck]
      dsimp only
      rw [hm]
      exact .lost hname hlost history
    · rw [hcheck]
      exact .stored hname hfound history m
  · unfold checkBrokerHealth
    rw [if_pos hname]
    exact .unknown hname

/-- A check leaves the other brokers alone. -/
structure LeavesAlone (s s' : HealthRun) (other : String) : Prop where
  brokers : s'.service.brokers = s.service.brokers
  available : s'.service.isBrokerAvailable other = s.service.isBrokerAvailable other
  returned : s'.returned.get? other = s.returned.get? other
  fresh : ∀ config later,
    s'.service.isCacheFresh config other later = s.service.isCacheFresh config other later

theorem LeavesAlone.tracks_iff {s' : HealthRun} {other : String} (h : LeavesAlone s s' other) :
    s'.Tracks other ↔ s.Tracks other := by
  unfold Tracks lastSelectable
  rw [h.available, h.returned]

theorem CheckEnd.leavesAlone {r : HealthRun × Option HealthExc} (h : CheckEnd s name a now r)
    {other : String} (hother : other ≠ name) : LeavesAlone s r.1 other := by
  cases h with
  | unknown hname => exact ⟨rfl, rfl, Dict.get?_set_of_ne _ _ hother, fun _ _ => rfl⟩
  | lost hname hlost history => exact ⟨rfl, rfl, Dict.get?_set_of_ne _ _ hother, fun _ _ => rfl⟩
  | stored hname hfound history m =>
      refine ⟨rfl, ?_, Dict.get?_set_of_ne _ _ hother, fun config later => ?_⟩
      · rw [available_storeMetrics, if_neg hother]
        rfl
      · exact fresh_storeMetrics_of_ne { s.service with healthHistory := history } config m hother
          later

theorem CheckEnd.quiet {r : HealthRun × Option HealthExc} (h : CheckEnd s name a now r) :
    r.2 = none ∧ r.1.raised = s.raised ∧ r.1.service.brokers = s.service.brokers := by
  cases h <;> exact ⟨rfl, rfl, rfl⟩

theorem CheckEnd.of_unknown {r : HealthRun × Option HealthExc} (h : CheckEnd s name a now r)
    (hname : name ∉ s.service.brokers) :
    r.1.service = s.service ∧ r.1.returned.get? name = some .unknown := by
  cases h with
  | unknown _ => exact ⟨rfl, Dict.get?_set_self _ _ _⟩
  | lost hmem _ _ => exact absurd hmem hname
  | stored hmem _ _ _ => exact absurd hmem hname

/-- A check of a known broker tracks it unless it lost a connection that is still counted on. -/
theorem CheckEnd.tracks_iff {r : HealthRun × Option HealthExc} (h : CheckEnd s name a now r)
    (hname : name ∈ s.service.brokers) : r.1.Tracks name ↔
      (a.connectionLost = true → s.service.isBrokerAvailable name = false) := by
  unfold Tracks lastSelectable
  cases h with
  | unknown hunknown => exact absurd hname hunknown
  | lost hname hlost history =>
      dsimp only
      rw [Dict.get?_set_self, hlost]
      exact ⟨fun h _ => h, fun h => h rfl⟩
  | stored hname hfound history m =>
      dsimp only
      rw [Dict.get?_set_self, available_storeMetrics, if_pos rfl, hfound]
      simp

/-! ## All brokers -/

section Ask

variable (config : BrokerHealthServiceConfig) {observe : String → AdapterBehaviour} (now : Time)

/-- The broker that is asked loses no connection that is still counted on. -/
def AskLosesNone (observe : String → AdapterBehaviour) (s : HealthRun) (name : String) : Prop :=
  s.service.isCacheFresh config name now = false → (observe name).connectionLost = true →
    s.service.isBrokerAvailable name = false

theorem ask_leavesAlone (hhandled : ∀ name, (observe name).Handled) (s : HealthRun)
    {name other : String} (hother : other ≠ name) :
    LeavesAlone s (s.ask config observe now name).1 other := by
  unfold ask
  split
  · exact ⟨rfl, rfl, rfl, fun _ _ => rfl⟩
  · exact (check_end (hhandled name)).leavesAlone hother

theorem ask_quiet (hhandled : ∀ name, (observe name).Handled) (s : HealthRun) (name : String) :
    (s.ask config observe now name).2 = none ∧
      (s.ask config observe now name).1.raised = s.raised ∧
      (s.ask config observe now name).1.service.brokers = s.service.brokers := by
  unfold ask
  split
  · exact ⟨rfl, rfl, rfl⟩
  · exact (check_end (hhandled name)).quiet

theorem ask_tracks_iff (hhandled : ∀ name, (observe name).Handled) {s : HealthRun} {name : String}
    (hname : name ∈ s.service.brokers) (htracks : s.Tracks name) :
    (s.ask config observe now name).1.Tracks name ↔ AskLosesNone config now observe s name := by
  unfold ask AskLosesNone
  cases hfresh : s.service.isCacheFresh config name now with
  | true => simp [htracks]
  | false =>
      rw [if_neg Bool.false_ne_true, (check_end (hhandled name)).tracks_iff hname]
      exact ⟨fun h _ => h, fun h => h rfl⟩

theorem askLosesNone_frame (hhandled : ∀ name, (observe name).Handled) (s : HealthRun)
    {name other : String} (hother : other ≠ name) :
    AskLosesNone config now observe (s.ask config observe now name).1 other ↔
      AskLosesNone config now observe s other := by
  have halone := ask_leavesAlone config now hhandled s hother
  unfold AskLosesNone
  rw [halone.fresh, halone.available]

/-- What is done for one broker leaves the service as asking it does. -/
theorem getBrokerHealth_service (hhandled : ∀ name, (observe name).Handled) (s : HealthRun)
    (found : Dict String BrokerHealthMetrics) (name : String) :
    ∃ found', getBrokerHealth config observe now (s.service, found) name =
      (((s.ask config observe now name).1.service, found'), none) := by
  have hquiet := (ask_quiet config now hhandled s name).1
  unfold getBrokerHealth
  unfold ask at hquiet ⊢
  dsimp only
  split
  · exact ⟨_, rfl⟩
  · rename_i hstale
    rw [if_neg hstale] at hquiet
    unfold check at hquiet ⊢
    generalize s.service.checkBrokerHealth config name (observe name) now = r at hquiet ⊢
    obtain ⟨service, result⟩ := r
    cases result with
    | ok m => exact ⟨_, rfl⟩
    | error e => cases hquiet

/-- The request leaves the service as asking one broker after the other does. -/
theorem loop_service (hhandled : ∀ name, (observe name).Handled) (names : List String)
    (s : HealthRun) (found : Dict String BrokerHealthMetrics) :
    (loop (getBrokerHealth config observe now) (s.service, found) names).1.1 =
      (loop (ask config observe now) s names).1.service := by
  induction names generalizing s found with
  | nil => rfl
  | cons name rest ih =>
      have hask : s.ask config observe now name = ((s.ask config observe now name).1, none) :=
        Prod.ext rfl (ask_quiet config now hhandled s name).1
      obtain ⟨found', hget⟩ := getBrokerHealth_service config now hhandled s found name
      unfold loop
      rw [hget, hask]
      exact ih _ found'

theorem getAll_service (hhandled : ∀ name, (observe name).Handled) (s : HealthRun) :
    (s.service.getAllBrokersHealth config observe now).1 =
      (loop (ask config observe now) s s.service.brokers).1.service := by
  rw [← loop_service config now hhandled s.service.brokers s Table.empty]
  unfold getAllBrokersHealth
  generalize loop (getBrokerHealth config observe now) (s.service, Table.empty) s.service.brokers = r
  obtain ⟨r, e⟩ := r
  cases e <;> rfl

theorem loop_quiet (hhandled : ∀ name, (observe name).Handled) (s : HealthRun)
    (names : List String) : (loop (ask config observe now) s names).1.raised = s.raised ∧
      (loop (ask config observe now) s names).1.service.brokers = s.service.brokers := by
  refine loop_invariant (I := fun t : HealthRun => t.raised = s.raised ∧
    t.service.brokers = s.service.brokers) (fun t name _ ht => ?_) ⟨rfl, rfl⟩
  obtain ⟨-, hraised, hbrokers⟩ := ask_quiet config now hhandled t name
  exact ⟨hraised.trans ht.1, hbrokers.trans ht.2⟩

/-- A request for all brokers tracks them exactly when it loses no connection that is still counted
on. -/
theorem loop_tracks_iff (hhandled : ∀ name, (observe name).Handled) {s : HealthRun}
    (htracks : ∀ name, s.Tracks name) :
    (∀ name, (loop (ask config observe now) s s.service.brokers).1.Tracks name) ↔
      ∀ name ∈ s.service.brokers, AskLosesNone config now observe s name := by
  have hknown (t : HealthRun) (x : String) : (t.ask config observe now x).1.service.brokers =
      t.service.brokers := (ask_quiet config now hhandled t x).2.2
  have hframe (t : HealthRun) (x y : String) (hne : y ≠ x) :
      (t.ask config observe now x).1.Tracks y ↔ t.Tracks y :=
    (ask_leavesAlone config now hhandled t hne).tracks_iff
  have hbrokers := (loop_quiet config now hhandled s s.service.brokers).2
  have hloop : (∀ x, x ∈ (loop (ask config observe now) s s.service.brokers).1.service.brokers →
        (loop (ask config observe now) s s.service.brokers).1.Tracks x) ↔
      LoopMeets (ask config observe now)
        (fun t x => x ∈ t.service.brokers → AskLosesNone config now observe t x) s
        s.service.brokers := by
    refine loop_iff_loopMeets (I := fun (t : HealthRun) x => x ∈ t.service.brokers → t.Tracks x)
      s.service.nodup ?_ ?_ fun x _ => htracks x
    · intro t x hx
      rw [hknown]
      exact forall_congr' fun hmem => ask_tracks_iff config now hhandled hmem (hx hmem)
    · intro t x y hne
      rw [hknown]
      exact forall_congr' fun _ => hframe t x y hne
  have hstart : LoopMeets (ask config observe now)
      (fun t x => x ∈ t.service.brokers → AskLosesNone config now observe t x) s
      s.service.brokers ↔ ∀ x ∈ s.service.brokers, x ∈ s.service.brokers →
        AskLosesNone config now observe s x := by
    refine loopMeets_iff_forall s.service.nodup (fun t x => (ask_quiet config now hhandled t x).1)
      (fun t x y hne => ?_) s
    rw [hknown]
    exact forall_congr' fun _ => askLosesNone_frame config now hhandled t hne
  rw [hbrokers] at hloop
  constructor
  · intro h name hname
    exact hstart.mp (hloop.mp fun x _ => h x) name hname hname
  · intro h name
    by_cases hname : name ∈ s.service.brokers
    · exact hloop.mpr (hstart.mpr fun x hx _ => h x hx) name hname
    · exact (loop_frame hframe hname s).mpr (htracks name)

end Ask

/-! ## Every run -/

/-- Nothing has raised, the availability of all brokers follows their last checks, and a name that
is not known is not available. -/
structure Follows (s : HealthRun) : Prop where
  quiet : s.raised = false
  tracks : ∀ name, s.Tracks name
  unknown : ∀ name ∉ s.service.brokers, s.service.isBrokerAvailable name = false

theorem Follows.followsChecks {s : HealthRun} (h : Follows s) : s.FollowsChecks :=
  followsChecks_of_tracks h.quiet h.tracks

/-- The brokers are all tracked after a check exactly when it loses none. -/
theorem check_tracks_iff (hhandled : a.Handled) (h : Follows s) :
    (∀ other, (s.check config name a now).1.Tracks other) ↔
      s.LosesNone config (.check name a now) := by
  have hend : CheckEnd s name a now (s.check config name a now) := check_end hhandled
  constructor
  · intro htracks hname
    exact (hend.tracks_iff hname).mp (htracks name)
  · intro hkeeps other
    by_cases hother : other = name
    · rw [hother]
      by_cases hname : name ∈ s.service.brokers
      · exact (hend.tracks_iff hname).mpr (hkeeps hname)
      · obtain ⟨hservice, hreturned⟩ := hend.of_unknown hname
        unfold Tracks lastSelectable
        rw [hservice, hreturned, h.unknown name hname]
        rfl
    · exact (hend.leavesAlone hother).tracks_iff.mpr (h.tracks other)

theorem step_tracks_iff {op : HealthOp} (hhandled : op.Handled) (h : Follows s) :
    (∀ name, (s.step config op).Tracks name) ↔ s.LosesNone config op := by
  cases op with
  | check name a now => exact check_tracks_iff hhandled h
  | success target latencyMs now =>
      refine iff_of_true (fun name => ?_) trivial
      exact (available_recordBrokerSuccess s.service latencyMs name).trans (h.tracks name)
  | failure target latencyMs now =>
      refine iff_of_true (fun name => ?_) trivial
      exact (available_recordBrokerError s.service latencyMs name).trans (h.tracks name)
  | getAll observe now =>
      unfold step
      dsimp only
      rw [getAll_service config now hhandled s]
      exact loop_tracks_iff config now hhandled h.tracks

theorem step_quiet {op : HealthOp} (hhandled : op.Handled) :
    (s.step config op).raised = s.raised ∧
      (s.step config op).service.brokers = s.service.brokers := by
  cases op with
  | check name a now => exact (check_end hhandled).quiet.2
  | success target latencyMs now => exact ⟨rfl, brokers_modifyMetrics s.service _⟩
  | failure target latencyMs now => exact ⟨rfl, brokers_modifyMetrics s.service _⟩
  | getAll observe now =>
      obtain ⟨hraised, hbrokers⟩ := loop_quiet config now hhandled s s.service.brokers
      refine ⟨hraised, ?_⟩
      unfold step
      dsimp only
      rw [getAll_service config now hhandled s]
      exact hbrokers

/-- No step makes a name available that is not known. -/
theorem step_unknown {op : HealthOp} (hhandled : op.Handled) {name : String}
    (hname : name ∉ s.service.brokers) : (s.step config op).service.isBrokerAvailable name =
      s.service.isBrokerAvailable name := by
  cases op with
  | check target a now =>
      have hend : CheckEnd s target a now (s.check config target a now) := check_end hhandled
      change (s.check config target a now).1.service.isBrokerAvailable name = _
      by_cases hsame : name = target
      · rw [(hend.of_unknown (hsame ▸ hname)).1]
      · exact (hend.leavesAlone hsame).available
  | success target latencyMs now => exact available_recordBrokerSuccess s.service latencyMs name
  | failure target latencyMs now => exact available_recordBrokerError s.service latencyMs name
  | getAll observe now =>
      unfold step
      dsimp only
      rw [getAll_service config now hhandled s]
      have hframe := loop_frame (I := fun (t : HealthRun) x => t.service.isBrokerAvailable x =
        s.service.isBrokerAvailable x) (fun t x y hne => by
          rw [(ask_leavesAlone config now hhandled t hne).available]) hname s
      exact hframe.mpr rfl

/-- In every run in which adapters raise what the service handles, no call raises and selection
follows the last checks throughout, exactly when no check finds the connection lost of a broker that
is available. -/
theorem selection_follows_checks_iff (config : BrokerHealthServiceConfig) (brokers : List String)
    (hnodup : brokers.Nodup) (ops : List HealthOp) (hhandled : ∀ op ∈ ops, op.Handled) :
    Always (step config) FollowsChecks { service := init brokers hnodup } ops ↔
      StepsMeet (step config) (LosesNone config) { service := init brokers hnodup } ops := by
  refine always_iff_stepsMeet_of_stronger (J := Follows) (fun t ht => ht.followsChecks) ?_ ?_ ?_
  · intro t op hop ht hkeeps
    obtain ⟨hraised, hbrokers⟩ := @step_quiet config t op (hhandled op hop)
    refine ⟨hraised.trans ht.quiet, (step_tracks_iff (hhandled op hop) ht).mpr hkeeps, ?_⟩
    intro name hname
    rw [hbrokers] at hname
    exact (step_unknown (hhandled op hop) hname).trans (ht.unknown name hname)
  · intro t op hop ht hnext
    exact (step_tracks_iff (hhandled op hop) ht).mp hnext.available
  · have hstart := available_init brokers hnodup
    exact ⟨rfl, fun name => hstart name, fun name _ => hstart name⟩

end HealthRun

/-! ## A broker that was connected -/

def connectedAdapter : AdapterBehaviour where
  ping := some (.ok true)
  validateToken := some (.ok true)

def unreachableAdapter : AdapterBehaviour where
  ping := some (.ok false)

/-- A `BrokerConnectionError` is not caught by the connectivity check but by the check around it. -/
def refusingAdapter : AdapterBehaviour where
  ping := some (.error ⟨.brokerConnectionError, "connection refused"⟩)

theorem connectedAdapter_handled : connectedAdapter.Handled := by
  intro e h
  rcases h with h | h | h <;> cases h

theorem unreachableAdapter_handled : unreachableAdapter.Handled := by
  intro e h
  rcases h with h | h | h <;> cases h

theorem refusingAdapter_handled : refusingAdapter.Handled := by
  intro e h
  rcases h with h | h | h
  · obtain rfl := Except.error.inj h
    decide
  · cases h
  · cases h

/-- A broker that refuses the connection is stored as failed before it is found unreachable. -/
theorem selection_follows_checks_refused :
    Always (HealthRun.step {}) HealthRun.FollowsChecks { service := init ["kite"] (by decide) }
      [.check "kite" refusingAdapter 0, .check "kite" unreachableAdapter second] := by
  refine (HealthRun.selection_follows_checks_iff {} ["kite"] (by decide) _ ?_).mpr ⟨?_, ?_, trivial⟩
  · intro op hop
    simp only [List.mem_cons, List.not_mem_nil, or_false] at hop
    rcases hop with rfl | rfl
    · exact refusingAdapter_handled
    · exact unreachableAdapter_handled
  · intro _ hlost
    revert hlost
    decide
  · intro _ _
    decide +kernel

/-- The broker stays available, and is recommended, after a check that found it disconnected. -/
theorem disconnected_stays_available :
    (∀ op ∈ [HealthOp.check "kite" connectedAdapter 0, .check "kite" unreachableAdapter second],
      op.Handled) ∧
    ¬Always (HealthRun.step {}) HealthRun.FollowsChecks { service := init ["kite"] (by decide) }
      [.check "kite" connectedAdapter 0, .check "kite" unreachableAdapter second] := by
  refine ⟨?_, fun h => ?_⟩
  · intro op hop
    simp only [List.mem_cons, List.not_mem_nil, or_false] at hop
    rcases hop with rfl | rfl
    · exact connectedAdapter_handled
    · exact unreachableAdapter_handled
  · have havailable := h.final.available "kite"
    revert havailable
    decide +kernel

end AutoTrade.Services
