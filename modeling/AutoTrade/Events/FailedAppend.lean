import AutoTrade.Events.ChainIntegrity

/-! # What a failed append leaves behind

`append_event` answers false for every exception it handles. The JSON file is
written last, so an exception of its dump comes after the event was filed in
memory and in the table, while one of the hash comes before.
-/

namespace AutoTrade.Events

open AutoTrade.Library EventStore

section Store

variable {δ ν : Type} (rt : PayloadRuntime δ ν)

/-! ## What is filed before the dump -/

/-- What `json.dumps` of the streams raises once the event is among them. -/
def EventStore.dumpErrorWith (s : EventStore δ) (stream : String) (e : StoredEvent δ) :
    Option PyExc :=
  jsonError rt ((s.streams.set stream (s.streamEvents stream ++ [e])).mapValues recentEvents)

theorem EventStore.keep_raises_iff (s : EventStore δ) (stream : String) (e : StoredEvent δ)
    (err : PyExc) :
    (s.keep rt stream e).2 = some err ↔
      s.dumpErrorWith rt stream e = some err ∧ err.caughtBy [.osError, .valueError] = false := by
  unfold EventStore.keep trimJsonPersist EventStore.dumpErrorWith persistToSqlite
  dsimp only
  cases jsonError rt ((s.streams.set stream (s.streamEvents stream ++ [e])).mapValues
      recentEvents) with
  | none => simp
  | some raised =>
      by_cases hcaught : raised.caughtBy [.osError, .valueError] = true
      · simp only [hcaught, if_true, reduceCtorEq, Option.some.injEq, false_iff, not_and]
        rintro rfl
        simp [hcaught]
      · simp only [hcaught, if_false, Option.some.injEq, Bool.false_eq_true]
        constructor
        · rintro rfl
          exact ⟨rfl, Bool.eq_false_iff.mpr hcaught⟩
        · exact And.left

/-- The event cannot be made, or the dump raises nothing that only `append_event` handles. -/
def EventStore.DumpsOrFailsFirst (s : EventStore δ) (attrs : EventAttrs δ ν) (now : ℚ) : Prop :=
  ∀ e, s.eventOfAttrs rt attrs now = .ok e → ∀ err,
    s.dumpErrorWith rt (attrs.stream rt) e = some err →
      err.caughtBy [.typeError, .attributeError] = false

theorem caught_after_trim {e : PyExc} (h : e.caughtBy [.osError, .valueError] = false) :
    e.caughtBy [.valueError, .typeError, .attributeError, .osError] =
      e.caughtBy [.typeError, .attributeError] := by
  unfold PyExc.caughtBy at h ⊢
  cases hcls : e.cls <;> simp_all

/-- A dump that raises a `TypeError` or an `AttributeError` answers false, with the event filed. -/
theorem EventStore.appendEvent_of_dumpError {s : EventStore δ} {attrs : EventAttrs δ ν} {now : ℚ}
    {e : StoredEvent δ} {err : PyExc} (made : s.eventOfAttrs rt attrs now = .ok e)
    (raises : s.dumpErrorWith rt (attrs.stream rt) e = some err)
    (caught : err.caughtBy [.typeError, .attributeError] = true) :
    s.appendEvent rt attrs now = ((s.keep rt (attrs.stream rt) e).1, some false) := by
  have hpassed : err.caughtBy [.osError, .valueError] = false := by
    unfold PyExc.caughtBy at caught ⊢
    cases hcls : err.cls <;> simp_all
  have hkeep := (s.keep_raises_iff rt (attrs.stream rt) e err).mpr ⟨raises, hpassed⟩
  unfold EventStore.appendEvent
  rw [made]
  dsimp only
  rw [show s.keep rt (attrs.stream rt) e = (_, some err) from Prod.ext rfl hkeep]
  dsimp only
  rw [caught_after_trim hpassed, caught, if_pos rfl]

/-- Unless the dump raises one of these, an append that answers false made no event. -/
theorem EventStore.appendEvent_false {s t : EventStore δ} {attrs : EventAttrs δ ν} {now : ℚ}
    (failed : s.appendEvent rt attrs now = (t, some false))
    (dumps : s.DumpsOrFailsFirst rt attrs now) :
    t = s ∧ ∃ err, s.eventOfAttrs rt attrs now = .error err := by
  cases hmade : s.eventOfAttrs rt attrs now with
  | error err =>
      rw [← appendEvent_of_error hmade, failed]
      exact ⟨rfl, err, rfl⟩
  | ok e =>
      unfold EventStore.appendEvent at failed
      rw [hmade] at failed
      dsimp only at failed
      cases hkeep : s.keep rt (attrs.stream rt) e with
      | mk u result =>
          rw [hkeep] at failed
          cases result with
          | none => cases failed
          | some err =>
              have hraised := (s.keep_raises_iff rt (attrs.stream rt) e err).mp (by rw [hkeep])
              have hpasses := dumps e hmade err hraised.1
              dsimp only at failed
              rw [caught_after_trim hraised.2, hpasses] at failed
              cases failed

/-! ## Leaving the store alone -/

def ChainOp.AppendsTo (stream : String) : ChainOp δ ν → Prop
  | .append _ name _ _ _ => name = stream
  | .appendEvent attrs _ => attrs.stream rt = stream
  | .restart => False

/-- What a new process finds after one more call. -/
def EventStore.restartedAfter (s : EventStore δ) (next : ChainOp δ ν) : EventStore δ :=
  (ChainRun.step rt { store := s } next).store.restart rt

/-- Nothing is filed, and whatever chain the next append to the stream would have given a new
process, it still gives. -/
structure LeftAlone (s t : EventStore δ) (stream : String) : Prop where
  streams : t.streams = s.streams
  total : t.totalEvents = s.totalEvents
  table : t.events = s.events
  next : ∀ next : ChainOp δ ν, next.AppendsTo rt stream → ∀ asked,
    Verifies rt (s.restartedAfter rt next) asked → Verifies rt (t.restartedAfter rt next) asked

def EventStore.LeavesAlone (s : EventStore δ) (attrs : EventAttrs δ ν) (now : ℚ) : Prop :=
  ∀ t, s.appendEvent rt attrs now = (t, some false) → LeftAlone rt s t (attrs.stream rt)

theorem EventStore.leavesAlone_iff (s : EventStore δ) (attrs : EventAttrs δ ν) (now : ℚ) :
    s.LeavesAlone rt attrs now ↔ s.DumpsOrFailsFirst rt attrs now := by
  constructor
  · intro alone e hmade err hraises
    by_contra hnot
    have hcaught : err.caughtBy [.typeError, .attributeError] = true := by simpa using hnot
    have hleft := alone _ (appendEvent_of_dumpError rt hmade hraises hcaught)
    have htotal := hleft.total
    rw [(s.keep_frame rt (attrs.stream rt) e).2.1] at htotal
    omega
  · intro dumps t failed
    obtain ⟨rfl, -⟩ := appendEvent_false rt failed dumps
    exact ⟨rfl, rfl, rfl, fun _ _ _ verified => verified⟩

/-! ## Runs -/

/-- What the call files is representable as JSON, and a new process finds every stream whole. -/
def ChainRun.FilesWell (r : ChainRun δ) : ChainOp δ ν → Prop
  | .append eventType stream data metadata now =>
      (∃ e, r.store.eventOf rt eventType stream data metadata now = .ok e) →
        rt.Representable (dataOr rt data) ∧ rt.Representable (dataOr rt metadata)
  | .appendEvent attrs now =>
      (∃ e, r.store.eventOfAttrs rt attrs now = .ok e) → rt.Representable (attrs.data rt)
  | .restart => r.KeptWhole (.restart : ChainOp δ ν)

variable {rt}

theorem ChainRun.Sound.step {r : ChainRun δ} (h : ChainRun.Sound rt r) (op : ChainOp δ ν)
    (well : r.FilesWell rt op) : ChainRun.Sound rt (r.step rt op) := by
  cases op with
  | append eventType stream data metadata now =>
      cases hmade : r.store.eventOf rt eventType stream data metadata now with
      | error err =>
          rw [ChainRun.step, append_of_error hmade]
          exact h
      | ok e =>
          obtain ⟨hdata, hmetadata⟩ := well ⟨e, hmade⟩
          exact ChainRun.sound_append h hdata hmetadata now
  | appendEvent attrs now =>
      cases hmade : r.store.eventOfAttrs rt attrs now with
      | error err =>
          obtain ⟨result, hcall⟩ :
              ∃ result, r.store.appendEvent rt attrs now = (r.store, result) :=
            ⟨_, by rw [appendEvent, hmade]⟩
          rw [ChainRun.step, hmade, hcall]
          exact h
      | ok e => exact ChainRun.sound_appendEvent h (well ⟨e, hmade⟩) now
  | restart => exact ChainRun.sound_restart h well

theorem ChainRun.Sound.fresh {r : ChainRun δ} (h : ChainRun.Sound rt r) :
    ChainRun.Sound rt { store := r.store } :=
  ⟨h.streams, h.file, by simp⟩

/-- From a sound store, a new process finds valid chains after one more call. -/
theorem verifies_restartedAfter {s : EventStore δ} (h : ChainRun.Sound rt { store := s })
    {next : ChainOp δ ν} (well : ChainRun.FilesWell rt { store := s } next)
    (whole : (ChainRun.step rt { store := s } next).FilesWell rt (.restart : ChainOp δ ν)) :
    Verifies rt (s.restartedAfter rt next) none :=
  ((h.step next well).step .restart whole).intact.valid

variable (rt) in
/-- A failed append leaves a store alone exactly where it fails before the event is filed, or where
the dump raises nothing that it handles. Then, in every run that files representable payloads, a new
process finds valid chains after the next append. -/
theorem failed_append_leaves_store_alone :
    (∀ (s : EventStore δ) (attrs : EventAttrs δ ν) (now : ℚ),
      s.LeavesAlone rt attrs now ↔ s.DumpsOrFailsFirst rt attrs now) ∧
      ∀ ops : List (ChainOp δ ν), StepsMeet (ChainRun.step rt) (ChainRun.FilesWell rt) {} ops →
        ∀ attrs now t,
          (run (ChainRun.step rt) {} ops).store.appendEvent rt attrs now = (t, some false) →
          (run (ChainRun.step rt) {} ops).store.DumpsOrFailsFirst rt attrs now →
        ∀ next : ChainOp δ ν, next.AppendsTo rt (attrs.stream rt) →
          ChainRun.FilesWell rt { store := t } next →
          (ChainRun.step rt { store := t } next).FilesWell rt (.restart : ChainOp δ ν) →
          Verifies rt (t.restartedAfter rt next) none := by
  refine ⟨leavesAlone_iff rt, ?_⟩
  intro ops meet attrs now t failed dumps next _ well whole
  have hkept (r : ChainRun δ) (op : ChainOp δ ν) (_ : op ∈ ops) (h : ChainRun.Sound rt r)
      (well : r.FilesWell rt op) : ChainRun.Sound rt (r.step rt op) := h.step op well
  have hsound := (always_of_stepsMeet hkept ChainRun.sound_initial meet).final
  obtain ⟨rfl, -⟩ := appendEvent_false rt failed dumps
  exact verifies_restartedAfter hsound.fresh well whole

/-- The same payloads, with another way to fail a dump. -/
def PayloadRuntime.dumpingWith (rt : PayloadRuntime δ ν) (dumpError : δ → Option PyExc)
    (dumps_empty : dumpError rt.empty = none) : PayloadRuntime δ ν :=
  { rt with
    dumpError
    dumpError_empty := dumps_empty }

/-- JSON has no form for the date under the key `when`. -/
def dateError (data : List (String × String)) : Option PyExc :=
  if data.any (·.1 = "when") then
    some ⟨.typeError, "Object of type datetime is not JSON serializable"⟩
  else none

theorem dateError_empty : dateError plainRuntime.empty = none := by
  decide

def datedRuntime : PayloadRuntime (List (String × String)) String :=
  plainRuntime.dumpingWith dateError dateError_empty

def datedEvent : EventAttrs (List (String × String)) String :=
  { eventType := some "SIGNAL", symbol := some "NIFTY"
    metadata := some [("when", "2024-01-02 09:15:00")] }

/-- The append answers false, and the event is in memory and in the table. -/
theorem failed_append_files_event :
    (({} : EventStore (List (String × String))).appendEvent datedRuntime datedEvent 0).2 =
        some false ∧
      ¬ ({} : EventStore (List (String × String))).LeavesAlone datedRuntime datedEvent 0 := by
  have hfailed : (({} : EventStore (List (String × String))).appendEvent datedRuntime
      datedEvent 0).2 = some false := by decide +kernel
  refine ⟨hfailed, fun alone => ?_⟩
  have hleft := alone (EventStore.appendEvent datedRuntime {} datedEvent 0).1
    (Prod.ext rfl hfailed)
  exact absurd hleft.total (by decide +kernel)

end Store

end AutoTrade.Events
