import AutoTrade.Events.EventStore
import Mathlib.Algebra.BigOperators.Group.List.Basic

/-! # The two backends

The table takes no second event of an id, and `delete_stream` leaves the count
of events alone. Apart from that the table and the streams hold the same events.
-/

namespace AutoTrade.Events

open AutoTrade.Library EventStore

/-- What the two backends have in common of an event. -/
structure EventRecord where
  eventId : String
  eventType : String
  stream : String
  version : Nat
  sha256 : String
deriving DecidableEq, Repr

def EventRow.record (r : EventRow) : EventRecord :=
  { eventId := r.eventId, eventType := r.eventType, stream := r.stream, version := r.version
    sha256 := r.sha256 }

section Store

variable {δ ν : Type}

def StoredEvent.record (e : StoredEvent δ) : EventRecord :=
  { eventId := e.eventId, eventType := e.eventType, stream := e.stream, version := e.version
    sha256 := e.eventHash }

/-- The table holds the events of the streams, and the count of events is the sum of their
lengths. -/
structure Synced (s : EventStore δ) : Prop where
  rows : (s.events.rows.map EventRow.record).Perm (s.allEvents.map StoredEvent.record)
  total : s.getStats.totalEvents = (s.getStats.eventsByStream.map (·.2)).sum

inductive BackendOp (δ ν : Type)
  | append (eventType stream : String) (data metadata : Option δ) (now : ℚ)
  | appendEvent (attrs : EventAttrs δ ν) (now : ℚ)
  | appendMany (events : List (ManyEntry δ)) (stream : String)
  | deleteStream (stream : String)
  | clearAll

namespace BackendOp

variable (rt : PayloadRuntime δ ν)

def step (s : EventStore δ) : BackendOp δ ν → EventStore δ
  | append eventType stream data metadata now =>
      (s.append rt eventType stream data metadata now).1
  | appendEvent attrs now => (s.appendEvent rt attrs now).1
  | appendMany events stream => (s.appendMany rt events stream).1
  | deleteStream stream => (s.deleteStream stream).1
  | clearAll => s.clearAll

/-- The table has no event of the id of the new one. -/
def NewId (s : EventStore δ) : Except PyExc (StoredEvent δ) → Prop
  | .ok e => s.events.find? e.eventId = none
  | .error _ => True

/-- The event that `append_many` makes of an entry is new. -/
def NewEntry (stream : String) (s : EventStore δ) (entry : ManyEntry δ) : Prop :=
  NewId s (s.eventOf rt entry.eventType (orElse (some entry.stream) stream) (some entry.data) none
    entry.now)

/-- Every event appended is new to the table, and no stream there is deleted. -/
def InSync (s : EventStore δ) : BackendOp δ ν → Prop
  | append eventType stream data metadata now =>
      NewId s (s.eventOf rt eventType stream data metadata now)
  | appendEvent attrs now => NewId s (s.eventOfAttrs rt attrs now)
  | appendMany events stream =>
      LoopMeets (EventStore.appendEntry rt stream) (NewEntry rt stream) s events
  | deleteStream stream => s.streams.get? stream = none
  | clearAll => True

end BackendOp

variable {rt : PayloadRuntime δ ν}

/-! ## One event more -/

theorem length_allEvents (s : EventStore δ) :
    s.allEvents.length = (s.getStats.eventsByStream.map (·.2)).sum := by
  unfold allEvents getStats
  rw [List.length_flatMap, List.map_map]
  rfl

variable (rt) in
theorem keep_rows_of_new {s : EventStore δ} (stream : String) {e : StoredEvent δ}
    (h : s.events.find? e.eventId = none) :
    (s.keep rt stream e).1.events.rows.map EventRow.record =
      s.events.rows.map EventRow.record ++ [e.record] := by
  obtain ⟨-, -, hevents⟩ := s.keep_frame rt stream e
  rw [hevents, persistToSqlite,
    Table.rows_insertOrIgnore_of_fresh ((s.events.find?_eq_none_iff e.eventId).mp h),
    List.map_append]
  rfl

theorem keep_events_of_known {s : EventStore δ} (stream : String) {e : StoredEvent δ}
    (h : s.events.find? e.eventId ≠ none) : (s.keep rt stream e).1.events = s.events := by
  obtain ⟨-, -, hevents⟩ := s.keep_frame rt stream e
  obtain ⟨row, hrow⟩ := Option.ne_none_iff_exists'.mp h
  rw [hevents, persistToSqlite]
  exact Table.insertOrIgnore_of_mem ⟨row, (s.events.find?_eq_some_iff e.eventId row).mp hrow⟩

/-- The streams hold more events than the table. -/
def Behind (s : EventStore δ) : Prop := s.events.rows.length < s.allEvents.length

theorem Synced.not_behind {s : EventStore δ} (h : Synced s) : ¬ Behind s := by
  have hlength := h.rows.length_eq
  rw [List.length_map, List.length_map] at hlength
  exact not_lt.mpr hlength.ge

theorem synced_keep {s : EventStore δ} (h : Synced s) (stream : String) {e : StoredEvent δ}
    (hnew : s.events.find? e.eventId = none) : Synced (s.keep rt stream e).1 := by
  have hevents := keep_allEvents rt s stream e
  refine ⟨?_, ?_⟩
  · rw [keep_rows_of_new rt stream hnew]
    refine (List.perm_append_singleton _ _).trans ?_
    exact (h.rows.cons e.record).trans (hevents.map StoredEvent.record).symm
  · obtain ⟨-, htotal, -⟩ := s.keep_frame rt stream e
    rw [← length_allEvents, hevents.length_eq, List.length_cons, length_allEvents, ← h.total]
    exact htotal

theorem behind_keep_of_known {s : EventStore δ} (h : Synced s) (stream : String)
    {e : StoredEvent δ} (hknown : s.events.find? e.eventId ≠ none) :
    Behind (s.keep rt stream e).1 := by
  have hlength := h.rows.length_eq
  rw [List.length_map, List.length_map] at hlength
  rw [Behind, keep_events_of_known stream hknown, (keep_allEvents rt s stream e).length_eq, hlength]
  exact Nat.lt_succ_self _

theorem behind_keep {s : EventStore δ} (h : Behind s) (stream : String) (e : StoredEvent δ) :
    Behind (s.keep rt stream e).1 := by
  unfold Behind at h ⊢
  rw [(keep_allEvents rt s stream e).length_eq, List.length_cons]
  by_cases hnew : s.events.find? e.eventId = none
  · have hlength := congrArg List.length (keep_rows_of_new rt stream hnew)
    rw [List.length_append, List.length_map, List.length_map, List.length_singleton] at hlength
    omega
  · rw [keep_events_of_known stream hnew]
    omega

/-! ## Steps -/

theorem appendEntry_files (stream : String) (s : EventStore δ) (entry : ManyEntry δ) :
    Files rt s (s.appendEntry rt stream entry).1 (orElse (some entry.stream) stream)
      (s.eventOf rt entry.eventType (orElse (some entry.stream) stream) (some entry.data) none
        entry.now) := by
  have hfiles := append_files rt s entry.eventType (orElse (some entry.stream) stream)
    (some entry.data) none entry.now
  unfold EventStore.appendEntry
  split <;> rename_i hcall <;> rwa [hcall] at hfiles

/-- No stream is there without an event. -/
structure InStep (s : EventStore δ) : Prop where
  synced : Synced s
  filled : ∀ row ∈ s.streams.rows, row.2 ≠ []

theorem InStep.files {s t : EventStore δ} (h : InStep s) {stream : String}
    {made : Except PyExc (StoredEvent δ)} (hfiles : Files rt s t stream made)
    (hnew : BackendOp.NewId s made) : InStep t := by
  cases made with
  | error err =>
      obtain rfl : t = s := hfiles
      exact h
  | ok e =>
      obtain rfl : t = (s.keep rt stream e).1 := hfiles
      refine ⟨synced_keep h.synced stream hnew, ?_⟩
      obtain ⟨hset, -, -⟩ := s.keep_frame rt stream e
      rw [hset]
      intro row hrow
      rcases Dict.mem_rows_set hrow with rfl | hold
      · exact List.append_ne_nil_of_right_ne_nil _ (List.cons_ne_nil e [])
      · exact h.filled row hold

theorem InStep.behind_files {s t : EventStore δ} (h : InStep s) {stream : String}
    {made : Except PyExc (StoredEvent δ)} (hfiles : Files rt s t stream made)
    (hknown : ¬ BackendOp.NewId s made) : Behind t := by
  cases made with
  | error err => exact absurd trivial hknown
  | ok e =>
      obtain rfl : t = (s.keep rt stream e).1 := hfiles
      exact behind_keep_of_known h.synced stream hknown

theorem Behind.files {s t : EventStore δ} (h : Behind s) {stream : String}
    {made : Except PyExc (StoredEvent δ)} (hfiles : Files rt s t stream made) : Behind t := by
  cases made with
  | error err =>
      obtain rfl : t = s := hfiles
      exact h
  | ok e =>
      obtain rfl : t = (s.keep rt stream e).1 := hfiles
      exact behind_keep h stream e

theorem InStep.appendMany {s : EventStore δ} (h : InStep s) {events : List (ManyEntry δ)}
    {stream : String}
    (hnew : LoopMeets (EventStore.appendEntry rt stream) (BackendOp.NewEntry rt stream) s events) :
    InStep (s.appendMany rt events stream).1 :=
  loop_of_loopMeets (fun s entry hs => hs.files (appendEntry_files stream s entry)) h hnew

theorem InStep.behind_appendMany {s : EventStore δ} (h : InStep s) {events : List (ManyEntry δ)}
    {stream : String}
    (hknown : ¬ LoopMeets (EventStore.appendEntry rt stream) (BackendOp.NewEntry rt stream) s
      events) : Behind (s.appendMany rt events stream).1 :=
  loop_of_not_loopMeets (fun s entry hs => hs.files (appendEntry_files stream s entry))
    (fun s entry hs => hs.behind_files (appendEntry_files stream s entry))
    (fun s entry hs => hs.files (appendEntry_files stream s entry)) h hknown

theorem deleteStream_of_absent {s : EventStore δ} {stream : String}
    (h : s.streams.get? stream = none) : (s.deleteStream stream).1 = s := by
  have hrows : s.streams.erase stream = s.streams :=
    (Table.mk.injEq ..).mpr (Dict.rows_erase_of_get?_none h)
  have habsent : s.streams.contains stream = false := by
    rw [Dict.contains_iff_get?, h]
    rfl
  rw [EventStore.deleteStream, hrows, habsent]
  rfl

/-- A stream that is deleted still counts. -/
theorem InStep.not_synced_deleteStream {s : EventStore δ} (h : InStep s) {stream : String}
    {events : List (StoredEvent δ)} (hstream : s.streams.get? stream = some events) :
    ¬ Synced (s.deleteStream stream).1 := by
  intro hsynced
  have hthere : s.streams.contains stream = true := by
    rw [Dict.contains_iff_get?, hstream]
    rfl
  have htotal := hsynced.total
  rw [← length_allEvents, EventStore.deleteStream, if_pos hthere] at htotal
  have hleft : s.getStats.totalEvents =
      ((s.streams.erase stream).rows.flatMap (·.2)).length := htotal
  have hall := (allEvents_perm s stream).length_eq
  rw [length_allEvents, ← h.synced.total, List.length_append, streamEvents, hstream,
    Option.getD_some] at hall
  have hfull := h.filled _ ((Dict.get?_eq_some_iff s.streams stream events).mp hstream)
  have hpositive : 0 < events.length := List.length_pos_of_ne_nil hfull
  omega

/-- From an empty store, the two backends hold the same events throughout exactly when every event
appended has an id new to the table and no stream is deleted that is there. -/
theorem always_synced_iff (ops : List (BackendOp δ ν)) :
    Always (BackendOp.step rt) Synced ({} : EventStore δ) ops ↔
      StepsMeet (BackendOp.step rt) (BackendOp.InSync rt) {} ops := by
  refine always_iff_stepsMeet_of_stronger (J := InStep) (fun s h => h.synced) ?_ ?_ ?_
  · intro s op _ h hC
    cases op with
    | append eventType stream data metadata now =>
        exact h.files (append_files rt s eventType stream data metadata now) hC
    | appendEvent attrs now => exact h.files (appendEvent_files rt s attrs now) hC
    | appendMany events stream => exact h.appendMany hC
    | deleteStream stream =>
        show InStep (s.deleteStream stream).1
        rw [deleteStream_of_absent hC]
        exact h
    | clearAll => exact ⟨⟨List.Perm.refl _, rfl⟩, by simp [BackendOp.step, clearAll, Table.empty]⟩
  · intro s op _ h hsynced
    by_contra hC
    cases op with
    | append eventType stream data metadata now =>
        exact hsynced.not_behind
          (h.behind_files (append_files rt s eventType stream data metadata now) hC)
    | appendEvent attrs now =>
        exact hsynced.not_behind (h.behind_files (appendEvent_files rt s attrs now) hC)
    | appendMany events stream => exact hsynced.not_behind (h.behind_appendMany hC)
    | deleteStream stream =>
        obtain ⟨events, hstream⟩ := Option.ne_none_iff_exists'.mp hC
        exact h.not_synced_deleteStream hstream hsynced
    | clearAll => exact hC trivial
  · exact ⟨⟨List.Perm.refl _, rfl⟩, by simp [Table.empty]⟩

/-- The count outlives the stream. -/
theorem counted_after_delete :
    ¬ Always (BackendOp.step plainRuntime) Synced ({} : EventStore (List (String × String)))
      [.append "TICK" "prices" none none 0, .deleteStream "prices"] := by
  intro halways
  have htotal := halways.final.total
  revert htotal
  decide +kernel

end Store

end AutoTrade.Events
