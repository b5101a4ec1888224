import AutoTrade.Events.EventStore

/-! # What the hash chains prove

`verify_chain` accepts exactly the chains, so a last hash and a length determine
what a stream holds. Appending extends a chain; a new process continues it as
far as the JSON file kept all of it.
-/

namespace AutoTrade.Events

open AutoTrade.Library EventStore

section Store

variable {δ ν : Type} (rt : PayloadRuntime δ ν)

/-! ## Verification -/

def Sealed (e : StoredEvent δ) : Prop := computeHash rt e.toHashedContent = .ok e.eventHash

/-- The events of a stream as `verify_chain` wants them. -/
abbrev ChainedFrom (expected : String) (events : List (StoredEvent δ)) : Prop :=
  Chained (fun e : StoredEvent δ => e.previousEventHash) (fun e => e.eventHash) (Sealed rt) expected
    events

variable {rt}

theorem verifyStream_ok_iff (name expected : String) (checked : Nat)
    (events : List (StoredEvent δ)) (n : Nat) :
    verifyStream rt name expected checked events = .ok n ↔
      ChainedFrom rt expected events ∧ n = checked + events.length := by
  induction events generalizing expected checked with
  | nil => simp [verifyStream, Chained, eq_comm]
  | cons e rest ih =>
      unfold verifyStream Chained
      by_cases hprev : e.previousEventHash = expected
      · subst hprev
        rw [if_neg (by simp)]
        cases hhash : computeHash rt e.toHashedContent with
        | error err => simp [Sealed, hhash]
        | ok recomputed =>
            by_cases hsame : recomputed = e.eventHash
            · subst hsame
              simp only [ne_eq, not_true_eq_false, if_false, ih, Sealed, hhash, true_and,
                List.length_cons, Nat.add_assoc, Nat.add_comm 1]
            · simp [Sealed, hhash, hsame]
      · simp [hprev]

theorem verifyStreams_ok_iff (s : EventStore δ) (checked : Nat) (names : List String) :
    (∃ n, s.verifyStreams rt checked names = .ok n) ↔
      ∀ name ∈ names, ChainedFrom rt "" (s.streamEvents name) := by
  induction names generalizing checked with
  | nil => simp [verifyStreams]
  | cons name rest ih =>
      unfold verifyStreams
      cases hstream : verifyStream rt name "" checked (s.streamEvents name) with
      | error stop =>
          simp only [reduceCtorEq, exists_false, List.mem_cons, forall_eq_or_imp, false_iff, not_and]
          intro hchained
          have hok := (verifyStream_ok_iff name "" checked _ _).mpr ⟨hchained, rfl⟩
          rw [hstream] at hok
          cases hok
      | ok n =>
          have hchained := ((verifyStream_ok_iff name "" checked _ n).mp hstream).1
          simp only [ih, List.mem_cons, forall_eq_or_imp, hchained, true_and]

variable (rt) in
/-- `verify_chain` returns a valid verdict. -/
def Verifies (s : EventStore δ) (stream : Option String) : Prop :=
  ∃ report, s.verifyChain rt stream = .ok report ∧ report.valid = true

theorem verifies_iff (s : EventStore δ) (stream : Option String) :
    Verifies rt s stream ↔
      ∀ name ∈ (if truthy stream then stream.toList else s.streams.rows.map (·.1)),
        ChainedFrom rt "" (s.streamEvents name) := by
  rw [← verifyStreams_ok_iff s 0]
  unfold Verifies verifyChain
  dsimp only
  cases s.verifyStreams rt 0 (if truthy stream then stream.toList else s.streams.rows.map (·.1)) with
  | ok n => simp
  | error stop => cases stop <;> simp

theorem streamEvents_of_mem {s : EventStore δ} {name : String} {events : List (StoredEvent δ)}
    (h : (name, events) ∈ s.streams.rows) : s.streamEvents name = events := by
  rw [streamEvents, (Dict.get?_eq_some_iff s.streams name events).mpr h, Option.getD_some]

/-- All streams verify exactly when every one of them is a chain. -/
theorem verifies_none_iff (s : EventStore δ) :
    Verifies rt s none ↔ ∀ row ∈ s.streams.rows, ChainedFrom rt "" row.2 := by
  rw [verifies_iff]
  simp only [truthy, Option.any_none, Bool.false_eq_true, if_false, List.forall_mem_map]
  refine forall₂_congr fun row hrow => ?_
  rw [streamEvents_of_mem (show (row.1, row.2) ∈ s.streams.rows from hrow)]

theorem chained_of_verifies {s : EventStore δ} {stream : String} (h : Verifies rt s (some stream)) :
    ChainedFrom rt "" (s.streamEvents stream) := by
  by_cases hname : stream = ""
  · subst hname
    have hall := (verifies_none_iff s).mp h
    cases hstream : s.streams.get? "" with
    | none =>
        rw [streamEvents, hstream]
        trivial
    | some events =>
        have hrow := (Dict.get?_eq_some_iff s.streams "" events).mp hstream
        rw [streamEvents_of_mem hrow]
        exact hall ("", events) hrow
  · refine (verifies_iff s (some stream)).mp h stream ?_
    rw [if_pos (truthy_some hname)]
    simp

/-! ## Appending and starting again -/

/-- The store of a process and the events its calls appended, each with its stream. -/
structure ChainRun (δ : Type) where
  store : EventStore δ := {}
  appended : List (String × StoredEvent δ) := []

inductive ChainOp (δ ν : Type)
  | append (eventType stream : String) (data metadata : Option δ) (now : ℚ)
  | appendEvent (attrs : EventAttrs δ ν) (now : ℚ)
  | restart

namespace ChainRun

variable (rt) in
def step (r : ChainRun δ) : ChainOp δ ν → ChainRun δ
  | .append eventType stream data metadata now =>
      match r.store.append rt eventType stream data metadata now with
      | (store, .ok event) => { store, appended := r.appended ++ [(stream, event)] }
      | (store, .error _) => { r with store }
  | .appendEvent attrs now =>
      match r.store.eventOfAttrs rt attrs now, r.store.appendEvent rt attrs now with
      | .ok event, (store, some true) =>
          { store, appended := r.appended ++ [(attrs.stream rt, event)] }
      | _, (store, _) => { r with store }
  | .restart => { store := r.store.restart rt, appended := [] }

variable (rt) in
/-- The chains verify, the versions of a stream follow one another, and what this process appended
is there. -/
structure Intact (r : ChainRun δ) : Prop where
  valid : Verifies rt r.store none
  versions : ∀ row ∈ r.store.streams.rows, ∃ first,
    row.2.map (fun e => e.version) = List.range' first row.2.length
  present : ∀ entry ∈ r.appended, entry.2 ∈ r.store.streamEvents entry.1

/-- A new process finds every stream whole in the JSON file. -/
def KeptWhole (r : ChainRun δ) : ChainOp δ ν → Prop
  | .restart => ∀ row ∈ r.store.streams.rows, row.2.length ≤ maxJsonEvents
  | _ => True

end ChainRun

variable (rt) in
/-- The payloads of the call are JSON-representable. -/
def ChainOp.Representable : ChainOp δ ν → Prop
  | .append _ _ data metadata _ =>
      rt.Representable (dataOr rt data) ∧ rt.Representable (dataOr rt metadata)
  | .appendEvent attrs _ => rt.Representable (attrs.data rt)
  | .restart => True

/-! ### One stream -/

variable (rt) in
structure SoundStream (events : List (StoredEvent δ)) : Prop where
  chained : ChainedFrom rt "" events
  versions : events.map (fun e => e.version) = List.range' 1 events.length
  representable : ∀ e ∈ events, rt.Representable e.data ∧ rt.Representable e.metadata

variable (rt) in
/-- The event follows those of its stream. -/
structure Follows (s : EventStore δ) (stream : String) (e : StoredEvent δ) : Prop where
  previous : e.previousEventHash = s.previousHash stream
  version : e.version = (s.streamEvents stream).length + 1
  isSealed : Sealed rt e
  representable : rt.Representable e.data ∧ rt.Representable e.metadata

theorem soundStream_nil : SoundStream rt ([] : List (StoredEvent δ)) :=
  ⟨trivial, rfl, by simp⟩

theorem SoundStream.append {s : EventStore δ} {stream : String} {e : StoredEvent δ}
    (h : SoundStream rt (s.streamEvents stream)) (he : Follows rt s stream e) :
    SoundStream rt (s.streamEvents stream ++ [e]) := by
  refine ⟨?_, ?_, ?_⟩
  · exact (chained_append "" _ e).mpr ⟨h.chained, he.previous, he.isSealed⟩
  · rw [List.map_append, h.versions, List.map_singleton, he.version, List.length_append,
      List.length_singleton, List.range'_concat, Nat.one_mul, Nat.add_comm 1]
  · intro x hx
    rcases List.mem_append.mp hx with hx | hx
    · exact h.representable x hx
    · rw [List.mem_singleton.mp hx]
      exact he.representable

theorem follows_eventOf {s : EventStore δ} {eventType stream : String} {data metadata : Option δ}
    {now : ℚ} {e : StoredEvent δ} (hdata : rt.Representable (dataOr rt data))
    (hmetadata : rt.Representable (dataOr rt metadata))
    (h : s.eventOf rt eventType stream data metadata now = .ok e) : Follows rt s stream e := by
  obtain ⟨hcontent, hhash⟩ := sealEvent_ok h
  refine ⟨?_, ?_, ?_, ?_, ?_⟩
  · rw [hcontent]
  · rw [hcontent]
  · rw [Sealed, hcontent]
    exact hhash
  · rw [hcontent]
    exact hdata
  · rw [hcontent]
    exact hmetadata

theorem representable_empty : rt.Representable rt.empty := ⟨rt.dumpError_empty, rt.reload_empty⟩

theorem follows_eventOfAttrs {s : EventStore δ} {attrs : EventAttrs δ ν} {now : ℚ}
    {e : StoredEvent δ} (hdata : rt.Representable (attrs.data rt))
    (h : s.eventOfAttrs rt attrs now = .ok e) : Follows rt s (attrs.stream rt) e := by
  unfold eventOfAttrs at h
  cases hseconds : attrs.seconds rt now with
  | error err =>
      rw [hseconds] at h
      cases h
  | ok seconds =>
      rw [hseconds] at h
      dsimp only at h
      split at h
      · cases h
      · rename_i event hseal
        cases h
        obtain ⟨hcontent, hhash⟩ := sealEvent_ok hseal
        refine ⟨?_, ?_, ?_, ?_, ?_⟩
        · show event.previousEventHash = _
          rw [hcontent]
        · show event.version = _
          rw [hcontent]
        · show computeHash rt event.toHashedContent = _
          rw [hcontent]
          exact hhash
        · show rt.Representable event.data
          rw [hcontent]
          exact hdata
        · show rt.Representable event.metadata
          rw [hcontent]
          exact representable_empty

/-! ### All streams -/

namespace ChainRun

variable (rt) in
/-- Every stream is sound, and the JSON file holds what the streams keep of it. -/
structure Sound (r : ChainRun δ) : Prop where
  streams : ∀ row ∈ r.store.streams.rows, SoundStream rt row.2
  file : r.store.jsonFile.getD Table.empty = r.store.streams.mapValues recentEvents
  present : ∀ entry ∈ r.appended, entry.2 ∈ r.store.streamEvents entry.1

theorem sound_initial : Sound rt ({} : ChainRun δ) := ⟨by simp [Table.empty], rfl, by simp⟩

theorem Sound.intact {r : ChainRun δ} (h : Sound rt r) : Intact rt r := by
  refine ⟨?_, fun row hrow => ⟨1, (h.streams row hrow).versions⟩, h.present⟩
  exact (verifies_none_iff r.store).mpr fun row hrow => (h.streams row hrow).chained

theorem Sound.stream {r : ChainRun δ} (h : Sound rt r) (stream : String) :
    SoundStream rt (r.store.streamEvents stream) := by
  unfold streamEvents
  cases hstream : r.store.streams.get? stream with
  | none => exact soundStream_nil
  | some events =>
      exact h.streams (stream, events) ((Dict.get?_eq_some_iff _ _ _).mp hstream)

theorem mem_recentEvents {events : List (StoredEvent δ)} {e : StoredEvent δ}
    (h : e ∈ recentEvents events) : e ∈ events := by
  unfold recentEvents at h
  split at h
  · exact List.mem_of_mem_drop h
  · exact h

theorem jsonError_eq_none {streams : Streams δ}
    (h : ∀ row ∈ streams.rows, SoundStream rt row.2) :
    jsonError rt (streams.mapValues recentEvents) = none := by
  refine List.findSome?_eq_none_iff.mpr fun e he => ?_
  obtain ⟨row, hrow, hmem⟩ := List.mem_flatMap.mp he
  obtain ⟨row', hrow', rfl⟩ := List.mem_map.mp hrow
  have hrepresentable := (h row' hrow').representable e (mem_recentEvents hmem)
  rw [hrepresentable.1.1, hrepresentable.2.1]
  rfl

/-- An event that follows its stream is kept, and the files keep up. -/
theorem Sound.keep {r : ChainRun δ} (h : Sound rt r) {stream : String} {e : StoredEvent δ}
    (he : Follows rt r.store stream e) :
    (r.store.keep rt stream e).2 = none ∧
      Sound rt ⟨(r.store.keep rt stream e).1, r.appended ++ [(stream, e)]⟩ := by
  have hstreams : ∀ row ∈ (r.store.streams.set stream (r.store.streamEvents stream ++ [e])).rows,
      SoundStream rt row.2 := by
    intro row hrow
    rcases Dict.mem_rows_set hrow with rfl | hold
    · exact (h.stream stream).append he
    · exact h.streams row hold
  have hjson := jsonError_eq_none hstreams
  have hkeep : r.store.keep rt stream e =
      ({ (r.store.keep rt stream e).1 with
          jsonFile := some ((r.store.streams.set stream
            (r.store.streamEvents stream ++ [e])).mapValues recentEvents) }, none) := by
    unfold EventStore.keep trimJsonPersist persistToSqlite
    dsimp only
    rw [hjson]
  obtain ⟨hset, -, -⟩ := r.store.keep_frame rt stream e
  refine ⟨by rw [hkeep], ?_, ?_, ?_⟩
  · rw [hset]
    exact hstreams
  · rw [hkeep, ← hset]
    rfl
  · intro entry hentry
    unfold streamEvents
    rw [hset, Dict.get?_set]
    rcases List.mem_append.mp hentry with hold | hnew
    · have hpresent := h.present entry hold
      by_cases hstream : entry.1 = stream
      · rw [if_pos hstream, Option.getD_some]
        exact List.mem_append_left _ (hstream ▸ hpresent)
      · rw [if_neg hstream]
        exact hpresent
    · rw [List.mem_singleton.mp hnew, if_pos rfl, Option.getD_some]
      exact List.mem_append_right _ (List.mem_singleton_self e)

theorem sound_append {r : ChainRun δ} (h : Sound rt r) {eventType stream : String}
    {data metadata : Option δ} (hdata : rt.Representable (dataOr rt data))
    (hmetadata : rt.Representable (dataOr rt metadata)) (now : ℚ) :
    Sound rt (r.step rt (.append eventType stream data metadata now)) := by
  cases hevent : r.store.eventOf rt eventType stream data metadata now with
  | error err =>
      rw [step, append_of_error hevent]
      exact h
  | ok event =>
      obtain ⟨hnone, hsound⟩ := h.keep (follows_eventOf hdata hmetadata hevent)
      have hcall : r.store.append rt eventType stream data metadata now =
          ((r.store.keep rt stream event).1, .ok event) := by
        rw [EventStore.append, hevent]
        dsimp only
        rw [show r.store.keep rt stream event = (_, none) from Prod.ext rfl hnone]
      rw [step, hcall]
      exact hsound

theorem sound_appendEvent {r : ChainRun δ} (h : Sound rt r) {attrs : EventAttrs δ ν}
    (hdata : rt.Representable (attrs.data rt)) (now : ℚ) :
    Sound rt (r.step rt (.appendEvent attrs now)) := by
  cases hevent : r.store.eventOfAttrs rt attrs now with
  | error err =>
      obtain ⟨result, hcall⟩ : ∃ result, r.store.appendEvent rt attrs now = (r.store, result) :=
        ⟨_, by rw [appendEvent, hevent]⟩
      rw [step, hevent, hcall]
      exact h
  | ok event =>
      obtain ⟨hnone, hsound⟩ := h.keep (follows_eventOfAttrs hdata hevent)
      have hcall : r.store.appendEvent rt attrs now =
          ((r.store.keep rt (attrs.stream rt) event).1, some true) := by
        rw [appendEvent, hevent]
        dsimp only
        rw [show r.store.keep rt (attrs.stream rt) event = (_, none) from Prod.ext rfl hnone]
      rw [step, hevent, hcall]
      exact hsound

/-- A new process starts with what the JSON file kept of each stream. -/
theorem Sound.restart_streams {r : ChainRun δ} (h : Sound rt r) :
    (r.store.restart rt).streams = r.store.streams.mapValues recentEvents := by
  show (r.store.jsonFile.getD Table.empty).mapValues _ = _
  rw [h.file, Dict.mapValues_mapValues]
  refine Dict.mapValues_congr fun row hrow => ?_
  refine (List.map_congr_left fun e he => ?_).trans (List.map_id _)
  obtain ⟨hdata, hmetadata⟩ := (h.streams row hrow).representable e (mem_recentEvents he)
  rw [hdata.2, hmetadata.2]
  rfl

theorem recentEvents_of_le {events : List (StoredEvent δ)} (h : events.length ≤ maxJsonEvents) :
    recentEvents events = events := if_neg (not_lt.mpr h)

theorem sound_restart {r : ChainRun δ} (h : Sound rt r)
    (hwhole : ∀ row ∈ r.store.streams.rows, row.2.length ≤ maxJsonEvents) :
    Sound rt (r.step rt (.restart : ChainOp δ ν)) := by
  have hsame : (r.store.restart rt).streams = r.store.streams := by
    rw [h.restart_streams, Dict.mapValues_congr (g := fun events => events) fun row hrow =>
      recentEvents_of_le (hwhole row hrow)]
    exact Dict.mapValues_id _
  refine ⟨?_, ?_, by simp [step]⟩
  · show ∀ row ∈ (r.store.restart rt).streams.rows, _
    rw [hsame]
    exact h.streams
  · show r.store.jsonFile.getD Table.empty = (r.store.restart rt).streams.mapValues recentEvents
    rw [hsame]
    exact h.file

/-- A stream that the file cut short begins with an event that names a hash. -/
theorem not_intact_restart {r : ChainRun δ} (h : Sound rt r)
    {row : String × List (StoredEvent δ)} (hrow : row ∈ r.store.streams.rows)
    (hlong : maxJsonEvents < row.2.length) : ¬ Intact rt (r.step rt (.restart : ChainOp δ ν)) := by
  intro hintact
  have hchained := (h.streams row hrow).chained
  have hcut : (row.1, recentEvents row.2) ∈ (r.store.restart rt).streams.rows := by
    rw [h.restart_streams]
    exact List.mem_map.mpr ⟨row, hrow, rfl⟩
  have hvalid : ChainedFrom rt "" (recentEvents row.2) :=
    (verifies_none_iff _).mp hintact.valid _ hcut
  rw [recentEvents, if_pos hlong] at hvalid
  have hdropped : row.2.length - maxJsonEvents = (row.2.length - maxJsonEvents - 1) + 1 := by omega
  rw [hdropped] at hvalid
  cases hrest : row.2.drop (row.2.length - maxJsonEvents - 1 + 1) with
  | nil =>
      have hempty := List.drop_eq_nil_iff.mp hrest
      unfold maxJsonEvents at hempty hlong
      omega
  | cons e rest =>
      obtain ⟨x, hx, hprev⟩ := hchained.prev_of_drop hrest
      rw [hrest] at hvalid
      have hempty : e.previousEventHash = "" := hvalid.1
      have hlength := computeHash_length hx
      rw [← hprev, hempty] at hlength
      simp at hlength

theorem sound_step {r : ChainRun δ} (h : Sound rt r) (op : ChainOp δ ν)
    (hop : op.Representable rt) (hkept : r.KeptWhole op) : Sound rt (r.step rt op) := by
  cases op with
  | append eventType stream data metadata now => exact sound_append h hop.1 hop.2 now
  | appendEvent attrs now => exact sound_appendEvent h hop now
  | restart => exact sound_restart h hkept

/-- Over every run of representable payloads, the chains stay whole and keep what was appended
exactly when no new process starts while a stream holds more events than the JSON file keeps. -/
theorem always_intact_iff (ops : List (ChainOp δ ν)) (hops : ∀ op ∈ ops, op.Representable rt) :
    Always (step rt) (Intact rt) {} ops ↔ StepsMeet (step rt) KeptWhole {} ops := by
  refine always_iff_stepsMeet_of_stronger (J := Sound rt) (fun r h => h.intact) ?_ ?_ sound_initial
  · intro r op hop h hkept
    exact sound_step h op (hops op hop) hkept
  · intro r op hop h hintact
    cases op with
    | append eventType stream data metadata now => trivial
    | appendEvent attrs now => trivial
    | restart =>
        intro row hrow
        by_contra hlong
        exact not_intact_restart h hrow (not_le.mp hlong) hintact

theorem representable_plain (data : List (String × String)) : plainRuntime.Representable data :=
  ⟨rfl, rfl⟩

theorem always_intact_twoProcesses :
    Always (step plainRuntime) (Intact plainRuntime) {}
      [.append "TICK" "prices" none none 0, .restart, .append "TICK" "prices" none none 60] := by
  refine (always_intact_iff _ ?_).mpr ⟨trivial, ?_, trivial, trivial⟩
  · intro op hop
    cases op with
    | append eventType stream data metadata now =>
        exact ⟨representable_plain _, representable_plain _⟩
    | appendEvent attrs now => exact representable_plain _
    | restart => trivial
  · unfold KeptWhole
    decide +kernel

/-- One tick a second. -/
def ticks (n : Nat) : List (ChainOp (List (String × String)) String) :=
  (List.range n).map fun second : Nat => .append "TICK" "prices" none none second

theorem length_append_plain (r : ChainRun (List (String × String))) (now : ℚ) :
    ((r.step plainRuntime (.append "TICK" "prices" none none now)).store.streamEvents
      "prices").length = (r.store.streamEvents "prices").length + 1 := by
  obtain ⟨e, hevent⟩ : ∃ e, r.store.eventOf plainRuntime "TICK" "prices" none none now = .ok e :=
    ⟨_, rfl⟩
  obtain ⟨hset, -, -⟩ := r.store.keep_frame plainRuntime "prices" e
  have hstore : (r.step plainRuntime (.append "TICK" "prices" none none now)).store =
      (r.store.keep plainRuntime "prices" e).1 := by
    rw [← append_of_ok hevent]
    unfold step
    dsimp only
    split <;> rename_i hcall <;> rw [hcall]
  rw [hstore, streamEvents, hset, Dict.get?_set_self, Option.getD_some, List.length_append]
  rfl

theorem sound_ticks (n : Nat) :
    Sound plainRuntime (run (step plainRuntime) {} (ticks n)) ∧
      ((run (step plainRuntime) {} (ticks n)).store.streamEvents "prices").length = n := by
  induction n with
  | zero => exact ⟨sound_initial, rfl⟩
  | succ n ih =>
      obtain ⟨hsound, hlength⟩ := ih
      have hrun : run (step plainRuntime) {} (ticks (n + 1)) =
          (run (step plainRuntime) {} (ticks n)).step plainRuntime
            (.append "TICK" "prices" none none n) := by
        rw [ticks, List.range_succ, List.map_append, run, List.foldl_append]
        rfl
      rw [hrun]
      refine ⟨sound_append hsound (representable_plain _) (representable_plain _) n, ?_⟩
      rw [length_append_plain, hlength]

theorem not_always_ticks {n : Nat} (hn : maxJsonEvents < n) :
    ¬ Always (step plainRuntime) (Intact plainRuntime) {} (ticks n ++ [.restart]) := by
  intro halways
  have hintact := halways.final
  rw [run, List.foldl_append] at hintact
  obtain ⟨hsound, hlength⟩ := sound_ticks n
  cases hstream : (run (step plainRuntime) {} (ticks n)).store.streams.get? "prices" with
  | none =>
      rw [streamEvents, hstream, Option.getD_none, List.length_nil] at hlength
      omega
  | some events =>
      rw [streamEvents, hstream, Option.getD_some] at hlength
      refine not_intact_restart hsound ((Dict.get?_eq_some_iff _ _ _).mp hstream) ?_ hintact
      rw [hlength]
      exact hn

/-- After ten thousand and one ticks the next process finds a broken chain. -/
theorem broken_by_restart :
    ¬ Always (step plainRuntime) (Intact plainRuntime) {} (ticks 10001 ++ [.restart]) :=
  not_always_ticks (Nat.lt_succ_self _)

end ChainRun

/-! ## Tampering -/

def firstPrice : HashedContent (List (String × String)) :=
  { eventId := "evt-0-prices-1", eventType := "TICK", stream := "prices", data := []
    metadata := [], version := 1, timestamp := 0, previousEventHash := "" }

def firstHash : String := "ac5572195ff53a00850ac34c74f5e534fb6651c0e21a864832cc6c8112700e52"

def secondPrice : HashedContent (List (String × String)) :=
  { eventId := "evt-60000000-prices-2", eventType := "TICK", stream := "prices", data := []
    metadata := [], version := 2, timestamp := 60, previousEventHash := firstHash }

def secondHash : String := "3a50dc2baf110695fcbaaf3fcbd2d014a4e26cf4e8757b6de513ab6c0be7b4a5"

/-- The SHA-256 digests of the texts of the two prices; other texts keep their first characters. -/
def priceDigest (text : String) : String :=
  if text = plainCanonicalJson firstPrice then firstHash
  else if text = plainCanonicalJson secondPrice then secondHash
  else plainDigest text

theorem priceDigest_length (text : String) : (priceDigest text).length = 64 := by
  unfold priceDigest
  split
  · decide +kernel
  · split
    · decide +kernel
    · exact plainRuntime.sha256Hex_length text

def pricedRuntime : PayloadRuntime (List (String × String)) String :=
  { plainRuntime with
    sha256Hex := priceDigest
    sha256Hex_length := priceDigest_length }

/-- Two prices, filed by an aggregate of the caller's. -/
def priced (aggregateId : String) : EventStore (List (String × String)) :=
  { streams := Dict.set Table.empty "prices"
      [{ firstPrice with eventHash := firstHash, aggregateId := some aggregateId },
        { secondPrice with eventHash := secondHash, aggregateId := some aggregateId }] }

theorem computeHash_firstPrice : computeHash pricedRuntime firstPrice = .ok firstHash :=
  congrArg Except.ok (if_pos rfl)

theorem computeHash_secondPrice : computeHash pricedRuntime secondPrice = .ok secondHash := by
  have hapart : plainCanonicalJson secondPrice ≠ plainCanonicalJson firstPrice := by
    decide +kernel
  exact congrArg Except.ok ((if_neg hapart).trans (if_pos rfl))

theorem verifies_priced (aggregateId : String) :
    Verifies pricedRuntime (priced aggregateId) (some "prices") := by
  refine (verifies_iff _ _).mpr fun name hname => ?_
  obtain rfl : name = "prices" := by simpa [truthy] using hname
  exact ⟨rfl, computeHash_firstPrice, rfl, computeHash_secondPrice, trivial⟩

theorem hash_of_mem_priced {aggregateId hash : String} {e : StoredEvent (List (String × String))}
    (he : e ∈ (priced aggregateId).streamEvents "prices")
    (hhash : computeHash pricedRuntime e.toHashedContent = .ok hash) :
    hash = firstHash ∧ e.toHashedContent = firstPrice ∨
      hash = secondHash ∧ e.toHashedContent = secondPrice := by
  cases he with
  | head => exact .inl ⟨Except.ok.inj (hhash.symm.trans computeHash_firstPrice), rfl⟩
  | tail _ hrest =>
      obtain rfl := List.mem_singleton.mp hrest
      exact .inr ⟨Except.ok.inj (hhash.symm.trans computeHash_secondPrice), rfl⟩

end Store

end AutoTrade.Events
