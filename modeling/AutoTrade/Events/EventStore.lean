import AutoTrade.Execution.Order
import AutoTrade.Library.HashChain
import AutoTrade.Library.Run
import AutoTrade.Library.Table
import Mathlib.Data.String.Basic

/-! # The event store

Events are kept in memory by stream, inserted into a SQLite table under their
ids, and written to a JSON file that a new process starts from. Within a stream
every event names the hash of the one before it. A stream is filed in memory
under its name as given; the events of `append` carry the name without
surrounding whitespace.
-/

namespace AutoTrade.Events

open AutoTrade.Library
open AutoTrade.Execution (Platform)

/-! ## Texts -/

/-- `str.isspace` on a single character. -/
def isSpace (c : Char) : Bool :=
  decide (c.toNat ∈ [0x9, 0xa, 0xb, 0xc, 0xd, 0x1c, 0x1d, 0x1e, 0x1f, 0x20, 0x85, 0xa0, 0x1680,
    0x2028, 0x2029, 0x202f, 0x205f, 0x3000]) || decide (0x2000 ≤ c.toNat ∧ c.toNat ≤ 0x200a)

/-- `s.strip()`. -/
def strip (s : String) : String :=
  String.ofList ((s.toList.dropWhile isSpace).reverse.dropWhile isSpace).reverse

/-! ## Events -/

/-- The fields `compute_hash` covers. -/
structure HashedContent (δ : Type) where
  eventId : String
  eventType : String
  stream : String
  data : δ
  metadata : δ
  version : Nat
  timestamp : ℚ
  previousEventHash : String
deriving DecidableEq, Repr

structure StoredEvent (δ : Type) extends HashedContent δ where
  eventHash : String
  aggregateId : Option String := none
  correlationId : Option String := none
  causationId : Option String := none
deriving DecidableEq, Repr

/-- What the store needs of Python: payload dictionaries of type `δ` with values of type `ν`, `json`,
texts of numbers and dates, and SHA-256. -/
structure PayloadRuntime (δ ν : Type) extends Platform where
  empty : δ
  isEmpty : δ → Bool
  setItem : δ → String → ν → δ
  dataStr : δ → String
  valueStr : ν → String
  /-- `json.dumps(content, sort_keys=True, default=str)`. -/
  canonicalJson : HashedContent δ → Except PyExc String
  /-- `json.dumps(data, default=str)`. -/
  dumps : δ → String
  /-- What `json.dumps(data)` raises, if anything, and what `json.loads` makes of its text. -/
  dumpError : δ → Option PyExc
  reload : δ → δ
  /-- `datetime.fromisoformat(text).timestamp()`, where it does not raise. -/
  fromIsoformat : String → Option ℚ
  isEmpty_setItem : ∀ data k v, isEmpty (setItem data k v) = false
  dumpError_empty : dumpError empty = none
  reload_empty : reload empty = empty

structure EventRow where
  eventId : String
  eventType : String
  stream : String
  timestamp : String
  version : Nat
  dataJson : String
  metadataJson : String
  sequenceNumber : Nat
  previousHash : String
  sha256 : String
deriving DecidableEq, Repr

abbrev Streams (δ : Type) := Dict String (List (StoredEvent δ))

structure EventStore (δ : Type) where
  streams : Streams δ := Table.empty
  totalEvents : Nat := 0
  events : Table EventRow EventRow.eventId := Table.empty
  jsonFile : Option (Streams δ) := none

/-- The `timestamp` of a `to_dict()`: absent, a text, a number, or nothing `float` accepts. -/
inductive TimestampAttr
  | missing
  | text (t : String)
  | number (x : ℚ)
  | unusable (e : PyExc)
deriving DecidableEq, Repr

/-- What `append_event` reads of an object: its `event_type` and the entries of its `to_dict()`. -/
structure EventAttrs (δ ν : Type) where
  eventType : Option String := none
  eventTypeKey : Option String := none
  streamKey : Option ν := none
  symbol : Option ν := none
  direction : Option ν := none
  quantity : Option ν := none
  price : Option ν := none
  metadata : Option δ := none
  timestamp : TimestampAttr := .missing
  eventId : Option String := none
  aggregateId : Option String := none
  correlationId : Option String := none
  causationId : Option String := none

/-- An event of `append_many`, with the reading of the clock at which it is appended. -/
structure ManyEntry (δ : Type) where
  eventType : String
  stream : String
  data : δ
  now : ℚ

/-- `get_stats`, snapshots left out. -/
structure StoreStats where
  totalEvents : Nat
  totalStreams : Nat
  sqliteEvents : Nat
  eventsByStream : List (String × Nat)
  eventsByType : Dict String Nat
  avgEventsPerStream : ℚ

structure ChainReport where
  valid : Bool
  checked : Nat
  message : String
deriving DecidableEq, Repr

/-- Why `verify_chain` stops early. -/
inductive VerifyStop
  | raised (e : PyExc)
  | broken (checked : Nat) (message : String)
deriving DecidableEq, Repr

section Store

variable {δ ν : Type} (rt : PayloadRuntime δ ν)

/-- `StoredEvent.compute_hash`. -/
def computeHash (content : HashedContent δ) : Except PyExc String :=
  match rt.canonicalJson content with
  | .error e => .error e
  | .ok text => .ok (rt.sha256Hex text)

/-- `data or {}`. -/
def dataOr : Option δ → δ
  | none => rt.empty
  | some data => if rt.isEmpty data then rt.empty else data

def setOptional (data : δ) (k : String) : Option ν → δ
  | none => data
  | some v => rt.setItem data k v

/-- The payload `append_event` files. -/
def EventAttrs.data (attrs : EventAttrs δ ν) : δ :=
  let data := attrs.metadata.getD rt.empty
  let data := setOptional rt data "symbol" attrs.symbol
  let data := setOptional rt data "direction" attrs.direction
  let data := setOptional rt data "quantity" attrs.quantity
  setOptional rt data "price" attrs.price

/-- `str(attrs.get("stream", attrs.get("symbol", "default")))`. -/
def EventAttrs.stream (attrs : EventAttrs δ ν) : String :=
  match attrs.streamKey.or attrs.symbol with
  | some v => rt.valueStr v
  | none => "default"

def EventAttrs.typeText (attrs : EventAttrs δ ν) : String :=
  orElse attrs.eventType (attrs.eventTypeKey.getD "unknown")

def EventAttrs.seconds (attrs : EventAttrs δ ν) (now : ℚ) : Except PyExc ℚ :=
  match attrs.timestamp with
  | .missing => .ok now
  | .text t => .ok ((rt.fromIsoformat t).getD now)
  | .number x => .ok x
  | .unusable e => .error e

def generatedId (stream : String) (version : Nat) (seconds : ℚ) : String :=
  s!"evt-{truncate (seconds * 1000000)}-{stream}-{version}"

/-- The hash is computed and the event is made. -/
def sealEvent (content : HashedContent δ) : Except PyExc (StoredEvent δ) :=
  match computeHash rt content with
  | .error e => .error e
  | .ok eventHash => .ok { content with eventHash }

/-! ## Backends -/

def maxJsonEvents : Nat := 10000

def recentEvents (events : List (StoredEvent δ)) : List (StoredEvent δ) :=
  if maxJsonEvents < events.length then events.drop (events.length - maxJsonEvents) else events

/-- What `json.dumps` of the streams raises, if anything. -/
def jsonError (streams : Streams δ) : Option PyExc :=
  (streams.rows.flatMap (·.2)).findSome? fun e => (rt.dumpError e.data).or (rt.dumpError e.metadata)

namespace EventStore

def streamEvents (s : EventStore δ) (stream : String) : List (StoredEvent δ) :=
  (s.streams.get? stream).getD []

/-- `_persist_to_sqlite`. -/
def persistToSqlite (s : EventStore δ) (e : StoredEvent δ) : EventStore δ :=
  { s with
    events := s.events.insertOrIgnore
      { eventId := e.eventId
        eventType := e.eventType
        stream := e.stream
        timestamp := rt.floatStr e.timestamp
        version := e.version
        dataJson := rt.dumps e.data
        metadataJson := rt.dumps e.metadata
        sequenceNumber := ((s.events.rows.map (·.sequenceNumber)).max?.map (· + 1)).getD 1
        previousHash := e.previousEventHash
        sha256 := e.eventHash } }

/-- `_trim_json_persist`; an error of another class than `OSError` and `ValueError` is raised. -/
def trimJsonPersist (s : EventStore δ) : EventStore δ × Option PyExc :=
  let allStreams := s.streams.mapValues recentEvents
  match jsonError rt allStreams with
  | none => ({ s with jsonFile := some allStreams }, none)
  | some e => (s, if e.caughtBy [.osError, .valueError] then none else some e)

/-- The end of `append` and of `append_event`: into memory, then into both backends. -/
def keep (s : EventStore δ) (stream : String) (e : StoredEvent δ) : EventStore δ × Option PyExc :=
  let s := { s with
    streams := s.streams.set stream (s.streamEvents stream ++ [e])
    totalEvents := s.totalEvents + 1 }
  (s.persistToSqlite rt e).trimJsonPersist rt

/-! ## Appending -/

/-- The hash the next event of a stream names. -/
def previousHash (s : EventStore δ) (stream : String) : String :=
  headHash (fun e : StoredEvent δ => e.eventHash) "" (s.streamEvents stream)

/-- The event `append` makes. -/
def eventOf (s : EventStore δ) (eventType stream : String) (data metadata : Option δ) (now : ℚ) :
    Except PyExc (StoredEvent δ) :=
  let version := (s.streamEvents stream).length + 1
  sealEvent rt
    { eventId := generatedId stream version now
      eventType := strip eventType
      stream := strip stream
      data := dataOr rt data
      metadata := dataOr rt metadata
      version
      timestamp := now
      previousEventHash := s.previousHash stream }

/-- `append`. -/
def append (s : EventStore δ) (eventType stream : String) (data metadata : Option δ) (now : ℚ) :
    EventStore δ × Except PyExc (StoredEvent δ) :=
  match s.eventOf rt eventType stream data metadata now with
  | .error e => (s, .error e)
  | .ok event =>
      match s.keep rt stream event with
      | (s, none) => (s, .ok event)
      | (s, some e) => (s, .error e)

/-- The event `append_event` makes. -/
def eventOfAttrs (s : EventStore δ) (attrs : EventAttrs δ ν) (now : ℚ) :
    Except PyExc (StoredEvent δ) :=
  match attrs.seconds rt now with
  | .error e => .error e
  | .ok seconds =>
      let stream := attrs.stream rt
      let version := (s.streamEvents stream).length + 1
      match sealEvent rt
        { eventId := attrs.eventId.getD (generatedId stream version seconds)
          eventType := attrs.typeText
          stream
          data := attrs.data rt
          metadata := rt.empty
          version
          timestamp := seconds
          previousEventHash := s.previousHash stream } with
      | .error e => .error e
      | .ok event =>
          .ok { event with
            aggregateId := attrs.aggregateId
            correlationId := attrs.correlationId
            causationId := attrs.causationId }

/-- `append_event`; `none` stands for an exception that its `except` clause does not catch. -/
def appendEvent (s : EventStore δ) (attrs : EventAttrs δ ν) (now : ℚ) :
    EventStore δ × Option Bool :=
  let caught := [ExcClass.valueError, .typeError, .attributeError, .osError]
  match s.eventOfAttrs rt attrs now with
  | .error e => (s, if e.caughtBy caught then some false else none)
  | .ok event =>
      match s.keep rt (attrs.stream rt) event with
      | (s, none) => (s, some true)
      | (s, some e) => (s, if e.caughtBy caught then some false else none)

/-- `append_many` at one of its events; an empty stream name stands for the default one. -/
def appendEntry (stream : String) (s : EventStore δ) (entry : ManyEntry δ) :
    EventStore δ × Option PyExc :=
  match s.append rt entry.eventType (orElse (some entry.stream) stream) (some entry.data) none
      entry.now with
  | (s, .ok _) => (s, none)
  | (s, .error e) => (s, some e)

/-- `append_many`. -/
def appendMany (s : EventStore δ) (events : List (ManyEntry δ)) (stream : String) :
    EventStore δ × Option PyExc :=
  loop (appendEntry rt stream) s events

/-! ## Deleting -/

/-- `delete_stream`. -/
def deleteStream (s : EventStore δ) (stream : String) : EventStore δ × Bool :=
  let existed := s.streams.contains stream
  let s := { s with streams := s.streams.erase stream }
  if existed then
    ({ s with events := s.events.filter fun r => decide (r.stream ≠ stream) }, true)
  else (s, false)

/-- `clear_all`. -/
def clearAll (s : EventStore δ) : EventStore δ :=
  { s with streams := Table.empty, totalEvents := 0, events := Table.empty, jsonFile := none }

/-! ## A new process -/

/-- `EventStore()` on the files of the one before it. -/
def restart (s : EventStore δ) : EventStore δ :=
  let loaded := (s.jsonFile.getD Table.empty).mapValues fun events => events.map fun e =>
    { e with data := rt.reload e.data, metadata := rt.reload e.metadata }
  { s with streams := loaded, totalEvents := (loaded.rows.map (·.2.length)).sum }

/-! ## Queries -/

def allEvents (s : EventStore δ) : List (StoredEvent δ) := s.streams.rows.flatMap (·.2)

/-- `get_events_for_order`, which looks for the id in the printed payload. -/
def getEventsForOrder (s : EventStore δ) (clientOrderId : String) : List (StoredEvent δ) :=
  (s.allEvents.filter fun e => !rt.isEmpty e.data && inText "client_order_id" (rt.dataStr e.data) &&
    inText clientOrderId (rt.dataStr e.data)).take 100

/-- `get_events_in_range`, which compares the printed timestamps as strings. -/
def getEventsInRange (s : EventStore δ) (startTime endTime : String) : List (StoredEvent δ) :=
  s.allEvents.filter fun e =>
    decide (startTime ≤ rt.floatStr e.timestamp) && decide (rt.floatStr e.timestamp ≤ endTime)

/-- `get_stats`. -/
def getStats (s : EventStore δ) : StoreStats :=
  { totalEvents := s.totalEvents
    totalStreams := s.streams.size
    sqliteEvents := s.events.size
    eventsByStream := s.streams.rows.map fun e => (e.1, e.2.length)
    eventsByType := s.allEvents.foldl (fun counts e =>
      counts.set e.eventType ((counts.get? e.eventType).getD 0 + 1)) Table.empty
    avgEventsPerStream := roundTo 1 (s.totalEvents / (max s.streams.size 1 : Nat)) }

/-! ## Verification -/

/-- `verify_chain` on one stream, from the hash its next event has to name. -/
def verifyStream (name : String) :
    String → Nat → List (StoredEvent δ) → Except VerifyStop Nat
  | _, checked, [] => .ok checked
  | expected, checked, e :: rest =>
      if e.previousEventHash ≠ expected then
        .error (.broken checked (s!"Chain break at stream '{name}' event {e.eventId}: " ++
          s!"expected previous_hash={expected}, got {e.previousEventHash}"))
      else
        match computeHash rt { e.toHashedContent with previousEventHash := expected } with
        | .error err => .error (.raised err)
        | .ok recomputed =>
            if recomputed ≠ e.eventHash then
              .error (.broken checked (s!"Hash mismatch at stream '{name}' event {e.eventId}: " ++
                s!"expected {e.eventHash}, recomputed {recomputed}"))
            else verifyStream name e.eventHash (checked + 1) rest

def verifyStreams (s : EventStore δ) : Nat → List String → Except VerifyStop Nat
  | checked, [] => .ok checked
  | checked, name :: rest =>
      match verifyStream rt name "" checked (s.streamEvents name) with
      | .error stop => .error stop
      | .ok checked => verifyStreams s checked rest

/-- `verify_chain`. -/
def verifyChain (s : EventStore δ) (stream : Option String) : Except PyExc ChainReport :=
  let names := if truthy stream then stream.toList else s.streams.rows.map (·.1)
  match s.verifyStreams rt 0 names with
  | .ok checked =>
      .ok { valid := true, checked, message := s!"Chain valid: {checked} events checked" }
  | .error (.broken checked message) => .ok { valid := false, checked, message }
  | .error (.raised e) => .error e

end EventStore

/-! ## What a step leaves -/

def PayloadRuntime.Representable (data : δ) : Prop := rt.dumpError data = none ∧ rt.reload data = data

variable {rt}

theorem sealEvent_ok {content : HashedContent δ} {e : StoredEvent δ}
    (h : sealEvent rt content = .ok e) :
    e.toHashedContent = content ∧ computeHash rt content = .ok e.eventHash := by
  unfold sealEvent at h
  cases hhash : computeHash rt content with
  | error err =>
      rw [hhash] at h
      cases h
  | ok eventHash =>
      rw [hhash] at h
      cases h
      exact ⟨rfl, rfl⟩

theorem computeHash_length {content : HashedContent δ} {hash : String}
    (h : computeHash rt content = .ok hash) : hash.length = 64 := by
  unfold computeHash at h
  cases hjson : rt.canonicalJson content with
  | error err =>
      rw [hjson] at h
      cases h
  | ok text =>
      rw [hjson] at h
      cases h
      exact rt.sha256Hex_length text

variable (rt) in
/-- Whatever becomes of the JSON file, the event is kept in memory and offered to the table. -/
theorem EventStore.keep_frame (s : EventStore δ) (stream : String) (e : StoredEvent δ) :
    (s.keep rt stream e).1.streams = s.streams.set stream (s.streamEvents stream ++ [e]) ∧
      (s.keep rt stream e).1.totalEvents = s.totalEvents + 1 ∧
        (s.keep rt stream e).1.events = (s.persistToSqlite rt e).events := by
  unfold keep trimJsonPersist
  dsimp only
  split <;> exact ⟨rfl, rfl, rfl⟩

theorem EventStore.append_of_ok {s : EventStore δ} {eventType stream : String}
    {data metadata : Option δ} {now : ℚ} {e : StoredEvent δ}
    (h : s.eventOf rt eventType stream data metadata now = .ok e) :
    (s.append rt eventType stream data metadata now).1 = (s.keep rt stream e).1 := by
  unfold EventStore.append
  rw [h]
  dsimp only
  split <;> rename_i hkeep <;> rw [hkeep]

theorem EventStore.append_of_error {s : EventStore δ} {eventType stream : String}
    {data metadata : Option δ} {now : ℚ} {err : PyExc}
    (h : s.eventOf rt eventType stream data metadata now = .error err) :
    s.append rt eventType stream data metadata now = (s, .error err) := by
  rw [EventStore.append, h]

theorem EventStore.appendEvent_of_ok {s : EventStore δ} {attrs : EventAttrs δ ν} {now : ℚ}
    {e : StoredEvent δ} (h : s.eventOfAttrs rt attrs now = .ok e) :
    (s.appendEvent rt attrs now).1 = (s.keep rt (attrs.stream rt) e).1 := by
  unfold EventStore.appendEvent
  rw [h]
  dsimp only
  split <;> rename_i hkeep <;> rw [hkeep]

theorem EventStore.appendEvent_of_error {s : EventStore δ} {attrs : EventAttrs δ ν} {now : ℚ}
    {err : PyExc} (h : s.eventOfAttrs rt attrs now = .error err) :
    (s.appendEvent rt attrs now).1 = s := by
  rw [EventStore.appendEvent, h]

/-- The events of one stream and those of the others. -/
theorem EventStore.allEvents_perm (s : EventStore δ) (stream : String) :
    s.allEvents.Perm (s.streamEvents stream ++ (s.streams.erase stream).rows.flatMap (·.2)) := by
  unfold allEvents streamEvents
  cases hstream : s.streams.get? stream with
  | none => rw [Dict.rows_erase_of_get?_none hstream, Option.getD_none, List.nil_append]
  | some events => exact (Dict.rows_perm_cons_erase hstream fun _ _ => rfl).flatMap_right _

variable (rt) in
theorem EventStore.keep_allEvents (s : EventStore δ) (stream : String) (e : StoredEvent δ) :
    (s.keep rt stream e).1.allEvents.Perm (e :: s.allEvents) := by
  obtain ⟨hset, -, -⟩ := s.keep_frame rt stream e
  have hnew : (s.keep rt stream e).1.allEvents.Perm
      ((s.streamEvents stream ++ [e]) ++ (s.streams.erase stream).rows.flatMap (·.2)) := by
    unfold allEvents
    rw [hset]
    exact (s.streams.rows_set_perm stream (s.streamEvents stream ++ [e])).flatMap_right _
  refine hnew.trans ?_
  rw [List.append_assoc]
  exact List.perm_middle.trans ((s.allEvents_perm stream).symm.cons e)

variable (rt) in
/-- The call files what it makes of an event, if it makes one. -/
def EventStore.Files (s t : EventStore δ) (stream : String) : Except PyExc (StoredEvent δ) → Prop
  | .ok e => t = (s.keep rt stream e).1
  | .error _ => t = s

variable (rt) in
theorem EventStore.append_files (s : EventStore δ) (eventType stream : String)
    (data metadata : Option δ) (now : ℚ) :
    s.Files rt (s.append rt eventType stream data metadata now).1 stream
      (s.eventOf rt eventType stream data metadata now) := by
  cases hevent : s.eventOf rt eventType stream data metadata now with
  | ok e => exact append_of_ok hevent
  | error err => exact congrArg Prod.fst (append_of_error hevent)

variable (rt) in
theorem EventStore.appendEvent_files (s : EventStore δ) (attrs : EventAttrs δ ν) (now : ℚ) :
    s.Files rt (s.appendEvent rt attrs now).1 (attrs.stream rt) (s.eventOfAttrs rt attrs now) := by
  cases hevent : s.eventOfAttrs rt attrs now with
  | ok e => exact appendEvent_of_ok hevent
  | error err => exact appendEvent_of_error hevent

end Store

/-! ## A runtime for payloads of plain texts -/

/-- `str` of a dictionary whose keys and values need no escapes. -/
def plainDictStr (data : List (String × String)) : String :=
  "\x7b" ++ ", ".intercalate (data.map fun e => "'" ++ e.1 ++ "': '" ++ e.2 ++ "'") ++ "\x7d"

def quoted (text : String) : String := "\"" ++ text ++ "\""

def plainJson (data : List (String × String)) : String :=
  "\x7b" ++ ", ".intercalate (data.map fun e => quoted e.1 ++ ": " ++ quoted e.2) ++ "\x7d"

/-- The JSON text of an event with its keys in order. -/
def plainCanonicalJson (c : HashedContent (List (String × String))) : String :=
  let sorted data := plainJson (data.mergeSort fun e f : String × String => decide (e.1 ≤ f.1))
  "\x7b" ++ ", ".intercalate
    ["\"data\": " ++ sorted c.data, "\"event_id\": " ++ quoted c.eventId,
      "\"event_type\": " ++ quoted c.eventType, "\"metadata\": " ++ sorted c.metadata,
      "\"previous_event_hash\": " ++ quoted c.previousEventHash,
      "\"stream\": " ++ quoted c.stream, "\"timestamp\": " ++ formatFixed 1 "" c.timestamp,
      "\"version\": " ++ toString c.version] ++ "\x7d"

def plainSet (data : List (String × String)) (k v : String) : List (String × String) :=
  if data.any (·.1 = k) then data.map fun e => if e.1 = k then (k, v) else e else data ++ [(k, v)]

/-- The first sixty-four characters of a text, filled up with zeros. -/
def plainDigest (text : String) : String :=
  String.ofList ((text.toList ++ List.replicate 64 '0').take 64)

/-- Payloads of plain texts, with a digest that keeps short texts apart. -/
def plainRuntime : PayloadRuntime (List (String × String)) String where
  floatStr := formatFixed 1 ""
  isoformat t := toString t
  sha256Hex := plainDigest
  sha256Hex_length text := by simp [plainDigest]
  empty := []
  isEmpty := List.isEmpty
  setItem := plainSet
  dataStr := plainDictStr
  valueStr v := v
  canonicalJson c := .ok (plainCanonicalJson c)
  dumps := plainJson
  dumpError _ := none
  reload data := data
  fromIsoformat _ := none
  isEmpty_setItem data k v := by
    unfold plainSet
    cases data with
    | nil => rfl
    | cons e rest => split <;> rfl
  dumpError_empty := rfl
  reload_empty := rfl

end AutoTrade.Events
