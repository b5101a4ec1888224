import AutoTrade.Events.EventStore

/-! # Replaying what was published

The bus files a trading event under its symbol without its client order id, and
an order is found again by looking for its id in the printed payload. Times are
filed as numbers and looked up by the text of the number.
-/

namespace AutoTrade.Events

open AutoTrade.Library EventStore

/-! ## Trading events -/

inductive EventType
  | signalGenerated
  | riskApproved
  | orderSubmitted
  | orderFilled
  | brokerAckReceived
  | fillReceived
  | partialFillReceived
  | positionUpdated
  | positionChanged
  | orderCancelled
  | orderRejected
  | riskLimitBreached
  | riskBreached
  | circuitBreakerTriggered
  | killSwitchTriggered
  | tradingSessionStarted
  | tradingSessionEnded
  | strategyInitialized
  | strategyUpdated
  | configUpdated
  | healthCheckPassed
  | healthCheckFailed
deriving DecidableEq, Repr

def EventType.value : EventType → String
  | signalGenerated => "SIGNAL_GENERATED"
  | riskApproved => "RISK_APPROVED"
  | orderSubmitted => "ORDER_SUBMITTED"
  | orderFilled => "ORDER_FILLED"
  | brokerAckReceived => "BROKER_ACK_RECEIVED"
  | fillReceived => "FILL_RECEIVED"
  | partialFillReceived => "PARTIAL_FILL_RECEIVED"
  | positionUpdated => "POSITION_UPDATED"
  | positionChanged => "POSITION_CHANGED"
  | orderCancelled => "ORDER_CANCELLED"
  | orderRejected => "ORDER_REJECTED"
  | riskLimitBreached => "RISK_LIMIT_BREACHED"
  | riskBreached => "RISK_BREACHED"
  | circuitBreakerTriggered => "CIRCUIT_BREAKER_TRIGGERED"
  | killSwitchTriggered => "KILL_SWITCH_TRIGGERED"
  | tradingSessionStarted => "TRADING_SESSION_STARTED"
  | tradingSessionEnded => "TRADING_SESSION_ENDED"
  | strategyInitialized => "STRATEGY_INITIALIZED"
  | strategyUpdated => "STRATEGY_UPDATED"
  | configUpdated => "CONFIG_UPDATED"
  | healthCheckPassed => "HEALTH_CHECK_PASSED"
  | healthCheckFailed => "HEALTH_CHECK_FAILED"

/-- The fields `append_event` reads, and the client order id. -/
structure TradingEvent (δ ν : Type) where
  eventId : String
  eventType : EventType
  timestamp : String
  aggregateId : Option String
  correlationId : Option String
  causationId : Option String
  clientOrderId : Option String
  symbol : ν
  direction : ν
  quantity : ν
  price : ν
  metadata : δ

section Bus

variable {δ ν : Type}

/-- `to_dict`, as far as `append_event` looks at it. -/
def TradingEvent.toDict (event : TradingEvent δ ν) : EventAttrs δ ν :=
  { eventType := some event.eventType.value
    eventTypeKey := some event.eventType.value
    streamKey := none
    symbol := some event.symbol
    direction := some event.direction
    quantity := some event.quantity
    price := some event.price
    metadata := some event.metadata
    timestamp := .text event.timestamp
    eventId := some event.eventId
    aggregateId := event.aggregateId
    correlationId := event.correlationId
    causationId := event.causationId }

/-- The store behind the bus, and what was published with the event that the store made of it. -/
structure EventBus (δ ν : Type) where
  eventStore : EventStore δ := {}
  published : List (TradingEvent δ ν × Option (StoredEvent δ)) := []

/-- A call of `publish` and the reading of the clock. -/
structure Publication (δ ν : Type) where
  event : TradingEvent δ ν
  now : ℚ

variable (rt : PayloadRuntime δ ν)

namespace EventBus

/-- The event the store makes of a published one. -/
def filed (bus : EventBus δ ν) (p : Publication δ ν) : Except PyExc (StoredEvent δ) :=
  bus.eventStore.eventOfAttrs rt p.event.toDict p.now

def publish (bus : EventBus δ ν) (p : Publication δ ν) : EventBus δ ν :=
  { eventStore := (bus.eventStore.appendEvent rt p.event.toDict p.now).1
    published := bus.published ++ [(p.event, (bus.filed rt p).toOption)] }

def replayOrder (bus : EventBus δ ν) (clientOrderId : String) : List (StoredEvent δ) :=
  bus.eventStore.getEventsForOrder rt clientOrderId

/-- What was published for an order. -/
def publishedFor (bus : EventBus δ ν) (clientOrderId : String) :
    List (TradingEvent δ ν × Option (StoredEvent δ)) :=
  bus.published.filter fun entry => decide (entry.1.clientOrderId = some clientOrderId)

/-- What was published between two times. -/
def publishedIn (bus : EventBus δ ν) (startTime endTime : String) :
    List (TradingEvent δ ν × Option (StoredEvent δ)) :=
  bus.published.filter fun entry =>
    decide (startTime ≤ entry.1.timestamp) && decide (entry.1.timestamp ≤ endTime)

/-- The replay of an order is what was published for it, in order. -/
def ReplayExact (bus : EventBus δ ν) : Prop :=
  ∀ id, (bus.replayOrder rt id).map some = (bus.publishedFor id).map (·.2)

/-- A range of times yields what was published in it. -/
def RangeExact (bus : EventBus δ ν) : Prop :=
  ∀ startTime endTime, ((bus.eventStore.getEventsInRange rt startTime endTime).map some).Perm
    ((bus.publishedIn startTime endTime).map (·.2))

/-- The store can hash the event. -/
def Stores (bus : EventBus δ ν) (p : Publication δ ν) : Prop := ∃ e, bus.filed rt p = .ok e

/-- The event is of no order, and nothing in its payload looks like an order's. -/
def OfNoOrder (bus : EventBus δ ν) (p : Publication δ ν) : Prop :=
  p.event.clientOrderId = none ∧
    (bus.Stores rt p → inText "client_order_id" (rt.dataStr (p.event.toDict.data rt)) = false)

/-- The event is filed under a number that prints as its time. -/
def PrintsItsTime (bus : EventBus δ ν) (p : Publication δ ν) : Prop :=
  bus.Stores rt p ∧
    rt.floatStr ((rt.fromIsoformat p.event.timestamp).getD p.now) = p.event.timestamp

variable {rt}

/-! ## What the bus files -/

theorem filed_ok {bus : EventBus δ ν} {p : Publication δ ν} {e : StoredEvent δ}
    (h : bus.filed rt p = .ok e) :
    e.data = p.event.toDict.data rt ∧
      e.timestamp = (rt.fromIsoformat p.event.timestamp).getD p.now := by
  unfold filed eventOfAttrs at h
  have hseconds : p.event.toDict.seconds rt p.now =
      .ok ((rt.fromIsoformat p.event.timestamp).getD p.now) := rfl
  rw [hseconds] at h
  dsimp only at h
  split at h
  · cases h
  · rename_i event hseal
    cases h
    obtain ⟨hcontent, -⟩ := sealEvent_ok hseal
    exact ⟨congrArg HashedContent.data hcontent, congrArg HashedContent.timestamp hcontent⟩

/-- A payload with a symbol is not empty. -/
theorem isEmpty_data (event : TradingEvent δ ν) : rt.isEmpty (event.toDict.data rt) = false :=
  rt.isEmpty_setItem _ "price" event.price

variable (rt) in
theorem allEvents_publish (bus : EventBus δ ν) (p : Publication δ ν) :
    (bus.publish rt p).eventStore.allEvents.Perm
      ((bus.filed rt p).toOption.toList ++ bus.eventStore.allEvents) := by
  have hfiles := appendEvent_files rt bus.eventStore p.event.toDict p.now
  show ((bus.eventStore.appendEvent rt p.event.toDict p.now).1).allEvents.Perm _
  unfold filed
  cases hfiled : bus.eventStore.eventOfAttrs rt p.event.toDict p.now with
  | error err =>
      rw [hfiled] at hfiles
      rw [show (bus.eventStore.appendEvent rt p.event.toDict p.now).1 = bus.eventStore from hfiles]
      exact List.Perm.refl _
  | ok e =>
      rw [hfiled] at hfiles
      rw [show (bus.eventStore.appendEvent rt p.event.toDict p.now).1 = _ from hfiles]
      exact keep_allEvents rt bus.eventStore (p.event.toDict.stream rt) e

variable (rt) in
/-- The store holds what it made of the events published. -/
def Filed (bus : EventBus δ ν) : Prop :=
  bus.eventStore.allEvents.Perm (bus.published.filterMap (·.2))

theorem Filed.publish {bus : EventBus δ ν} (h : Filed bus) (p : Publication δ ν) :
    Filed (bus.publish rt p) := by
  refine (allEvents_publish rt bus p).trans ?_
  show List.Perm _ ((bus.published ++ [(p.event, (bus.filed rt p).toOption)]).filterMap (·.2))
  rw [List.filterMap_append]
  refine List.perm_append_comm.trans (h.append ?_)
  cases (bus.filed rt p).toOption with
  | none => exact List.Perm.refl _
  | some e => exact List.Perm.refl _

/-! ## Orders -/

variable (rt) in
/-- Nothing was published for an order, and no payload looks as if it were. -/
structure Orderless (bus : EventBus δ ν) : Prop where
  published : ∀ entry ∈ bus.published, entry.1.clientOrderId = none
  events : ∀ e ∈ bus.eventStore.allEvents, inText "client_order_id" (rt.dataStr e.data) = false

theorem replayOrder_eq_nil {bus : EventBus δ ν}
    (h : ∀ e ∈ bus.eventStore.allEvents, inText "client_order_id" (rt.dataStr e.data) = false)
    (id : String) : bus.replayOrder rt id = [] := by
  unfold replayOrder getEventsForOrder
  rw [List.filter_eq_nil_iff.mpr fun e he => by simp [h e he], List.take_nil]

/-- Every piece of the text around a client order id passes for the order's id. -/
theorem replayOrder_ne_nil {bus : EventBus δ ν} {e : StoredEvent δ} {id : String}
    (he : e ∈ bus.eventStore.allEvents) (hdata : rt.isEmpty e.data = false)
    (horder : inText "client_order_id" (rt.dataStr e.data) = true)
    (hid : inText id (rt.dataStr e.data) = true) : bus.replayOrder rt id ≠ [] := by
  unfold replayOrder getEventsForOrder
  intro hnil
  rcases List.take_eq_nil_iff.mp hnil with hlimit | hnone
  · cases hlimit
  · have hfound := List.filter_eq_nil_iff.mp hnone e he
    simp [hdata, horder, hid] at hfound

theorem mem_allEvents_publish {bus : EventBus δ ν} {p : Publication δ ν} {e : StoredEvent δ} :
    e ∈ (bus.publish rt p).eventStore.allEvents ↔
      bus.filed rt p = .ok e ∨ e ∈ bus.eventStore.allEvents := by
  rw [(allEvents_publish rt bus p).mem_iff, List.mem_append]
  cases bus.filed rt p with
  | error err => simp [Except.toOption]
  | ok x => simp [Except.toOption, eq_comm]

theorem publishedFor_publish {bus : EventBus δ ν} (h : Orderless rt bus) (p : Publication δ ν)
    (id : String) : (bus.publish rt p).publishedFor id ≠ [] ↔ p.event.clientOrderId = some id := by
  have hold : bus.publishedFor id = [] := by
    refine List.filter_eq_nil_iff.mpr fun entry hentry => ?_
    simp [h.published entry hentry]
  have hsplit : (bus.publish rt p).publishedFor id =
      bus.publishedFor id ++ [(p.event, (bus.filed rt p).toOption)].filter fun entry =>
        decide (entry.1.clientOrderId = some id) := List.filter_append ..
  rw [hsplit, hold, List.nil_append]
  by_cases hid : p.event.clientOrderId = some id <;> simp [hid]

theorem Orderless.replayExact {bus : EventBus δ ν} (h : Orderless rt bus) :
    ReplayExact rt bus := by
  intro id
  rw [replayOrder_eq_nil h.events]
  refine (List.map_eq_nil_iff.mpr (List.filter_eq_nil_iff.mpr fun entry hentry => ?_)).symm
  simp [h.published entry hentry]

theorem Orderless.publish {bus : EventBus δ ν} (h : Orderless rt bus) {p : Publication δ ν}
    (hp : bus.OfNoOrder rt p) : Orderless rt (bus.publish rt p) := by
  refine ⟨?_, ?_⟩
  · intro entry hentry
    rcases List.mem_append.mp hentry with hold | hnew
    · exact h.published entry hold
    · rw [List.mem_singleton.mp hnew]
      exact hp.1
  · intro e he
    rcases mem_allEvents_publish.mp he with hfiled | hold
    · rw [(filed_ok hfiled).1]
      exact hp.2 ⟨e, hfiled⟩
    · exact h.events e hold

/-- An order's event is found under none or under too many ids. -/
theorem Orderless.ofNoOrder {bus : EventBus δ ν} (h : Orderless rt bus) {p : Publication δ ν}
    (hexact : ReplayExact rt (bus.publish rt p)) : bus.OfNoOrder rt p := by
  have hnil : ∀ id, (bus.publish rt p).replayOrder rt id ≠ [] ↔ p.event.clientOrderId = some id := by
    intro id
    rw [← publishedFor_publish h p id, ne_eq, ne_eq, not_iff_not, ← List.map_eq_nil_iff (f := some),
      hexact id, List.map_eq_nil_iff]
  have hsilent : bus.Stores rt p →
      inText "client_order_id" (rt.dataStr (p.event.toDict.data rt)) = false := by
    intro hstores
    obtain ⟨e, hfiled⟩ := hstores
    by_contra horder
    rw [Bool.not_eq_false] at horder
    obtain ⟨hdata, -⟩ := filed_ok hfiled
    have he := mem_allEvents_publish.mpr (.inl hfiled)
    have hfull : rt.isEmpty e.data = false := hdata ▸ isEmpty_data p.event
    have hempty := (hnil "").mp (replayOrder_ne_nil he hfull (hdata ▸ horder) (by simp [inText]))
    have hkey := (hnil "client_order_id").mp
      (replayOrder_ne_nil he hfull (hdata ▸ horder) (hdata ▸ horder))
    rw [hempty] at hkey
    exact absurd (Option.some.inj hkey) (by decide)
  refine ⟨?_, hsilent⟩
  rw [Option.eq_none_iff_forall_ne_some]
  intro id hid
  refine (hnil id).mpr hid (replayOrder_eq_nil (fun e he => ?_) id)
  rcases mem_allEvents_publish.mp he with hfiled | hold
  · rw [(filed_ok hfiled).1]
    exact hsilent ⟨e, hfiled⟩
  · exact h.events e hold

/-! ## Times -/

variable (rt) in
/-- Every event published is filed under its own time. -/
structure Timed (bus : EventBus δ ν) : Prop where
  filed : Filed bus
  published : ∀ entry ∈ bus.published,
    ∃ e, entry.2 = some e ∧ rt.floatStr e.timestamp = entry.1.timestamp

theorem filterMap_filter_of_timed {q : String → Bool}
    {log : List (TradingEvent δ ν × Option (StoredEvent δ))}
    (h : ∀ entry ∈ log, ∃ e, entry.2 = some e ∧ rt.floatStr e.timestamp = entry.1.timestamp) :
    ((log.filterMap (·.2)).filter fun e => q (rt.floatStr e.timestamp)).map some =
      (log.filter fun entry => q entry.1.timestamp).map (·.2) := by
  induction log with
  | nil => rfl
  | cons entry rest ih =>
      obtain ⟨e, hentry, htime⟩ := h entry List.mem_cons_self
      have hrest := ih fun x hx => h x (List.mem_cons_of_mem _ hx)
      rw [List.filterMap_cons_some hentry, List.filter_cons, List.filter_cons, htime]
      split
      · rw [List.map_cons, List.map_cons, hrest, hentry]
      · exact hrest

theorem Timed.rangeExact {bus : EventBus δ ν} (h : Timed rt bus) : RangeExact rt bus := by
  intro startTime endTime
  have hlog := filterMap_filter_of_timed
    (q := fun t => decide (startTime ≤ t) && decide (t ≤ endTime)) h.published
  rw [publishedIn, ← hlog]
  exact (h.filed.filter _).map some

theorem Timed.publish {bus : EventBus δ ν} (h : Timed rt bus) {p : Publication δ ν}
    (hp : bus.PrintsItsTime rt p) : Timed rt (bus.publish rt p) := by
  refine ⟨h.filed.publish p, ?_⟩
  intro entry hentry
  rcases List.mem_append.mp hentry with hold | hnew
  · exact h.published entry hold
  · obtain ⟨⟨e, hfiled⟩, htime⟩ := hp
    rw [List.mem_singleton.mp hnew, hfiled]
    exact ⟨e, rfl, by rw [(filed_ok hfiled).2, htime]⟩

/-- The range that holds only the time of the event finds it only under that time. -/
theorem Timed.printsItsTime {bus : EventBus δ ν} (h : Timed rt bus) {p : Publication δ ν}
    (hexact : RangeExact rt (bus.publish rt p)) : bus.PrintsItsTime rt p := by
  by_contra hprints
  have hbefore := (h.rangeExact p.event.timestamp p.event.timestamp).length_eq
  have hafter := (hexact p.event.timestamp p.event.timestamp).length_eq
  have hfound := ((allEvents_publish rt bus p).filter fun e =>
    decide (p.event.timestamp ≤ rt.floatStr e.timestamp) &&
      decide (rt.floatStr e.timestamp ≤ p.event.timestamp)).length_eq
  have hnone : ((bus.filed rt p).toOption.toList.filter fun e =>
      decide (p.event.timestamp ≤ rt.floatStr e.timestamp) &&
        decide (rt.floatStr e.timestamp ≤ p.event.timestamp)) = [] := by
    refine List.filter_eq_nil_iff.mpr fun e he hrange => hprints ?_
    rw [Bool.and_eq_true, decide_eq_true_iff, decide_eq_true_iff] at hrange
    cases hfiled : bus.filed rt p with
    | error err => simp [hfiled, Except.toOption] at he
    | ok x =>
        obtain rfl : e = x := by simpa [hfiled, Except.toOption] using he
        rw [(filed_ok hfiled).2] at hrange
        exact ⟨⟨e, hfiled⟩, le_antisymm hrange.2 hrange.1⟩
  have hpublished : ((bus.publish rt p).publishedIn p.event.timestamp p.event.timestamp).length =
      (bus.publishedIn p.event.timestamp p.event.timestamp).length + 1 := by
    simp [publishedIn, EventBus.publish, List.filter_append]
  rw [List.length_map, List.length_map] at hbefore hafter
  rw [List.filter_append, List.length_append, hnone, List.length_nil] at hfound
  unfold getEventsInRange at hbefore hafter
  omega

/-! ## Runs -/

/-- Over every run of publications, replays and ranges are exact throughout exactly when no event is
of an order or looks as if it were, and every event is filed under a number that prints as its
time. -/
theorem always_exact_iff (ps : List (Publication δ ν)) :
    Always (publish rt) (fun bus => ReplayExact rt bus ∧ RangeExact rt bus) {} ps ↔
      StepsMeet (publish rt) (fun bus p => bus.OfNoOrder rt p ∧ bus.PrintsItsTime rt p) {} ps := by
  refine always_iff_stepsMeet_of_stronger (J := fun bus => Orderless rt bus ∧ Timed rt bus) ?_ ?_ ?_
    ?_
  · intro bus h
    exact ⟨h.1.replayExact, h.2.rangeExact⟩
  · intro bus p _ h hp
    exact ⟨h.1.publish hp.1, h.2.publish hp.2⟩
  · intro bus p _ h hexact
    exact ⟨h.1.ofNoOrder hexact.1, h.2.printsItsTime hexact.2⟩
  · exact ⟨⟨by simp, by simp [allEvents, Table.empty]⟩, ⟨List.Perm.refl _, by simp⟩⟩

def orderFilled : TradingEvent (List (String × String)) String :=
  { eventId := "e1", eventType := .orderFilled, timestamp := "2024-01-05T10:00:00"
    aggregateId := none, correlationId := none, causationId := none
    clientOrderId := some "OPB-int-1", symbol := "NIFTY", direction := "CALL", quantity := "50"
    price := "101.5", metadata := [] }

/-- An order's event is not replayed for it. -/
theorem order_not_replayed :
    ¬ Always (publish plainRuntime)
      (fun bus => ReplayExact plainRuntime bus ∧ RangeExact plainRuntime bus) {}
      [⟨orderFilled, 1704448800⟩] := by
  intro halways
  have hlength := congrArg List.length (halways.final.1 "OPB-int-1")
  revert hlength
  decide +kernel

end EventBus

end Bus

end AutoTrade.Events
