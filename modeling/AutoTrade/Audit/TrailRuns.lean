import AutoTrade.Audit.TradeTrail
import AutoTrade.Library.Run
import AutoTrade.Library.Text

/-! # Completeness of trails

A trail is complete as long as each event of a signal is kept in the trail of
that signal and no event of another signal is. Since a trail is found by symbol
and second, this is a matter of when the calls come: the events of a signal have
to fall into the second of the signal, and two signals must not share one.
-/

namespace AutoTrade.Audit

open AutoTrade.Library

/-- A signal that `log_signal_generated` was called for. -/
structure Signal where
  symbol : String
  tradeSecond : Int
  correlationId : String
deriving DecidableEq, Repr

def Signal.tradeId (signal : Signal) : String := tradeIdText signal.symbol signal.tradeSecond

/-- An event that one of the methods was called for: its id is the one returned. -/
structure Recorded where
  eventType : EventType
  correlationId : String
  eventId : String
deriving DecidableEq, Repr

/-- The logger with the signals and the events of all calls so far. -/
structure History where
  logger : AuditLogger := {}
  signals : List Signal := []
  events : List Recorded := []

namespace History

variable (ids : Uuids)

def newSignals (h : History) : Call → List Signal
  | .logSignalGenerated data => [⟨data.symbolName, data.tradeSecond, ids.text h.logger.drawn⟩]
  | _ => []

def step (h : History) (call : Call) : History where
  logger := (h.logger.perform ids call).1
  signals := h.signals ++ h.newSignals ids call
  events := h.events ++ [{
    eventType := call.eventType
    correlationId := call.correlationId ids h.logger.drawn
    eventId := (h.logger.perform ids call).2 }]

/-- A new logger over a log file that may hold lines. -/
def start (log : List AuditEvent) : History := { logger := { log := log } }

def trailOf (h : History) (signal : Signal) : Option TradeAuditTrail :=
  h.logger.getTradeAuditTrail signal.tradeId

end History

/-- The event is kept in the field of its type. -/
def TradeAuditTrail.Holds (trail : TradeAuditTrail) (recorded : Recorded) : Prop :=
  ∃ event, trail.slot recorded.eventType = some event ∧ event.eventId = recorded.eventId

/-- All events of a generated signal, its own generation included, are in the trail of the signal,
and no event of another signal is. -/
structure Complete (h : History) : Prop where
  kept : ∀ signal ∈ h.signals, ∃ trail, h.trailOf signal = some trail ∧
    ∀ recorded ∈ h.events, recorded.correlationId = signal.correlationId → trail.Holds recorded
  own : ∀ signal ∈ h.signals, ∀ trail, h.trailOf signal = some trail →
    ∀ type event, trail.slot type = some event →
      ∀ other ∈ h.signals, event.correlationId = some other.correlationId → other = signal

/-- The call names the symbol of the signal and falls into its second. -/
def Call.Meets (call : Call) (signal : Signal) : Prop :=
  call.data.symbolName = signal.symbol ∧ call.data.tradeSecond = signal.tradeSecond

instance (call : Call) (signal : Signal) : Decidable (call.Meets signal) :=
  inferInstanceAs (Decidable (_ ∧ _))

/-- A signal comes in a second of its own, under an id no call has been given before. Any other call
with the id of a signal meets that signal, and a call that meets a signal has the id of no other one
and is the first of its type for the signal it meets. -/
def OnTime (ids : Uuids) (h : History) (call : Call) : Prop :=
  match call with
  | .logSignalGenerated data =>
      (∀ signal ∈ h.signals, ¬ (Call.logSignalGenerated data).Meets signal) ∧
        ∀ recorded ∈ h.events, recorded.correlationId ≠ ids.text h.logger.drawn
  | call => ∀ signal ∈ h.signals,
      (call.correlationId ids h.logger.drawn = signal.correlationId → call.Meets signal) ∧
        (call.Meets signal →
          (∀ other ∈ h.signals,
            call.correlationId ids h.logger.drawn = other.correlationId → other = signal) ∧
          ∀ recorded ∈ h.events, recorded.eventType = call.eventType →
            recorded.correlationId ≠ signal.correlationId)

/-! ## Names of trails -/

theorem tradeIdText_inj {symbol symbol' : String} {s s' : Int}
    (h : tradeIdText symbol s = tradeIdText symbol' s') : symbol = symbol' ∧ s = s' := by
  obtain ⟨hsymbol, hsecond⟩ := string_append_inj_of_last '_' (by decide +kernel)
    (underscore_notMem_toString s) (underscore_notMem_toString s') h
  have hlists := congrArg String.toList hsymbol
  rw [String.toList_append, String.toList_append] at hlists
  exact ⟨String.toList_inj.mp (List.append_cancel_left hlists), toString_inj hsecond⟩

/-- A call finds the trail of a signal exactly when it meets the signal. -/
theorem Call.meets_iff (call : Call) (signal : Signal) :
    call.Meets signal ↔ signal.tradeId = call.data.tradeId := by
  constructor
  · rintro ⟨hsymbol, hsecond⟩
    rw [Signal.tradeId, CallData.tradeId, hsymbol, hsecond]
  · intro h
    obtain ⟨hsymbol, hsecond⟩ := tradeIdText_inj h
    exact ⟨hsymbol.symm, hsecond.symm⟩

/-! ## One call -/

/-- Any call but the one that generates a signal. -/
def Call.IsStage (call : Call) : Prop := ∀ data, call ≠ .logSignalGenerated data

theorem Call.signal_or_stage (call : Call) :
    (∃ data, call = .logSignalGenerated data) ∨ call.IsStage := by
  by_cases h : ∃ data, call = .logSignalGenerated data
  · exact Or.inl h
  · exact Or.inr fun data hcall => h ⟨data, hcall⟩

section Stage

variable {ids : Uuids} {h : History} {call : Call} (hstage : call.IsStage)

include hstage

theorem Call.IsStage.newSignals : h.newSignals ids call = [] := by
  cases call <;> first | rfl | exact absurd rfl (hstage _)

theorem Call.IsStage.signals : (h.step ids call).signals = h.signals := by
  rw [History.step, hstage.newSignals, List.append_nil]

theorem Call.IsStage.filed (event : AuditEvent) (trail : Option TradeAuditTrail) :
    call.filed event trail = trail.map fun t => t.fill event := by
  cases call <;> first | rfl | exact absurd rfl (hstage _)

theorem Call.IsStage.onTime_iff : OnTime ids h call ↔ ∀ signal ∈ h.signals,
    (call.correlationId ids h.logger.drawn = signal.correlationId → call.Meets signal) ∧
      (call.Meets signal →
        (∀ other ∈ h.signals,
          call.correlationId ids h.logger.drawn = other.correlationId → other = signal) ∧
        ∀ recorded ∈ h.events, recorded.eventType = call.eventType →
          recorded.correlationId ≠ signal.correlationId) := by
  cases call <;> first | exact Iff.rfl | exact absurd rfl (hstage _)

end Stage

theorem Call.eventType_kept (call : Call) : call.eventType ≠ .tradeExecution := by
  cases call <;> simp [Call.eventType]

section Step

variable {ids : Uuids} {h : History}

theorem History.drawn_lt (ids : Uuids) (h : History) (call : Call) :
    h.logger.drawn < (h.step ids call).logger.drawn :=
  (call.le_firstDraw h.logger.drawn).trans_lt (h.logger.perform_drawn ids call).lt

/-- What a call adds: the event it records, and the copy of it in the trails. -/
structure Adds (ids : Uuids) (h : History) (call : Call) (recorded : Recorded)
    (event : AuditEvent) : Prop where
  events : (h.step ids call).events = h.events ++ [recorded]
  type : recorded.eventType = call.eventType
  correlation : recorded.correlationId = call.correlationId ids h.logger.drawn
  drawn : DrawnBetween ids h.logger.drawn (h.step ids call).logger.drawn recorded.eventId
  copy_type : event.eventType = call.eventType
  copy_id : event.eventId = recorded.eventId
  copy_correlation : event.correlationId = some recorded.correlationId
  trails : ∀ key, (h.step ids call).logger.tradeTrails.get? key =
    if key = call.data.tradeId then call.filed event (h.logger.tradeTrails.get? key)
    else h.logger.tradeTrails.get? key

theorem History.exists_adds (ids : Uuids) (h : History) (call : Call) :
    ∃ recorded event, Adds ids h call recorded event := by
  obtain ⟨event, hevent, htrails⟩ := h.logger.perform_trails ids call
  exact ⟨_, event,
    { events := rfl
      type := rfl
      correlation := rfl
      drawn := (h.logger.perform_drawn ids call).mono (call.le_firstDraw h.logger.drawn) le_rfl
      copy_type := hevent.eventType
      copy_id := hevent.eventId
      copy_correlation := hevent.correlationId
      trails := htrails }⟩

theorem Adds.trailOf {call : Call} {recorded : Recorded} {event : AuditEvent}
    (hadds : Adds ids h call recorded event) (signal : Signal) :
    (h.step ids call).trailOf signal =
      if call.Meets signal then call.filed event (h.trailOf signal) else h.trailOf signal := by
  simp only [call.meets_iff]
  exact hadds.trails signal.tradeId

theorem Adds.mem_events {call : Call} {recorded r : Recorded} {event : AuditEvent}
    (hadds : Adds ids h call recorded event) :
    r ∈ (h.step ids call).events ↔ r ∈ h.events ∨ r = recorded := by
  rw [hadds.events, List.mem_append, List.mem_singleton]

/-- The trail of a new signal has the event of its generation only. -/
theorem slot_of_signal {data : CallData} {event : AuditEvent} {old : Option TradeAuditTrail}
    {trail : TradeAuditTrail} (hfiled : (Call.logSignalGenerated data).filed event old = some trail)
    (type : EventType) :
    trail.slot type = if type = .signalGenerated then some event else none := by
  obtain rfl := Option.some.inj hfiled
  cases type <;> rfl

theorem slot_of_stage {call : Call} (hstage : call.IsStage) {event : AuditEvent}
    (htype : event.eventType = call.eventType) {old : Option TradeAuditTrail}
    {trail : TradeAuditTrail} (hfiled : call.filed event old = some trail) :
    ∃ before, old = some before ∧ ∀ type,
      trail.slot type = if type = call.eventType then some event else before.slot type := by
  rw [hstage.filed] at hfiled
  cases old with
  | none => cases hfiled
  | some before =>
      obtain rfl := Option.some.inj hfiled
      refine ⟨before, rfl, fun type => ?_⟩
      rw [before.slot_fill (htype ▸ call.eventType_kept), htype]

end Step

/-! ## What every run keeps -/

/-- Ids belong to one signal or event each, and a trail has only events of calls. -/
structure Booked (ids : Uuids) (h : History) : Prop where
  drawn_signal : ∀ signal ∈ h.signals, DrawnBetween ids 0 h.logger.drawn signal.correlationId
  one_signal : ∀ signal ∈ h.signals, ∀ other ∈ h.signals,
    other.correlationId = signal.correlationId → other = signal
  generated : ∀ signal ∈ h.signals, ∃ recorded ∈ h.events,
    recorded.eventType = .signalGenerated ∧ recorded.correlationId = signal.correlationId
  drawn_event : ∀ recorded ∈ h.events, DrawnBetween ids 0 h.logger.drawn recorded.eventId
  filed : ∀ tradeId trail type event, h.logger.tradeTrails.get? tradeId = some trail →
    trail.slot type = some event → ∃ recorded ∈ h.events,
      event.eventId = recorded.eventId ∧ event.correlationId = some recorded.correlationId

section Booked

variable {ids : Uuids} {h : History}

theorem mem_newSignals {call : Call} {signal : Signal} (hmem : signal ∈ h.newSignals ids call) :
    signal.correlationId = ids.text h.logger.drawn ∧
      ∃ data, call = .logSignalGenerated data ∧ signal.tradeId = data.tradeId := by
  cases call with
  | logSignalGenerated data =>
      obtain rfl := List.mem_singleton.mp hmem
      exact ⟨rfl, data, rfl, rfl⟩
  | _ => cases hmem

/-- An id drawn now is none of the signals'. -/
theorem Booked.new_id_ne (hb : Booked ids h) {signal : Signal} (hsignal : signal ∈ h.signals) :
    signal.correlationId ≠ ids.text h.logger.drawn :=
  (hb.drawn_signal signal hsignal).ne ⟨h.logger.drawn, le_rfl, Nat.lt_succ_self _, rfl⟩

theorem Booked.step (hb : Booked ids h) (call : Call) : Booked ids (h.step ids call) := by
  have hlt := h.drawn_lt ids call
  obtain ⟨recorded, event, hadds⟩ := h.exists_adds ids call
  constructor
  · intro signal hsignal
    rcases List.mem_append.mp hsignal with hold | hnew
    · exact (hb.drawn_signal signal hold).mono le_rfl hlt.le
    · exact ⟨h.logger.drawn, Nat.zero_le _, hlt, (mem_newSignals hnew).1⟩
  · intro signal hsignal other hother hid
    rcases List.mem_append.mp hsignal with hold | hnew
    · rcases List.mem_append.mp hother with hold' | hnew'
      · exact hb.one_signal signal hold other hold' hid
      · exact absurd (hid.symm.trans (mem_newSignals hnew').1) (hb.new_id_ne hold)
    · rcases List.mem_append.mp hother with hold' | hnew'
      · exact absurd (hid.trans (mem_newSignals hnew).1) (hb.new_id_ne hold')
      · obtain ⟨-, data, rfl, -⟩ := mem_newSignals hnew
        exact (List.mem_singleton.mp hnew').trans (List.mem_singleton.mp hnew).symm
  · intro signal hsignal
    rcases List.mem_append.mp hsignal with hold | hnew
    · obtain ⟨old, hmem, hgenerated⟩ := hb.generated signal hold
      exact ⟨old, hadds.mem_events.mpr (Or.inl hmem), hgenerated⟩
    · obtain ⟨hid, data, rfl, -⟩ := mem_newSignals hnew
      exact ⟨recorded, hadds.mem_events.mpr (Or.inr rfl), hadds.type,
        hadds.correlation.trans hid.symm⟩
  · intro r hmem
    rcases hadds.mem_events.mp hmem with hold | rfl
    · exact (hb.drawn_event r hold).mono le_rfl hlt.le
    · exact hadds.drawn.mono (Nat.zero_le _) le_rfl
  · intro tradeId trail type kept htrail hslot
    have hnew : kept = event → ∃ r ∈ (h.step ids call).events,
        kept.eventId = r.eventId ∧ kept.correlationId = some r.correlationId := by
      rintro rfl
      exact ⟨recorded, hadds.mem_events.mpr (Or.inr rfl), hadds.copy_id, hadds.copy_correlation⟩
    have hold : ∀ before, h.logger.tradeTrails.get? tradeId = some before →
        before.slot type = some kept → ∃ r ∈ (h.step ids call).events,
          kept.eventId = r.eventId ∧ kept.correlationId = some r.correlationId := by
      intro before hbefore hslotBefore
      obtain ⟨r, hmem, hr⟩ := hb.filed tradeId before type kept hbefore hslotBefore
      exact ⟨r, hadds.mem_events.mpr (Or.inl hmem), hr⟩
    rw [hadds.trails] at htrail
    split at htrail
    · rcases call.signal_or_stage with ⟨data, rfl⟩ | hstage
      · rw [slot_of_signal htrail] at hslot
        split at hslot
        · exact hnew (Option.some.inj hslot).symm
        · cases hslot
      · obtain ⟨before, hbefore, hslots⟩ := slot_of_stage hstage hadds.copy_type htrail
        rw [hslots] at hslot
        split at hslot
        · exact hnew (Option.some.inj hslot).symm
        · exact hold before hbefore hslot
    · exact hold trail htrail hslot

theorem booked_start (log : List AuditEvent) : Booked ids (History.start log) := by
  refine ⟨?_, ?_, ?_, ?_, ?_⟩
  · rintro signal hsignal
    cases hsignal
  · rintro signal hsignal
    cases hsignal
  · rintro signal hsignal
    cases hsignal
  · rintro recorded hrecorded
    cases hrecorded
  · rintro tradeId trail type event htrail
    cases htrail

/-- An id drawn by this call is no earlier event's. -/
theorem Booked.event_id_ne (hb : Booked ids h) {call : Call} {recorded r : Recorded}
    {event : AuditEvent} (hadds : Adds ids h call recorded event) (hr : r ∈ h.events) :
    r.eventId ≠ recorded.eventId :=
  (hb.drawn_event r hr).ne hadds.drawn

end Booked

/-! ## Calls on time keep the trails complete -/

section Kept

variable {ids : Uuids} {h : History}

theorem Complete.signal_step (hc : Complete h) (hb : Booked ids h) {data : CallData}
    (htime : OnTime ids h (.logSignalGenerated data)) :
    Complete (h.step ids (.logSignalGenerated data)) := by
  obtain ⟨hplace, hfresh⟩ := htime
  obtain ⟨recorded, event, hadds⟩ := h.exists_adds ids (.logSignalGenerated data)
  have hunchanged : ∀ signal ∈ h.signals,
      (h.step ids (.logSignalGenerated data)).trailOf signal = h.trailOf signal := by
    intro signal hsignal
    rw [hadds.trailOf, if_neg (hplace signal hsignal)]
  have hnewTrail : ∀ signal ∈ h.newSignals ids (.logSignalGenerated data),
      (h.step ids (.logSignalGenerated data)).trailOf signal =
        some { tradeId := data.tradeId, signalGenerated := some event } := by
    intro signal hsignal
    obtain rfl := List.mem_singleton.mp hsignal
    rw [hadds.trailOf, if_pos ⟨rfl, rfl⟩]
    rfl
  constructor
  · intro signal hsignal
    rcases List.mem_append.mp hsignal with hold | hnew
    · obtain ⟨trail, htrail, hholds⟩ := hc.kept signal hold
      refine ⟨trail, by rw [hunchanged signal hold, htrail], fun r hr hid => ?_⟩
      rcases hadds.mem_events.mp hr with hold' | rfl
      · exact hholds r hold' hid
      · exact absurd (hid.symm.trans hadds.correlation) (hb.new_id_ne hold)
    · refine ⟨_, hnewTrail signal hnew, fun r hr hid => ?_⟩
      rcases hadds.mem_events.mp hr with hold | rfl
      · exact absurd (hid.trans (mem_newSignals hnew).1) (hfresh r hold)
      · exact ⟨event, by rw [hadds.type]; rfl, hadds.copy_id⟩
  · intro signal hsignal trail htrail type kept hslot other hother hid
    rcases List.mem_append.mp hsignal with hold | hnew
    · rw [hunchanged signal hold] at htrail
      rcases List.mem_append.mp hother with hold' | hnew'
      · exact hc.own signal hold trail htrail type kept hslot other hold' hid
      · obtain ⟨r, hr, -, hcorrelation⟩ := hb.filed _ trail type kept htrail hslot
        rw [hcorrelation] at hid
        exact absurd ((Option.some.inj hid).trans (mem_newSignals hnew').1) (hfresh r hr)
    · rw [hnewTrail signal hnew] at htrail
      have hkept : kept = event := by
        have hfiled : (Call.logSignalGenerated data).filed event none = some trail := htrail
        have hslots := slot_of_signal hfiled type
        rw [hslot] at hslots
        split at hslots
        · exact Option.some.inj hslots
        · cases hslots
      subst hkept
      have hnewId : other.correlationId = ids.text h.logger.drawn := by
        rw [hadds.copy_correlation, hadds.correlation] at hid
        exact (Option.some.inj hid).symm
      exact (hb.step (.logSignalGenerated data)).one_signal signal hsignal other hother
        (hnewId.trans (mem_newSignals hnew).1.symm)

theorem Complete.stage_step (hc : Complete h) {call : Call} (hstage : call.IsStage)
    (htime : OnTime ids h call) : Complete (h.step ids call) := by
  rw [hstage.onTime_iff] at htime
  obtain ⟨recorded, event, hadds⟩ := h.exists_adds ids call
  constructor
  · intro signal hsignal
    rw [hstage.signals] at hsignal
    obtain ⟨hmeets, hfirst⟩ := htime signal hsignal
    obtain ⟨trail, htrail, hholds⟩ := hc.kept signal hsignal
    by_cases hmeet : call.Meets signal
    · have hfiled := hstage.filed event (h.trailOf signal)
      rw [htrail, Option.map_some] at hfiled
      refine ⟨trail.fill event, by rw [hadds.trailOf, if_pos hmeet, htrail, hfiled], ?_⟩
      have hkept : event.eventType ≠ .tradeExecution := hadds.copy_type ▸ call.eventType_kept
      intro r hr hid
      rcases hadds.mem_events.mp hr with hold | rfl
      · obtain ⟨old, hslot, holdId⟩ := hholds r hold hid
        refine ⟨old, ?_, holdId⟩
        rw [trail.slot_fill hkept, if_neg, hslot]
        intro htype
        exact (hfirst hmeet).2 r hold (htype.trans hadds.copy_type) hid
      · exact ⟨event, by rw [trail.slot_fill hkept, if_pos (hadds.type.trans hadds.copy_type.symm)],
          hadds.copy_id⟩
    · refine ⟨trail, by rw [hadds.trailOf, if_neg hmeet, htrail], fun r hr hid => ?_⟩
      rcases hadds.mem_events.mp hr with hold | rfl
      · exact hholds r hold hid
      · exact absurd (hmeets (hadds.correlation.symm.trans hid)) hmeet
  · intro signal hsignal trail htrail type kept hslot other hother hid
    rw [hstage.signals] at hsignal hother
    rw [hadds.trailOf] at htrail
    split at htrail
    · rename_i hmeet
      obtain ⟨before, hbefore, hslots⟩ := slot_of_stage hstage hadds.copy_type htrail
      rw [hslots] at hslot
      split at hslot
      · obtain rfl := Option.some.inj hslot
        rw [hadds.copy_correlation, hadds.correlation] at hid
        exact ((htime signal hsignal).2 hmeet).1 other hother (Option.some.inj hid)
      · exact hc.own signal hsignal before hbefore type kept hslot other hother hid
    · exact hc.own signal hsignal trail htrail type kept hslot other hother hid

theorem Complete.step (hc : Complete h) (hb : Booked ids h) {call : Call}
    (htime : OnTime ids h call) : Complete (h.step ids call) := by
  rcases call.signal_or_stage with ⟨data, rfl⟩ | hstage
  · exact hc.signal_step hb htime
  · exact hc.stage_step hstage htime

end Kept

/-! ## A call that is not on time leaves a trail incomplete -/

section Needed

variable {ids : Uuids} {h : History}

/-- A field the call has written holds no earlier event. -/
theorem not_holds_of_new (hb : Booked ids h) {call : Call} {recorded r : Recorded}
    {event : AuditEvent} (hadds : Adds ids h call recorded event) (hr : r ∈ h.events)
    {trail : TradeAuditTrail} (hslot : trail.slot r.eventType = some event) : ¬ trail.Holds r := by
  rintro ⟨kept, hkept, hid⟩
  obtain rfl := Option.some.inj (hslot.symm.trans hkept)
  exact hb.event_id_ne hadds hr (hid.symm.trans hadds.copy_id)

/-- A trail the call has not written does not hold its event. -/
theorem not_holds_of_old (hb : Booked ids h) {call : Call} {recorded : Recorded}
    {event : AuditEvent} (hadds : Adds ids h call recorded event) {tradeId : String}
    {trail : TradeAuditTrail} (htrail : h.logger.tradeTrails.get? tradeId = some trail) :
    ¬ trail.Holds recorded := by
  rintro ⟨kept, hkept, hid⟩
  obtain ⟨r, hr, hrid, -⟩ := hb.filed tradeId trail _ kept htrail hkept
  exact hb.event_id_ne hadds hr (hrid.symm.trans hid)

theorem onTime_of_signal (hb : Booked ids h) {data : CallData}
    (hc : Complete (h.step ids (.logSignalGenerated data))) :
    OnTime ids h (.logSignalGenerated data) := by
  obtain ⟨recorded, event, hadds⟩ := h.exists_adds ids (.logSignalGenerated data)
  constructor
  · intro signal hsignal hmeet
    obtain ⟨trail, htrail, hholds⟩ := hc.kept signal (List.mem_append_left _ hsignal)
    rw [hadds.trailOf, if_pos hmeet] at htrail
    obtain ⟨r, hr, htype, hid⟩ := hb.generated signal hsignal
    refine not_holds_of_new hb hadds hr ?_ (hholds r (hadds.mem_events.mpr (Or.inl hr)) hid)
    rw [slot_of_signal htrail, if_pos htype]
  · intro r hr hid
    obtain ⟨trail, htrail, hholds⟩ := hc.kept
      ⟨data.symbolName, data.tradeSecond, ids.text h.logger.drawn⟩
      (List.mem_append_right _ List.mem_cons_self)
    rw [hadds.trailOf, if_pos ⟨rfl, rfl⟩] at htrail
    have hheld := hholds r (hadds.mem_events.mpr (Or.inl hr)) hid
    obtain ⟨kept, hslot, -⟩ := id hheld
    have hevent := hslot
    rw [slot_of_signal htrail] at hevent
    split at hevent
    · exact not_holds_of_new hb hadds hr (hslot.trans hevent.symm) hheld
    · cases hevent

theorem onTime_of_stage (hb : Booked ids h) {call : Call} (hstage : call.IsStage)
    (hc : Complete (h.step ids call)) : OnTime ids h call := by
  obtain ⟨recorded, event, hadds⟩ := h.exists_adds ids call
  rw [hstage.onTime_iff]
  intro signal hsignal
  obtain ⟨trail, htrail, hholds⟩ := hc.kept signal (by rwa [hstage.signals])
  have hown := hc.own signal (by rwa [hstage.signals]) trail htrail
  rw [hadds.trailOf] at htrail
  constructor
  · intro hid
    by_contra hmeet
    rw [if_neg hmeet] at htrail
    exact not_holds_of_old hb hadds htrail
      (hholds recorded (hadds.mem_events.mpr (Or.inr rfl)) (hadds.correlation.trans hid))
  · intro hmeet
    rw [if_pos hmeet] at htrail
    obtain ⟨before, -, hslots⟩ := slot_of_stage hstage hadds.copy_type htrail
    constructor
    · intro other hother hid
      refine hown call.eventType event (by rw [hslots, if_pos rfl]) other
        (by rwa [hstage.signals]) ?_
      rw [hadds.copy_correlation, hadds.correlation, hid]
    · intro r hr htype hid
      refine not_holds_of_new hb hadds hr ?_ (hholds r (hadds.mem_events.mpr (Or.inl hr)) hid)
      rw [hslots, if_pos htype]

theorem onTime_of_step (hb : Booked ids h) {call : Call} (hc : Complete (h.step ids call)) :
    OnTime ids h call := by
  rcases call.signal_or_stage with ⟨data, rfl⟩ | hstage
  · exact onTime_of_signal hb hc
  · exact onTime_of_stage hb hstage hc

end Needed

/-! ## Runs -/

theorem complete_start (log : List AuditEvent) : Complete (History.start log) := by
  constructor
  · rintro signal hsignal
    cases hsignal
  · rintro signal hsignal
    cases hsignal

/-- Through a whole run of calls the trails are complete exactly when every call is on time. -/
theorem trails_complete_iff (ids : Uuids) (log : List AuditEvent) (calls : List Call) :
    Always (History.step ids) Complete (History.start log) calls ↔
      StepsMeet (History.step ids) (OnTime ids) (History.start log) calls := by
  have hboth : ∀ h : History, Complete h ∧ Booked ids h → Complete h := fun _ hJ => hJ.1
  refine always_iff_stepsMeet_of_stronger hboth ?_ ?_ ⟨complete_start log, booked_start log⟩
  · rintro h call - ⟨hc, hb⟩ htime
    exact ⟨hc.step hb htime, hb.step call⟩
  · rintro h call - ⟨-, hb⟩ hc
    exact onTime_of_step hb hc

/-! ## A fill in the next second -/

def numberedUuids : Uuids where
  text n := "uuid-" ++ toString n
  text_inj m n h := by
    have hlists := congrArg String.toList h
    rw [String.toList_append, String.toList_append] at hlists
    exact toString_nat_inj (String.toList_inj.mp (List.append_cancel_left hlists))

/-- The same instant for all clock readings. -/
def momentAt (now : Time) : Moment := { logged := now, named := now, filed := now }

/-- A signal and, a second later, the fill of its order under the id of the signal. -/
def filledLater : List Call :=
  [.logSignalGenerated { symbol := some "NIFTY", moment := momentAt (19800 * second) },
    .logOrderFilled { symbol := some "NIFTY", moment := momentAt (19801 * second) } "uuid-0"]

/-- The trail of the signal exists and has no fill. -/
theorem fill_missing_from_trail :
    ¬ Complete (run (History.step numberedUuids) (History.start []) filledLater) := by
  intro hc
  obtain ⟨trail, htrail, hholds⟩ := hc.kept ⟨"NIFTY", 0, "uuid-0"⟩ (by decide +kernel)
  obtain ⟨event, hslot, -⟩ := hholds ⟨.orderFilled, "uuid-0", "uuid-2"⟩ (by decide +kernel) rfl
  have hnone : ((run (History.step numberedUuids) (History.start []) filledLater).trailOf
      ⟨"NIFTY", 0, "uuid-0"⟩).bind TradeAuditTrail.orderFilled = none := by
    decide +kernel
  rw [htrail] at hnone
  exact absurd (hslot.symm.trans hnone) (by simp)

end AutoTrade.Audit
