import AutoTrade.Runtime
import AutoTrade.Library.Table

/-! # Audit trails of trades

`AuditLogger` of `infrastructure/security/audit_logger.py`: each of the seven
methods writes one event to the log and files a copy of it in the trail of its
trade. The trail is not found by the correlation id the method is given: its
name is put together again from the symbol and the current second. Handing over
a line to the log can fail; the event then stays unlogged and gets another id.
-/

namespace AutoTrade.Audit

open AutoTrade.Library

/-- `str(uuid.uuid4())`: one text for each draw. -/
structure Uuids where
  text : Nat → String
  text_inj : ∀ m n, text m = text n → m = n

inductive EventType
  | signalGenerated
  | signalValidated
  | riskApproved
  | orderSubmitted
  | orderFilled
  | positionUpdated
  | tradeClosed
  | tradeExecution
deriving DecidableEq, Repr

def EventType.name : EventType → String
  | .signalGenerated => "signal_generated"
  | .signalValidated => "signal_validated"
  | .riskApproved => "risk_approved"
  | .orderSubmitted => "order_submitted"
  | .orderFilled => "order_filled"
  | .positionUpdated => "position_updated"
  | .tradeClosed => "trade_closed"
  | .tradeExecution => "trade_execution"

/-- The arguments that `log_event` copies into an event. -/
structure EventFields where
  eventType : EventType
  resource : String
  action : String
  outcome : String := "success"
  severity : String := "info"
  userId : Option String := none
  sessionId : Option String := none
  ipAddress : Option String := none
  correlationId : Option String := none
deriving DecidableEq, Repr

structure AuditEvent extends EventFields where
  eventId : String
  timestamp : Time
deriving DecidableEq, Repr

structure TradeAuditTrail where
  tradeId : String
  signalGenerated : Option AuditEvent := none
  signalValidated : Option AuditEvent := none
  riskApproved : Option AuditEvent := none
  orderSubmitted : Option AuditEvent := none
  orderFilled : Option AuditEvent := none
  positionUpdated : Option AuditEvent := none
  tradeClosed : Option AuditEvent := none
deriving DecidableEq, Repr

namespace TradeAuditTrail

/-- The field of the trail an event of this type is kept in. -/
def slot (trail : TradeAuditTrail) : EventType → Option AuditEvent
  | .signalGenerated => trail.signalGenerated
  | .signalValidated => trail.signalValidated
  | .riskApproved => trail.riskApproved
  | .orderSubmitted => trail.orderSubmitted
  | .orderFilled => trail.orderFilled
  | .positionUpdated => trail.positionUpdated
  | .tradeClosed => trail.tradeClosed
  | .tradeExecution => none

def fill (trail : TradeAuditTrail) (event : AuditEvent) : TradeAuditTrail :=
  match event.eventType with
  | .signalGenerated => { trail with signalGenerated := some event }
  | .signalValidated => { trail with signalValidated := some event }
  | .riskApproved => { trail with riskApproved := some event }
  | .orderSubmitted => { trail with orderSubmitted := some event }
  | .orderFilled => { trail with orderFilled := some event }
  | .positionUpdated => { trail with positionUpdated := some event }
  | .tradeClosed => { trail with tradeClosed := some event }
  | .tradeExecution => trail

/-- A field of its own for each type but the one no trail keeps. -/
theorem slot_fill (trail : TradeAuditTrail) {event : AuditEvent} {type : EventType}
    (hkept : event.eventType ≠ .tradeExecution) :
    (trail.fill event).slot type =
      if type = event.eventType then some event else trail.slot type := by
  unfold fill
  cases hevent : event.eventType <;> cases type <;> first | rfl | exact absurd hevent hkept

end TradeAuditTrail

/-- `_trade_trails` in `tradeTrails`, the lines of the log file in `log`; `drawn` counts the ids drawn
so far. -/
structure AuditLogger where
  log : List AuditEvent := []
  tradeTrails : Dict String TradeAuditTrail := Table.empty
  drawn : Nat := 0

/-- What a call meets: the clock when the event is made, when the trade id is made and when the copy
for the trail is made, and whether the log takes the line. -/
structure Moment where
  logged : Time
  named : Time
  filed : Time
  written : Bool := true
  executionWritten : Bool := true
deriving DecidableEq, Repr

structure Caller where
  userId : Option String := none
  sessionId : Option String := none
  ipAddress : Option String := none
deriving DecidableEq, Repr

/-- What all the calls are given: the symbol in the data, the caller's ids and the circumstances. -/
structure CallData where
  symbol : Option String
  caller : Caller := {}
  moment : Moment
deriving DecidableEq, Repr

/-- `data.get('symbol', 'UNKNOWN')`. -/
def CallData.symbolName (data : CallData) : String := data.symbol.getD "UNKNOWN"

/-- `int(now_ist().timestamp())`; `int` cuts towards zero. -/
def CallData.tradeSecond (data : CallData) : Int :=
  (data.moment.named - 19800 * second).tdiv second

def tradeIdText (symbol : String) (tradeSecond : Int) : String :=
  "trade_" ++ symbol ++ "_" ++ toString tradeSecond

def CallData.tradeId (data : CallData) : String := tradeIdText data.symbolName data.tradeSecond

/-- The fields of an event of this call. -/
def CallData.fields (data : CallData) (eventType : EventType) (kind action outcome severity : String)
    (correlationId : String) : EventFields where
  eventType := eventType
  resource := kind ++ ":" ++ data.symbolName
  action := action
  outcome := outcome
  severity := severity
  userId := data.caller.userId
  sessionId := data.caller.sessionId
  ipAddress := data.caller.ipAddress
  correlationId := some correlationId

namespace AuditLogger

variable (ids : Uuids)

/-- The event and the id the caller gets; where the line cannot be written a second id is drawn. -/
def logEvent (logger : AuditLogger) (fields : EventFields) (now : Time) (written : Bool) :
    AuditLogger × String :=
  if written then
    ({ logger with
        log := logger.log ++ [{ fields with eventId := ids.text logger.drawn, timestamp := now }]
        drawn := logger.drawn + 1 }, ids.text logger.drawn)
  else ({ logger with drawn := logger.drawn + 2 }, ids.text (logger.drawn + 1))

def logSignalGenerated (logger : AuditLogger) (data : CallData) : AuditLogger × String :=
  let correlationId := ids.text logger.drawn
  let fields := data.fields .signalGenerated "signal" "generate" "success" "info" correlationId
  let logged := { logger with drawn := logger.drawn + 1 }.logEvent ids fields data.moment.logged
    data.moment.written
  let event : AuditEvent := { fields with eventId := logged.2, timestamp := data.moment.filed }
  ({ logged.1 with
      tradeTrails := logged.1.tradeTrails.set data.tradeId
        { tradeId := data.tradeId, signalGenerated := some event } }, logged.2)

/-- The copy goes into the trail of this name, if there is one. -/
def fileEvent (logger : AuditLogger) (tradeId : String) (event : AuditEvent) : AuditLogger :=
  match logger.tradeTrails.get? tradeId with
  | none => logger
  | some trail => { logger with tradeTrails := logger.tradeTrails.set tradeId (trail.fill event) }

/-- What the six methods after the first do: log the event and file its copy. -/
def logStage (logger : AuditLogger) (data : CallData) (fields : EventFields) :
    AuditLogger × String :=
  let logged := logger.logEvent ids fields data.moment.logged data.moment.written
  (logged.1.fileEvent data.tradeId
    { fields with eventId := logged.2, timestamp := data.moment.filed }, logged.2)

def logSignalValidated (logger : AuditLogger) (data : CallData) (isValid : Bool)
    (correlationId : String) : AuditLogger × String :=
  logger.logStage ids data (data.fields .signalValidated "signal" "validate"
    (if isValid then "success" else "failure") (if isValid then "info" else "warning")
    correlationId)

def logRiskApproved (logger : AuditLogger) (data : CallData) (allowed : Bool)
    (correlationId : String) : AuditLogger × String :=
  logger.logStage ids data (data.fields .riskApproved "signal" "approve"
    (if allowed then "success" else "failure") (if allowed then "info" else "warning")
    correlationId)

def logOrderSubmitted (logger : AuditLogger) (data : CallData) (correlationId : String) :
    AuditLogger × String :=
  logger.logStage ids data
    (data.fields .orderSubmitted "order" "submit" "success" "info" correlationId)

/-- `log_trade_execution` carries no correlation id. -/
def logTradeExecution (logger : AuditLogger) (data : CallData) (userId : String) : AuditLogger :=
  (logger.logEvent ids
    { eventType := .tradeExecution
      resource := "trade:" ++ data.symbolName
      action := "fill"
      userId := some userId
      sessionId := data.caller.sessionId
      ipAddress := data.caller.ipAddress }
    data.moment.filed data.moment.executionWritten).1

/-- Where the trail is found the fill is logged a second time, as a trade execution. -/
def logOrderFilled (logger : AuditLogger) (data : CallData) (correlationId : String) :
    AuditLogger × String :=
  let filled := logger.logStage ids data
    (data.fields .orderFilled "order" "fill" "success" "info" correlationId)
  if logger.tradeTrails.contains data.tradeId then
    (filled.1.logTradeExecution ids data (orElse data.caller.userId "system"), filled.2)
  else filled

def logPositionUpdated (logger : AuditLogger) (data : CallData) (correlationId : String) :
    AuditLogger × String :=
  logger.logStage ids data
    (data.fields .positionUpdated "position" "update" "success" "info" correlationId)

def logTradeClosed (logger : AuditLogger) (data : CallData) (correlationId : String) :
    AuditLogger × String :=
  logger.logStage ids data
    (data.fields .tradeClosed "trade" "close" "success" "info" correlationId)

def getTradeAuditTrail (logger : AuditLogger) (tradeId : String) : Option TradeAuditTrail :=
  logger.tradeTrails.get? tradeId

end AuditLogger

inductive Call
  | logSignalGenerated (data : CallData)
  | logSignalValidated (data : CallData) (isValid : Bool) (correlationId : String)
  | logRiskApproved (data : CallData) (allowed : Bool) (correlationId : String)
  | logOrderSubmitted (data : CallData) (correlationId : String)
  | logOrderFilled (data : CallData) (correlationId : String)
  | logPositionUpdated (data : CallData) (correlationId : String)
  | logTradeClosed (data : CallData) (correlationId : String)
deriving DecidableEq, Repr

namespace Call

def data : Call → CallData
  | logSignalGenerated data => data
  | logSignalValidated data _ _ => data
  | logRiskApproved data _ _ => data
  | logOrderSubmitted data _ => data
  | logOrderFilled data _ => data
  | logPositionUpdated data _ => data
  | logTradeClosed data _ => data

def eventType : Call → EventType
  | logSignalGenerated _ => .signalGenerated
  | logSignalValidated _ _ _ => .signalValidated
  | logRiskApproved _ _ _ => .riskApproved
  | logOrderSubmitted _ _ => .orderSubmitted
  | logOrderFilled _ _ => .orderFilled
  | logPositionUpdated _ _ => .positionUpdated
  | logTradeClosed _ _ => .tradeClosed

/-- The correlation id of the event: the one drawn next for a new signal, else the caller's. -/
def correlationId (ids : Uuids) (drawn : Nat) : Call → String
  | logSignalGenerated _ => ids.text drawn
  | logSignalValidated _ _ correlationId => correlationId
  | logRiskApproved _ _ correlationId => correlationId
  | logOrderSubmitted _ correlationId => correlationId
  | logOrderFilled _ correlationId => correlationId
  | logPositionUpdated _ correlationId => correlationId
  | logTradeClosed _ correlationId => correlationId

end Call

/-- The method called, and the event id it returns. -/
def AuditLogger.perform (ids : Uuids) (logger : AuditLogger) : Call → AuditLogger × String
  | .logSignalGenerated data => logger.logSignalGenerated ids data
  | .logSignalValidated data isValid correlationId =>
      logger.logSignalValidated ids data isValid correlationId
  | .logRiskApproved data allowed correlationId =>
      logger.logRiskApproved ids data allowed correlationId
  | .logOrderSubmitted data correlationId => logger.logOrderSubmitted ids data correlationId
  | .logOrderFilled data correlationId => logger.logOrderFilled ids data correlationId
  | .logPositionUpdated data correlationId => logger.logPositionUpdated ids data correlationId
  | .logTradeClosed data correlationId => logger.logTradeClosed ids data correlationId

/-! ## What a call changes -/

section Changes

/-- The id a method returns was drawn by it. -/
def DrawnBetween (ids : Uuids) (first last : Nat) (id : String) : Prop :=
  ∃ n, first ≤ n ∧ n < last ∧ id = ids.text n

theorem DrawnBetween.mono {ids : Uuids} {first last first' last' : Nat} {id : String}
    (h : DrawnBetween ids first last id) (hfirst : first' ≤ first) (hlast : last ≤ last') :
    DrawnBetween ids first' last' id := by
  obtain ⟨n, hle, hlt, hid⟩ := h
  exact ⟨n, by omega, by omega, hid⟩

theorem DrawnBetween.lt {ids : Uuids} {first last : Nat} {id : String}
    (h : DrawnBetween ids first last id) : first < last := by
  obtain ⟨n, hle, hlt, -⟩ := h
  exact hle.trans_lt hlt

/-- Ids drawn at different times differ. -/
theorem DrawnBetween.ne {ids : Uuids} {first middle last : Nat} {id id' : String}
    (h : DrawnBetween ids first middle id) (h' : DrawnBetween ids middle last id') : id ≠ id' := by
  obtain ⟨n, -, hlt, rfl⟩ := h
  obtain ⟨n', hle, -, rfl⟩ := h'
  intro htext
  have hn := ids.text_inj n n' htext
  omega

variable (ids : Uuids) (logger : AuditLogger)

theorem AuditLogger.logEvent_trails (fields : EventFields) (now : Time) (written : Bool) :
    (logger.logEvent ids fields now written).1.tradeTrails = logger.tradeTrails := by
  unfold logEvent
  split <;> rfl

theorem AuditLogger.logEvent_drawn (fields : EventFields) (now : Time) (written : Bool) :
    DrawnBetween ids logger.drawn (logger.logEvent ids fields now written).1.drawn
      (logger.logEvent ids fields now written).2 := by
  unfold logEvent
  split
  · exact ⟨logger.drawn, le_rfl, Nat.lt_succ_self _, rfl⟩
  · exact ⟨logger.drawn + 1, Nat.le_succ _, Nat.lt_succ_self _, rfl⟩

omit ids in
theorem AuditLogger.fileEvent_get? (tradeId key : String) (event : AuditEvent) :
    (logger.fileEvent tradeId event).tradeTrails.get? key =
      if key = tradeId then (logger.tradeTrails.get? key).map (·.fill event)
      else logger.tradeTrails.get? key := by
  unfold fileEvent
  by_cases hkey : key = tradeId
  · subst hkey
    cases htrail : logger.tradeTrails.get? key with
    | none => simp [htrail]
    | some trail => simp
  · cases logger.tradeTrails.get? tradeId with
    | none => simp [hkey]
    | some trail => simp [hkey, Dict.get?_set]

omit ids in
theorem AuditLogger.fileEvent_drawn (tradeId : String) (event : AuditEvent) :
    (logger.fileEvent tradeId event).drawn = logger.drawn := by
  unfold fileEvent
  split <;> rfl

theorem AuditLogger.logStage_get? (data : CallData) (fields : EventFields) (key : String) :
    (logger.logStage ids data fields).1.tradeTrails.get? key =
      if key = data.tradeId then
        (logger.tradeTrails.get? key).map fun trail => trail.fill
          { fields with
            eventId := (logger.logStage ids data fields).2, timestamp := data.moment.filed }
      else logger.tradeTrails.get? key := by
  simp only [logStage, fileEvent_get?, logEvent_trails]

theorem AuditLogger.logStage_drawn (data : CallData) (fields : EventFields) :
    DrawnBetween ids logger.drawn (logger.logStage ids data fields).1.drawn
      (logger.logStage ids data fields).2 := by
  simp only [logStage, fileEvent_drawn]
  exact logEvent_drawn ids logger fields _ _

/-- The event of a call as a trail keeps it. -/
structure IsEventOf (ids : Uuids) (logger : AuditLogger) (call : Call) (event : AuditEvent) :
    Prop where
  eventType : event.eventType = call.eventType
  correlationId : event.correlationId = some (call.correlationId ids logger.drawn)
  eventId : event.eventId = (logger.perform ids call).2

/-- What a call leaves under the name of its trade: a signal gets a new trail whatever is there, any
other event is added to the trail that is there. -/
def Call.filed (event : AuditEvent) (trail : Option TradeAuditTrail) :
    Call → Option TradeAuditTrail
  | .logSignalGenerated data => some { tradeId := data.tradeId, signalGenerated := some event }
  | _ => trail.map fun t => t.fill event

theorem AuditLogger.perform_trails (call : Call) :
    ∃ event, IsEventOf ids logger call event ∧ ∀ key,
      (logger.perform ids call).1.tradeTrails.get? key =
        if key = call.data.tradeId then call.filed event (logger.tradeTrails.get? key)
        else logger.tradeTrails.get? key := by
  cases call with
  | logSignalGenerated data =>
      refine ⟨{ data.fields .signalGenerated "signal" "generate" "success" "info"
                  (ids.text logger.drawn) with
                eventId := (logger.logSignalGenerated ids data).2
                timestamp := data.moment.filed }, ⟨rfl, rfl, rfl⟩, fun key => ?_⟩
      simp only [perform, logSignalGenerated, Dict.get?_set, logEvent_trails, Call.data, Call.filed]
  | logSignalValidated data isValid correlationId =>
      exact ⟨_, ⟨rfl, rfl, rfl⟩, logStage_get? ids logger data _⟩
  | logRiskApproved data allowed correlationId =>
      exact ⟨_, ⟨rfl, rfl, rfl⟩, logStage_get? ids logger data _⟩
  | logOrderSubmitted data correlationId =>
      exact ⟨_, ⟨rfl, rfl, rfl⟩, logStage_get? ids logger data _⟩
  | logOrderFilled data correlationId =>
      have hid : (logger.logStage ids data
          (data.fields .orderFilled "order" "fill" "success" "info" correlationId)).2 =
            (logger.perform ids (.logOrderFilled data correlationId)).2 := by
        simp only [perform, logOrderFilled]
        split <;> rfl
      refine ⟨{ data.fields .orderFilled "order" "fill" "success" "info" correlationId with
                eventId := _, timestamp := data.moment.filed }, ⟨rfl, rfl, hid⟩, fun key => ?_⟩
      rw [Call.data, Call.filed, ← logStage_get?]
      · simp only [perform, logOrderFilled, logTradeExecution]
        split
        · rw [logEvent_trails]
        · rfl
      · simp
  | logPositionUpdated data correlationId =>
      exact ⟨_, ⟨rfl, rfl, rfl⟩, logStage_get? ids logger data _⟩
  | logTradeClosed data correlationId =>
      exact ⟨_, ⟨rfl, rfl, rfl⟩, logStage_get? ids logger data _⟩

theorem AuditLogger.logTradeExecution_drawn (data : CallData) (userId : String) :
    logger.drawn ≤ (logger.logTradeExecution ids data userId).drawn :=
  (logEvent_drawn ids logger _ _ _).lt.le

/-- The first id a call may return: a new signal draws its correlation id before. -/
def Call.firstDraw (drawn : Nat) : Call → Nat
  | .logSignalGenerated _ => drawn + 1
  | _ => drawn

theorem Call.le_firstDraw (drawn : Nat) (call : Call) : drawn ≤ call.firstDraw drawn := by
  unfold firstDraw
  split <;> omega

/-- The id a call returns is a new one. -/
theorem AuditLogger.perform_drawn (call : Call) :
    DrawnBetween ids (call.firstDraw logger.drawn) (logger.perform ids call).1.drawn
      (logger.perform ids call).2 := by
  cases call with
  | logSignalGenerated data =>
      exact logEvent_drawn ids { logger with drawn := logger.drawn + 1 } _ _ _
  | logSignalValidated data isValid correlationId => exact logStage_drawn ids logger data _
  | logRiskApproved data allowed correlationId => exact logStage_drawn ids logger data _
  | logOrderSubmitted data correlationId => exact logStage_drawn ids logger data _
  | logOrderFilled data correlationId =>
      have hstage := logStage_drawn ids logger data
        (data.fields .orderFilled "order" "fill" "success" "info" correlationId)
      simp only [perform, logOrderFilled]
      split
      · exact hstage.mono le_rfl (logTradeExecution_drawn ids _ data _)
      · exact hstage
  | logPositionUpdated data correlationId => exact logStage_drawn ids logger data _
  | logTradeClosed data correlationId => exact logStage_drawn ids logger data _

end Changes

end AutoTrade.Audit
