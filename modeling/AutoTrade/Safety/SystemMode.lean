import AutoTrade.Library.Run
import AutoTrade.Runtime

/-! # The system mode manager

One mode variable decides whether new trades may be entered. Broker failures
are counted up to a configured threshold, a broker success is acted on in
`BROKER_DOWN` only, and the market flag is stored beside the mode. The callback
is told of each change of mode; what it raises is logged and dropped.
-/

namespace AutoTrade.Safety

open AutoTrade.Library

inductive SystemMode
  | normal
  | degraded
  | brokerDown
  | marketHalted
  | safeMode
deriving DecidableEq, Repr

inductive SystemModeReason
  | startup
  | brokerConnected
  | brokerUnreachable
  | apiError
  | marketClosed
  | marketHoliday
  | hardHalt
  | manualIntervention
  | consecutiveLosses
  | dailyLossLimit
  | reconciliationFailed
  | unknown
deriving DecidableEq, Repr

structure SystemState where
  mode : SystemMode := .normal
  reason : SystemModeReason := .startup
  reasonDetail : String := ""
  enteredAt : Time
  lastTransition : Time
  consecutiveFailures : Nat := 0
  brokerReachable : Bool := true
  marketOpen : Bool := true
deriving DecidableEq, Repr

structure SystemModeManager where
  state : SystemState
  brokerFailureThreshold : Int
  /-- The calls of the mode-change callback, the oldest first. -/
  notified : List (SystemMode × SystemMode × String) := []
deriving DecidableEq, Repr

namespace SystemModeManager

/-- A manager as it is built; `BROKER_FAILURE_THRESHOLD` is 3 where the config has no value. -/
def new (brokerFailureThreshold : Option Int) (now : Time) : SystemModeManager where
  state := { enteredAt := now, lastTransition := now }
  brokerFailureThreshold := brokerFailureThreshold.getD 3

def canEnterNewTrade (m : SystemModeManager) : Bool × String :=
  match m.state.mode with
  | .normal => (true, "")
  | .degraded => (false, "System in DEGRADED mode: " ++ m.state.reasonDetail)
  | .brokerDown => (false, "Broker unreachable: " ++ m.state.reasonDetail)
  | .marketHalted => (false, "Market closed/halted: " ++ m.state.reasonDetail)
  | .safeMode => (false, "SAFE_MODE active: " ++ m.state.reasonDetail)

def transitionTo (now : Time) (newMode : SystemMode) (reason : SystemModeReason) (detail : String)
    (m : SystemModeManager) : SystemModeManager :=
  if m.state.mode = newMode then
    -- the same mode: the reason, the time and the failure counter stay
    { m with state := { m.state with reasonDetail := detail } }
  else
    { m with
      state := { m.state with
        mode := newMode
        reason := reason
        reasonDetail := detail
        lastTransition := now
        consecutiveFailures := if newMode = .normal then 0 else m.state.consecutiveFailures }
      notified := m.notified ++ [(m.state.mode, newMode, detail)] }

def setNormal (now : Time) (reason : String) (m : SystemModeManager) : SystemModeManager :=
  m.transitionTo now .normal .brokerConnected (orElse (some reason) "Broker connected")

def setDegraded (now : Time) (reason : String) (m : SystemModeManager) : SystemModeManager :=
  m.transitionTo now .degraded .apiError (orElse (some reason) "Partial API failure")

def setBrokerDown (now : Time) (reason : String) (m : SystemModeManager) : SystemModeManager :=
  let failures := m.state.consecutiveFailures + 1
  let counted := { m with state := { m.state with consecutiveFailures := failures } }
  if m.brokerFailureThreshold ≤ failures then
    counted.transitionTo now .brokerDown .brokerUnreachable
      (orElse (some reason) ("Broker unreachable after " ++ toString failures ++ " failures"))
  else
    counted

def setMarketHalted (now : Time) (reason : String) (m : SystemModeManager) : SystemModeManager :=
  m.transitionTo now .marketHalted .marketClosed (orElse (some reason) "Market closed or halted")

def setSafeMode (now : Time) (reason : String) (fromHardHalt : Bool) (m : SystemModeManager) :
    SystemModeManager :=
  if fromHardHalt then
    m.transitionTo now .safeMode .hardHalt (orElse (some reason) "Hard halt triggered")
  else
    m.transitionTo now .safeMode .manualIntervention
      (orElse (some reason) "Manual safe mode intervention")

def recordBrokerSuccess (now : Time) (m : SystemModeManager) : SystemModeManager :=
  if m.state.mode = .brokerDown then
    { m with state := { m.state with consecutiveFailures := 0, brokerReachable := true } }.transitionTo
      now .normal .brokerConnected "Broker restored"
  else
    m

def recordBrokerFailure (now : Time) (m : SystemModeManager) : SystemModeManager :=
  { m with state := { m.state with brokerReachable := false } }.setBrokerDown now ""

def checkMarketStatus (now : Time) (isOpen : Bool) (m : SystemModeManager) : SystemModeManager :=
  let told := { m with state := { m.state with marketOpen := isOpen } }
  if isOpen = false ∧ m.state.mode = .normal then
    told.transitionTo now .marketHalted .marketClosed "Market closed"
  else
    told

end SystemModeManager

/-- The operations that may change a manager. -/
inductive ModeOp
  | setNormal (reason : String)
  | setDegraded (reason : String)
  | setBrokerDown (reason : String)
  | setMarketHalted (reason : String)
  | setSafeMode (reason : String) (fromHardHalt : Bool)
  | recordBrokerSuccess
  | recordBrokerFailure
  | checkMarketStatus (isOpen : Bool)
deriving DecidableEq, Repr

/-- An operation together with the time at which it is called. -/
structure ModeCall where
  now : Time
  op : ModeOp
deriving DecidableEq, Repr

/-- Someone decided that trading is normal again. -/
def ModeOp.IsSetNormal : ModeOp → Prop
  | .setNormal _ => True
  | _ => False

instance : DecidablePred ModeOp.IsSetNormal
  | .setNormal _ => .isTrue trivial
  | .setDegraded _ | .setBrokerDown _ | .setMarketHalted _ | .setSafeMode _ _
  | .recordBrokerSuccess | .recordBrokerFailure | .checkMarketStatus _ => .isFalse id

/-- `record_broker_failure` reports a failure through `set_broker_down`. -/
def ModeOp.isFailure : ModeOp → Bool
  | .setBrokerDown _ => true
  | .recordBrokerFailure => true
  | _ => false

namespace SystemModeManager

def step (m : SystemModeManager) (call : ModeCall) : SystemModeManager :=
  match call.op with
  | .setNormal reason => m.setNormal call.now reason
  | .setDegraded reason => m.setDegraded call.now reason
  | .setBrokerDown reason => m.setBrokerDown call.now reason
  | .setMarketHalted reason => m.setMarketHalted call.now reason
  | .setSafeMode reason fromHardHalt => m.setSafeMode call.now reason fromHardHalt
  | .recordBrokerSuccess => m.recordBrokerSuccess call.now
  | .recordBrokerFailure => m.recordBrokerFailure call.now
  | .checkMarketStatus isOpen => m.checkMarketStatus call.now isOpen

end SystemModeManager

/-! ## The mode without its texts and times

What the later operations depend on is the mode, the failure counter and the
market flag. The manager refines the small machine on these three.
-/

structure ModeView where
  mode : SystemMode
  failures : Nat
  marketOpen : Bool
deriving DecidableEq, Repr

namespace ModeView

/-- Arriving in the normal mode from another one forgets the failures. -/
def enter (v : ModeView) (mode : SystemMode) : ModeView where
  mode := mode
  failures := if mode = .normal ∧ v.mode ≠ .normal then 0 else v.failures
  marketOpen := v.marketOpen

def fail (threshold : Int) (v : ModeView) : ModeView where
  mode := if threshold ≤ (v.failures + 1 : Nat) then .brokerDown else v.mode
  failures := v.failures + 1
  marketOpen := v.marketOpen

def step (threshold : Int) (v : ModeView) : ModeOp → ModeView
  | .setNormal _ => v.enter .normal
  | .setDegraded _ => v.enter .degraded
  | .setBrokerDown _ => v.fail threshold
  | .setMarketHalted _ => v.enter .marketHalted
  | .setSafeMode _ _ => v.enter .safeMode
  | .recordBrokerSuccess => if v.mode = .brokerDown then v.enter .normal else v
  | .recordBrokerFailure => v.fail threshold
  | .checkMarketStatus isOpen =>
      { v with
        mode := if isOpen = false ∧ v.mode = .normal then .marketHalted else v.mode
        marketOpen := isOpen }

end ModeView

namespace SystemModeManager

def view (m : SystemModeManager) : ModeView where
  mode := m.state.mode
  failures := m.state.consecutiveFailures
  marketOpen := m.state.marketOpen

theorem view_transitionTo (now : Time) (newMode : SystemMode) (reason : SystemModeReason)
    (detail : String) (m : SystemModeManager) :
    (m.transitionTo now newMode reason detail).view = m.view.enter newMode := by
  unfold transitionTo
  by_cases h : m.state.mode = newMode
  · simp [h, view, ModeView.enter]
  · simp only [if_neg h, view, ModeView.enter, ModeView.mk.injEq, true_and, and_true]
    grind

theorem view_setBrokerDown (now : Time) (reason : String) (m : SystemModeManager) :
    (m.setBrokerDown now reason).view = m.view.fail m.brokerFailureThreshold := by
  unfold setBrokerDown
  by_cases h : m.brokerFailureThreshold ≤ (m.state.consecutiveFailures + 1 : Nat)
  · simp only [if_pos h, view_transitionTo]
    unfold ModeView.fail view
    rw [if_pos h]
    simp [ModeView.enter]
  · simp only [if_neg h]
    unfold ModeView.fail view
    rw [if_neg h]

theorem view_step (m : SystemModeManager) (call : ModeCall) :
    (m.step call).view = m.view.step m.brokerFailureThreshold call.op := by
  cases hop : call.op with
  | setNormal reason => simp [step, hop, setNormal, view_transitionTo, ModeView.step]
  | setDegraded reason => simp [step, hop, setDegraded, view_transitionTo, ModeView.step]
  | setBrokerDown reason => simp [step, hop, view_setBrokerDown, ModeView.step]
  | setMarketHalted reason => simp [step, hop, setMarketHalted, view_transitionTo, ModeView.step]
  | setSafeMode reason fromHardHalt =>
      cases fromHardHalt <;> simp [step, hop, setSafeMode, view_transitionTo, ModeView.step]
  | recordBrokerSuccess =>
      by_cases h : m.state.mode = .brokerDown
      · simp only [step, hop, recordBrokerSuccess, if_pos h, view_transitionTo]
        simp [ModeView.step, ModeView.enter, view, h]
      · simp [step, hop, recordBrokerSuccess, ModeView.step, h, view]
  | recordBrokerFailure =>
      simp only [step, hop, recordBrokerFailure, view_setBrokerDown, ModeView.step]
      rfl
  | checkMarketStatus isOpen =>
      by_cases h : isOpen = false ∧ m.state.mode = .normal
      · simp only [step, hop, checkMarketStatus, if_pos h, view_transitionTo]
        simp [ModeView.step, ModeView.enter, view, h]
      · simp [step, hop, checkMarketStatus, h, ModeView.step, view]

theorem threshold_step (m : SystemModeManager) (call : ModeCall) :
    (m.step call).brokerFailureThreshold = m.brokerFailureThreshold := by
  have htransition : ∀ now newMode reason detail (m : SystemModeManager),
      (m.transitionTo now newMode reason detail).brokerFailureThreshold =
        m.brokerFailureThreshold := by
    intro now newMode reason detail m
    unfold transitionTo
    split <;> rfl
  cases hop : call.op <;>
    simp only [step, hop, setNormal, setDegraded, setBrokerDown, setMarketHalted, setSafeMode,
      recordBrokerSuccess, recordBrokerFailure, checkMarketStatus] <;>
    (try split) <;> simp only [htransition]

theorem canEnterNewTrade_iff (m : SystemModeManager) :
    m.canEnterNewTrade.1 = true ↔ m.view.mode = .normal := by
  unfold canEnterNewTrade view
  cases m.state.mode <;> simp

end SystemModeManager

end AutoTrade.Safety
