import AutoTrade.Execution.ServiceLaws

/-! # The operating mode and the live broker

`core/operating_mode.py` ranks the modes and knows which of them may reach a
live broker and which need a person's approval. `execute_order` asks
`allows_execution` alone: what `requires_manual_approval` and `can_perform_live`
answer ends in a log line, and the choice between paper and live is made later,
from the context of the call and the class of the adapter.
-/

namespace AutoTrade.Execution

open AutoTrade.Library ExecutionStateMachine ExecutionStateMachineManager

/-! ## What the mode manager knows -/

inductive ExecutionAction
  | generateSignal
  | evaluateRisk
  | submitOrder
  | cancelOrder
  | modifyPosition
  | closeAll
deriving DecidableEq, Repr

def ExecutionAction.value : ExecutionAction → String
  | .generateSignal => "GENERATE_SIGNAL"
  | .evaluateRisk => "EVALUATE_RISK"
  | .submitOrder => "SUBMIT_ORDER"
  | .cancelOrder => "CANCEL_ORDER"
  | .modifyPosition => "MODIFY_POSITION"
  | .closeAll => "CLOSE_ALL"

namespace OperatingMode

def value : OperatingMode → String
  | .signalOnly => "SIGNAL_ONLY"
  | .backtest => "BACKTEST"
  | .paper => "PAPER"
  | .shadow => "SHADOW"
  | .liveManualConfirm => "LIVE_MANUAL_CONFIRM"
  | .fullAuto => "FULL_AUTO"

/-- `_MODE_AUTHORITY`. -/
def authority : OperatingMode → Nat
  | .signalOnly => 0
  | .backtest => 1
  | .paper => 2
  | .shadow => 3
  | .liveManualConfirm => 4
  | .fullAuto => 5

/-- `_ACTION_LIVE_MIN_MODE`. -/
def actionLiveMinMode : ExecutionAction → Option OperatingMode
  | .submitOrder => some .liveManualConfirm
  | .cancelOrder => some .liveManualConfirm
  | _ => none

def canPerformLive (mode : OperatingMode) (action : ExecutionAction) : Bool × String :=
  match actionLiveMinMode action with
  | none => (true, "")
  | some minLive =>
      if mode.authority < minLive.authority then
        (false, mode.value ++ ": LIVE " ++ action.value ++ " requires at least " ++ minLive.value)
      else (true, "")

def requiresManualApproval (mode : OperatingMode) : Bool := decide (mode = .liveManualConfirm)

/-- The manager's own answers let an order reach the live broker, given whether a person has
approved it. -/
def MayReachLiveBroker (mode : OperatingMode) (approved : Bool) : Prop :=
  (mode.canPerformLive .submitOrder).1 = true ∧
    (mode.requiresManualApproval = true → approved = true)

end OperatingMode

namespace ExecutionService

variable {setup : Setup} {call : OrderCall} {s : ExecutionService}

/-! ## What the gate should keep from the broker -/

/-- A call in this mode leaves the live broker alone where the mode has no authority over it, and
where the approval it asks for was not given. -/
structure GatesLiveBroker (setup : Setup) (call : OrderCall) (s : ExecutionService)
    (mode : OperatingMode) (approved : Bool) : Prop where
  simulated : mode ∈ [.signalOnly, .backtest, .paper, .shadow] →
    (executeOrder setup call s).1.placements = s.placements
  unapproved : mode = .liveManualConfirm → approved = false →
    (executeOrder setup call s).1.placements = s.placements

/-- Nothing but the mode is in the way of `place_order`: the order is no duplicate, trading is not
halted, no machine of it is in progress, the context is not a paper one, and there is an adapter to
place it with. -/
structure ReachesLiveBroker (setup : Setup) (call : OrderCall) (s : ExecutionService) : Prop where
  notDuplicate : isDuplicateCall setup call s = false
  notHalted : call.hardHalted = false
  notInProgress : ∀ m, priorMachine setup call s = some m → m.isTerminal = true
  notPaper : (contextOf call s).executionMode ≠ .paper
  adapter : if setup.smartRouter then ∃ route, call.answers.routeToBest = .ok route ∧
      route.invoked = true
    else setup.port.hasPlaceOrder = true

/-- An attempt calls `place_order` exactly when it is not a paper one and finds an adapter. -/
theorem attemptOf_placed_iff (hport : setup.port.isPaper = false) :
    (attemptOf setup call s).placed = true ↔ (contextOf call s).executionMode ≠ .paper ∧
      (if setup.smartRouter then ∃ route, call.answers.routeToBest = .ok route ∧
        route.invoked = true
      else setup.port.hasPlaceOrder = true) := by
  unfold attemptOf attemptOrderExecution
  by_cases hpaper : (contextOf call s).executionMode = .paper
  · simp [hpaper]
  · cases hrouter : setup.smartRouter with
    | false =>
        cases hplace : setup.port.hasPlaceOrder <;> simp [hpaper, hport, attemptOfReturn]
    | true =>
        cases hroute : call.answers.routeToBest with
        | error e => simp [hpaper, hport]
        | ok route => cases hok : route.success <;> simp [hpaper, hport, hok, attemptOfReturn]

theorem placementsAfter_eq_iff :
    placementsAfter setup call s = s.placements ↔ (attemptOf setup call s).placed = false := by
  unfold placementsAfter
  cases (attemptOf setup call s).placed <;> simp

/-- A call leaves the broker alone exactly when the mode blocks it or something else is in the
way. -/
theorem placements_executeOrder_iff (hport : setup.port.isPaper = false) {mode : OperatingMode}
    (hmode : call.mode = some mode) :
    (executeOrder setup call s).1.placements = s.placements ↔
      mode.allowsExecution.1 = false ∨ ¬ ReachesLiveBroker setup call s := by
  have hblocked : blockedBy call = none ↔ mode.allowsExecution.1 = true := by
    unfold blockedBy
    rw [hmode]
    cases hallows : mode.allowsExecution.1 <;> simp [hallows]
  by_cases hattempt : Attempted setup call s
  · have hgo := (proceeds_iff setup call s).mp hattempt.2
    rw [(executeOrder_attempted hattempt).2.1, placementsAfter_eq_iff]
    constructor
    · intro hplaced
      refine .inr fun hreach => ?_
      have htrue := (attemptOf_placed_iff hport).mpr ⟨hreach.notPaper, hreach.adapter⟩
      rw [hplaced] at htrue
      cases htrue
    · intro h
      cases h with
      | inl hstop =>
          have hopen := hblocked.mp hattempt.1.1
          rw [hstop] at hopen
          cases hopen
      | inr hreach =>
          rw [Bool.eq_false_iff]
          intro hplaced
          have hroute := (attemptOf_placed_iff hport).mp hplaced
          exact hreach ⟨hattempt.1.2, hgo.1, hgo.2, hroute.1, hroute.2⟩
  · constructor
    · intro _
      cases hstop : mode.allowsExecution.1 with
      | false => exact .inl rfl
      | true =>
          refine .inr fun hreach => hattempt ⟨⟨hblocked.mpr hstop, hreach.notDuplicate⟩, ?_⟩
          exact (proceeds_iff setup call s).mpr ⟨hreach.notHalted, hreach.notInProgress⟩
    · intro _
      exact (executeOrder_not_attempted hattempt).2.1

/-- With a live adapter the mode is respected exactly when it blocks every order, may reach the
live broker, or the order is stopped for another reason. -/
theorem gatesLiveBroker_iff (setup : Setup) (call : OrderCall) (s : ExecutionService)
    (mode : OperatingMode) (approved : Bool) (hport : setup.port.isPaper = false)
    (hmode : call.mode = some mode) :
    GatesLiveBroker setup call s mode approved ↔
      mode.allowsExecution.1 = false ∨ mode.MayReachLiveBroker approved ∨
        ¬ ReachesLiveBroker setup call s := by
  have hplacements := placements_executeOrder_iff (s := s) hport hmode
  constructor
  · intro hgates
    have hor : (executeOrder setup call s).1.placements = s.placements →
        mode.allowsExecution.1 = false ∨ mode.MayReachLiveBroker approved ∨
          ¬ ReachesLiveBroker setup call s := by
      intro hsame
      cases hplacements.mp hsame with
      | inl hblock => exact .inl hblock
      | inr hstop => exact .inr (.inr hstop)
    cases mode with
    | signalOnly => exact .inl rfl
    | backtest => exact .inl rfl
    | paper => exact hor (hgates.simulated (by decide))
    | shadow => exact hor (hgates.simulated (by decide))
    | fullAuto => exact .inr (.inl ⟨rfl, fun h => by cases h⟩)
    | liveManualConfirm =>
        cases approved with
        | true => exact .inr (.inl ⟨rfl, fun _ => rfl⟩)
        | false => exact hor (hgates.unapproved rfl rfl)
  · intro h
    have hblock : (mode.allowsExecution.1 = false ∨ ¬ ReachesLiveBroker setup call s) →
        GatesLiveBroker setup call s mode approved := fun hstop =>
      ⟨fun _ => hplacements.mpr hstop, fun _ _ => hplacements.mpr hstop⟩
    rcases h with hstop | hmay | hstop
    · exact hblock (.inl hstop)
    · constructor
      · intro hsimulated
        exact absurd hmay.1 (by revert hsimulated; cases mode <;> decide)
      · intro hconfirm hno
        subst hconfirm
        rw [hmay.2 rfl] at hno
        cases hno
    · exact hblock (.inr hstop)

/-- The sample order, called in an operating mode. -/
def callInMode (mode : OperatingMode) : OrderCall :=
  { sampleCall sampleRequest .filled 50 with mode := some mode }

theorem signal_only_gates_sample : GatesLiveBroker sampleSetup (callInMode .signalOnly) freshService
    .signalOnly false :=
  (gatesLiveBroker_iff sampleSetup (callInMode .signalOnly) freshService .signalOnly false rfl
    rfl).mpr (.inl rfl)

/-- A call in shadow mode, with the default context, is sent to the live broker. -/
theorem shadow_order_placed_live :
    ¬ ∀ (setup : Setup) (call : OrderCall) (s : ExecutionService) (mode : OperatingMode)
      (approved : Bool), setup.port.isPaper = false → call.mode = some mode →
        GatesLiveBroker setup call s mode approved := by
  intro h
  have hgates := h sampleSetup (callInMode .shadow) freshService .shadow false rfl rfl
  have hsame := hgates.simulated (by decide)
  have hplaced : (executeOrder sampleSetup (callInMode .shadow) freshService).1.placements =
      [⟨"signal-1", 12 * hour, some .filled⟩] := by decide +kernel
  rw [hplaced] at hsame
  cases hsame

end ExecutionService

end AutoTrade.Execution
