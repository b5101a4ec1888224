import AutoTrade.Library.Table
import AutoTrade.Library.Run
import AutoTrade.Runtime

/-! # Strategy governance

`StrategyApprovalWorkflow` of `core/strategy/approval_workflow.py`. The
governance state of a strategy is kept nowhere: it is read off the list of
requests, which is ordered by the time of the request and cut at a thousand
entries. The list is held here with the newest request first, the order in
which the code walks through it. The instant in `requested_at` is the one its
text spells, and the values of the evidence are of any type, since only its keys
are looked at.
-/

namespace AutoTrade.Strategy

open AutoTrade.Library

inductive TransitionType
  | initialization
  | paperStart
  | promoteToLive
  | demoteToPaper
  | deprecate
  | reactivate
  | block
deriving DecidableEq, Repr

def TransitionType.value : TransitionType → String
  | .initialization => "INITIALIZE"
  | .paperStart => "PAPER_START"
  | .promoteToLive => "PROMOTE_TO_LIVE"
  | .demoteToPaper => "DEMOTE_TO_PAPER"
  | .deprecate => "DEPRECATE"
  | .reactivate => "REACTIVATE"
  | .block => "BLOCK"

inductive ApprovalStatus
  | pending
  | approved
  | rejected
  | expired
deriving DecidableEq, Repr

structure TransitionRequest (ε : Type) where
  strategyName : String
  fromState : String
  toState : String
  requestedBy : String := ""
  evidence : Dict String ε := Table.empty
  status : ApprovalStatus := .pending
  requestedAt : Time
  approvedBy : String := ""
  approvedAt : Option Time := none
  rejectionReason : String := ""
  approvalCount : Int := 0

structure ApprovalRule where
  transitionType : String
  minEvidence : Int := 0
  requiredEvidenceKeys : List String := []
  requiredApprovalCount : Int := 1
deriving DecidableEq, Repr

/-- The entry of `DEFAULT_APPROVAL_RULES` for a type of transition. -/
def TransitionType.rule (type : TransitionType) : ApprovalRule :=
  match type with
  | .initialization => { transitionType := type.value }
  | .paperStart =>
      { transitionType := type.value, minEvidence := 1
        requiredEvidenceKeys := ["config_validated"] }
  | .promoteToLive =>
      { transitionType := type.value, minEvidence := 3
        requiredEvidenceKeys := ["backtest_sharpe", "paper_trades", "paper_win_rate"]
        requiredApprovalCount := 2 }
  | .demoteToPaper =>
      { transitionType := type.value, minEvidence := 1
        requiredEvidenceKeys := ["reason_for_demotion"] }
  | .deprecate =>
      { transitionType := type.value, minEvidence := 1
        requiredEvidenceKeys := ["deprecation_reason"] }
  | .reactivate =>
      { transitionType := type.value, minEvidence := 2
        requiredEvidenceKeys := ["updated_config", "retest_results"] }
  | .block =>
      { transitionType := type.value, minEvidence := 1, requiredEvidenceKeys := ["block_reason"] }

/-- `DEFAULT_APPROVAL_RULES`. -/
def defaultApprovalRules : Dict String ApprovalRule :=
  ⟨[TransitionType.initialization, .paperStart, .promoteToLive, .demoteToPaper, .deprecate,
    .reactivate, .block].map fun type => (type.value, type.rule), by decide⟩

/-- `_max_requests`. -/
def maxRequests : Nat := 1000

structure StrategyApprovalWorkflow (ε : Type) where
  rules : Dict String ApprovalRule := defaultApprovalRules
  /-- `_requests`, the newest first. -/
  requests : List (TransitionRequest ε) := []

/-! ## What the helpers decide -/

/-- `valid_transitions` of `_validate_transition`. -/
def validTransitions (fromState : String) : List String :=
  if fromState = "INITIALIZED" then ["PAPER_ONLY", "DONT_RUN", "DEPRECATED"]
  else if fromState = "PAPER_ONLY" then ["LIVE_APPROVED", "DONT_RUN", "DEPRECATED"]
  else if fromState = "LIVE_APPROVED" then ["PAPER_ONLY", "DONT_RUN", "DEPRECATED"]
  else if fromState = "DONT_RUN" then ["PAPER_ONLY", "DEPRECATED"]
  else if fromState = "DEPRECATED" then ["PAPER_ONLY"]
  else []

/-- The message of `_validate_transition` where it refuses. -/
def validateTransition (fromState toState : String) : Option String :=
  if toState ∈ validTransitions fromState then none
  else some ("Transition " ++ fromState ++ " -> " ++ toState ++ " not allowed. Allowed from " ++
    fromState ++ ": " ++ ", ".intercalate (validTransitions fromState))

def getTransitionType (fromState toState : String) : String :=
  if toState ∈ ["DONT_RUN", "DEPRECATED"] then toState
  else if fromState = "INITIALIZED" ∧ toState = "PAPER_ONLY" then TransitionType.paperStart.value
  else if toState = "LIVE_APPROVED" then TransitionType.promoteToLive.value
  else if fromState = "LIVE_APPROVED" ∧ toState = "PAPER_ONLY" then
    TransitionType.demoteToPaper.value
  else TransitionType.initialization.value

/-- The rule for a transition. The defaults of `request_transition` and `approve_transition` for a
type without a rule differ in the name of the type only. -/
def ruleFor (rules : Dict String ApprovalRule) (fromState toState : String) : ApprovalRule :=
  (rules.get? (getTransitionType fromState toState)).getD
    { transitionType := getTransitionType fromState toState }

/-- The message of `_validate_evidence` where it refuses. -/
def validateEvidence {ε : Type} (evidence : Dict String ε) (rule : ApprovalRule) : Option String :=
  if (evidence.size : Int) < rule.minEvidence then
    some ("Need at least " ++ toString rule.minEvidence ++ " evidence items, got " ++
      toString evidence.size)
  else
    (rule.requiredEvidenceKeys.find? fun key => !evidence.contains key).map fun key =>
      "Missing required evidence: " ++ key

/-- The walk of `_get_current_state` over the requests, the newest first, with the state it has to
fall back on so far. -/
def currentState {ε : Type} (strategy : String) :
    String → List (TransitionRequest ε) → String
  | lastFromState, [] => lastFromState
  | lastFromState, request :: older =>
      if request.strategyName = strategy then
        if request.status = .approved then request.toState
        else currentState strategy request.fromState older
      else currentState strategy lastFromState older

/-- Apply `f` to the first element that satisfies `p`. -/
def updateFirst {α : Type} (p : α → Bool) (f : α → α) : List α → List α
  | [] => []
  | x :: rest => if p x then f x :: rest else x :: updateFirst p f rest

/-- The list after a new request is appended; beyond the limit the oldest is popped. -/
def remember {α : Type} (request : α) (requests : List α) : List α :=
  if requests.length + 1 > maxRequests then (request :: requests).dropLast else request :: requests

namespace StrategyApprovalWorkflow

variable {ε : Type}

/-- `StrategyApprovalWorkflow(rules)`: an empty dictionary counts as none given. -/
def new (rules : Option (Dict String ApprovalRule)) : StrategyApprovalWorkflow ε :=
  match rules with
  | none => {}
  | some given => if given.rows = [] then {} else { rules := given }

def getCurrentState (w : StrategyApprovalWorkflow ε) (strategy : String) : String :=
  currentState strategy "INITIALIZED" w.requests

/-! ## The calls -/

/-- Why `request_transition` refuses, if it does. -/
def refusal (w : StrategyApprovalWorkflow ε) (strategy toState : String)
    (evidence : Dict String ε) : Option String :=
  (validateTransition (w.getCurrentState strategy) toState).or
    (validateEvidence evidence (ruleFor w.rules (w.getCurrentState strategy) toState))

def newRequest (w : StrategyApprovalWorkflow ε) (now : Time) (strategy toState requestedBy : String)
    (evidence : Dict String ε) : TransitionRequest ε :=
  { strategyName := strategy, fromState := w.getCurrentState strategy, toState, requestedBy
    evidence, requestedAt := now }

/-- The answer of `request_transition` and the workflow after it; the parts of the request id
`strategy:to_state:ts` are kept apart. -/
def requestTransition (w : StrategyApprovalWorkflow ε) (now : Time)
    (strategy toState requestedBy : String) (evidence : Dict String ε) :
    (Bool × String × Option (String × String × Time)) × StrategyApprovalWorkflow ε :=
  match w.refusal strategy toState evidence with
  | some message => ((false, message, none), w)
  | none =>
      ((true, "Request created: " ++ strategy ++ " -> " ++ toState, some (strategy, toState, now)),
        { w with
          requests := remember (w.newRequest now strategy toState requestedBy evidence) w.requests })

/-- What `approve_transition` and `reject_transition` look for. -/
def isPending (strategy toState : String) (request : TransitionRequest ε) : Bool :=
  decide (request.strategyName = strategy ∧ request.toState = toState ∧ request.status = .pending)

/-- The newest pending request of the strategy to the state. -/
def pendingRequest (w : StrategyApprovalWorkflow ε) (strategy toState : String) :
    Option (TransitionRequest ε) :=
  w.requests.find? (isPending strategy toState)

/-- The request after one more approval was counted, where its rule asks for several. -/
def countApproval (w : StrategyApprovalWorkflow ε) (request : TransitionRequest ε) :
    TransitionRequest ε :=
  if (ruleFor w.rules request.fromState request.toState).requiredApprovalCount > 1 then
    { request with approvalCount := request.approvalCount + 1 }
  else request

/-- The approval is the last one the rule asks for. -/
def Completes (w : StrategyApprovalWorkflow ε) (request : TransitionRequest ε) : Prop :=
  (ruleFor w.rules request.fromState request.toState).requiredApprovalCount ≤ 1 ∨
    (ruleFor w.rules request.fromState request.toState).requiredApprovalCount ≤
      request.approvalCount + 1

instance (w : StrategyApprovalWorkflow ε) (request : TransitionRequest ε) :
    Decidable (w.Completes request) := inferInstanceAs (Decidable (_ ∨ _))

def approve (w : StrategyApprovalWorkflow ε) (now : Time) (approvedBy : String)
    (request : TransitionRequest ε) : TransitionRequest ε :=
  if w.Completes request then
    { w.countApproval request with status := .approved, approvedBy, approvedAt := some now }
  else w.countApproval request

def approvalMessage (w : StrategyApprovalWorkflow ε) (request : TransitionRequest ε) : String :=
  if w.Completes request then
    "Approved: " ++ request.strategyName ++ " -> " ++ request.toState
  else
    "Partial approval recorded (need " ++
      toString ((ruleFor w.rules request.fromState request.toState).requiredApprovalCount -
        (request.approvalCount + 1)) ++ " more)"

def approveTransition (w : StrategyApprovalWorkflow ε) (now : Time)
    (strategy toState approvedBy : String) : (Bool × String) × StrategyApprovalWorkflow ε :=
  match w.pendingRequest strategy toState with
  | some request =>
      ((true, w.approvalMessage request),
        { w with
          requests := updateFirst (isPending strategy toState) (w.approve now approvedBy) w.requests })
  | none => ((false, "No pending request found for " ++ strategy ++ " -> " ++ toState), w)

def rejectTransition (w : StrategyApprovalWorkflow ε) (strategy toState reason : String) :
    (Bool × String) × StrategyApprovalWorkflow ε :=
  match w.pendingRequest strategy toState with
  | some _ =>
      ((true, "Rejected: " ++ strategy ++ " -> " ++ toState),
        { w with
          requests := updateFirst (isPending strategy toState)
            (fun request => { request with status := .rejected, rejectionReason := reason })
            w.requests })
  | none => ((false, "No pending request found for " ++ strategy ++ " -> " ++ toState), w)

/-- A pending request that is older than the limit. -/
def outdated (now : Time) (maxAgeHours : Int) (request : TransitionRequest ε) : Bool :=
  decide (request.status = .pending ∧ now - request.requestedAt > maxAgeHours * hour)

/-- The number of requests that expired and the workflow after it. -/
def expireOldRequests (w : StrategyApprovalWorkflow ε) (now : Time) (maxAgeHours : Int) :
    Nat × StrategyApprovalWorkflow ε :=
  (w.requests.countP (outdated now maxAgeHours),
    { w with
      requests := w.requests.map fun request =>
        if outdated now maxAgeHours request then { request with status := .expired }
        else request })

inductive Call (ε : Type)
  | requestTransition (now : Time) (strategy toState requestedBy : String)
      (evidence : Dict String ε)
  | approveTransition (now : Time) (strategy toState approvedBy : String)
  | rejectTransition (strategy toState reason : String)
  | expireOldRequests (now : Time) (maxAgeHours : Int)

def step (w : StrategyApprovalWorkflow ε) : Call ε → StrategyApprovalWorkflow ε
  | .requestTransition now strategy toState requestedBy evidence =>
      (w.requestTransition now strategy toState requestedBy evidence).2
  | .approveTransition now strategy toState approvedBy =>
      (w.approveTransition now strategy toState approvedBy).2
  | .rejectTransition strategy toState reason => (w.rejectTransition strategy toState reason).2
  | .expireOldRequests now maxAgeHours => (w.expireOldRequests now maxAgeHours).2

end StrategyApprovalWorkflow

end AutoTrade.Strategy
