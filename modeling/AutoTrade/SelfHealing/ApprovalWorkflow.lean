import AutoTrade.Library.Table
import AutoTrade.Runtime

/-! # The approval workflow of self-healing actions

`HealingApprovalWorkflow` of `core/self_healing/approval_workflow.py`. A request
for a risky action becomes a pending ticket; an operator approves or rejects it,
or it runs out. Decided tickets leave the dictionary of pending ones, an
approval leaves the text `action:component` in a set, and the pending tickets
are written to a file that a restart reads back without its timeouts.

The random part of a ticket's id is the number of the ticket. Writing the file
is taken to succeed. `decided` is not in the code: it lists the tickets that an
operator approved and those that were rejected or ran out, across restarts.
-/

namespace AutoTrade.SelfHealing

open Library (Table)

inductive ActionRiskLevel
  | low
  | medium
  | high
  | critical
deriving DecidableEq, Repr

namespace ActionRiskLevel

def value : ActionRiskLevel → String
  | .low => "LOW"
  | .medium => "MEDIUM"
  | .high => "HIGH"
  | .critical => "CRITICAL"

/-- `ActionRiskLevel(text)`, with nothing for a `ValueError`. -/
def ofText? (text : String) : Option ActionRiskLevel :=
  [low, medium, high, critical].find? fun level => level.value = text

end ActionRiskLevel

/-- `ACTION_RISK_MAP`. -/
def actionRiskMap : List (String × ActionRiskLevel) :=
  [("restart_stale_feed", .low), ("clear_hard_halt", .low), ("recycle_session", .low),
    ("disk_cleanup", .low), ("force_wal_checkpoint", .low), ("clear_stale_locks", .low),
    ("reload_config", .medium), ("reconnect_database", .medium), ("notify_operator", .medium),
    ("restart_watchdog", .medium), ("reset_circuit_breaker", .high), ("reconnect_broker", .high),
    ("run_runbook", .high)]

def riskOf (action : String) : ActionRiskLevel := (actionRiskMap.lookup action).getD .medium

/-- The `risk_level` argument of a request. -/
inductive RiskArgument
  | absent
  | level (given : ActionRiskLevel)
  | text (given : String)
deriving DecidableEq, Repr

/-- A text that names no level counts as no level given. -/
def RiskArgument.resolve (risk : RiskArgument) (action : String) : ActionRiskLevel :=
  match risk with
  | .absent => riskOf action
  | .level given => given
  | .text given => (ActionRiskLevel.ofText? given).getD (riskOf action)

inductive TicketStatus
  | pending
  | approved
  | rejected
  | expired
  | escalated
deriving DecidableEq, Repr

structure ApprovalTicket where
  id : Nat
  actionType : String
  component : String
  reason : String
  riskLevel : ActionRiskLevel
  status : TicketStatus := .pending
  requestedAt : Time
  decidedAt : Time := 0
  approvedBy : String := ""
  rejectionReason : String := ""
  timeoutSeconds : Time := 300 * second
deriving DecidableEq, Repr

namespace ApprovalTicket

def isApproved (t : ApprovalTicket) : Bool := decide (t.status = .approved)

def isExpired (t : ApprovalTicket) (now : Time) : Bool :=
  decide (t.timeoutSeconds < now - t.requestedAt)

def isFor (action component : String) (t : ApprovalTicket) : Bool :=
  decide (t.actionType = action ∧ t.component = component)

/-- A ticket of the file, rebuilt by `_load_tickets` from seven of its fields. -/
def restored (t : ApprovalTicket) : ApprovalTicket where
  id := t.id
  actionType := t.actionType
  component := t.component
  reason := t.reason
  riskLevel := t.riskLevel
  status := t.status
  requestedAt := t.requestedAt

def name (t : ApprovalTicket) : String := "app_" ++ toString t.id

end ApprovalTicket

/-- The settings that are read; `require_approval_high_risk` and the escalation timeout are not. -/
structure ApprovalConfig where
  autoApproveLowRisk : Bool := true
  autoApproveMediumRisk : Bool := true
  approvalTimeoutSeconds : Time := 300 * second
  maxPendingTickets : Int := 20
deriving DecidableEq, Repr

structure HealingApprovalWorkflow where
  config : ApprovalConfig
  pending : Table ApprovalTicket ApprovalTicket.id
  approvedActions : List String
  file : Table ApprovalTicket ApprovalTicket.id
  nextTicket : Nat
  /-- The latest decision first. -/
  decided : List ApprovalTicket

/-- The text that stands for an action on a component in `_approved_actions`. -/
def actionKey (action component : String) : String := action ++ ":" ++ component

namespace HealingApprovalWorkflow

/-- A first start, with no file yet. -/
def start (config : ApprovalConfig) : HealingApprovalWorkflow where
  config := config
  pending := .empty
  approvedActions := []
  file := .empty
  nextTicket := 0
  decided := []

variable (w : HealingApprovalWorkflow)

def pendingCount : Nat := w.pending.rows.countP fun t => decide (t.status = .pending)

def record (t : ApprovalTicket) : HealingApprovalWorkflow := { w with decided := t :: w.decided }

/-- `_save_tickets`. -/
def saveTickets : HealingApprovalWorkflow :=
  { w with file := w.pending.filter fun t => decide (t.status = .pending) }

/-- `_remove_ticket`. -/
def removeTicket (id : Nat) : HealingApprovalWorkflow :=
  { w with pending := w.pending.erase id }.saveTickets

/-- The file is not written. -/
def markExpired (id : Nat) : HealingApprovalWorkflow :=
  { w with pending := w.pending.update id (fun t => { t with status := .expired }) fun _ => rfl }

/-- The text of a ticket's pair goes into `_approved_actions`. -/
def addApproved (t : ApprovalTicket) : HealingApprovalWorkflow :=
  { w with approvedActions := actionKey t.actionType t.component :: w.approvedActions }

def autoApproves : ActionRiskLevel → Bool
  | .low => w.config.autoApproveLowRisk
  | .medium => w.config.autoApproveMediumRisk
  | .high => false
  | .critical => false

/-- `timeout_seconds or ...`: no timeout and a timeout of zero both mean the configured one. -/
def timeoutFor (timeout : Option Time) : Time :=
  match timeout with
  | some t => if t = 0 then w.config.approvalTimeoutSeconds else t
  | none => w.config.approvalTimeoutSeconds

def requestApproval (action component reason : String) (risk : RiskArgument)
    (timeout : Option Time) (now : Time) : HealingApprovalWorkflow × ApprovalTicket :=
  let level := risk.resolve action
  let numbered := { w with nextTicket := w.nextTicket + 1 }
  if w.config.maxPendingTickets ≤ w.pendingCount then
    let ticket : ApprovalTicket :=
      { id := w.nextTicket, actionType := action, component, reason, riskLevel := level,
        status := .rejected, requestedAt := now,
        rejectionReason := "Max pending tickets reached" }
    (numbered.record ticket, ticket)
  else if w.autoApproves level then
    (numbered,
      { id := w.nextTicket, actionType := action, component, reason, riskLevel := level,
        status := .approved, requestedAt := now, approvedBy := "auto", decidedAt := now,
        timeoutSeconds := w.timeoutFor timeout })
  else
    let ticket : ApprovalTicket :=
      { id := w.nextTicket, actionType := action, component, reason, riskLevel := level,
        requestedAt := now, timeoutSeconds := w.timeoutFor timeout }
    ({ numbered with pending := w.pending.upsert ticket }.saveTickets, ticket)

/-- An expired ticket is marked where it stands. -/
def approve (id : Nat) (approvedBy : String) (now : Time) : HealingApprovalWorkflow × Bool :=
  match w.pending.find? id with
  | none => (w, false)
  | some t =>
      if t.status ≠ .pending then (w, false)
      else if t.isExpired now then
        ((w.markExpired id).record { t with status := .expired }, false)
      else
        (((w.addApproved t).removeTicket id).record
          { t with status := .approved, approvedBy, decidedAt := now }, true)

def reject (id : Nat) (rejectedBy reason : String) (now : Time) : HealingApprovalWorkflow × Bool :=
  match w.pending.find? id with
  | none => (w, false)
  | some t =>
      if t.status ≠ .pending then (w, false)
      else
        ((w.removeTicket id).record
          { t with
            status := .rejected, approvedBy := rejectedBy, decidedAt := now,
            rejectionReason := if reason = "" then "Rejected without reason" else reason }, true)

def shouldExecute (action component : String) (now : Time) :
    HealingApprovalWorkflow × Bool × String :=
  match riskOf action with
  | .low => (w, true, "Auto-approved (low risk)")
  | .medium => (w, true, "Auto-approved (medium risk)")
  | risk =>
      match w.pending.rows.find? (ApprovalTicket.isFor action component) with
      | some t =>
          if t.isApproved then (w, true, "Approved by " ++ t.approvedBy)
          else if t.status = .rejected then (w, false, "Rejected: " ++ t.rejectionReason)
          else if t.isExpired now then (w, false, "Approval ticket expired")
          else (w, false, "Awaiting approval (ticket: " ++ t.name ++ ")")
      | none =>
          if actionKey action component ∈ w.approvedActions then
            (w, true, "Previously approved (cached)")
          else
            let (after, ticket) := w.requestApproval action component
              "Auto-requested during healing cycle" (.level risk) none now
            if ticket.isApproved then
              (after, true, "Auto-approved (risk level: " ++ risk.value ++ ")")
            else (after, false, "Awaiting approval (ticket: " ++ ticket.name ++ ")")

/-- The tickets that `_check_expired` finds timed out. -/
def timedOut (now : Time) (t : ApprovalTicket) : Bool :=
  decide (t.status = .pending) && t.isExpired now

/-- `_check_expired`. -/
def checkExpired (now : Time) : HealingApprovalWorkflow :=
  let expiring := w.pending.rows.filter (timedOut now)
  let after :=
    { w with
      pending := w.pending.filter fun t => !timedOut now t
      decided := (expiring.map fun t => { t with status := .expired }).reverse ++ w.decided }
  if expiring = [] then after else after.saveTickets

/-- A new instance on the same file. -/
def restart (config : ApprovalConfig) : HealingApprovalWorkflow :=
  { w with
    config
    pending := w.file.updateWhere (fun _ => true) ApprovalTicket.restored fun _ => rfl
    approvedActions := [] }

end HealingApprovalWorkflow

end AutoTrade.SelfHealing
