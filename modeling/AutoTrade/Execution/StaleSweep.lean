import AutoTrade.Execution.FillAccounting
import AutoTrade.Execution.Lifecycle

/-! # What the stale-order sweep declares dead

The sweep asks the broker to cancel a stale order and then fails its machine
whatever the broker answers: the answer is only logged. A cancel request that
raises outside the handled classes ends the walk before its machine is failed.
-/

namespace AutoTrade.Execution

open AutoTrade.Library ExecutionStateMachine ExecutionStateMachineManager

variable {σ : Type}

/-- The broker confirmed the cancellation that the sweep requested. -/
def CancelConfirmed (port : BrokerPort) (answers : LifecycleAnswers) (m : ExecutionStateMachine) :
    Prop :=
  truthy m.brokerOrderId = true ∧ port.hasCancelOrder = true ∧ answers.cancelOrder m = .ok true

/-- The sweep has a cancel request behind it, or had no way to make one. -/
inductive CancelAttempted (port : BrokerPort) (answers : LifecycleAnswers)
    (m : ExecutionStateMachine) : Prop
  | noBrokerOrder (h : truthy m.brokerOrderId = false)
  | noCancelOrder (h : port.hasCancelOrder = false)
  | answered (asked : truthy m.brokerOrderId = true ∧ port.hasCancelOrder = true) (accepted : Bool)
      (h : answers.cancelOrder m = .ok accepted)
  | raised (asked : truthy m.brokerOrderId = true ∧ port.hasCancelOrder = true) (e : PyExc)
      (handled : e.caughtBy [.valueError, .osError] = true) (h : answers.cancelOrder m = .error e)

theorem cancelAttempted_of_cancelRaises {port : BrokerPort} {answers : LifecycleAnswers}
    {m : ExecutionStateMachine} (h : cancelRaises port answers m = none) :
    CancelAttempted port answers m := by
  unfold cancelRaises at h
  cases hid : truthy m.brokerOrderId with
  | false => exact .noBrokerOrder hid
  | true =>
      cases hport : port.hasCancelOrder with
      | false => exact .noCancelOrder hport
      | true =>
          rw [if_pos ⟨hid, hport⟩] at h
          cases hanswer : answers.cancelOrder m with
          | ok accepted => exact .answered ⟨hid, hport⟩ accepted hanswer
          | error e =>
              rw [hanswer] at h
              cases he : e.caughtBy [.valueError, .osError] with
              | true => exact .raised ⟨hid, hport⟩ e he hanswer
              | false => simp [he] at h

/-! ## One machine -/

/-- Outside the failed state the sweep leaves no machine that it moved. -/
theorem recordFailure_state_cases (hooks : Hooks σ) (ts : Time) (reason : String)
    (m : ExecutionStateMachine) (s : σ) :
    (recordFailure hooks ts reason m s).machine.state = m.state ∨
      (recordFailure hooks ts reason m s).machine.state = .failed := by
  obtain ⟨state, updatedAt, hmachine, hstate⟩ :=
    tryTransitionTo_frame hooks ts .failed { m with errorMessage := some reason } s
  unfold recordFailure
  rw [hmachine]
  exact hstate

/-- What the sweep did to the machine `m`, now `m'`. -/
structure SweptSafely (now : Time) (port : BrokerPort) (answers : LifecycleAnswers) (maxStale : ℚ)
    (m m' : ExecutionStateMachine) : Prop where
  /-- Only a stale order with a cancel attempt behind it is failed. -/
  failed : m'.state = .failed → m.state ≠ .failed →
    isStale now maxStale m = true ∧ CancelAttempted port answers m
  /-- Every other machine is left as it is. -/
  untouched : ¬ (isStale now maxStale m = true ∧ CancelAttempted port answers m) → m' = m
  /-- No machine becomes retryable without having been failed. -/
  notRetryable : m.canRetry = false → m'.state ≠ .failed → m'.canRetry = false

/-- The sweep fails stale orders only, after a cancel request that was answered either way or
raised one of the handled errors, or where no request could be made; it leaves every other machine
alone. -/
theorem sweep_fails_only_after_cancel_attempt (hooks : Hooks σ) (now : Time) (port : BrokerPort)
    (answers : LifecycleAnswers) (maxStale : ℚ) (mgr : ExecutionStateMachineManager) (s : σ)
    (id : String) :
    Option.Rel (SweptSafely now port answers maxStale) (mgr.getMachine id)
      ((runStaleOrderTimeout hooks now port answers maxStale mgr s).1.manager.getMachine id) := by
  cases getMachine_runStaleOrderTimeout hooks now port answers maxStale mgr s id with
  | inl hsame =>
      rw [hsame]
      cases mgr.getMachine id with
      | none => exact .none
      | some m =>
          exact .some ⟨fun hnew hold => absurd hnew hold, fun _ => rfl, fun hlive _ => hlive⟩
  | inr hswept =>
      obtain ⟨m, r, hget, hstale, hcancel, hafter⟩ := hswept
      have hattempt := cancelAttempted_of_cancelRaises hcancel
      rw [hget, hafter]
      apply Option.Rel.some
      constructor
      · intro _ _
        exact ⟨hstale, hattempt⟩
      · intro hother
        exact absurd ⟨hstale, hattempt⟩ hother
      · intro hlive hnot
        cases recordFailure_state_cases hooks (formatTs now) (staleReason now m) m r with
        | inl hstate => rw [canRetry, hstate]; exact hlive
        | inr hstate => exact absurd hstate hnot

/-! ## The broker's answer is not waited for -/

/-- The order has no broker id and was never submitted, or the broker confirmed its cancellation. -/
def KnownDead (port : BrokerPort) (answers : LifecycleAnswers) (m : ExecutionStateMachine) : Prop :=
  (truthy m.brokerOrderId = false ∧ m.submittedAt = none) ∨ CancelConfirmed port answers m

/-- Only orders known to be dead are failed; any other machine is not retryable afterwards. -/
def DeclaresOnlyDeadOrders (port : BrokerPort) (answers : LifecycleAnswers)
    (m m' : ExecutionStateMachine) : Prop :=
  (m'.state = .failed → m.state ≠ .failed → KnownDead port answers m) ∧
    (¬ KnownDead port answers m → m'.canRetry = false)

/-- A broker that declines every cancel request, as it does for an order already executed. -/
def decliningCancel : LifecycleAnswers where
  cancelOrder _ := .ok false
  getOrderStatus _ := .ok none

/-- An order the broker accepted at time 0. -/
def submittedMachine : ExecutionStateMachine :=
  { intentId := "signal-1", clientOrderId := "OPB-signal-1", symbol := "NIFTY", quantity := 50
    price := 22500, direction := "BUY", state := .submitted, brokerOrderId := some "B-7"
    createdAt := 0, updatedAt := 0, submittedAt := some 0 }

/-- Ten minutes later the sweep fails the order although the broker declined to cancel it, and
leaves it retryable. -/
theorem sweep_fails_uncancelled_order :
    ¬ ∀ (hooks : Hooks Unit) (now : Time) (port : BrokerPort) (answers : LifecycleAnswers)
      (maxStale : ℚ) (mgr : ExecutionStateMachineManager) (id : String),
      Option.Rel (DeclaresOnlyDeadOrders port answers) (mgr.getMachine id)
        ((runStaleOrderTimeout hooks now port answers maxStale mgr ()).1.manager.getMachine id) := by
  intro h
  have hrel := h quietHooks (600 * second) {} decliningCancel 300
    { machines := Dict.set Table.empty "OPB-signal-1" submittedMachine } "OPB-signal-1"
  have hafter : (runStaleOrderTimeout quietHooks (600 * second) {} decliningCancel 300
      { machines := Dict.set Table.empty "OPB-signal-1" submittedMachine }
      ()).1.manager.getMachine "OPB-signal-1" =
        some { submittedMachine with
          state := .failed
          errorMessage := some "Stale order timeout (600s in SUBMITTED)"
          updatedAt := 600 * second } := by decide +kernel
  rw [hafter] at hrel
  cases hrel with
  | some hdead =>
      have hknown := hdead.1 rfl (by decide)
      cases hknown with
      | inl hnever => exact absurd hnever.1 (by decide)
      | inr hconfirmed => cases hconfirmed.2.2

end AutoTrade.Execution
