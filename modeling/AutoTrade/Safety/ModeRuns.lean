import AutoTrade.Safety.SystemMode

/-! # Which runs of the mode manager allow entries

`SAFE_MODE` is left by any event that names another mode, and a broker success
leads from `BROKER_DOWN` back to the normal mode whatever came before it. The
failure counter survives a success recorded in any other mode.
-/

namespace AutoTrade.Safety

open AutoTrade.Library SystemModeManager

/-! ## Leaving the safe mode -/

/-- A broker success that is recorded while the broker counts as down. -/
def RestoresBroker (m : SystemModeManager) (call : ModeCall) : Prop :=
  call.op = .recordBrokerSuccess ∧ m.state.mode = .brokerDown

instance (m : SystemModeManager) (call : ModeCall) : Decidable (RestoresBroker m call) :=
  inferInstanceAs (Decidable (_ ∧ _))

/-- The only way into the normal mode, besides `set_normal`, is a restored broker. -/
theorem ModeView.step_mode_normal_iff (threshold : Int) (v : ModeView) (op : ModeOp)
    (notNormal : v.mode ≠ .normal) (auto : ¬ op.IsSetNormal) :
    (v.step threshold op).mode = .normal ↔ op = .recordBrokerSuccess ∧ v.mode = .brokerDown := by
  cases op with
  | setNormal reason => exact absurd trivial auto
  | setDegraded reason => simp [ModeView.step, ModeView.enter]
  | setBrokerDown reason =>
      simp only [ModeView.step, ModeView.fail]
      split <;> simp [notNormal]
  | setMarketHalted reason => simp [ModeView.step, ModeView.enter]
  | setSafeMode reason fromHardHalt => simp [ModeView.step, ModeView.enter]
  | recordBrokerSuccess =>
      by_cases h : v.mode = .brokerDown
      · simp [ModeView.step, ModeView.enter, h]
      · simp [ModeView.step, h, notNormal]
  | recordBrokerFailure =>
      simp only [ModeView.step, ModeView.fail]
      split <;> simp [notNormal]
  | checkMarketStatus isOpen => simp [ModeView.step, notNormal]

theorem canEnterNewTrade_false_iff (m : SystemModeManager) :
    m.canEnterNewTrade.1 = false ↔ m.view.mode ≠ .normal := by
  rw [← Bool.not_eq_true, canEnterNewTrade_iff]

theorem step_keeps_entries_closed_iff (m : SystemModeManager) (call : ModeCall)
    (auto : ¬ call.op.IsSetNormal) (closed : m.canEnterNewTrade.1 = false) :
    (m.step call).canEnterNewTrade.1 = false ↔ ¬ RestoresBroker m call := by
  rw [canEnterNewTrade_false_iff] at closed ⊢
  rw [view_step]
  exact not_congr (ModeView.step_mode_normal_iff _ _ _ closed auto)

theorem setSafeMode_closes_entries (now : Time) (reason : String) (fromHardHalt : Bool)
    (m : SystemModeManager) :
    (m.setSafeMode now reason fromHardHalt).canEnterNewTrade.1 = false := by
  rw [canEnterNewTrade_false_iff]
  have hview := view_step m ⟨now, .setSafeMode reason fromHardHalt⟩
  simp only [SystemModeManager.step] at hview
  rw [hview]
  simp [ModeView.step, ModeView.enter]

theorem setNormal_opens_entries (now : Time) (reason : String) (m : SystemModeManager) :
    (m.setNormal now reason).canEnterNewTrade.1 = true := by
  rw [canEnterNewTrade_iff]
  have hview := view_step m ⟨now, .setNormal reason⟩
  simp only [SystemModeManager.step] at hview
  rw [hview]
  simp [ModeView.step, ModeView.enter]

/-- After `set_safe_mode`, in any state it was called in, entries stay closed without a `set_normal`
exactly as long as no broker success arrives in `BROKER_DOWN`; a `set_normal` opens them. -/
theorem safe_mode_sticky_iff (threshold : Option Int) (start : Time) (before : List ModeCall)
    (now : Time) (reason : String) (fromHardHalt : Bool) (after : List ModeCall)
    (auto : ∀ call ∈ after, ¬ call.op.IsSetNormal) :
    let safe := (run step (new threshold start) before).setSafeMode now reason fromHardHalt
    (Always step (fun m => m.canEnterNewTrade.1 = false) safe after ↔
        StepsMeet step (fun m call => ¬ RestoresBroker m call) safe after) ∧
      ∀ later explanation,
        ((run step safe after).setNormal later explanation).canEnterNewTrade.1 = true := by
  intro safe
  constructor
  · apply always_iff_stepsMeet
    · intro m call hcall hclosed
      exact step_keeps_entries_closed_iff m call (auto call hcall) hclosed
    · exact setSafeMode_closes_entries now reason fromHardHalt _
  · intro later explanation
    exact setNormal_opens_entries later explanation _

/-- Three failures, none of them answered by a success. -/
def threeFailures : List ModeCall :=
  [⟨1, .recordBrokerFailure⟩, ⟨2, .recordBrokerFailure⟩, ⟨3, .recordBrokerFailure⟩]

theorem safe_mode_sticky_through_failures :
    (∀ call ∈ threeFailures, ¬ call.op.IsSetNormal) ∧
      Always step (fun m => m.canEnterNewTrade.1 = false)
        ((run step (new none 0) []).setSafeMode 0 "drawdown" false) threeFailures := by
  have hauto : ∀ call ∈ threeFailures, ¬ call.op.IsSetNormal := by decide
  refine ⟨hauto, ?_⟩
  apply (safe_mode_sticky_iff none 0 [] 0 "drawdown" false threeFailures hauto).1.mpr
  decide

/-- The broker fails three times and answers once: the safe mode is gone. -/
theorem safe_mode_left_by_broker_success :
    ¬ Always step (fun m => m.canEnterNewTrade.1 = false)
      ((run step (new none 0) []).setSafeMode 0 "drawdown" false)
      (threeFailures ++ [⟨4, .recordBrokerSuccess⟩]) := by
  intro always
  exact absurd always.final (by decide)

/-! ## What open entries say about the market and the broker -/

/-- A manager together with the failures reported since the last success. -/
structure Observed where
  manager : SystemModeManager
  failuresSince : Nat
deriving DecidableEq, Repr

namespace Observed

def new (threshold : Option Int) (start : Time) : Observed where
  manager := SystemModeManager.new threshold start
  failuresSince := 0

def step (o : Observed) (call : ModeCall) : Observed where
  manager := o.manager.step call
  failuresSince :=
    if call.op = .recordBrokerSuccess then 0
    else if call.op.isFailure then o.failuresSince + 1
    else o.failuresSince

end Observed

/-- Entries are open only in an open market with a broker believed reachable, and the broker counts
as down only after enough failures in a row. -/
structure EntriesJustified (o : Observed) : Prop where
  market : o.manager.canEnterNewTrade.1 = true → o.manager.state.marketOpen = true
  broker : o.manager.canEnterNewTrade.1 = true →
    (o.failuresSince : Int) < o.manager.brokerFailureThreshold
  down : o.manager.state.mode = .brokerDown →
    o.manager.brokerFailureThreshold ≤ o.failuresSince

/-- A success finds the market open where it restores the broker, and nothing to forget elsewhere. -/
def SuccessIsHeard (o : Observed) (call : ModeCall) : Prop :=
  call.op = .recordBrokerSuccess →
    if o.manager.state.mode = .brokerDown then o.manager.state.marketOpen = true
    else o.manager.state.consecutiveFailures = 0

instance (o : Observed) (call : ModeCall) : Decidable (SuccessIsHeard o call) :=
  inferInstanceAs (Decidable (_ → _))

/-- The counter is the failures since the last success, and both modes that depend on it agree. -/
structure CounterTrue (threshold : Int) (v : ModeView) (failuresSince : Nat) : Prop where
  counter : v.failures = failuresSince
  open_market : v.mode = .normal → v.marketOpen = true
  normal : v.mode = .normal → (v.failures : Int) < threshold
  down : v.mode = .brokerDown → threshold ≤ v.failures

namespace CounterTrue

variable {threshold : Int} {v : ModeView} {failuresSince : Nat}

theorem fail (h : CounterTrue threshold v failuresSince) :
    CounterTrue threshold (v.fail threshold) (failuresSince + 1) := by
  have hcount : v.failures + 1 = failuresSince + 1 := by rw [h.counter]
  by_cases hreached : threshold ≤ (v.failures + 1 : Nat)
  · refine ⟨hcount, ?_, ?_, ?_⟩ <;> simp only [ModeView.fail, if_pos hreached] <;> intro hmode
    · cases hmode
    · cases hmode
    · exact hreached
  · refine ⟨hcount, ?_, ?_, ?_⟩ <;> simp only [ModeView.fail, if_neg hreached] <;> intro hmode
    · exact h.open_market hmode
    · omega
    · have := h.down hmode
      omega

/-- Modes other than the two that the counter speaks of can be entered at any time. -/
theorem enter (h : CounterTrue threshold v failuresSince) {mode : SystemMode}
    (notNormal : mode ≠ .normal) (notDown : mode ≠ .brokerDown) :
    CounterTrue threshold (v.enter mode) failuresSince where
  counter := by simp [ModeView.enter, notNormal, h.counter]
  open_market hmode := absurd hmode notNormal
  normal hmode := absurd hmode notNormal
  down hmode := absurd hmode notDown

theorem success (h : CounterTrue threshold v failuresSince) (positive : 1 ≤ threshold)
    (heard : if v.mode = .brokerDown then v.marketOpen = true else v.failures = 0) :
    CounterTrue threshold (if v.mode = .brokerDown then v.enter .normal else v) 0 := by
  by_cases hdown : v.mode = .brokerDown
  · rw [if_pos hdown] at heard ⊢
    have hzero : (v.enter .normal).failures = 0 := by simp [ModeView.enter, hdown]
    refine ⟨hzero, fun _ => heard, ?_, ?_⟩
    · intro _
      rw [hzero]
      omega
    · intro hmode
      cases hmode
  · rw [if_neg hdown] at heard ⊢
    exact ⟨heard, h.open_market, h.normal, h.down⟩

theorem market (h : CounterTrue threshold v failuresSince) (isOpen : Bool) :
    CounterTrue threshold { v with
      mode := if isOpen = false ∧ v.mode = .normal then .marketHalted else v.mode
      marketOpen := isOpen } failuresSince := by
  by_cases hclosed : isOpen = false ∧ v.mode = .normal
  · simp only [if_pos hclosed]
    refine ⟨h.counter, ?_, ?_, ?_⟩ <;> intro hmode <;> cases hmode
  · simp only [if_neg hclosed]
    refine ⟨h.counter, ?_, h.normal, h.down⟩
    intro hmode
    cases isOpen with
    | true => rfl
    | false => exact absurd ⟨rfl, hmode⟩ hclosed

end CounterTrue

def CounterTrue.Holds (o : Observed) : Prop :=
  1 ≤ o.manager.brokerFailureThreshold ∧
    CounterTrue o.manager.brokerFailureThreshold o.manager.view o.failuresSince

theorem CounterTrue.Holds.step {o : Observed} {call : ModeCall} (h : CounterTrue.Holds o)
    (auto : ¬ call.op.IsSetNormal) (heard : SuccessIsHeard o call) :
    CounterTrue.Holds (o.step call) := by
  obtain ⟨positive, h⟩ := h
  refine ⟨by rw [Observed.step, threshold_step]; exact positive, ?_⟩
  simp only [Observed.step, view_step, threshold_step]
  cases hop : call.op with
  | setNormal reason => rw [hop] at auto; exact absurd trivial auto
  | setDegraded reason => exact h.enter (by decide) (by decide)
  | setBrokerDown reason => exact h.fail
  | setMarketHalted reason => exact h.enter (by decide) (by decide)
  | setSafeMode reason fromHardHalt => exact h.enter (by decide) (by decide)
  | recordBrokerSuccess => exact h.success positive (heard hop)
  | recordBrokerFailure => exact h.fail
  | checkMarketStatus isOpen => exact h.market isOpen

theorem CounterTrue.Holds.entriesJustified (o : Observed) (h : CounterTrue.Holds o) :
    EntriesJustified o := by
  obtain ⟨_, h⟩ := h
  constructor
  · intro hopen
    exact h.open_market ((canEnterNewTrade_iff _).mp hopen)
  · intro hopen
    rw [← h.counter]
    exact h.normal ((canEnterNewTrade_iff _).mp hopen)
  · intro hdown
    rw [← h.counter]
    exact h.down hdown

/-- With a threshold of at least one, in every run without `set_normal` whose broker successes come
in `BROKER_DOWN` with the market open, or with no failure counted, entries are open only with the
market open and fewer failures than the threshold, and `BROKER_DOWN` has that many behind it. -/
theorem entries_imply_open_market_and_broker (threshold : Option Int) (start : Time)
    (calls : List ModeCall) (positive : 1 ≤ threshold.getD 3)
    (auto : ∀ call ∈ calls, ¬ call.op.IsSetNormal)
    (heard : StepsMeet Observed.step SuccessIsHeard (Observed.new threshold start) calls) :
    Always Observed.step EntriesJustified (Observed.new threshold start) calls := by
  have hinit : CounterTrue.Holds (Observed.new threshold start) := by
    refine ⟨positive, rfl, fun _ => rfl, ?_, ?_⟩
    · intro _
      exact positive
    · intro hmode
      cases hmode
  have hpreserved : ∀ o, ∀ call ∈ calls, CounterTrue.Holds o → SuccessIsHeard o call →
      CounterTrue.Holds (o.step call) :=
    fun o call hcall hholds hheard => hholds.step (auto call hcall) hheard
  exact (always_of_stepsMeet hpreserved hinit heard).mono CounterTrue.Holds.entriesJustified

theorem entries_justified_after_recovery :
    Always Observed.step EntriesJustified (Observed.new (some 3) 0)
      (threeFailures ++ [⟨4, .recordBrokerSuccess⟩, ⟨5, .checkMarketStatus false⟩]) :=
  entries_imply_open_market_and_broker (some 3) 0 _ (by decide) (by decide) (by decide)

/-- The broker comes back while the market is closed, and entries are open. -/
theorem entries_open_in_closed_market :
    ¬ Always Observed.step EntriesJustified (Observed.new none 0)
      (threeFailures ++ [⟨4, .checkMarketStatus false⟩, ⟨5, .recordBrokerSuccess⟩]) := by
  intro always
  exact absurd (always.final.market (by decide)) (by decide)

end AutoTrade.Safety
