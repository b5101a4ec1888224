import AutoTrade.Execution.StateMachineLaws
import AutoTrade.Library.Run
import Mathlib.Tactic.FieldSimp
import Mathlib.Tactic.Linarith

/-! # Fill accounting along a run of one machine

A run drives a machine with any sequence of its operations and keeps the fills
that were accepted, that is, whose call returned `True`. The totals of the
machine agree with the accepted fills as long as fills arrive in the states that
accept them and `FILLED` is entered by a fill.
-/

namespace AutoTrade.Execution

open AutoTrade.Library ExecutionStateMachine

inductive MachineOp
  | recordSubmission (brokerOrderId : String)
  | recordAcknowledgment
  | recordFill (filledQty : Int) (price : ℚ)
  | recordPartialFill (filledQty : Int) (price : ℚ)
  | recordRejection (reason : String)
  | recordFailure (reason : String)
  | tryTransitionTo (new : ExecutionState)
deriving DecidableEq, Repr

structure Fill where
  quantity : Int
  price : ℚ
deriving DecidableEq, Repr

namespace MachineOp

variable {σ : Type}

def apply (hooks : Hooks σ) (ts : Time) : MachineOp → ExecutionStateMachine → σ → Step σ Bool
  | .recordSubmission brokerOrderId => ExecutionStateMachine.recordSubmission hooks ts brokerOrderId
  | .recordAcknowledgment => ExecutionStateMachine.recordAcknowledgment hooks ts
  | .recordFill q p => ExecutionStateMachine.recordFill hooks ts q p
  | .recordPartialFill q p => ExecutionStateMachine.recordPartialFill hooks ts q p
  | .recordRejection reason => ExecutionStateMachine.recordRejection hooks ts reason
  | .recordFailure reason => ExecutionStateMachine.recordFailure hooks ts reason
  | .tryTransitionTo new => ExecutionStateMachine.tryTransitionTo hooks ts new

def fill? : MachineOp → Option Fill
  | .recordFill q p => some ⟨q, p⟩
  | .recordPartialFill q p => some ⟨q, p⟩
  | _ => none

end MachineOp

def Step.returnedTrue {σ : Type} (step : Step σ Bool) : Bool :=
  match step.value with
  | .ok b => b
  | .error _ => false

structure MachineRun (σ : Type) where
  machine : ExecutionStateMachine
  world : σ
  accepted : List Fill

def MachineRun.step {σ : Type} (hooks : Hooks σ) (r : MachineRun σ) (op : Time × MachineOp) :
    MachineRun σ :=
  let out := op.2.apply hooks op.1 r.machine r.world
  ⟨out.machine, out.world,
    if out.returnedTrue then r.accepted ++ op.2.fill?.toList else r.accepted⟩

def totalQuantity (fills : List Fill) : Int := (fills.map Fill.quantity).sum

def totalValue (fills : List Fill) : ℚ := (fills.map fun f => f.price * (f.quantity : ℚ)).sum

def weightedMean (fills : List Fill) : ℚ := totalValue fills / totalQuantity fills

/-- The totals are those of the accepted fills, and once the order is acknowledged
it is `FILLED` exactly when its quantity is reached. -/
structure FillsAccounted {σ : Type} (r : MachineRun σ) : Prop where
  quantity : r.machine.filledQuantity = totalQuantity r.accepted
  price : r.machine.averagePrice = weightedMean r.accepted
  filled : r.machine.state ∈ [.acknowledged, .partialFill, .filled] →
    (r.machine.state = .filled ↔ r.machine.quantity ≤ r.machine.filledQuantity)

/-- The steps that keep the books: a fill finds the machine in a state that accepts
it, the fill that completes the order is persisted, and `FILLED` is not
entered by a bare transition. -/
def KeepsBooks {σ : Type} (hooks : Hooks σ) (r : MachineRun σ) (op : Time × MachineOp) : Prop :=
  (∀ f ∈ op.2.fill?,
    (r.machine.state = .acknowledged ∨ r.machine.state = .partialFill) ∧
      (r.machine.quantity ≤ r.machine.filledQuantity + f.quantity →
        (persistOutcome hooks .filled (addFill op.1 f.quantity f.price r.machine) r.world).1 =
          .ok ())) ∧
  (op.2 = .tryTransitionTo .filled → ¬ r.machine.Allows .filled)

instance {σ : Type} (hooks : Hooks σ) (r : MachineRun σ) (op : Time × MachineOp) :
    Decidable (KeepsBooks hooks r op) :=
  inferInstanceAs (Decidable (_ ∧ _))

/-! ## Sums over accepted fills -/

theorem totalQuantity_append (fills : List Fill) (f : Fill) :
    totalQuantity (fills ++ [f]) = totalQuantity fills + f.quantity := by
  simp [totalQuantity]

theorem totalValue_append (fills : List Fill) (f : Fill) :
    totalValue (fills ++ [f]) = totalValue fills + f.price * f.quantity := by
  simp [totalValue]

theorem totalQuantity_nonneg {fills : List Fill} (h : ∀ f ∈ fills, 0 < f.quantity) :
    0 ≤ totalQuantity fills := by
  induction fills with
  | nil => simp [totalQuantity]
  | cons f rest ih =>
      have hf := h f (by simp)
      have hrest := ih fun g hg => h g (by simp [hg])
      simp only [totalQuantity, List.map_cons, List.sum_cons] at hrest ⊢
      omega

theorem totalQuantity_pos {fills : List Fill} (h : ∀ f ∈ fills, 0 < f.quantity)
    (hne : fills ≠ []) : 0 < totalQuantity fills := by
  cases fills with
  | nil => exact (hne rfl).elim
  | cons f rest =>
      have hf := h f (by simp)
      have hrest := totalQuantity_nonneg fun g hg => h g (List.mem_cons_of_mem f hg)
      simp only [totalQuantity, List.map_cons, List.sum_cons] at hrest ⊢
      omega

theorem weightedMean_mul_totalQuantity {fills : List Fill} (h : ∀ f ∈ fills, 0 < f.quantity) :
    weightedMean fills * totalQuantity fills = totalValue fills := by
  by_cases hne : fills = []
  · simp [hne, weightedMean, totalValue, totalQuantity]
  · have hpos : (0 : ℚ) < totalQuantity fills := by exact_mod_cast totalQuantity_pos h hne
    unfold weightedMean
    field_simp

/-- The running average of `record_fill` is the weighted mean of one more fill. -/
theorem addFill_averagePrice {fills : List Fill} {m : ExecutionStateMachine} (ts : Time) {f : Fill}
    (h : ∀ g ∈ fills, 0 < g.quantity) (hf : 0 < f.quantity)
    (hquantity : m.filledQuantity = totalQuantity fills)
    (hprice : m.averagePrice = weightedMean fills) :
    (addFill ts f.quantity f.price m).averagePrice = weightedMean (fills ++ [f]) := by
  have hnonneg := totalQuantity_nonneg h
  have hpos : m.filledQuantity + f.quantity > 0 := by omega
  have hvalue : m.averagePrice * m.filledQuantity = totalValue fills := by
    rw [hprice, hquantity, weightedMean_mul_totalQuantity h]
  simp only [addFill, if_pos hpos, hvalue, weightedMean, totalValue_append, totalQuantity_append,
    ← hquantity]

/-! ## The invariant -/

/-- The states a machine passes before its first accepted fill. -/
def earlyStates : List ExecutionState :=
  [.init, .pendingSubmission, .validated, .persisted, .submitted, .acknowledged]

/-- No fill is booked before the first accepted one, and `FILLED` means the quantity is
reached in every state, not only in the acknowledged ones. -/
structure MachineBooked (m : ExecutionStateMachine) : Prop where
  positive : 0 < m.quantity
  filled : m.state = .filled ↔ m.quantity ≤ m.filledQuantity
  early : m.state ∈ earlyStates → m.filledQuantity = 0

structure RunBooked {σ : Type} (r : MachineRun σ) : Prop where
  machine : MachineBooked r.machine
  positive : ∀ f ∈ r.accepted, 0 < f.quantity
  quantity : r.machine.filledQuantity = totalQuantity r.accepted
  price : r.machine.averagePrice = weightedMean r.accepted

theorem RunBooked.fillsAccounted {σ : Type} {r : MachineRun σ} (h : RunBooked r) :
    FillsAccounted r :=
  ⟨h.quantity, h.price, fun _ => h.machine.filled⟩

/-- The table enters an early state only from an early state. -/
theorem early_of_validTransition (state : ExecutionState) :
    ∀ new ∈ validTransitions state, new ∈ earlyStates → state ∈ earlyStates := by
  cases state <;> decide

theorem ne_filled_of_allows {m : ExecutionStateMachine} {new : ExecutionState} (h : m.Allows new) :
    m.state ≠ .filled := by
  intro hs
  exact not_allows_of_terminal (by simp [hs, terminalStates]) new h

/-- A move other than the one into `FILLED` changes no total and keeps the machine booked. -/
theorem MachineBooked.move {m : ExecutionStateMachine} (h : MachineBooked m)
    {new : ExecutionState} (allowed : m.Allows new) (hnew : new ≠ .filled) (updatedAt : Time) :
    MachineBooked { m with state := new, updatedAt := updatedAt } := by
  have hbelow : ¬ m.quantity ≤ m.filledQuantity := fun hle =>
    ne_filled_of_allows allowed (h.filled.mpr hle)
  refine ⟨h.positive, ?_, fun he => h.early (early_of_validTransition m.state new allowed.2 he)⟩
  exact ⟨fun hs => (hnew hs).elim, fun hle => (hbelow hle).elim⟩

theorem MachineBooked.tryTransitionTo {σ : Type} {hooks : Hooks σ} {ts : Time}
    {m : ExecutionStateMachine} {s : σ} (h : MachineBooked m) {new : ExecutionState}
    (hnew : new = .filled → ¬ m.Allows .filled) :
    MachineBooked (tryTransitionTo hooks ts new m s).machine := by
  refine tryTransitionTo_preserves h (fun allowed updatedAt => ?_) s
  exact h.move allowed (fun hf => hnew hf (hf ▸ allowed)) updatedAt

/-- The fields a bare attempt leaves alone. -/
theorem tryTransitionTo_totals {σ : Type} (hooks : Hooks σ) (ts : Time) (new : ExecutionState)
    (m : ExecutionStateMachine) (s : σ) :
    (tryTransitionTo hooks ts new m s).machine.filledQuantity = m.filledQuantity ∧
      (tryTransitionTo hooks ts new m s).machine.averagePrice = m.averagePrice := by
  obtain ⟨_, _, h, _⟩ := tryTransitionTo_frame hooks ts new m s
  rw [h]
  exact ⟨rfl, rfl⟩

/-! ## One step -/

section Steps

variable {σ : Type} {hooks : Hooks σ}

/-- An operation that books no fill is a bare attempt on a machine with the same
state and totals, or does nothing. -/
theorem MachineBooked.apply {m : ExecutionStateMachine} (h : MachineBooked m) {op : MachineOp}
    (ts : Time) (s : σ) (hfill : op.fill? = none)
    (hnew : op = .tryTransitionTo .filled → ¬ m.Allows .filled) :
    MachineBooked (op.apply hooks ts m s).machine ∧
      (op.apply hooks ts m s).machine.filledQuantity = m.filledQuantity ∧
      (op.apply hooks ts m s).machine.averagePrice = m.averagePrice := by
  cases op with
  | recordFill q p => simp [MachineOp.fill?] at hfill
  | recordPartialFill q p => simp [MachineOp.fill?] at hfill
  | tryTransitionTo new =>
      refine ⟨h.tryTransitionTo ?_, tryTransitionTo_totals _ _ _ _ _⟩
      rintro rfl
      exact hnew rfl
  | recordSubmission brokerOrderId =>
      simp only [MachineOp.apply, recordSubmission]
      split
      · exact ⟨h, rfl, rfl⟩
      · refine ⟨MachineBooked.tryTransitionTo ?_ (by simp), tryTransitionTo_totals _ _ _ _ _⟩
        exact ⟨h.positive, h.filled, h.early⟩
  | recordAcknowledgment =>
      simp only [MachineOp.apply, recordAcknowledgment]
      split
      · refine ⟨MachineBooked.tryTransitionTo ?_ (by simp), tryTransitionTo_totals _ _ _ _ _⟩
        exact ⟨h.positive, h.filled, h.early⟩
      · exact ⟨h, rfl, rfl⟩
  | recordRejection reason =>
      simp only [MachineOp.apply, recordRejection]
      split
      · refine ⟨MachineBooked.tryTransitionTo ?_ (by simp), tryTransitionTo_totals _ _ _ _ _⟩
        exact ⟨h.positive, h.filled, h.early⟩
      · exact ⟨⟨h.positive, h.filled, h.early⟩, rfl, rfl⟩
  | recordFailure reason =>
      refine ⟨MachineBooked.tryTransitionTo ?_ (by simp), tryTransitionTo_totals _ _ _ _ _⟩
      exact ⟨h.positive, h.filled, h.early⟩

theorem RunBooked.bare {r : MachineRun σ} (h : RunBooked r) {op : Time × MachineOp}
    (hfill : op.2.fill? = none) (hnew : op.2 = .tryTransitionTo .filled → ¬ r.machine.Allows .filled) :
    RunBooked (r.step hooks op) := by
  obtain ⟨hmachine, hquantity, hprice⟩ := h.machine.apply op.1 r.world hfill hnew
  have haccepted : (r.step hooks op).accepted = r.accepted := by
    simp [MachineRun.step, hfill]
  refine ⟨hmachine, ?_, ?_, ?_⟩
  · rw [haccepted]; exact h.positive
  · rw [haccepted]; exact hquantity.trans h.quantity
  · rw [haccepted]; exact hprice.trans h.price

/-- A fill in a state that accepts it returns `True` and leaves the machine in `FILLED`
or `PARTIAL_FILL`, whichever its new total calls for. -/
theorem recordFill_accepted {m : ExecutionStateMachine} (h : MachineBooked m) {q : Int} {p : ℚ}
    {ts : Time} {s : σ} (hstate : m.state = .acknowledged ∨ m.state = .partialFill)
    (hpersist : m.quantity ≤ m.filledQuantity + q →
      (persistOutcome hooks .filled (addFill ts q p m) s).1 = .ok ()) :
    (recordFill hooks ts q p m s).returnedTrue = true ∧
      ∃ updatedAt, (recordFill hooks ts q p m s).machine =
        { addFill ts q p m with
          state := if m.quantity ≤ m.filledQuantity + q then .filled else .partialFill
          updatedAt := updatedAt } := by
  have hcomplete : ∀ (hq : m.quantity ≤ m.filledQuantity + q),
      tryTransitionTo hooks ts .filled (addFill ts q p m) s =
        ⟨{ addFill ts q p m with state := .filled, updatedAt := ts },
          hooks.transitioned m.state { addFill ts q p m with state := .filled, updatedAt := ts }
            (persistOutcome hooks .filled (addFill ts q p m) s).2, .ok true⟩ := by
    intro hq
    refine tryTransitionTo_success ?_ (Prod.ext (hpersist hq) rfl)
    rcases hstate with hs | hs <;> simp [Allows, hs, validTransitions]
  rcases hstate with hs | hs
  · -- nothing was booked before, so the last fill is the whole fill
    have hzero : m.filledQuantity = 0 := h.early (by simp [hs, earlyStates])
    rw [recordFill_acknowledged hs]
    by_cases hq : m.quantity ≤ q
    · have hq' : m.quantity ≤ m.filledQuantity + q := by omega
      rw [if_pos hq, hcomplete hq']
      exact ⟨rfl, ts, by simp [hq']⟩
    · have hq' : ¬ m.quantity ≤ m.filledQuantity + q := by omega
      rw [if_neg hq, tryTransitionTo_unpersisted (by simp [Allows, hs, validTransitions])
        (by simp [persistedStates])]
      exact ⟨rfl, ts, by simp [hq']⟩
  · rw [recordFill_partialFill hs]
    by_cases hq : m.quantity ≤ m.filledQuantity + q
    · rw [if_pos hq, hcomplete hq]
      exact ⟨rfl, ts, by simp [hq]⟩
    · rw [if_neg hq]
      refine ⟨rfl, m.updatedAt, ?_⟩
      simp only [hq, if_false, ← hs]
      rfl

theorem RunBooked.fill {r : MachineRun σ} (h : RunBooked r) {op : Time × MachineOp} {f : Fill}
    (hfill : op.2.fill? = some f) (hpos : 0 < f.quantity) (keeps : KeepsBooks hooks r op) :
    RunBooked (r.step hooks op) := by
  obtain ⟨hstate, hpersist⟩ := keeps.1 f hfill
  have happly : op.2.apply hooks op.1 r.machine r.world =
      recordFill hooks op.1 f.quantity f.price r.machine r.world := by
    obtain ⟨ts, op⟩ := op
    cases op <;> simp [MachineOp.fill?] at hfill <;> subst hfill <;> rfl
  obtain ⟨htrue, updatedAt, hmachine⟩ := recordFill_accepted h.machine hstate hpersist
  have hstep : r.step hooks op =
      ⟨{ addFill op.1 f.quantity f.price r.machine with
          state := if r.machine.quantity ≤ r.machine.filledQuantity + f.quantity then .filled
            else .partialFill
          updatedAt := updatedAt },
        (op.2.apply hooks op.1 r.machine r.world).world, r.accepted ++ [f]⟩ := by
    simp only [MachineRun.step, happly, htrue, hmachine, hfill, Option.toList_some, if_true]
  rw [hstep]
  refine ⟨⟨h.machine.positive, ?_, ?_⟩, ?_, ?_, ?_⟩
  · by_cases hq : r.machine.quantity ≤ r.machine.filledQuantity + f.quantity <;> simp [hq]
  · intro he
    by_cases hq : r.machine.quantity ≤ r.machine.filledQuantity + f.quantity <;>
      simp [hq, earlyStates] at he
  · intro g hg
    rcases List.mem_append.mp hg with hg | hg
    · exact h.positive g hg
    · obtain rfl : g = f := by simpa using hg
      exact hpos
  · rw [totalQuantity_append, ← h.quantity]
    rfl
  · exact addFill_averagePrice op.1 h.positive hpos h.quantity h.price

theorem RunBooked.step {r : MachineRun σ} (h : RunBooked r) {op : Time × MachineOp}
    (positive : ∀ f ∈ op.2.fill?, 0 < f.quantity) (keeps : KeepsBooks hooks r op) :
    RunBooked (r.step hooks op) := by
  cases hfill : op.2.fill? with
  | none => exact h.bare hfill keeps.2
  | some f => exact h.fill hfill (positive f hfill) keeps

end Steps

/-! ## Runs -/

/-- A machine as `create_or_get` makes it. -/
def ExecutionStateMachine.Fresh (m : ExecutionStateMachine) : Prop :=
  m.state = .init ∧ m.filledQuantity = 0 ∧ m.averagePrice = 0

theorem RunBooked.initial {σ : Type} {m : ExecutionStateMachine} (fresh : m.Fresh)
    (positive : 0 < m.quantity) (s : σ) : RunBooked (⟨m, s, []⟩ : MachineRun σ) := by
  obtain ⟨hstate, hzero, havg⟩ := fresh
  refine ⟨⟨positive, ?_, fun _ => hzero⟩, by simp, ?_, ?_⟩
  · simp only [hstate, hzero]
    constructor
    · intro h; cases h
    · intro h; omega
  · simp [hzero, totalQuantity]
  · simp [havg, weightedMean, totalValue, totalQuantity]

/-- Along every run that keeps the books, in every state reached, the totals of the machine
are those of the fills that returned `True`, and the machine is `FILLED` exactly when its quantity is
reached. -/
theorem fills_accounted_along_run {σ : Type} (hooks : Hooks σ) (m : ExecutionStateMachine) (s : σ)
    (ops : List (Time × MachineOp)) (fresh : m.Fresh) (positive : 0 < m.quantity)
    (fills : ∀ op ∈ ops, ∀ f ∈ op.2.fill?, 0 < f.quantity)
    (keeps : StepsMeet (MachineRun.step hooks) (KeepsBooks hooks) ⟨m, s, []⟩ ops) :
    Always (MachineRun.step hooks) FillsAccounted ⟨m, s, []⟩ ops := by
  have booked : Always (MachineRun.step hooks) RunBooked ⟨m, s, []⟩ ops :=
    always_of_stepsMeet (fun r op hop h keep => h.step (fills op hop) keep)
      (RunBooked.initial fresh positive s) keeps
  exact booked.mono fun r h => h.fillsAccounted

/-! ## A concrete order -/

/-- A manager without a callback. -/
def quietHooks : Hooks Unit := ⟨fun _ s => (.ok (), s), fun _ _ s => s⟩

def orderOf50 : ExecutionStateMachine :=
  { intentId := "intent_001", clientOrderId := "OPB-intent_001", symbol := "NIFTY", quantity := 50,
    price := 23500, direction := "BUY", createdAt := 0, updatedAt := 0 }

/-- Up to the broker's acknowledgment. -/
def acknowledgedOps : List (Time × MachineOp) :=
  [(0, .tryTransitionTo .validated), (0, .tryTransitionTo .persisted),
    (0, .recordSubmission "BROKER_ORD_001"), (second, .recordAcknowledgment)]

def twoFillOps : List (Time × MachineOp) :=
  acknowledgedOps ++ [(2 * second, .recordFill 25 23400), (3 * second, .recordPartialFill 25 23600)]

theorem fills_accounted_two_fills :
    StepsMeet (MachineRun.step quietHooks) (KeepsBooks quietHooks) ⟨orderOf50, (), []⟩ twoFillOps ∧
      Always (MachineRun.step quietHooks) FillsAccounted ⟨orderOf50, (), []⟩ twoFillOps :=
  have keeps : StepsMeet (MachineRun.step quietHooks) (KeepsBooks quietHooks)
      ⟨orderOf50, (), []⟩ twoFillOps := by decide +kernel
  ⟨keeps, fills_accounted_along_run quietHooks orderOf50 () twoFillOps
    ⟨rfl, rfl, rfl⟩ (by decide) (by decide +kernel) keeps⟩

/-- The table lets `ACKNOWLEDGED` move to `FILLED` without any fill. -/
theorem fills_not_accounted_after_bare_transition :
    orderOf50.Fresh ∧ 0 < orderOf50.quantity ∧
      ¬ Always (MachineRun.step quietHooks) FillsAccounted ⟨orderOf50, (), []⟩
        (acknowledgedOps ++ [(2 * second, .tryTransitionTo .filled)]) := by
  refine ⟨⟨rfl, rfl, rfl⟩, by decide, fun always => ?_⟩
  have hfinal := always.final
  have hstate : (run (MachineRun.step quietHooks) ⟨orderOf50, (), []⟩
      (acknowledgedOps ++ [(2 * second, .tryTransitionTo .filled)])).machine =
        { orderOf50 with
          state := .filled, brokerOrderId := some "BROKER_ORD_001", updatedAt := 2 * second
          submittedAt := some 0, acknowledgedAt := some second } := by
    decide +kernel
  have hfilled := hfinal.filled
  rw [hstate] at hfilled
  exact absurd ((hfilled (by decide)).mp rfl) (by decide)

end AutoTrade.Execution
