import AutoTrade.Runtime
import AutoTrade.Library.Totals
import Mathlib.Algebra.BigOperators.Ring.List
import Mathlib.Algebra.Order.Ring.Rat
import Mathlib.Tactic.Ring

/-! # Capital allocation

`CapitalAllocationService` of `multi_asset_aggregator.py`: each asset class gets
a share of the capital inversely proportional to its volatility, held between a
minimum and a maximum. What the minimum adds to one class is not taken from
another, and the cash that is left is never less than zero.
-/

namespace AutoTrade.Portfolio

open AutoTrade.Library

inductive AssetClass
  | equity
  | futuresOptions
  | commodity
  | currency
  | fixedIncome
  | mutualFunds
  | cash
deriving DecidableEq, Repr

/-- The entries of `constraints` that the service reads. -/
structure AllocationConstraints where
  assetClasses : Option (List AssetClass) := none
  minPerClass : Option ℚ := none
  maxPerClass : Option ℚ := none
  rebalanceTolerance : Option ℚ := none

structure AllocationRequest where
  totalCapital : ℚ
  existingAllocations : Dict AssetClass ℚ := Table.empty
  constraints : AllocationConstraints := {}

structure AllocationResult where
  allocations : Dict AssetClass ℚ
  remainingCash : ℚ := 0
  strategyUsed : String := ""
  explanation : String := ""
  riskMetrics : List (String × ℚ) := []

namespace AllocationRequest

def minAmt (request : AllocationRequest) : ℚ := request.constraints.minPerClass.getD 0

def maxAmt (request : AllocationRequest) : ℚ :=
  request.constraints.maxPerClass.getD request.totalCapital

def tolerance (request : AllocationRequest) : ℚ :=
  request.constraints.rebalanceTolerance.getD (5 / 100)

/-- The share of a weight, to the paisa. -/
def share (request : AllocationRequest) (weight : ℚ) : ℚ :=
  roundTo 2 (request.totalCapital * weight)

/-- An amount held between the constraints. -/
def bounded (request : AllocationRequest) (amt : ℚ) : ℚ :=
  max request.minAmt (min request.maxAmt amt)

/-- Whether an empty list of asset classes counts as none. -/
def selects (request : AllocationRequest) (ac : AssetClass) : Bool :=
  match request.constraints.assetClasses with
  | none => true
  | some [] => true
  | some classes => decide (ac ∈ classes)

end AllocationRequest

/-- `DEFAULT_VOLATILITY`. -/
def defaultVolatility : Dict AssetClass ℚ where
  rows :=
    [(.equity, 20 / 100), (.futuresOptions, 25 / 100), (.commodity, 18 / 100), (.currency, 8 / 100),
      (.fixedIncome, 5 / 100), (.mutualFunds, 15 / 100), (.cash, 1 / 100)]
  nodup := by decide

structure CapitalAllocationService where
  volatilityAssumptions : Option (Dict AssetClass ℚ) := none

namespace CapitalAllocationService

variable (service : CapitalAllocationService) (request : AllocationRequest)

/-- `volatility_assumptions or dict(DEFAULT_VOLATILITY)`. -/
def volatilities : Dict AssetClass ℚ :=
  match service.volatilityAssumptions with
  | none => defaultVolatility
  | some table => if table.rows = [] then defaultVolatility else table

/-- `inv_vol`, of the selected classes. -/
def invVol : Dict AssetClass ℚ :=
  let selected : Dict AssetClass ℚ := service.volatilities.filter fun e => request.selects e.1
  selected.mapValues fun v => 1 / max v (1 / 100)

def weights : Dict AssetClass ℚ :=
  let totalInvVol := (service.invVol request).total id
  (service.invVol request).mapValues fun v => v / totalInvVol

def allocate : AllocationResult :=
  let allocations := (service.weights request).mapValues fun weight =>
    request.bounded (request.share weight)
  let allocated := allocations.total id
  let n := allocations.size
  { allocations := allocations
    remainingCash := max 0 (request.totalCapital - allocated)
    strategyUsed := "risk_parity_inverse_vol"
    explanation := "Risk-parity allocation across " ++ toString n ++
      " asset classes using inverse volatility weights"
    riskMetrics := [("n_asset_classes", n), ("avg_weight", if n = 0 then 0 else 1 / n)] }

/-- A current amount close enough to its target is kept. -/
def keeps (targetAmt currentAmt : ℚ) : Prop :=
  |currentAmt - targetAmt| / max targetAmt 1 ≤ request.tolerance

instance (targetAmt currentAmt : ℚ) : Decidable (keeps request targetAmt currentAmt) :=
  inferInstanceAs (Decidable (_ ≤ _))

def currentAmt (ac : AssetClass) : ℚ := (request.existingAllocations.get? ac).getD 0

def rebalance : AllocationResult :=
  let target := service.allocate request
  let rebalanced : Dict AssetClass ℚ := target.allocations.mapRows (fun e =>
    (e.1, if keeps request e.2 (currentAmt request e.1) then currentAmt request e.1 else e.2))
    fun _ => rfl
  { allocations := rebalanced
    remainingCash := target.remainingCash
    strategyUsed := "rebalance_to_risk_parity"
    explanation := "Rebalanced " ++ toString rebalanced.size ++
      " asset classes within tolerance bands" }

/-! ## What conserves the capital -/

/-- One paisa for each class. -/
def paise (result : AllocationResult) : ℚ := result.allocations.size / 100

/-- Every amount is within its bounds, and amounts and cash add up to the capital. -/
structure Conserves (request : AllocationRequest) (result : AllocationResult) : Prop where
  bounds : ∀ e ∈ result.allocations.rows, request.minAmt ≤ e.2 ∧ e.2 ≤ request.maxAmt
  total : |result.allocations.total id + result.remainingCash - request.totalCapital| ≤ paise result

/-- Amounts and cash are no more than the capital. -/
def WithinCapital (request : AllocationRequest) (result : AllocationResult) : Prop :=
  result.allocations.total id + result.remainingCash ≤ request.totalCapital + paise result

/-- What the minimum adds to the shares below it. -/
def lifted : ℚ := (service.weights request).total fun w => max 0 (request.minAmt - request.share w)

/-- What the maximum takes off the shares above it. -/
def cut : ℚ := (service.weights request).total fun w => max 0 (request.share w - request.maxAmt)

/-- What the rounding of the shares leaves of the capital. -/
def unshared : ℚ := request.totalCapital - (service.weights request).total request.share

/-- What the amounts the rebalancing keeps have beyond their targets. -/
def keptExcess : ℚ :=
  ((service.weights request).rows.map fun e =>
    let targetAmt := request.bounded (request.share e.2)
    if keeps request targetAmt (currentAmt request e.1) then currentAmt request e.1 - targetAmt
    else 0).sum

/-- The bounds are in order where a class is selected; the maximum takes off what the minimum adds,
and what is kept beyond its target is paid for, both to a paisa for each class. -/
structure Affordable : Prop where
  ordered : (service.weights request).rows ≠ [] → request.minAmt ≤ request.maxAmt
  covered : service.lifted request ≤
    service.cut request + service.unshared request + (service.weights request).size / 100
  kept : service.keptExcess request +
    max 0 (service.lifted request - service.cut request - service.unshared request) ≤
      (service.weights request).size / 100

/-! ## Amounts -/

section Amounts

variable {service : CapitalAllocationService} {request : AllocationRequest}

theorem bounded_mem (h : request.minAmt ≤ request.maxAmt) (amt : ℚ) :
    request.minAmt ≤ request.bounded amt ∧ request.bounded amt ≤ request.maxAmt :=
  ⟨le_max_left _ _, max_le h (min_le_left _ _)⟩

/-- Between bounds in order, an amount is lifted or cut. -/
theorem bounded_eq (h : request.minAmt ≤ request.maxAmt) (amt : ℚ) :
    request.bounded amt =
      amt + max 0 (request.minAmt - amt) - max 0 (amt - request.maxAmt) := by
  unfold AllocationRequest.bounded
  rcases le_total amt request.maxAmt with hmax | hmax
  · rw [min_eq_right hmax, max_eq_left (sub_nonpos.mpr hmax), sub_zero]
    rcases le_total amt request.minAmt with hmin | hmin
    · rw [max_eq_left hmin, max_eq_right (sub_nonneg.mpr hmin), add_sub_cancel]
    · rw [max_eq_right hmin, max_eq_left (sub_nonpos.mpr hmin), add_zero]
  · rw [min_eq_left hmax, max_eq_right h, max_eq_right (sub_nonneg.mpr hmax),
      max_eq_left (sub_nonpos.mpr (h.trans hmax)), add_zero, sub_sub_cancel]

theorem total_allocate (service : CapitalAllocationService) (request : AllocationRequest) :
    (service.allocate request).allocations.total id =
      ((service.weights request).rows.map fun e => request.bounded (request.share e.2)).sum := by
  simp [allocate, Dict.total, Dict.mapValues, List.map_map, Function.comp_def]

theorem size_allocate (service : CapitalAllocationService) (request : AllocationRequest) :
    (service.allocate request).allocations.size = (service.weights request).size :=
  List.length_map _

/-- The amounts exceed the capital by what is lifted, less what is cut or was never shared out. -/
theorem total_allocate_eq
    (h : (service.weights request).rows ≠ [] → request.minAmt ≤ request.maxAmt) :
    (service.allocate request).allocations.total id = request.totalCapital +
      (service.lifted request - service.cut request - service.unshared request) := by
  have hrows : ∀ rows : List (AssetClass × ℚ), (rows ≠ [] → request.minAmt ≤ request.maxAmt) →
      (rows.map fun e => request.bounded (request.share e.2)).sum =
        (rows.map fun e => request.share e.2).sum +
          (rows.map fun e => max 0 (request.minAmt - request.share e.2)).sum -
          (rows.map fun e => max 0 (request.share e.2 - request.maxAmt)).sum := by
    intro rows hordered
    induction rows with
    | nil => simp
    | cons e rest ih =>
        have hbounds := hordered (List.cons_ne_nil e rest)
        simp only [List.map_cons, List.sum_cons]
        rw [ih fun _ => hbounds, bounded_eq hbounds]
        ring
  rw [total_allocate, hrows _ h]
  unfold lifted cut unshared Dict.total
  ring

theorem total_rebalance (service : CapitalAllocationService) (request : AllocationRequest) :
    (service.rebalance request).allocations.total id =
      (service.allocate request).allocations.total id + service.keptExcess request := by
  have hrows : ∀ rows : List (AssetClass × ℚ),
      (rows.map fun e => if keeps request (request.bounded (request.share e.2))
          (currentAmt request e.1) then currentAmt request e.1
        else request.bounded (request.share e.2)).sum =
        (rows.map fun e => request.bounded (request.share e.2)).sum +
          (rows.map fun e => if keeps request (request.bounded (request.share e.2))
              (currentAmt request e.1) then
            currentAmt request e.1 - request.bounded (request.share e.2) else 0).sum := by
    intro rows
    induction rows with
    | nil => simp
    | cons e rest ih =>
        simp only [List.map_cons, List.sum_cons]
        rw [ih]
        split <;> ring
  rw [total_allocate, keptExcess, ← hrows]
  simp [rebalance, allocate, Dict.total, Dict.mapValues, Table.mapRows, List.map_map,
    Function.comp_def]

theorem size_rebalance (service : CapitalAllocationService) (request : AllocationRequest) :
    (service.rebalance request).allocations.size = (service.weights request).size := by
  simp [rebalance, allocate, Table.size, Dict.mapValues, Table.mapRows]

end Amounts

/-! ## Which requests conserve the capital -/

section Law

variable {service : CapitalAllocationService} {request : AllocationRequest}

theorem paise_nonneg (service : CapitalAllocationService) (request : AllocationRequest) :
    (0 : ℚ) ≤ (service.weights request).size / 100 :=
  div_nonneg (Nat.cast_nonneg _) (by decide)

theorem ordered_of_bounds (h : ∀ e ∈ (service.allocate request).allocations.rows,
      request.minAmt ≤ e.2 ∧ e.2 ≤ request.maxAmt) :
    (service.weights request).rows ≠ [] → request.minAmt ≤ request.maxAmt := by
  intro hne
  obtain ⟨e, he⟩ := List.exists_mem_of_ne_nil _ hne
  obtain ⟨hmin, hmax⟩ := h _ (List.mem_map_of_mem he)
  exact hmin.trans hmax

theorem bounds_of_ordered
    (h : (service.weights request).rows ≠ [] → request.minAmt ≤ request.maxAmt) :
    ∀ e ∈ (service.allocate request).allocations.rows,
      request.minAmt ≤ e.2 ∧ e.2 ≤ request.maxAmt := by
  intro e he
  obtain ⟨source, hsource, rfl⟩ := List.mem_map.mp he
  exact bounded_mem (h (List.ne_nil_of_mem hsource)) _

/-- Amounts and cash are the capital and what is overdrawn. -/
theorem allocate_sum
    (h : (service.weights request).rows ≠ [] → request.minAmt ≤ request.maxAmt) :
    (service.allocate request).allocations.total id + (service.allocate request).remainingCash =
      request.totalCapital +
        max 0 (service.lifted request - service.cut request - service.unshared request) := by
  have hcash : (service.allocate request).remainingCash =
      max 0 (request.totalCapital - (service.allocate request).allocations.total id) := rfl
  rw [hcash, total_allocate_eq h]
  generalize service.lifted request - service.cut request - service.unshared request = overdrawn
  rcases le_total 0 overdrawn with hover | hover
  · rw [max_eq_right hover, max_eq_left (by linarith), add_zero]
  · rw [max_eq_left hover, max_eq_right (by linarith)]
    ring

theorem allocate_total_iff
    (h : (service.weights request).rows ≠ [] → request.minAmt ≤ request.maxAmt) :
    |(service.allocate request).allocations.total id +
        (service.allocate request).remainingCash - request.totalCapital| ≤
          paise (service.allocate request) ↔
      service.lifted request ≤ service.cut request + service.unshared request +
        (service.weights request).size / 100 := by
  have hpaise := paise_nonneg service request
  rw [allocate_sum h, add_sub_cancel_left, abs_of_nonneg (le_max_left _ _), paise,
    size_allocate, max_le_iff, and_iff_right hpaise]
  constructor <;> intro hle <;> linarith

theorem rebalance_within_iff
    (h : (service.weights request).rows ≠ [] → request.minAmt ≤ request.maxAmt) :
    WithinCapital request (service.rebalance request) ↔
      service.keptExcess request +
        max 0 (service.lifted request - service.cut request - service.unshared request) ≤
          (service.weights request).size / 100 := by
  have hcash : (service.rebalance request).remainingCash =
      (service.allocate request).remainingCash := rfl
  have hsum := allocate_sum h
  rw [WithinCapital, total_rebalance, hcash, paise, size_rebalance]
  constructor <;> intro hle <;> linarith

/-- Both the allocation and the rebalancing of a request conserve the capital to a paisa for each class
exactly where the bounds are in order, what the minimum adds is taken off by the maximum, and what is
kept beyond its target is paid for. -/
theorem allocation_conserves_iff (service : CapitalAllocationService)
    (request : AllocationRequest) :
    Conserves request (service.allocate request) ∧
        WithinCapital request (service.rebalance request) ↔
      service.Affordable request := by
  constructor
  · rintro ⟨hconserves, hrebalance⟩
    have hordered := ordered_of_bounds hconserves.bounds
    exact ⟨hordered, (allocate_total_iff hordered).mp hconserves.total,
      (rebalance_within_iff hordered).mp hrebalance⟩
  · intro h
    exact ⟨⟨bounds_of_ordered h.ordered, (allocate_total_iff h.ordered).mpr h.covered⟩,
      (rebalance_within_iff h.ordered).mpr h.kept⟩

/-! ## A minimum that lifts no class -/

theorem invVol_pos {e : AssetClass × ℚ} (h : e ∈ (service.invVol request).rows) : 0 < e.2 := by
  obtain ⟨source, -, rfl⟩ := List.mem_map.mp h
  exact one_div_pos.mpr (lt_of_lt_of_le (by decide +kernel) (le_max_right _ _))

theorem total_weights (hne : (service.weights request).rows ≠ []) :
    (service.weights request).total id = 1 := by
  have hrows : (service.invVol request).rows ≠ [] := by
    simpa [weights, Dict.mapValues] using hne
  have hpos : 0 < (service.invVol request).total id := by
    refine List.sum_pos _ ?_ (by simpa using hrows)
    intro v hv
    obtain ⟨e, he, rfl⟩ := List.mem_map.mp hv
    exact invVol_pos he
  have hdivide : (service.weights request).total id =
      ((service.invVol request).rows.map fun e =>
        e.2 / (service.invVol request).total id).sum := by
    simp [weights, Dict.total, Dict.mapValues, List.map_map, Function.comp_def]
  simp only [hdivide, div_eq_mul_inv, List.sum_map_mul_right]
  exact mul_inv_cancel₀ hpos.ne'

variable (service) in
/-- The shares are the capital up to half a paisa for each class. -/
theorem neg_unshared_le (hcapital : 0 ≤ request.totalCapital) :
    -service.unshared request ≤ (service.weights request).size * (5 / 1000) := by
  have hrows : ∀ rows : List (AssetClass × ℚ),
      (rows.map fun e => request.share e.2).sum ≤
        request.totalCapital * (rows.map fun e => e.2).sum + rows.length * (5 / 1000) := by
    intro rows
    induction rows with
    | nil => simp
    | cons e rest ih =>
        have hround := (abs_le.mp (abs_roundTo_sub_le (request.totalCapital * e.2))).2
        simp only [List.map_cons, List.sum_cons, List.length_cons]
        push_cast
        unfold AllocationRequest.share at ih ⊢
        linarith
  have hshares := hrows (service.weights request).rows
  have hweights : ((service.weights request).rows.map fun e => e.2).sum ≤ 1 := by
    by_cases hne : (service.weights request).rows = []
    · simp [hne]
    · exact (total_weights hne).le
  have hscaled := mul_le_mul_of_nonneg_left hweights hcapital
  unfold unshared Dict.total Table.size
  linarith

/-- Where no share is below the minimum, the allocation conserves the capital. -/
theorem allocate_conserves (hcapital : 0 ≤ request.totalCapital)
    (hbounds : request.minAmt ≤ request.maxAmt)
    (hmin : ∀ e ∈ (service.weights request).rows, request.minAmt ≤ request.share e.2) :
    Conserves request (service.allocate request) := by
  have hlifted : service.lifted request = 0 := by
    refine List.sum_eq_zero fun amt hamt => ?_
    obtain ⟨e, he, rfl⟩ := List.mem_map.mp hamt
    exact max_eq_left (sub_nonpos.mpr (hmin e he))
  have hcut : 0 ≤ service.cut request := by
    refine List.sum_nonneg fun amt hamt => ?_
    obtain ⟨e, -, rfl⟩ := List.mem_map.mp hamt
    exact le_max_left _ _
  have hrest := neg_unshared_le service hcapital
  have hpaise := paise_nonneg service request
  refine ⟨bounds_of_ordered fun _ => hbounds, (allocate_total_iff fun _ => hbounds).mpr ?_⟩
  rw [hlifted]
  linarith

/-! ## More than the capital -/

/-- Seven classes at fourteen thousand each are within a capital of a hundred thousand. -/
def minimumRequest : AllocationRequest :=
  { totalCapital := 100000, constraints := { minPerClass := some 14000 } }

/-- Sixty-eight thousand of a hundred thousand are held already, within five percent of the target. -/
def heldRequest : AllocationRequest :=
  { totalCapital := 100000, existingAllocations := Dict.set Table.empty .cash 68000 }

/-- Six classes are lifted to the minimum and the seventh keeps its share; and what is held stays while
every other class is raised to its target. Either way more than the capital is handed out. -/
theorem allocation_overdraws :
    (7 * minimumRequest.minAmt ≤ minimumRequest.totalCapital ∧
      ¬ Conserves minimumRequest (allocate {} minimumRequest)) ∧
    (heldRequest.existingAllocations.total id ≤ heldRequest.totalCapital ∧
      ¬ WithinCapital heldRequest (rebalance {} heldRequest)) := by
  refine ⟨⟨by decide +kernel, fun h => absurd h.total ?_⟩, by decide +kernel, ?_⟩
  · decide +kernel
  · rw [WithinCapital]
    decide +kernel

end Law

end CapitalAllocationService

end AutoTrade.Portfolio
