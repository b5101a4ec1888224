import AutoTrade.Orders.OrderManager
import Mathlib.Algebra.Order.BigOperators.Group.List
import Mathlib.Data.Rat.Floor
import Mathlib.Tactic.Linarith

/-! # Slicing orders

A TWAP order goes out in slices of equal size, an iceberg order in tranches, and
the last one takes what the division leaves over. A scale-in entry is split into
two legs of at least one lot each. Prices and fractions are rational; what is
drawn at random is a parameter.
-/

namespace AutoTrade.Orders

/-- The `i`-th of `n` parts, counted from zero: the last one takes the remainder. -/
def partQty (each remainder : Int) (n i : Nat) : Int :=
  each + if i + 1 = n then remainder else 0

def partQtys (each remainder : Int) (n : Nat) : List Int :=
  (List.range n).map (partQty each remainder n)

theorem partQtys_succ (each remainder : Int) (n : Nat) :
    partQtys each remainder (n + 1) = List.replicate n each ++ [each + remainder] := by
  have hlast : partQty each remainder (n + 1) n = each + remainder := by
    rw [partQty, if_pos rfl]
  have hearlier : (List.range n).map (partQty each remainder (n + 1)) = List.replicate n each := by
    refine List.eq_replicate_iff.mpr ⟨by simp, fun q hq => ?_⟩
    obtain ⟨i, hi, rfl⟩ := List.mem_map.mp hq
    have hlt := List.mem_range.mp hi
    rw [partQty, if_neg (by omega), add_zero]
  rw [partQtys, List.range_succ, List.map_append, hearlier, List.map_singleton, hlast]

theorem partQtys_sum (each remainder : Int) {n : Nat} (h : 0 < n) :
    (partQtys each remainder n).sum = n * each + remainder := by
  obtain ⟨m, rfl⟩ := Nat.exists_eq_add_of_lt h
  rw [Nat.zero_add, partQtys_succ]
  simp only [List.sum_append, List.sum_replicate, List.sum_singleton, nsmul_eq_mul]
  push_cast
  ring

theorem partQtys_nonneg {each remainder : Int} (heach : 0 ≤ each) (hrest : 0 ≤ remainder)
    (n : Nat) : ∀ q ∈ partQtys each remainder n, 0 ≤ q := by
  intro q hq
  obtain ⟨i, -, rfl⟩ := List.mem_map.mp hq
  unfold partQty
  split <;> omega

/-- No quantity is negative, and the quantities sum to the total. -/
structure Conserves (total : Int) (qtys : List Int) : Prop where
  nonneg : ∀ q ∈ qtys, 0 ≤ q
  sum : qtys.sum = total

theorem Conserves.partWay {total : Int} {qtys : List Int} (h : Conserves total qtys) (k : Nat) :
    (qtys.take k).sum ≤ total := by
  rw [← h.sum]
  exact (List.take_sublist k qtys).sum_le_sum h.nonneg

theorem conserves_partQtys {total : Int} {n : Nat} (htotal : 0 ≤ total) (hn : 0 < n) :
    Conserves total (partQtys (total / n) (total % n) n) where
  nonneg := partQtys_nonneg (Int.ediv_nonneg htotal (by omega)) (Int.emod_nonneg _ (by omega)) n
  sum := by rw [partQtys_sum _ _ hn, Int.mul_ediv_add_emod]

/-! ## TWAP -/

/-- The arguments of one call of `execute_callback`. -/
structure SliceOrder where
  symbol : String
  qty : Int
  action : String
deriving DecidableEq, Repr

/-- The slices `twap_worker` passes on. One that is not answered with success is the last, and so
is one at which the callback raises. -/
def twapWorker (order : Nat → SliceOrder) (callback : Nat → SliceOrder → Bool) :
    List Nat → List SliceOrder
  | [] => []
  | i :: rest =>
      order i :: if callback i (order i) then twapWorker order callback rest else []

/-- The orders `execute_twap` passes to its callback. -/
def executeTwap (symbol : String) (totalQty : Int) (action : String) (slices : Int)
    (callback : Option (Nat → SliceOrder → Bool)) : List SliceOrder :=
  match callback with
  | none => []
  | some callback =>
      if slices ≤ 1 then [{ symbol, qty := totalQty, action }]
      else
        let sliceQty := max 1 (totalQty / slices)
        let remainder := totalQty % slices
        twapWorker
          (fun i => { symbol, qty := partQty sliceQty remainder slices.toNat i, action }) callback
          (List.range slices.toNat)

theorem twapWorker_of_success {order : Nat → SliceOrder} {callback : Nat → SliceOrder → Bool}
    (success : ∀ i o, callback i o = true) (indices : List Nat) :
    twapWorker order callback indices = indices.map order := by
  induction indices with
  | nil => rfl
  | cons i rest ih => rw [twapWorker, success, if_pos rfl, ih, List.map_cons]

theorem executeTwap_qtys {symbol : String} {totalQty : Int} {action : String} {slices : Int}
    {callback : Nat → SliceOrder → Bool} (h : 1 < slices)
    (success : ∀ i o, callback i o = true) :
    (executeTwap symbol totalQty action slices (some callback)).map SliceOrder.qty =
      partQtys (max 1 (totalQty / slices)) (totalQty % slices) slices.toNat := by
  unfold executeTwap
  simp only
  rw [if_neg (by omega), twapWorker_of_success success, List.map_map]
  rfl

/-- Below one unit a slice, every slice is one unit more than its share. -/
theorem executeTwap_sum_of_few {symbol : String} {totalQty : Int} {action : String} {slices : Int}
    {callback : Nat → SliceOrder → Bool} (htotal : 0 ≤ totalQty) (few : totalQty < slices)
    (several : 1 < slices) (success : ∀ i o, callback i o = true) :
    ((executeTwap symbol totalQty action slices (some callback)).map SliceOrder.qty).sum =
      totalQty + slices := by
  rw [executeTwap_qtys several success, partQtys_sum _ _ (by omega),
    Int.ediv_eq_zero_of_lt htotal few, Int.emod_eq_of_lt htotal few, max_eq_left zero_le_one,
    Int.toNat_of_nonneg (by omega), mul_one, add_comm]

/-- With at least one unit a slice, or a single slice, nothing is added and nothing is left out. -/
theorem conserves_executeTwap {symbol : String} {totalQty : Int} {action : String} {slices : Int}
    {callback : Nat → SliceOrder → Bool} (htotal : 0 ≤ totalQty)
    (enough : slices ≤ 1 ∨ slices ≤ totalQty) (success : ∀ i o, callback i o = true) :
    Conserves totalQty
      ((executeTwap symbol totalQty action slices (some callback)).map SliceOrder.qty) := by
  by_cases hone : slices ≤ 1
  · unfold executeTwap
    simp only [if_pos hone]
    exact ⟨by simpa using htotal, by simp⟩
  · have hshare : 1 ≤ totalQty / slices := by
      rw [Int.le_ediv_iff_mul_le (by omega)]
      omega
    rw [executeTwap_qtys (by omega) success, max_eq_right hshare]
    have hcast : ((slices.toNat : Nat) : Int) = slices := Int.toNat_of_nonneg (by omega)
    have hparts := conserves_partQtys (n := slices.toNat) htotal (by omega)
    rwa [hcast] at hparts

/-- The requests `place_order` hands the adapter for a TWAP order, as market orders. -/
def BrokerGateway.twapRequests (request : OrderRequest)
    (adapter : Nat → OrderRequest → Except PyExc OrderResponse) : List OrderRequest :=
  let sliceReq (o : SliceOrder) := { request with qty := o.qty, orderType := "MARKET" }
  let twapExecute (i : Nat) (o : SliceOrder) : Bool :=
    match adapter i (sliceReq o) with
    | .ok response => decide (response.status ≠ .failed)
    | .error _ => false
  (executeTwap request.symbol request.qty request.direction 5 (some twapExecute)).map sliceReq

theorem conserves_twapRequests {request : OrderRequest}
    {adapter : Nat → OrderRequest → Except PyExc OrderResponse} (enough : 5 ≤ request.qty)
    (success : ∀ i r, ∃ response, adapter i r = .ok response ∧ response.status ≠ .failed) :
    Conserves request.qty
      ((BrokerGateway.twapRequests request adapter).map OrderRequest.qty) := by
  unfold BrokerGateway.twapRequests
  rw [List.map_map]
  refine conserves_executeTwap (by omega) (.inr enough) fun i o => ?_
  obtain ⟨response, hanswer, hstatus⟩ :=
    success i { request with qty := o.qty, orderType := "MARKET" }
  simp only [hanswer]
  exact decide_eq_true hstatus

/-! ## Iceberg orders -/

structure IcebergChildTranche where
  trancheId : Nat
  exchange : String
  quantity : Int
  limitPrice : ℚ
  fillPrice : ℚ
  slippagePct : ℚ
  executionDelayMs : Int
  status : String
deriving DecidableEq, Repr

structure IcebergExecutionPlan where
  parentOrderId : String
  symbol : String
  side : String
  totalQuantity : Int
  filledQuantity : Int
  averageFillPrice : ℚ
  totalSlippagePct : ℚ
  bestExchange : String
  tranches : List IcebergChildTranche
deriving DecidableEq, Repr

/-- What one plan draws at random: the parent id, and each tranche's slippage and delay. -/
structure IcebergDraws where
  parentId : String
  slip : Nat → ℚ
  delayMs : Nat → Int

namespace IcebergSOREngine

def childTranche (benchmarkPrice : ℚ) (draws : IcebergDraws) (qty : Int) (i : Nat) :
    IcebergChildTranche where
  trancheId := i
  exchange := if i % 3 ≠ 0 then "NSE" else "BSE"
  quantity := qty
  limitPrice := benchmarkPrice
  fillPrice := roundTo 2 (benchmarkPrice * (1 + draws.slip i / 100))
  slippagePct := draws.slip i
  executionDelayMs := draws.delayMs i
  status := "FILLED"

/-- The tranches of the loop; the source counts them from one. -/
def childTranches (totalQuantity : Int) (benchmarkPrice : ℚ) (numTranches : Int)
    (draws : IcebergDraws) : List IcebergChildTranche :=
  let baseQty := totalQuantity.fdiv numTranches
  let remainder := totalQuantity.fmod numTranches
  (List.range numTranches.toNat).map fun i =>
    childTranche benchmarkPrice draws (partQty baseQty remainder numTranches.toNat i) (i + 1)

/-- `slice_and_execute`. -/
def sliceAndExecute (symbol side : String) (totalQuantity : Int) (benchmarkPrice : ℚ)
    (numTranches : Int) (draws : IcebergDraws) : Except PyExc IcebergExecutionPlan :=
  if numTranches = 0 then .error ⟨.other, "integer division or modulo by zero"⟩
  else
    let tranches := childTranches totalQuantity benchmarkPrice numTranches draws
    let totalCost := (tranches.map fun t => t.fillPrice * (t.quantity : ℚ)).sum
    let cumulativeQty := (tranches.map (·.quantity)).sum
    let avgPrice := roundTo 2 (totalCost / (max cumulativeQty 1 : Int))
    if benchmarkPrice = 0 then .error ⟨.other, "float division by zero"⟩
    else
      .ok {
        parentOrderId := draws.parentId
        symbol
        side
        totalQuantity
        filledQuantity := cumulativeQty
        averageFillPrice := avgPrice
        totalSlippagePct := roundTo 3 ((avgPrice - benchmarkPrice) / benchmarkPrice * 100)
        bestExchange := "NSE (70%) / BSE (30%)"
        tranches }

theorem conserves_childTranches {totalQuantity : Int} (benchmarkPrice : ℚ) {numTranches : Int}
    (draws : IcebergDraws) (htotal : 0 ≤ totalQuantity) (hnum : 1 ≤ numTranches) :
    Conserves totalQuantity
      ((childTranches totalQuantity benchmarkPrice numTranches draws).map (·.quantity)) := by
  have hcast : ((numTranches.toNat : Nat) : Int) = numTranches := Int.toNat_of_nonneg (by omega)
  have hparts := conserves_partQtys (n := numTranches.toNat) htotal (by omega)
  rw [hcast, ← Int.fdiv_eq_ediv_of_nonneg _ (by omega), ← Int.fmod_eq_emod_of_nonneg _ (by omega)]
    at hparts
  unfold childTranches
  rw [List.map_map]
  exact hparts

theorem sliceAndExecute_tranches {symbol side : String} {totalQuantity : Int} {benchmarkPrice : ℚ}
    {numTranches : Int} {draws : IcebergDraws} {plan : IcebergExecutionPlan}
    (h : sliceAndExecute symbol side totalQuantity benchmarkPrice numTranches draws = .ok plan) :
    plan.tranches = childTranches totalQuantity benchmarkPrice numTranches draws ∧
      plan.filledQuantity = (plan.tranches.map (·.quantity)).sum := by
  unfold sliceAndExecute at h
  split at h
  · cases h
  · dsimp only at h
    split at h
    · cases h
    · cases h
      exact ⟨rfl, rfl⟩

end IcebergSOREngine

/-! ## Scale-in entries -/

structure ScaleInConfig where
  scaleinFirstPct : ℚ := 1 / 2
  scaleinPullbackPct : ℚ := 3 / 1000
  scaleinTimeoutMins : Int := 5
deriving DecidableEq, Repr

structure ScaleInState where
  tradeId : String
  entryPrice : ℚ
  direction : String
  triggerPrice : ℚ
  timeoutTs : ℚ
  leg1Lots : Int
  leg2Lots : Int
  completed : Bool := false
  leg2FillPrice : ℚ := 0
deriving DecidableEq, Repr

namespace ScaleInManager

def leg1Lots (totalLots : Int) (cfg : ScaleInConfig) : Int :=
  max 1 (truncate (totalLots * cfg.scaleinFirstPct))

def leg2Lots (totalLots : Int) (cfg : ScaleInConfig) : Int :=
  max 1 (totalLots - leg1Lots totalLots cfg)

def createState (tradeId : String) (entryPrice : ℚ) (totalLots : Int) (direction : String)
    (cfg : ScaleInConfig) (now : ℚ) : ScaleInState :=
  let trigger :=
    if direction.toUpper = "CALL" then entryPrice * (1 - cfg.scaleinPullbackPct)
    else entryPrice * (1 + cfg.scaleinPullbackPct)
  { tradeId
    entryPrice
    direction := direction.toUpper
    triggerPrice := roundTo 2 trigger
    timeoutTs := now + cfg.scaleinTimeoutMins * 60
    leg1Lots := leg1Lots totalLots cfg
    leg2Lots := leg2Lots totalLots cfg }

theorem one_le_leg1Lots (totalLots : Int) (cfg : ScaleInConfig) : 1 ≤ leg1Lots totalLots cfg :=
  le_max_left _ _

theorem one_le_leg2Lots (totalLots : Int) (cfg : ScaleInConfig) : 1 ≤ leg2Lots totalLots cfg :=
  le_max_left _ _

theorem leg1Lots_lt_iff {totalLots : Int} {cfg : ScaleInConfig} (htotal : 1 ≤ totalLots)
    (h0 : 0 ≤ cfg.scaleinFirstPct) :
    leg1Lots totalLots cfg < totalLots ↔ 2 ≤ totalLots ∧ cfg.scaleinFirstPct < 1 := by
  have hpos : (0 : ℚ) < totalLots := by exact_mod_cast htotal
  have hfloor : truncate (totalLots * cfg.scaleinFirstPct) < totalLots ↔
      cfg.scaleinFirstPct < 1 := by
    rw [truncate, if_pos (mul_nonneg hpos.le h0), Rat.floor_lt_iff]
    exact mul_lt_iff_lt_one_right hpos
  unfold leg1Lots
  rw [max_lt_iff, hfloor]
  exact and_congr_left fun _ => Iff.rfl

theorem leg1Lots_le {totalLots : Int} {cfg : ScaleInConfig} (htotal : 1 ≤ totalLots)
    (h0 : 0 ≤ cfg.scaleinFirstPct) (h1 : cfg.scaleinFirstPct ≤ 1) :
    leg1Lots totalLots cfg ≤ totalLots := by
  have hpos : (0 : ℚ) < totalLots := by exact_mod_cast htotal
  refine max_le htotal ?_
  rw [truncate, if_pos (mul_nonneg hpos.le h0)]
  have hfloor := (Rat.floor_le (totalLots * cfg.scaleinFirstPct)).trans
    (mul_le_of_le_one_right hpos.le h1)
  exact_mod_cast hfloor

/-- The legs make up the total where both have a lot of it; else the second leg is one more. -/
theorem legs_sum {totalLots : Int} {cfg : ScaleInConfig} (htotal : 1 ≤ totalLots)
    (h0 : 0 ≤ cfg.scaleinFirstPct) (h1 : cfg.scaleinFirstPct ≤ 1) :
    leg1Lots totalLots cfg + leg2Lots totalLots cfg =
      if 2 ≤ totalLots ∧ cfg.scaleinFirstPct < 1 then totalLots else totalLots + 1 := by
  have hiff := leg1Lots_lt_iff htotal h0
  have hle := leg1Lots_le htotal h0 h1
  unfold leg2Lots
  split
  · rename_i hsplit
    have hlt := hiff.mpr hsplit
    omega
  · rename_i hsplit
    have hnot := mt hiff.mp hsplit
    omega

/-- A new entry splits its lots, or is for one lot more than asked. -/
theorem createState_legs {tradeId direction : String} {entryPrice now : ℚ} {totalLots : Int}
    {cfg : ScaleInConfig} (htotal : 1 ≤ totalLots) (h0 : 0 ≤ cfg.scaleinFirstPct)
    (h1 : cfg.scaleinFirstPct ≤ 1) :
    let state := createState tradeId entryPrice totalLots direction cfg now
    1 ≤ state.leg1Lots ∧ 1 ≤ state.leg2Lots ∧ totalLots ≤ state.leg1Lots + state.leg2Lots ∧
      state.leg1Lots + state.leg2Lots ≤ totalLots + 1 := by
  intro state
  have hsum : state.leg1Lots + state.leg2Lots = _ := legs_sum htotal h0 h1
  refine ⟨one_le_leg1Lots totalLots cfg, one_le_leg2Lots totalLots cfg, ?_⟩
  rw [hsum]
  split <;> omega

end ScaleInManager

/-! ## Conservation -/

/-- A TWAP order of at least one unit a slice and an iceberg order are sent whole and never exceeded
on the way. The legs of a scale-in entry have at least one lot each, and make up the total wherever
it has a lot for either. -/
theorem slices_conserve_quantity :
    (∀ (symbol action : String) (totalQty slices : Int) (callback : Nat → SliceOrder → Bool),
      0 ≤ totalQty → 1 ≤ slices → (slices = 1 ∨ slices ≤ totalQty) →
      (∀ i o, callback i o = true) →
      let qtys :=
        (executeTwap symbol totalQty action slices (some callback)).map SliceOrder.qty
      qtys.sum = totalQty ∧ ∀ k, (qtys.take k).sum ≤ totalQty) ∧
    (∀ (symbol side : String) (totalQuantity numTranches : Int) (benchmarkPrice : ℚ)
      (draws : IcebergDraws), 0 ≤ totalQuantity → 1 ≤ numTranches →
      Conserves totalQuantity ((IcebergSOREngine.childTranches totalQuantity benchmarkPrice
        numTranches draws).map (·.quantity)) ∧
      ∀ plan, IcebergSOREngine.sliceAndExecute symbol side totalQuantity benchmarkPrice
          numTranches draws = .ok plan →
        Conserves totalQuantity (plan.tranches.map (·.quantity)) ∧
          plan.filledQuantity = totalQuantity) ∧
    ∀ (totalLots : Int) (cfg : ScaleInConfig), 1 ≤ totalLots → 0 ≤ cfg.scaleinFirstPct →
      cfg.scaleinFirstPct ≤ 1 →
      1 ≤ ScaleInManager.leg1Lots totalLots cfg ∧ 1 ≤ ScaleInManager.leg2Lots totalLots cfg ∧
        (ScaleInManager.leg1Lots totalLots cfg + ScaleInManager.leg2Lots totalLots cfg =
          totalLots ↔ 2 ≤ totalLots ∧ cfg.scaleinFirstPct < 1) := by
  refine ⟨?_, ?_, ?_⟩
  · intro symbol action totalQty slices callback htotal _ enough success
    have hconserves := @conserves_executeTwap symbol totalQty action slices callback htotal
      (enough.imp_left fun h => h.le) success
    exact ⟨hconserves.sum, hconserves.partWay⟩
  · intro symbol side totalQuantity numTranches benchmarkPrice draws htotal hnum
    have hconserves :=
      IcebergSOREngine.conserves_childTranches benchmarkPrice draws htotal hnum
    refine ⟨hconserves, fun plan hplan => ?_⟩
    obtain ⟨htranches, hfilled⟩ := IcebergSOREngine.sliceAndExecute_tranches hplan
    rw [hfilled, htranches]
    exact ⟨hconserves, hconserves.sum⟩
  · intro totalLots cfg htotal h0 h1
    refine ⟨ScaleInManager.one_le_leg1Lots _ _, ScaleInManager.one_le_leg2Lots _ _, ?_⟩
    rw [ScaleInManager.legs_sum htotal h0 h1]
    split
    · rename_i hsplit
      exact iff_of_true rfl hsplit
    · rename_i hsplit
      exact iff_of_false (by omega) hsplit

theorem sample_orders_conserve_quantity :
    ((executeTwap "NIFTY" 78 "BUY" 5 (some fun _ _ => true)).map SliceOrder.qty).sum = 78 ∧
      Conserves 5003 ((IcebergSOREngine.childTranches 5003 2268 10
        { parentId := "ICE-1", slip := fun _ => 1 / 100, delayMs := fun _ => 500 }).map
          (·.quantity)) ∧
      ScaleInManager.leg1Lots 5 {} + ScaleInManager.leg2Lots 5 {} = 5 := by
  refine ⟨?_, ?_, ?_⟩
  · exact (slices_conserve_quantity.1 "NIFTY" "BUY" 78 5 _ (by decide) (by decide) (by decide)
      fun _ _ => rfl).1
  · exact (slices_conserve_quantity.2.1 "TCS" "BUY" 5003 10 2268 _ (by decide) (by decide)).1
  · exact (slices_conserve_quantity.2.2 5 {} (by decide) (by decide +kernel)
      (by decide +kernel)).2.2.mpr (by decide +kernel)

/-- One lot is bought twice, and so is a lot more where the first leg takes all of them. -/
theorem single_lot_bought_twice :
    ScaleInManager.leg1Lots 1 {} + ScaleInManager.leg2Lots 1 {} = 2 ∧
      ScaleInManager.leg1Lots 4 { scaleinFirstPct := 1 } +
        ScaleInManager.leg2Lots 4 { scaleinFirstPct := 1 } = 5 := by
  decide +kernel

end AutoTrade.Orders
