import AutoTrade.Runtime
import Mathlib.Algebra.Order.Field.Basic
import Mathlib.Tactic.Linarith
import Mathlib.Tactic.Ring

/-! # The cash sweep

`CollateralManager` of `core/portfolio/collateral_manager.py`: cash above a buffer
buys units of an ETF, and units are sold when cash is below it. A sale rounds up
by adding one to the quotient, also where that is a whole number; then it sells a
unit too many, which the next call buys back.
-/

namespace AutoTrade.Portfolio

inductive SweepSide
  | buyEtf
  | sellEtf
deriving DecidableEq, Repr

structure SweepAction where
  symbol : String
  action : SweepSide
  quantity : Int
  amountInr : ℚ
deriving DecidableEq, Repr

/-- What the constructor sets, of which a price is positive. -/
structure CollateralManager where
  liquidEtfSymbol : String := "LIQUIDBEES"
  liquidEtfPrice : ℚ := 1000
  price_pos : 0 < liquidEtfPrice := by decide

namespace CollateralManager

/-- The share of the portfolio to hold in cash; without the indicators the VIX counts as 15. -/
def dynamicBuffer (vix : Option ℚ) : ℚ :=
  if 20 < vix.getD 15 then 2 / 5 else if vix.getD 15 < 15 then 1 / 10 else 1 / 5

def requiredCashBuffer (totalPortfolioVal : ℚ) (vix : Option ℚ) : ℚ :=
  totalPortfolioVal * dynamicBuffer vix

def etfAction (m : CollateralManager) (action : SweepSide) (quantity : Int) : SweepAction :=
  { symbol := m.liquidEtfSymbol, action, quantity, amountInr := quantity * m.liquidEtfPrice }

/-- `int(amount // self.LIQUID_ETF_PRICE)`. -/
def units (m : CollateralManager) (amount : ℚ) : Int := (amount / m.liquidEtfPrice).floor

def analyzeCashDrag (m : CollateralManager) (totalPortfolioVal : ℚ) (vix : Option ℚ)
    (currentCash : ℚ) (currentEtfQty : Int) : List SweepAction :=
  if totalPortfolioVal ≤ 0 then []
  else
    let required := requiredCashBuffer totalPortfolioVal vix
    if required < currentCash then
      let qtyToBuy := m.units (currentCash - required)
      if 0 < qtyToBuy then [m.etfAction .buyEtf qtyToBuy] else []
    else if currentCash < required ∧ 0 < currentEtfQty then
      let qtyToSell := min (m.units (required - currentCash) + 1) currentEtfQty
      if 0 < qtyToSell then [m.etfAction .sellEtf qtyToSell] else []
    else []

end CollateralManager

/-! ## Applying an action -/

structure CashPosition where
  cash : ℚ
  etfQty : Int
deriving DecidableEq, Repr

def SweepAction.apply (a : SweepAction) (s : CashPosition) : CashPosition :=
  match a.action with
  | .buyEtf => ⟨s.cash - a.amountInr, s.etfQty + a.quantity⟩
  | .sellEtf => ⟨s.cash + a.amountInr, s.etfQty - a.quantity⟩

namespace CollateralManager

/-- What an action leaves is sound, and the next call proposes nothing, unless all was sold. -/
structure Settles (m : CollateralManager) (totalPortfolioVal : ℚ) (vix : Option ℚ)
    (s : CashPosition) (a : SweepAction) : Prop where
  held : 0 ≤ (a.apply s).etfQty
  sold : a.action = .sellEtf → requiredCashBuffer totalPortfolioVal vix ≤ (a.apply s).cash ∨
    (a.apply s).etfQty = 0
  bought : a.action = .buyEtf → requiredCashBuffer totalPortfolioVal vix ≤ (a.apply s).cash
  settled : (a.action = .sellEtf ∧ (a.apply s).etfQty = 0) ∨
    m.analyzeCashDrag totalPortfolioVal vix (a.apply s).cash (a.apply s).etfQty = []

/-- Cash is short of the buffer by the price of a number of units, and the holding has more than one
unit beyond them. -/
def ShortByUnits (m : CollateralManager) (totalPortfolioVal : ℚ) (vix : Option ℚ)
    (s : CashPosition) : Prop :=
  ∃ n : Int, 0 < n ∧ requiredCashBuffer totalPortfolioVal vix - s.cash = n * m.liquidEtfPrice ∧
    n + 1 < s.etfQty

section Sweep

variable {m : CollateralManager} {totalPortfolioVal : ℚ} {vix : Option ℚ} {s : CashPosition}

/-! ## What is left of a deficit or an excess -/

/-- The quotient takes whole prices out of an amount and leaves less than one. -/
theorem units_rest (m : CollateralManager) (amount : ℚ) :
    m.units amount * m.liquidEtfPrice ≤ amount ∧
      amount < m.units amount * m.liquidEtfPrice + m.liquidEtfPrice := by
  have hle : (m.units amount : ℚ) ≤ amount / m.liquidEtfPrice := Rat.floor_le _
  have hlt : amount / m.liquidEtfPrice < ((m.units amount + 1 : Int) : ℚ) :=
    Rat.lt_floor_add_one _
  rw [le_div_iff₀ m.price_pos] at hle
  rw [div_lt_iff₀ m.price_pos, Int.cast_add, Int.cast_one, add_mul, one_mul] at hlt
  exact ⟨hle, hlt⟩

theorem units_pos_iff (m : CollateralManager) (amount : ℚ) :
    0 < m.units amount ↔ m.liquidEtfPrice ≤ amount := by
  unfold units
  rw [Int.lt_iff_add_one_le, zero_add, Rat.le_floor_iff, Int.cast_one, le_div_iff₀ m.price_pos,
    one_mul]

theorem units_nonneg (m : CollateralManager) {amount : ℚ} (h : 0 ≤ amount) : 0 ≤ m.units amount :=
  Rat.le_floor_iff.mpr (by exact_mod_cast div_nonneg h m.price_pos.le)

theorem units_mul (m : CollateralManager) (n : Int) : m.units (n * m.liquidEtfPrice) = n := by
  unfold units
  rw [mul_div_cancel_right₀ _ m.price_pos.ne', Rat.floor_intCast]

/-- An action buys what the excess pays for, or sells what makes up for the deficit, as far as the
holding goes. -/
theorem analyzeCashDrag_cases {a : SweepAction}
    (h : a ∈ m.analyzeCashDrag totalPortfolioVal vix s.cash s.etfQty) :
    (requiredCashBuffer totalPortfolioVal vix < s.cash ∧
      a = m.etfAction .buyEtf (m.units (s.cash - requiredCashBuffer totalPortfolioVal vix))) ∨
    (s.cash < requiredCashBuffer totalPortfolioVal vix ∧ 0 < s.etfQty ∧
      a = m.etfAction .sellEtf
        (min (m.units (requiredCashBuffer totalPortfolioVal vix - s.cash) + 1) s.etfQty)) := by
  unfold analyzeCashDrag at h
  split at h
  · cases h
  · dsimp only at h
    split at h
    · rename_i hexcess
      split at h
      · exact .inl ⟨hexcess, List.mem_singleton.mp h⟩
      · cases h
    · split at h
      · rename_i hdeficit
        split at h
        · exact .inr ⟨hdeficit.1, hdeficit.2, List.mem_singleton.mp h⟩
        · cases h
      · cases h

/-- A deficit proposes a sale as long as something is held. -/
theorem analyzeCashDrag_deficit (hvalue : 0 < totalPortfolioVal)
    (hdeficit : s.cash < requiredCashBuffer totalPortfolioVal vix) (hheld : 0 < s.etfQty) :
    m.analyzeCashDrag totalPortfolioVal vix s.cash s.etfQty = [m.etfAction .sellEtf
      (min (m.units (requiredCashBuffer totalPortfolioVal vix - s.cash) + 1) s.etfQty)] := by
  have hunits : 0 ≤ m.units (requiredCashBuffer totalPortfolioVal vix - s.cash) :=
    m.units_nonneg (sub_nonneg.mpr hdeficit.le)
  unfold analyzeCashDrag
  rw [if_neg (not_le.mpr hvalue)]
  dsimp only
  rw [if_neg hdeficit.not_gt, if_pos ⟨hdeficit, hheld⟩, if_pos (lt_min (by omega) hheld)]

/-- At the buffer or above it nothing is proposed as long as the excess does not pay for a unit. -/
theorem analyzeCashDrag_eq_nil_iff (m : CollateralManager) (etfQty : Int)
    (hvalue : 0 < totalPortfolioVal) {cash : ℚ} (hle : requiredCashBuffer totalPortfolioVal vix ≤ cash) :
    m.analyzeCashDrag totalPortfolioVal vix cash etfQty = [] ↔
      cash < requiredCashBuffer totalPortfolioVal vix + m.liquidEtfPrice := by
  unfold analyzeCashDrag
  rw [if_neg (not_le.mpr hvalue)]
  dsimp only
  split
  · split
    · rename_i hpays
      rw [units_pos_iff, le_sub_iff_add_le'] at hpays
      exact iff_of_false (List.cons_ne_nil _ _) (not_lt.mpr hpays)
    · rename_i hpays
      rw [units_pos_iff, le_sub_iff_add_le'] at hpays
      exact iff_of_true rfl (not_le.mp hpays)
  · rename_i hexcess
    have hat : cash = requiredCashBuffer totalPortfolioVal vix := le_antisymm (not_lt.mp hexcess) hle
    rw [if_neg fun hdeficit => absurd hdeficit.1 (not_lt.mpr hle), hat]
    exact iff_of_true rfl (lt_add_of_pos_right _ m.price_pos)

/-! ## One sweep -/

theorem settles_buy (hvalue : 0 < totalPortfolioVal) (hheld : 0 ≤ s.etfQty)
    (hexcess : requiredCashBuffer totalPortfolioVal vix < s.cash) :
    m.Settles totalPortfolioVal vix s
      (m.etfAction .buyEtf (m.units (s.cash - requiredCashBuffer totalPortfolioVal vix))) := by
  obtain ⟨hpaid, hrest⟩ := m.units_rest (s.cash - requiredCashBuffer totalPortfolioVal vix)
  have hunits : 0 ≤ m.units (s.cash - requiredCashBuffer totalPortfolioVal vix) :=
    m.units_nonneg (sub_nonneg.mpr hexcess.le)
  have hbuffer : requiredCashBuffer totalPortfolioVal vix ≤ s.cash -
      m.units (s.cash - requiredCashBuffer totalPortfolioVal vix) * m.liquidEtfPrice := by linarith
  refine ⟨add_nonneg hheld hunits, fun h => (by cases h), fun _ => hbuffer, .inr ?_⟩
  exact (analyzeCashDrag_eq_nil_iff m _ hvalue hbuffer).mpr (by linarith)

theorem shortByUnits_iff (hdeficit : s.cash < requiredCashBuffer totalPortfolioVal vix) :
    m.ShortByUnits totalPortfolioVal vix s ↔
      requiredCashBuffer totalPortfolioVal vix - s.cash =
          m.units (requiredCashBuffer totalPortfolioVal vix - s.cash) * m.liquidEtfPrice ∧
        m.units (requiredCashBuffer totalPortfolioVal vix - s.cash) + 1 < s.etfQty := by
  constructor
  · rintro ⟨n, -, hexact, hpart⟩
    rw [hexact, units_mul]
    exact ⟨rfl, hpart⟩
  · rintro ⟨hexact, hpart⟩
    refine ⟨_, ?_, hexact, hpart⟩
    have hpos : 0 < (m.units (requiredCashBuffer totalPortfolioVal vix - s.cash) : ℚ) *
        m.liquidEtfPrice := hexact ▸ sub_pos.mpr hdeficit
    exact_mod_cast (mul_pos_iff_of_pos_right m.price_pos).mp hpos

/-- A sale of one unit more than a deficit has settles unless the deficit is a number of units. -/
theorem settles_sell_part {n : Int} (hvalue : 0 < totalPortfolioVal)
    (hn : n = m.units (requiredCashBuffer totalPortfolioVal vix - s.cash))
    (hpart : n + 1 < s.etfQty) :
    m.Settles totalPortfolioVal vix s (m.etfAction .sellEtf (n + 1)) ↔
      requiredCashBuffer totalPortfolioVal vix - s.cash ≠ n * m.liquidEtfPrice := by
  obtain ⟨hpaid, hrest⟩ := m.units_rest (requiredCashBuffer totalPortfolioVal vix - s.cash)
  rw [← hn] at hpaid hrest
  have hcash : ((m.etfAction .sellEtf (n + 1)).apply s).cash =
      s.cash + (n * m.liquidEtfPrice + m.liquidEtfPrice) := by
    change s.cash + ((n + 1 : Int) : ℚ) * m.liquidEtfPrice = _
    push_cast
    ring
  have hbuffer : requiredCashBuffer totalPortfolioVal vix ≤
      ((m.etfAction .sellEtf (n + 1)).apply s).cash := by
    rw [hcash]
    linarith
  have hleft : 0 < ((m.etfAction .sellEtf (n + 1)).apply s).etfQty := sub_pos.mpr hpart
  have hnext := analyzeCashDrag_eq_nil_iff m ((m.etfAction .sellEtf (n + 1)).apply s).etfQty
    hvalue hbuffer
  constructor
  · intro settles hexact
    rcases settles.settled with ⟨-, hall⟩ | hnil
    · exact hleft.ne' hall
    · have hlt := hnext.mp hnil
      rw [hcash] at hlt
      linarith
  · intro hinexact
    refine ⟨hleft.le, fun _ => .inl hbuffer, fun h => (by cases h), .inr (hnext.mpr ?_)⟩
    have hlt := lt_of_le_of_ne hpaid (Ne.symm hinexact)
    rw [hcash]
    linarith

/-- A sale of the whole holding settles. -/
theorem settles_sell_all : m.Settles totalPortfolioVal vix s (m.etfAction .sellEtf s.etfQty) :=
  have hall : ((m.etfAction .sellEtf s.etfQty).apply s).etfQty = 0 := sub_self s.etfQty
  ⟨hall.ge, fun _ => .inr hall, fun h => (by cases h), .inl ⟨rfl, hall⟩⟩

end Sweep

/-- What the sweep proposes settles exactly when cash is not short of the buffer by a number of units,
with more than one unit held beyond them. -/
theorem sweep_settles_iff (m : CollateralManager) (totalPortfolioVal : ℚ) (vix : Option ℚ)
    (s : CashPosition) (hvalue : 0 < totalPortfolioVal) (hheld : 0 ≤ s.etfQty) :
    (∀ a ∈ m.analyzeCashDrag totalPortfolioVal vix s.cash s.etfQty,
        m.Settles totalPortfolioVal vix s a) ↔
      ¬ m.ShortByUnits totalPortfolioVal vix s := by
  constructor
  · intro settles hshort
    obtain ⟨n, hpos, hexact, hpart⟩ := hshort
    have hdeficit : s.cash < requiredCashBuffer totalPortfolioVal vix := by
      refine sub_pos.mp (hexact ▸ mul_pos ?_ m.price_pos)
      exact_mod_cast hpos
    obtain ⟨hwhole, hbeyond⟩ := (shortByUnits_iff hdeficit).mp ⟨n, hpos, hexact, hpart⟩
    rw [analyzeCashDrag_deficit hvalue hdeficit (by omega), List.forall_mem_singleton,
      min_eq_left hbeyond.le] at settles
    exact (settles_sell_part hvalue rfl hbeyond).mp settles hwhole
  · intro hnot a ha
    rcases analyzeCashDrag_cases ha with ⟨hexcess, rfl⟩ | ⟨hdeficit, -, rfl⟩
    · exact settles_buy hvalue hheld hexcess
    · rw [shortByUnits_iff hdeficit] at hnot
      by_cases hpart : m.units (requiredCashBuffer totalPortfolioVal vix - s.cash) + 1 < s.etfQty
      · rw [min_eq_left hpart.le]
        exact (settles_sell_part hvalue rfl hpart).mpr fun hexact => hnot ⟨hexact, hpart⟩
      · rw [min_eq_right (not_lt.mp hpart)]
        exact settles_sell_all

/-- A deficit of 1500 sells two of three units, and that is all. -/
theorem sweep_settles_halves :
    analyzeCashDrag {} 10000 (some 15) 500 3 = [etfAction {} .sellEtf 2] ∧
      Settles {} 10000 (some 15) ⟨500, 3⟩ (etfAction {} .sellEtf 2) := by
  have hsells : analyzeCashDrag {} 10000 (some 15) 500 3 = [etfAction {} .sellEtf 2] := by
    decide +kernel
  have hinexact : ¬ ShortByUnits {} 10000 (some 15) ⟨500, 3⟩ := fun hshort =>
    absurd ((shortByUnits_iff (by decide +kernel)).mp hshort).1 (by decide +kernel)
  refine ⟨hsells, ?_⟩
  exact (sweep_settles_iff {} 10000 (some 15) ⟨500, 3⟩ (by decide) (by decide)).mpr hinexact _
    (hsells ▸ List.mem_singleton_self _)

/-- A deficit of 1000 sells two of three units, and one of them is bought back. -/
theorem sale_is_bought_back :
    analyzeCashDrag {} 10000 (some 15) 1000 3 = [etfAction {} .sellEtf 2] ∧
      analyzeCashDrag {} 10000 (some 15) 3000 1 = [etfAction {} .buyEtf 1] ∧
      ¬ Settles {} 10000 (some 15) ⟨1000, 3⟩ (etfAction {} .sellEtf 2) := by
  refine ⟨by decide +kernel, by decide +kernel, fun settles => ?_⟩
  rcases settles.settled with ⟨-, hall⟩ | hnil
  · exact absurd hall (by decide)
  · exact absurd hnil (by decide +kernel)

end CollateralManager

end AutoTrade.Portfolio
