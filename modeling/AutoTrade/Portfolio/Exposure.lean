import AutoTrade.Library.Totals
import AutoTrade.Portfolio.Accounting

/-! # Exposure views

`PortfolioDataService` over the positions of a portfolio service: the exposure of
each asset class, the total and the net exposure. A market value has the sign of
its quantity; the net exposure takes it off once more for a short position, so
that shorts add to it.
-/

namespace AutoTrade.Portfolio

open AutoTrade.Library

structure ExposureRecord where
  assetClass : String
  longExposure : ℚ := 0
  shortExposure : ℚ := 0
  netExposure : ℚ := 0
  grossExposure : ℚ := 0
  marginUsed : ℚ := 0
  pnl : ℚ := 0
deriving DecidableEq, Repr

/-- `symbol.split("_")[0] if "_" in symbol else "EQUITY"`. -/
def assetClassOf (symbol : String) : String :=
  if '_' ∈ symbol.toList then String.ofList (symbol.toList.takeWhile (· ≠ '_')) else "EQUITY"

def ExposureRecord.take (record : ExposureRecord) (pos : Position) : ExposureRecord :=
  let longExposure :=
    if 0 < pos.quantity then record.longExposure + |pos.marketValue| else record.longExposure
  let shortExposure :=
    if pos.quantity < 0 then record.shortExposure + |pos.marketValue| else record.shortExposure
  { record with
    longExposure
    shortExposure
    netExposure := longExposure - shortExposure
    grossExposure := longExposure + shortExposure
    pnl := record.pnl + (pos.unrealizedPnl + pos.realizedPnl) }

namespace PortfolioService

def getExposures (s : PortfolioService) : Dict String ExposureRecord :=
  s.positions.rows.foldl
    (Dict.addTo (fun e => assetClassOf e.1) (fun assetClass => { assetClass })
      fun record e => record.take e.2)
    Table.empty

def totalExposure (s : PortfolioService) : ℚ := s.positions.total fun p => |p.marketValue|

/-- What a position adds to the net exposure. -/
def netOf (p : Position) : ℚ := if 0 < p.quantity then p.marketValue else -p.marketValue

def netExposure (s : PortfolioService) : ℚ := s.positions.total netOf

/-! ## The views by asset class -/

/-- What a position adds to the net exposure of its asset class. -/
def classNetOf (p : Position) : ℚ :=
  (if 0 < p.quantity then |p.marketValue| else 0) - if p.quantity < 0 then |p.marketValue| else 0

def classGrossOf (p : Position) : ℚ :=
  (if 0 < p.quantity then |p.marketValue| else 0) + if p.quantity < 0 then |p.marketValue| else 0

/-- The net and the gross exposure are those of the long and the short one. -/
def Balanced (record : ExposureRecord) : Prop :=
  record.netExposure = record.longExposure - record.shortExposure ∧
    record.grossExposure = record.longExposure + record.shortExposure

theorem balanced_new (assetClass : String) : Balanced { assetClass } :=
  ⟨(sub_zero 0).symm, (add_zero 0).symm⟩

theorem take_balanced (record : ExposureRecord) (pos : Position) : Balanced (record.take pos) :=
  ⟨rfl, rfl⟩

theorem take_net {record : ExposureRecord} (h : Balanced record) (pos : Position) :
    (record.take pos).netExposure = record.netExposure + classNetOf pos := by
  rw [h.1]
  unfold ExposureRecord.take classNetOf
  dsimp only
  split
  · split <;> ring
  · split <;> ring

theorem take_gross {record : ExposureRecord} (h : Balanced record) (pos : Position) :
    (record.take pos).grossExposure = record.grossExposure + classGrossOf pos := by
  rw [h.2]
  unfold ExposureRecord.take classGrossOf
  dsimp only
  split
  · split <;> ring
  · split <;> ring

theorem total_getExposures_net (s : PortfolioService) :
    s.getExposures.total ExposureRecord.netExposure = s.positions.total classNetOf := by
  refine (Dict.total_foldl_addTo (I := Balanced) (fun k => ⟨balanced_new k, rfl⟩) (fun v x hv =>
    ⟨take_balanced v x.2, take_net hv x.2⟩) _ _ fun k v hk => ?_).trans (zero_add _)
  cases hk

theorem total_getExposures_gross (s : PortfolioService) :
    s.getExposures.total ExposureRecord.grossExposure = s.positions.total classGrossOf := by
  refine (Dict.total_foldl_addTo (I := Balanced) (fun k => ⟨balanced_new k, rfl⟩) (fun v x hv =>
    ⟨take_balanced v x.2, take_gross hv x.2⟩) _ _ fun k v hk => ?_).trans (zero_add _)
  cases hk

section Position

variable {p : Position}

theorem classGrossOf_eq (hopen : p.quantity ≠ 0) : classGrossOf p = |p.marketValue| := by
  unfold classGrossOf
  rcases lt_or_gt_of_ne hopen with hshort | hlong
  · rw [if_neg hshort.not_gt, if_pos hshort, zero_add]
  · rw [if_pos hlong, if_neg hlong.not_gt, add_zero]

theorem abs_netOf (p : Position) : |netOf p| = |p.marketValue| := by
  unfold netOf
  split
  · rfl
  · exact abs_neg _

theorem netOf_long (hlong : 0 < p.quantity) :
    netOf p = p.marketValue ∧ classNetOf p = |p.marketValue| := by
  unfold netOf classNetOf
  rw [if_pos hlong, if_pos hlong, if_neg hlong.not_gt, sub_zero]
  exact ⟨rfl, rfl⟩

theorem netOf_short (hshort : p.quantity < 0) :
    netOf p = -p.marketValue ∧ classNetOf p = -|p.marketValue| := by
  unfold netOf classNetOf
  rw [if_neg hshort.not_gt, if_neg hshort.not_gt, if_pos hshort, zero_sub]
  exact ⟨rfl, rfl⟩

/-- The two nets of a position are the same unless its value is negative. -/
theorem netOf_eq_iff (hopen : p.quantity ≠ 0) : netOf p = classNetOf p ↔ 0 ≤ p.marketValue := by
  rcases lt_or_gt_of_ne hopen with hshort | hlong
  · rw [(netOf_short hshort).1, (netOf_short hshort).2, neg_inj, eq_comm, abs_eq_self]
  · rw [(netOf_long hlong).1, (netOf_long hlong).2, eq_comm, abs_eq_self]

/-- Where the value has the sign of the quantity, the net exposure counts no position lower than its
asset class does. -/
theorem classNetOf_le_netOf (hopen : p.quantity ≠ 0) (hsign : 0 ≤ p.quantity * p.marketValue) :
    classNetOf p ≤ netOf p := by
  rcases lt_or_gt_of_ne hopen with hshort | hlong
  · rw [(netOf_short hshort).1, (netOf_short hshort).2]
    exact neg_le_neg (le_abs_self _)
  · have hvalue := nonneg_of_mul_nonneg_right hsign hlong
    rw [(netOf_long hlong).1, (netOf_long hlong).2, abs_of_nonneg hvalue]

end Position

/-! ## Agreement in one state -/

structure ViewsAgree (s : PortfolioService) : Prop where
  net : s.netExposure = s.getExposures.total ExposureRecord.netExposure
  gross : s.totalExposure = s.getExposures.total ExposureRecord.grossExposure
  bound : |s.netExposure| ≤ s.totalExposure

/-- No position is worth less than nothing. -/
def NoneNegative (s : PortfolioService) : Prop :=
  ∀ symbol p, s.positions.get? symbol = some p → 0 ≤ p.marketValue

/-- Every value has the sign of its quantity. -/
def SignsMatch (s : PortfolioService) : Prop :=
  ∀ symbol p, s.positions.get? symbol = some p → 0 ≤ p.quantity * p.marketValue

section State

variable {s : PortfolioService}

theorem viewsAgree_iff_net (hopen : s.AllOpen) :
    s.ViewsAgree ↔ s.positions.total netOf = s.positions.total classNetOf := by
  constructor
  · intro agree
    rw [← total_getExposures_net, ← agree.net]
    rfl
  · intro hnet
    refine ⟨?_, ?_, ?_⟩
    · rw [total_getExposures_net, ← hnet]
      rfl
    · rw [total_getExposures_gross]
      exact Dict.total_congr fun symbol p hp => (classGrossOf_eq (hopen symbol p hp)).symm
    · have hle := Dict.abs_total_le s.positions netOf
      simp only [abs_netOf] at hle
      exact hle

theorem viewsAgree_of_noneNegative (hopen : s.AllOpen) (h : s.NoneNegative) : s.ViewsAgree :=
  (viewsAgree_iff_net hopen).mpr <| Dict.total_congr fun symbol p hp =>
    (netOf_eq_iff (hopen symbol p hp)).mpr (h symbol p hp)

/-- Where the values have the signs of their quantities, nothing makes up for a short position. -/
theorem viewsAgree_iff_noneNegative (hopen : s.AllOpen) (hsigns : s.SignsMatch) :
    s.ViewsAgree ↔ s.NoneNegative := by
  refine ⟨fun agree symbol p hp => ?_, viewsAgree_of_noneNegative hopen⟩
  have heach := (Dict.total_eq_iff_of_le fun k v hv =>
    classNetOf_le_netOf (hopen k v hv) (hsigns k v hv)).mp ((viewsAgree_iff_net hopen).mp agree)
  exact (netOf_eq_iff (hopen symbol p hp)).mp (heach symbol p hp)

end State

/-! ## What a fill does to the positions -/

/-- The quantity that a fill leaves. -/
def quantityAfter (s : PortfolioService) (fill : Fill) : ℚ :=
  (s.holdingOf fill.symbol).quantity + fill.signed

section After

variable {s : PortfolioService} {fill : Fill}

theorem quantityAfter_fresh (hfresh : s.positions.get? fill.symbol = none) :
    s.quantityAfter fill = fill.signed := by
  unfold quantityAfter holdingOf
  rw [hfresh]
  exact zero_add _

theorem quantityAfter_held {old : Position} (hheld : s.positions.get? fill.symbol = some old) :
    s.quantityAfter fill = old.quantity + fill.signed := by
  unfold quantityAfter
  rw [holdingOf_eq_of_get? hheld]

end After

/-- A fill takes its position away, leaves it as it was where that fails, or puts one in its place that
is valued at the price of the fill. -/
theorem updatePosition_positions (s : PortfolioService) (fill : Fill) :
    (s.quantityAfter fill = 0 ∧ ((s.updatePosition fill).1.positions = s.positions ∨
      (s.updatePosition fill).1.positions = s.positions.erase fill.symbol)) ∨
    s.quantityAfter fill ≠ 0 ∧ ∃ p : Position, p.quantity = s.quantityAfter fill ∧
      p.marketValue = s.quantityAfter fill * fill.price ∧
      (s.updatePosition fill).1.positions = s.positions.set fill.symbol p := by
  cases hold : s.positions.get? fill.symbol with
  | none =>
      rw [quantityAfter_fresh hold]
      refine .inr ⟨fill.signed_ne_zero, ?_⟩
      unfold updatePosition
      dsimp only
      rw [hold]
      exact ⟨_, rfl, rfl, rfl⟩
  | some old =>
      rw [quantityAfter_held hold]
      unfold updatePosition
      dsimp only
      rw [hold]
      dsimp only
      split
      · rename_i hclosed
        refine .inl ⟨hclosed, ?_⟩
        split
        · exact .inl rfl
        · exact .inr rfl
      · rename_i hleft
        refine .inr ⟨hleft, ?_⟩
        split
        · exact ⟨_, rfl, rfl, rfl⟩
        · split
          · split <;> exact ⟨_, rfl, rfl, rfl⟩
          · split <;> exact ⟨_, rfl, rfl, rfl⟩

/-- What holds of every position holds after a fill, if it holds of the one that the fill leaves. -/
theorem forall_updatePosition {s : PortfolioService} {fill : Fill} {P : Position → Prop}
    (h : ∀ symbol p, s.positions.get? symbol = some p → P p)
    (hnew : ∀ p : Position, s.quantityAfter fill ≠ 0 → p.quantity = s.quantityAfter fill →
      p.marketValue = s.quantityAfter fill * fill.price → P p) :
    ∀ symbol p, (s.updatePosition fill).1.positions.get? symbol = some p → P p := by
  intro symbol p hp
  rcases s.updatePosition_positions fill with ⟨-, hsame | herased⟩ | ⟨hleft, new, hq, hvalue, hset⟩
  · rw [hsame] at hp
    exact h symbol p hp
  · rw [herased, Dict.get?_erase] at hp
    split at hp
    · cases hp
    · exact h symbol p hp
  · rw [hset, Dict.get?_set] at hp
    split at hp
    · exact Option.some.inj hp ▸ hnew new hleft hq hvalue
    · exact h symbol p hp

/-! ## Runs of fills -/

def fillStep (s : PortfolioService) (fill : Fill) : PortfolioService := (s.updatePosition fill).1

/-- The position that the fill leaves is not worth less than nothing: at a positive price it is not
short. -/
def LeavesNoShort (s : PortfolioService) (fill : Fill) : Prop :=
  0 ≤ s.quantityAfter fill * fill.price

instance (s : PortfolioService) (fill : Fill) : Decidable (s.LeavesNoShort fill) :=
  inferInstanceAs (Decidable (0 ≤ _))

/-- A fill that opens a short on a symbol without a position lowers the net exposure by its value. -/
def NetFalls (s : PortfolioService) (fill : Fill) : Prop :=
  s.positions.get? fill.symbol = none → fill.direction ≠ "BUY" →
    (s.fillStep fill).netExposure = s.netExposure - |fill.quantity * fill.price|

section Step

variable {s : PortfolioService} {fill : Fill}

theorem AllOpen.fillStep (hopen : s.AllOpen) : (s.fillStep fill).AllOpen :=
  forall_updatePosition (P := fun p => p.quantity ≠ 0) hopen fun _ hleft hq _ => hq ▸ hleft

theorem NoneNegative.fillStep (h : s.NoneNegative) (hfill : s.LeavesNoShort fill) :
    (s.fillStep fill).NoneNegative :=
  forall_updatePosition (P := fun p => 0 ≤ p.marketValue) h fun _ _ _ hvalue => hvalue ▸ hfill

theorem SignsMatch.fillStep (h : s.SignsMatch) (hprice : 0 ≤ fill.price) :
    (s.fillStep fill).SignsMatch := by
  refine forall_updatePosition (P := fun p => 0 ≤ p.quantity * p.marketValue) h ?_
  intro p _ hq hvalue
  rw [hq, hvalue, ← mul_assoc]
  exact mul_nonneg (mul_self_nonneg _) hprice

theorem netFalls_of_leavesNoShort (hfill : s.LeavesNoShort fill) : s.NetFalls fill := by
  intro hfresh hside
  have hsigned : fill.signed = -fill.quantity := if_neg hside
  have hafter : s.quantityAfter fill = -fill.quantity := by
    rw [quantityAfter_fresh hfresh, hsigned]
  have hvalue : 0 ≤ -fill.quantity * fill.price := hafter ▸ hfill
  have hworth : |fill.quantity * fill.price| = -fill.quantity * fill.price := by
    rw [← abs_neg, ← neg_mul, abs_of_nonneg hvalue]
  rcases s.updatePosition_positions fill with ⟨hclosed, -⟩ | ⟨-, p, hq, hmarket, hset⟩
  · exact absurd (hafter.symm.trans hclosed) (neg_ne_zero.mpr fill.quantity_pos.ne')
  · have hshort : p.quantity < 0 := by
      rw [hq, hafter]
      exact neg_lt_zero.mpr fill.quantity_pos
    unfold netExposure PortfolioService.fillStep
    rw [hset, Dict.total_set_eq, hfresh, (netOf_short hshort).1, hmarket, hafter]
    rw [hworth, Option.map_none, Option.getD_none, sub_zero, sub_eq_add_neg]

/-- After a fill at a price that is not negative the views agree only if it leaves no short. -/
theorem leavesNoShort_of_viewsAgree (hopen : s.AllOpen) (hsigns : s.SignsMatch)
    (hprice : 0 ≤ fill.price) (agree : (s.fillStep fill).ViewsAgree) : s.LeavesNoShort fill := by
  have hnone := (viewsAgree_iff_noneNegative hopen.fillStep (hsigns.fillStep hprice)).mp agree
  unfold LeavesNoShort
  rcases s.updatePosition_positions fill with ⟨hclosed, -⟩ | ⟨-, p, -, hvalue, hset⟩
  · rw [hclosed, zero_mul]
  · rw [← hvalue]
    refine hnone fill.symbol p ?_
    unfold PortfolioService.fillStep
    rw [hset, Dict.get?_set_self]

end Step

/-- Anything holds of the positions of a service without any. -/
theorem forall_noPositions (history : TradeHistory) (P : Position → Prop) : ∀ symbol p,
    ({ tradeHistory := history } : PortfolioService).positions.get? symbol = some p → P p := by
  intro symbol p hp
  cases hp

/-- From a service without positions: the views of the exposure agree throughout a run of fills, and
new shorts lower the net exposure, if no fill leaves a short; and where no price is negative, only
then. -/
theorem exposure_views_agree (history : TradeHistory) (fills : List Fill) :
    (StepsMeet fillStep LeavesNoShort { tradeHistory := history } fills →
      Always fillStep ViewsAgree { tradeHistory := history } fills ∧
        StepsMeet fillStep NetFalls { tradeHistory := history } fills) ∧
    ((∀ fill ∈ fills, 0 ≤ fill.price) →
      Always fillStep ViewsAgree { tradeHistory := history } fills ∧
        StepsMeet fillStep NetFalls { tradeHistory := history } fills →
      StepsMeet fillStep LeavesNoShort { tradeHistory := history } fills) := by
  constructor
  · intro meet
    obtain ⟨always, falls⟩ := always_and_stepsMeet
      (I := fun s : PortfolioService => s.AllOpen ∧ s.NoneNegative)
      (fun s fill _ h hfill =>
        ⟨⟨h.1.fillStep, h.2.fillStep hfill⟩, netFalls_of_leavesNoShort hfill⟩)
      ⟨forall_noPositions history _, forall_noPositions history _⟩ meet
    exact ⟨always.mono fun s h => viewsAgree_of_noneNegative h.1 h.2, falls⟩
  · intro hprices
    refine (always_and_stepsMeet_iff
      (J := fun s : PortfolioService => s.AllOpen ∧ s.NoneNegative ∧ s.SignsMatch) ?_ ?_ ?_ ?_).mp
    · exact fun s h => viewsAgree_of_noneNegative h.1 h.2.1
    · exact fun s fill hmem h hfill => ⟨⟨h.1.fillStep, h.2.1.fillStep hfill,
        h.2.2.fillStep (hprices fill hmem)⟩, netFalls_of_leavesNoShort hfill⟩
    · exact fun s fill hmem h agree _ =>
        leavesNoShort_of_viewsAgree h.1 h.2.2 (hprices fill hmem) agree
    · exact ⟨forall_noPositions history _, forall_noPositions history _,
        forall_noPositions history _⟩

def sampleFill (symbol direction : String) (quantity price : ℚ) (h : 0 < quantity) : Fill :=
  { symbol, direction, quantity, price, timestamp := 0, quantity_pos := h }

/-- Two purchases, and a part of the first sold again. -/
theorem exposure_views_agree_long :
    let fills := [sampleFill "NIFTY_FUT" "BUY" 50 100 (by decide),
      sampleFill "RELIANCE" "BUY" 5 200 (by decide),
      sampleFill "NIFTY_FUT" "SELL" 30 110 (by decide)]
    (Always fillStep ViewsAgree { tradeHistory := .deque [] } fills ∧
      StepsMeet fillStep NetFalls { tradeHistory := .deque [] } fills) ∧
    StepsMeet fillStep LeavesNoShort { tradeHistory := .deque [] } fills := by
  intro fills
  obtain ⟨hagree, hshort⟩ := exposure_views_agree (.deque []) fills
  have hmeet : StepsMeet fillStep LeavesNoShort { tradeHistory := .deque [] } fills := by
    decide +kernel
  exact ⟨hagree hmeet, hshort (by decide) (hagree hmeet)⟩

/-- A short of 10 at 100 has a net exposure of 1000, and one of -1000 by its asset class. -/
theorem short_adds_to_net :
    let s := fillStep .new (sampleFill "NIFTY_FUT" "SELL" 10 100 (by decide))
    s.netExposure = 1000 ∧ s.getExposures.total ExposureRecord.netExposure = -1000 ∧
      ¬ s.ViewsAgree := by
  intro s
  have hnet : s.netExposure = 1000 := by decide +kernel
  have hclass : s.getExposures.total ExposureRecord.netExposure = -1000 := by decide +kernel
  refine ⟨hnet, hclass, fun agree => ?_⟩
  have hsame := agree.net
  rw [hnet, hclass] at hsame
  exact absurd hsame (by decide)

end PortfolioService

end AutoTrade.Portfolio
