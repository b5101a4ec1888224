import AutoTrade.Library.Run
import AutoTrade.Library.Table
import AutoTrade.Runtime
import Mathlib.Algebra.BigOperators.Group.List.Basic
import Mathlib.Algebra.Order.BigOperators.Group.List
import Mathlib.Tactic.Linarith
import Mathlib.Tactic.Ring

/-! # Exposure tracking of the risk service

Positions are tracked by symbol with the signed value quantity × price × lot
size. The portfolio metrics add these values up as used capital. The callbacks
that report capital, daily result and open positions answer with a reading, or
raise one of the handled errors, and then the metrics are the fail-closed ones.
-/

namespace AutoTrade.Risk

open AutoTrade.Library

/-- What the index map holds as the lot of an instrument, as `int()` reads it. -/
inductive LotValue
  | falsy
  | number (n : Int)
  | unreadable
deriving DecidableEq, Repr

structure TrackedPosition where
  quantity : Int
  entryPrice : ℚ
  marketValue : ℚ
  timestamp : Time
  symbol : String
  optionType : String
  strike : ℚ
  iv : ℚ
  tteDays : ℚ
deriving DecidableEq, Repr

structure RiskLimits where
  maxDailyLoss : ℚ
  maxOpenPositions : Int
  maxConsecutiveLosses : Int
deriving DecidableEq, Repr

structure RiskService where
  config : RiskLimits
  /-- The lot that the index map holds under a symbol in upper case. -/
  configuredLot : String → LotValue
  positions : Dict String TrackedPosition := Table.empty
  peakPnl : ℚ := 0
  maxDrawdown : ℚ := 0

/-- What the callbacks and the safety state report to one call. -/
structure Readings where
  capital : ℚ
  dailyPnl : ℚ
  openPositions : Int
  consecutiveLosses : Int
deriving DecidableEq, Repr

structure PortfolioRiskMetrics where
  totalCapital : ℚ
  usedCapital : ℚ
  availableCapital : ℚ
  dailyPnl : ℚ
  maxDailyLoss : ℚ
  currentDrawdown : ℚ
  maxDrawdown : ℚ
  openPositionsCount : Int
  maxOpenPositions : Int
  consecutiveLosses : Int
  maxConsecutiveLosses : Int
  sectorExposure : Dict String ℚ
  symbolExposure : Dict String ℚ

namespace RiskService

def fallbackLots : List (String × Int) :=
  [("NIFTY", 50), ("BANKNIFTY", 15), ("FINNIFTY", 40), ("SENSEX", 10)]

def getLotSize (s : RiskService) (symbol : String) : Int :=
  match s.configuredLot symbol with
  | .number n => n
  | .falsy => (fallbackLots.lookup symbol).getD 50
  | .unreadable => (fallbackLots.lookup symbol).getD 50

def sectorMap : List (String × String) :=
  [("NIFTY", "INDEX"), ("BANKNIFTY", "INDEX"), ("FINNIFTY", "INDEX"), ("RELIANCE", "ENERGY"),
    ("TCS", "IT"), ("HDFCBANK", "FINANCIAL"), ("INFY", "IT"), ("ICICIBANK", "FINANCIAL"),
    ("KOTAKBANK", "FINANCIAL"), ("LT", "INDUSTRIAL"), ("SBIN", "FINANCIAL"),
    ("BHARTIARTL", "TELECOM"), ("ASIANPAINT", "CONSUMER"), ("MARUTI", "AUTOMOBILE"),
    ("HINDUNILVR", "CONSUMER"), ("AXISBANK", "FINANCIAL")]

def getSectorForSymbol (symbol : String) : String := (sectorMap.lookup symbol).getD "OTHER"

/-- The arguments of `update_position`. -/
structure PositionUpdate where
  symbol : String
  quantity : Int
  entryPrice : ℚ
  timestamp : Time
  optionType : String := "CE"
  strike : Option ℚ := none
  iv : Option ℚ := none
  tteDays : Option ℚ := none
deriving DecidableEq, Repr

def marketValue (s : RiskService) (u : PositionUpdate) : ℚ :=
  u.quantity * u.entryPrice * s.getLotSize u.symbol

def track (s : RiskService) (u : PositionUpdate) : TrackedPosition where
  quantity := u.quantity
  entryPrice := u.entryPrice
  marketValue := s.marketValue u
  timestamp := u.timestamp
  symbol := u.symbol
  optionType := if u.optionType = "PE" then "PE" else "CE"
  strike := u.strike.getD u.entryPrice
  iv := u.iv.getD (3 / 20)
  tteDays := u.tteDays.getD 3

def updatePosition (s : RiskService) (u : PositionUpdate) : RiskService :=
  if u.quantity = 0 then { s with positions := s.positions.erase u.symbol }
  else { s with positions := s.positions.set u.symbol (s.track u) }

def removePosition (s : RiskService) (symbol : String) : RiskService :=
  { s with positions := s.positions.erase symbol }

def totalExposure (s : RiskService) : ℚ := (s.positions.rows.map fun e => e.2.marketValue).sum

def sectorExposure (s : RiskService) : Dict String ℚ :=
  s.positions.rows.foldl (fun exposure e =>
    let sector := getSectorForSymbol e.1
    exposure.set sector ((exposure.get? sector).getD 0 + e.2.marketValue)) Table.empty

def symbolExposure (s : RiskService) : Dict String ℚ :=
  s.positions.rows.foldl (fun exposure e => exposure.set e.1 e.2.marketValue) Table.empty

/-- The metrics of a call whose callbacks raised: they block trading. -/
def failClosedMetrics (s : RiskService) : PortfolioRiskMetrics where
  totalCapital := 0
  usedCapital := 0
  availableCapital := 0
  dailyPnl := -999999
  maxDailyLoss := s.config.maxDailyLoss
  currentDrawdown := 1
  maxDrawdown := 0
  openPositionsCount := 999
  maxOpenPositions := 0
  consecutiveLosses := 999
  maxConsecutiveLosses := s.config.maxConsecutiveLosses
  sectorExposure := Table.empty
  symbolExposure := Table.empty

def getPortfolioRiskMetrics (s : RiskService) :
    Option Readings → RiskService × PortfolioRiskMetrics
  | none => (s, s.failClosedMetrics)
  | some r =>
      -- the drawdown is measured from the peak before this reading
      let currentDrawdown := s.peakPnl - r.dailyPnl
      let s' := { s with
        peakPnl := if s.peakPnl < r.dailyPnl then r.dailyPnl else s.peakPnl
        maxDrawdown := if s.maxDrawdown < currentDrawdown then currentDrawdown else s.maxDrawdown }
      (s', {
        totalCapital := r.capital
        usedCapital := s.totalExposure
        availableCapital := max 0 (r.capital - s.totalExposure)
        dailyPnl := r.dailyPnl
        maxDailyLoss := s.config.maxDailyLoss
        currentDrawdown := currentDrawdown
        maxDrawdown := s'.maxDrawdown
        openPositionsCount := r.openPositions
        maxOpenPositions := s.config.maxOpenPositions
        consecutiveLosses := r.consecutiveLosses
        maxConsecutiveLosses := s.config.maxConsecutiveLosses
        sectorExposure := s.sectorExposure
        symbolExposure := s.symbolExposure })

def estimatePortfolioRisk (s : RiskService) (readings : Option Readings) : ℚ :=
  let metrics := (s.getPortfolioRiskMetrics readings).2
  if metrics.totalCapital ≤ 0 then 0 else metrics.usedCapital / metrics.totalCapital

end RiskService

inductive PositionOp
  | update (u : RiskService.PositionUpdate)
  | remove (symbol : String)
deriving DecidableEq, Repr

namespace RiskService

def step (s : RiskService) : PositionOp → RiskService
  | .update u => s.updatePosition u
  | .remove symbol => s.removePosition symbol

theorem getLotSize_step (s : RiskService) (op : PositionOp) (symbol : String) :
    (s.step op).getLotSize symbol = s.getLotSize symbol := by
  cases op with
  | update u =>
      simp only [step, updatePosition]
      split <;> rfl
  | remove name => rfl

/-! ## Exposure counted without its sign -/

/-- |quantity| × entry price × lot size. -/
def grossValue (s : RiskService) (symbol : String) (quantity : Int) (entryPrice : ℚ) : ℚ :=
  |quantity| * entryPrice * s.getLotSize symbol

def grossExposure (s : RiskService) : ℚ :=
  (s.positions.rows.map fun e => s.grossValue e.1 e.2.quantity e.2.entryPrice).sum

/-- A position whose value is its gross value, and not negative. -/
def RowCounts (s : RiskService) (e : String × TrackedPosition) : Prop :=
  e.2.marketValue = s.grossValue e.1 e.2.quantity e.2.entryPrice ∧ 0 ≤ e.2.marketValue

def RowsCount (s : RiskService) : Prop := ∀ e ∈ s.positions.rows, s.RowCounts e

theorem RowsCount.totalExposure_eq {s : RiskService} (h : s.RowsCount) :
    s.totalExposure = s.grossExposure := by
  unfold totalExposure grossExposure
  rw [List.map_congr_left fun e he => (h e he).1]

theorem RowsCount.totalExposure_nonneg {s : RiskService} (h : s.RowsCount) :
    0 ≤ s.totalExposure := by
  apply List.sum_nonneg
  intro x hx
  obtain ⟨e, he, rfl⟩ := List.mem_map.mp hx
  exact (h e he).2

/-- The update removes a position, or tracks a value that is not negative and, for a short, zero. -/
def ValueCounts (s : RiskService) : PositionOp → Prop
  | .update u => 0 ≤ s.marketValue u ∧ (u.quantity < 0 → s.marketValue u = 0)
  | .remove _ => True

theorem grossValue_of_nonneg (s : RiskService) (u : PositionUpdate) (h : 0 ≤ u.quantity) :
    s.grossValue u.symbol u.quantity u.entryPrice = s.marketValue u := by
  rw [grossValue, marketValue, abs_of_nonneg h]

theorem grossValue_of_short (s : RiskService) (u : PositionUpdate) (h : u.quantity < 0) :
    s.grossValue u.symbol u.quantity u.entryPrice = -s.marketValue u := by
  rw [grossValue, marketValue, abs_of_neg h]
  push_cast
  ring

theorem rowCounts_track {s : RiskService} {u : PositionUpdate} (h : s.ValueCounts (.update u)) :
    s.RowCounts (u.symbol, s.track u) := by
  refine ⟨?_, h.1⟩
  by_cases hshort : u.quantity < 0
  · have hzero := h.2 hshort
    have hgross := s.grossValue_of_short u hshort
    rw [hzero, neg_zero] at hgross
    exact hzero.trans hgross.symm
  · exact (s.grossValue_of_nonneg u (not_lt.mp hshort)).symm

theorem RowsCount.of_subset {s s' : RiskService} (h : s.RowsCount)
    (lots : ∀ symbol, s'.getLotSize symbol = s.getLotSize symbol)
    (rows : ∀ e ∈ s'.positions.rows, e ∈ s.positions.rows ∨ s.RowCounts e) : s'.RowsCount := by
  intro e he
  have hrow : s.RowCounts e := (rows e he).elim (h e) id
  unfold RowCounts grossValue at hrow ⊢
  rw [lots]
  exact hrow

theorem RowsCount.step {s : RiskService} (h : s.RowsCount) (op : PositionOp)
    (counts : s.ValueCounts op) : (s.step op).RowsCount := by
  refine h.of_subset (s.getLotSize_step op) ?_
  cases op with
  | update u =>
      intro e he
      simp only [RiskService.step, updatePosition] at he
      split at he
      · exact .inl ((Dict.mem_rows_erase _ _ _).mp he).1
      · have hmem := (Dict.rows_set_perm _ _ _).mem_iff.mp he
        cases hmem with
        | head => exact .inr (rowCounts_track counts)
        | tail _ hold => exact .inl ((Dict.mem_rows_erase _ _ _).mp hold).1
  | remove symbol =>
      intro e he
      exact .inl ((Dict.mem_rows_erase _ _ _).mp he).1

/-! ## What a new position does to the metrics -/

theorem rows_update_perm (s : RiskService) {u : PositionUpdate} (h : u.quantity ≠ 0) :
    (s.updatePosition u).positions.rows.Perm
      ((u.symbol, s.track u) :: (s.positions.erase u.symbol).rows) := by
  rw [updatePosition, if_neg h]
  exact Dict.rows_set_perm _ _ _

theorem totalExposure_update (s : RiskService) {u : PositionUpdate} (h : u.quantity ≠ 0) :
    (s.updatePosition u).totalExposure =
      s.marketValue u + (s.removePosition u.symbol).totalExposure := by
  unfold totalExposure
  rw [((s.rows_update_perm h).map _).sum_eq]
  rfl

theorem grossExposure_update (s : RiskService) {u : PositionUpdate} (h : u.quantity ≠ 0) :
    (s.updatePosition u).grossExposure =
      s.grossValue u.symbol u.quantity u.entryPrice +
        (s.removePosition u.symbol).grossExposure := by
  have hlots := s.getLotSize_step (.update u)
  simp only [step] at hlots
  unfold grossExposure grossValue
  simp only [hlots]
  rw [((s.rows_update_perm h).map _).sum_eq]
  rfl

theorem totalExposure_remove_untracked {s : RiskService} {symbol : String}
    (h : s.positions.get? symbol = none) :
    (s.removePosition symbol).totalExposure = s.totalExposure := by
  unfold totalExposure removePosition
  rw [Dict.rows_erase_of_get?_none h]

theorem estimatePortfolioRisk_eq (s : RiskService) (r : Readings) :
    s.estimatePortfolioRisk (some r) = if r.capital ≤ 0 then 0 else s.totalExposure / r.capital :=
  rfl

/-- The metrics count every position with its gross value and never make up capital. -/
structure ShortsConsumeCapital (r : Readings) (s : RiskService) : Prop where
  used : (s.getPortfolioRiskMetrics (some r)).2.usedCapital = s.grossExposure
  available : (s.getPortfolioRiskMetrics (some r)).2.availableCapital ≤
    (s.getPortfolioRiskMetrics (some r)).2.totalCapital

/-- A position on an untracked symbol leaves no more capital and no less risk. -/
def OpeningConsumes (r : Readings) (s : RiskService) : PositionOp → Prop
  | .update u => u.quantity ≠ 0 → s.positions.get? u.symbol = none →
      ((s.updatePosition u).getPortfolioRiskMetrics (some r)).2.availableCapital ≤
          (s.getPortfolioRiskMetrics (some r)).2.availableCapital ∧
        s.estimatePortfolioRisk (some r) ≤ (s.updatePosition u).estimatePortfolioRisk (some r)
  | .remove _ => True

theorem RowsCount.shortsConsumeCapital {r : Readings} (capital : 0 ≤ r.capital) {s : RiskService}
    (h : s.RowsCount) : ShortsConsumeCapital r s := by
  have hnonneg := h.totalExposure_nonneg
  refine ⟨h.totalExposure_eq, ?_⟩
  show max 0 (r.capital - s.totalExposure) ≤ r.capital
  exact max_le capital (by linarith)

theorem openingConsumes_of_valueCounts (r : Readings) {s : RiskService} {op : PositionOp}
    (counts : s.ValueCounts op) : OpeningConsumes r s op := by
  cases op with
  | remove symbol => trivial
  | update u =>
      intro hquantity huntracked
      have hgrows : s.totalExposure ≤ (s.updatePosition u).totalExposure := by
        rw [totalExposure_update s hquantity, totalExposure_remove_untracked huntracked]
        have hvalue := counts.1
        linarith
      constructor
      · show max 0 (r.capital - (s.updatePosition u).totalExposure) ≤
          max 0 (r.capital - s.totalExposure)
        exact max_le_max (le_refl 0) (by linarith)
      · rw [estimatePortfolioRisk_eq, estimatePortfolioRisk_eq]
        split
        · exact le_refl 0
        · rename_i hcapital
          exact div_le_div_of_nonneg_right hgrows (not_le.mp hcapital).le

/-- A short of any value is counted against the exposure of the others. -/
theorem not_shortsConsumeCapital_of_short (r : Readings) {s : RiskService} (h : s.RowsCount)
    {u : PositionUpdate} (short : u.quantity < 0) (value : s.marketValue u ≠ 0) :
    ¬ ShortsConsumeCapital r (s.updatePosition u) := by
  intro hcounts
  have hothers : (s.removePosition u.symbol).RowsCount :=
    h.step (.remove u.symbol) trivial
  have hused : (s.updatePosition u).totalExposure = (s.updatePosition u).grossExposure :=
    hcounts.used
  rw [totalExposure_update s short.ne, grossExposure_update s short.ne,
    s.grossValue_of_short u short, hothers.totalExposure_eq] at hused
  exact value (by linarith)

/-- The service as it is built, with nothing tracked. -/
def fresh (config : RiskLimits) (configuredLot : String → LotValue) : RiskService where
  config := config
  configuredLot := configuredLot

/-- With a capital that is not negative, in every run that tracks no short of nonzero value and no
negative value, used capital is the gross exposure, available capital is at most the total, and a
new position leaves no more capital and no less risk; the first short of nonzero value ends this. -/
theorem exposure_counts_without_shorts (config : RiskLimits) (configuredLot : String → LotValue)
    (r : Readings) (capital : 0 ≤ r.capital) (ops : List PositionOp)
    (counts : StepsMeet step ValueCounts (fresh config configuredLot) ops) :
    Always step (ShortsConsumeCapital r) (fresh config configuredLot) ops ∧
      StepsMeet step (OpeningConsumes r) (fresh config configuredLot) ops ∧
      ∀ u : PositionUpdate, u.quantity < 0 →
        (run step (fresh config configuredLot) ops).marketValue u ≠ 0 →
        ¬ ShortsConsumeCapital r ((run step (fresh config configuredLot) ops).updatePosition u) := by
  have hinit : (fresh config configuredLot).RowsCount := by
    intro e he
    cases he
  have hrows : Always step RowsCount (fresh config configuredLot) ops :=
    always_of_stepsMeet (fun s op _ hrows hcounts => hrows.step op hcounts) hinit counts
  refine ⟨hrows.mono fun s h => h.shortsConsumeCapital capital, ?_, ?_⟩
  · exact counts.mono fun s op => openingConsumes_of_valueCounts r
  · intro u short value
    exact not_shortsConsumeCapital_of_short r hrows.final short value

def defaultLimits : RiskLimits where
  maxDailyLoss := -2000
  maxOpenPositions := 1
  maxConsecutiveLosses := 3

def oneLakh : Readings where
  capital := 100000
  dailyPnl := 0
  openPositions := 0
  consecutiveLosses := 0

/-- One lot of NIFTY at 100, bought or sold. -/
def oneLot (quantity : Int) : PositionUpdate where
  symbol := "NIFTY"
  quantity := quantity
  entryPrice := 100
  timestamp := 0

theorem exposure_counts_for_one_long :
    Always step (ShortsConsumeCapital oneLakh) (fresh defaultLimits fun _ => .falsy)
      [.update (oneLot 1)] := by
  have hcounts : StepsMeet step ValueCounts (fresh defaultLimits fun _ => .falsy)
      [.update (oneLot 1)] := by
    refine ⟨⟨by decide +kernel, ?_⟩, trivial⟩
    intro hshort
    exact absurd hshort (by decide)
  exact (exposure_counts_without_shorts defaultLimits (fun _ => .falsy) oneLakh (by decide +kernel)
    [.update (oneLot 1)] hcounts).1

/-- One lot sold short adds to the available capital. -/
theorem short_adds_available_capital :
    ¬ Always step (ShortsConsumeCapital oneLakh) (fresh defaultLimits fun _ => .falsy)
      [.update (oneLot (-1))] := by
  intro always
  have havailable := always.final.available
  exact absurd havailable (by decide +kernel)

end RiskService

end AutoTrade.Risk
