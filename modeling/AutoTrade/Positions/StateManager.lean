import AutoTrade.Runtime
import AutoTrade.Library.Table
import Mathlib.Algebra.BigOperators.Group.List.Basic
import Mathlib.Tactic.Ring

/-! # State recovery

`StateManager` of `state_manager.py`, as far as a restart uses it: the open
positions are read back from the trades table, those the broker does not hold
are dropped, and a report compares what is held locally with the broker. What is
recovered is keyed by symbol, so of several open trades of a symbol the last one
stays.
-/

namespace AutoTrade.Positions

open AutoTrade.Library

/-- A row of `trades`; `exitTs` is `none` where the column is NULL. -/
structure TradeRow where
  symbol : String
  qty : Int
  entryPrice : ℚ
  exitTs : Option String := none
deriving DecidableEq, Repr

structure RecoveredPosition where
  qty : Int
  entryPrice : ℚ
deriving DecidableEq, Repr

/-- The entries of `_state` that a recovery writes. -/
structure TraderState where
  activePositions : Option (Dict String RecoveredPosition) := none
  recoveryMode : Bool := false
  lastRecoveryTs : Option Time := none

structure SessionRecoveryReport where
  localPositions : Nat
  brokerPositions : Nat
  matchedSymbols : Nat
  positionsAligned : Bool := false
  note : String := ""
deriving DecidableEq, Repr

/-- `β` is what a broker says of a position, which nothing here reads. -/
structure StateManager (β : Type) where
  state : TraderState := {}
  localPositionsFn : Option (Option (Dict String RecoveredPosition)) := none
  brokerPositionsFn : Option (Dict String β) := none

namespace StateManager

variable {β : Type} (manager : StateManager β)

/-- The trades without an exit, as the query returns them. -/
def openPos (rows : List TradeRow) : List TradeRow := rows.filter fun row => row.exitTs.isNone

def recovered (rows : List TradeRow) : Dict String RecoveredPosition :=
  (openPos rows).foldl (fun found row =>
    found.set row.symbol { qty := row.qty, entryPrice := row.entryPrice }) Table.empty

/-- What is left where the broker's positions are known. -/
def confirmed (brokerPositions : Option (Dict String β))
    (found : Dict String RecoveredPosition) : Dict String RecoveredPosition :=
  match brokerPositions with
  | none => found
  | some broker => found.filter fun entry => broker.contains entry.1

/-- A failure of the database is logged and leaves the state as it was. -/
def recoverStateFromDb (rows : Except PyExc (List TradeRow)) (now : Time)
    (brokerPositions : Option (Dict String β)) : StateManager β :=
  match rows with
  | .error _ => manager
  | .ok rows =>
      { manager with
        state :=
          { activePositions := some (confirmed brokerPositions (recovered rows))
            recoveryMode := true
            lastRecoveryTs := some (formatTs now) } }

def localPos : Dict String RecoveredPosition :=
  match manager.localPositionsFn with
  | some positions => positions.getD Table.empty
  | none => manager.state.activePositions.getD Table.empty

def brokerPos (brokerPositions : Option (Dict String β)) : Dict String β :=
  match brokerPositions with
  | some positions => positions
  | none => manager.brokerPositionsFn.getD Table.empty

def sessionRecoveryReport (brokerPositions : Option (Dict String β)) : SessionRecoveryReport :=
  let localPos := manager.localPos
  let brokerPos := manager.brokerPos brokerPositions
  let matched := localPos.rows.countP fun entry => brokerPos.contains entry.1
  let aligned := decide (matched = localPos.size)
  { localPositions := localPos.size
    brokerPositions := brokerPos.size
    matchedSymbols := matched
    positionsAligned := aligned
    note := if aligned then "Aligned" else "Mismatch detected" }

/-! ## What is recovered -/

/-- The open trades of a symbol, oldest first. -/
def openTrades (rows : List TradeRow) (symbol : String) : List TradeRow :=
  (openPos rows).filter fun row => row.symbol = symbol

def netQty (trades : List TradeRow) : Int := (trades.map TradeRow.qty).sum

def cost (trades : List TradeRow) : ℚ := (trades.map fun row => (row.qty : ℚ) * row.entryPrice).sum

/-- The position has the quantity of the trades, and their price weighted by quantity. -/
structure RebuiltFrom (trades : List TradeRow) (position : RecoveredPosition) : Prop where
  quantity : position.qty = netQty trades
  price : position.entryPrice * netQty trades = cost trades

def positionOf (row : TradeRow) : RecoveredPosition :=
  { qty := row.qty, entryPrice := row.entryPrice }

/-- What is recovered under a symbol is its last open trade. -/
theorem get?_recovered (rows : List TradeRow) (symbol : String) :
    (recovered rows).get? symbol = (openTrades rows symbol).getLast?.map positionOf := by
  unfold recovered openTrades
  induction openPos rows using List.reverseRecOn with
  | nil => rfl
  | append_singleton earlier row ih =>
      rw [List.foldl_append, List.filter_append]
      by_cases hsymbol : row.symbol = symbol
      · simp [hsymbol, positionOf]
      · simp [Dict.get?_set, hsymbol, Ne.symm hsymbol, ih]

theorem get?_confirmed (brokerPositions : Option (Dict String β))
    (found : Dict String RecoveredPosition) (symbol : String) :
    (confirmed brokerPositions found).get? symbol =
      (found.get? symbol).filter fun _ =>
        brokerPositions.all fun broker => broker.contains symbol := by
  cases brokerPositions with
  | none => cases hfound : found.get? symbol <;> simp [confirmed, hfound, Option.filter]
  | some broker => exact Dict.get?_filter found _ symbol

/-- The last of several open trades stands for all of them exactly where those before it cancel out. -/
theorem rebuiltFrom_append_iff (earlier : List TradeRow) (last : TradeRow) :
    RebuiltFrom (earlier ++ [last]) (positionOf last) ↔ netQty earlier = 0 ∧ cost earlier = 0 := by
  have hqty : netQty (earlier ++ [last]) = netQty earlier + last.qty := by simp [netQty]
  have hcost : cost (earlier ++ [last]) = cost earlier + last.qty * last.entryPrice := by
    simp [cost]
  constructor
  · rintro ⟨hquantity, hprice⟩
    rw [hqty] at hquantity hprice
    rw [hcost] at hprice
    have hzero : netQty earlier = 0 := by
      have hlast : last.qty = netQty earlier + last.qty := hquantity
      omega
    refine ⟨hzero, ?_⟩
    have hvalue : last.entryPrice * last.qty = cost earlier + last.qty * last.entryPrice := by
      simpa [hzero, positionOf] using hprice
    rwa [mul_comm, right_eq_add] at hvalue
  · rintro ⟨hzero, hvalue⟩
    constructor
    · rw [hqty, hzero, zero_add]
      rfl
    · rw [hqty, hcost, hzero, hvalue, zero_add, zero_add, mul_comm]
      rfl

/-! ## What is aligned -/

theorem aligned_iff (brokerPositions : Option (Dict String β)) :
    (manager.sessionRecoveryReport brokerPositions).positionsAligned = true ↔
      ∀ symbol, manager.localPos.contains symbol →
        (manager.brokerPos brokerPositions).contains symbol := by
  have hcount : (manager.sessionRecoveryReport brokerPositions).positionsAligned = true ↔
      ∀ entry ∈ manager.localPos.rows,
        (manager.brokerPos brokerPositions).contains entry.1 = true := by
    unfold sessionRecoveryReport Table.size
    rw [decide_eq_true_eq]
    exact List.countP_eq_length
  rw [hcount]
  constructor
  · intro h symbol hlocal
    rw [Dict.contains_iff_get?, Option.isSome_iff_exists] at hlocal
    obtain ⟨position, hposition⟩ := hlocal
    exact h (symbol, position) ((Dict.get?_eq_some_iff _ _ _).mp hposition)
  · intro h entry hentry
    refine h entry.1 ?_
    rw [Dict.contains_iff_get?, (Dict.get?_eq_some_iff _ entry.1 entry.2).mpr hentry]
    rfl

/-! ## The book after a restart -/

/-- What `active_positions` holds. -/
def active : Dict String RecoveredPosition := manager.state.activePositions.getD Table.empty

theorem get?_active_recover (rows : List TradeRow) (now : Time)
    (brokerPositions : Option (Dict String β)) (symbol : String) :
    (manager.recoverStateFromDb (.ok rows) now brokerPositions).active.get? symbol =
      ((openTrades rows symbol).getLast?.map positionOf).filter fun _ =>
        brokerPositions.all fun broker => broker.contains symbol := by
  rw [← get?_recovered]
  exact get?_confirmed brokerPositions (recovered rows) symbol

/-- A recovery stores the symbols with an open trade that the broker, where it was asked, holds as well;
of a symbol with a single open trade it stores the quantity and the price; and a report says aligned
exactly when every local symbol is the broker's too. -/
theorem recovery_rebuilds_book (rows : List TradeRow) (now : Time)
    (brokerPositions reported : Option (Dict String β)) :
    (∀ symbol,
      ((manager.recoverStateFromDb (.ok rows) now brokerPositions).active.get? symbol).isSome ↔
        openTrades rows symbol ≠ [] ∧ ∀ broker ∈ brokerPositions, broker.contains symbol) ∧
    (∀ symbol position,
      (manager.recoverStateFromDb (.ok rows) now brokerPositions).active.get? symbol =
        some position →
      (openTrades rows symbol).length = 1 → RebuiltFrom (openTrades rows symbol) position) ∧
    ((manager.sessionRecoveryReport reported).positionsAligned = true ↔
      ∀ symbol, manager.localPos.contains symbol →
        (manager.brokerPos reported).contains symbol) := by
  refine ⟨fun symbol => ?_, fun symbol position hposition hone => ?_, aligned_iff manager reported⟩
  · rw [get?_active_recover]
    cases htrades : (openTrades rows symbol).getLast? with
    | none => simp [List.getLast?_eq_none_iff.mp htrades]
    | some last =>
        have hne : openTrades rows symbol ≠ [] := fun hnil => by
          rw [hnil] at htrades
          cases htrades
        simp [hne, Option.filter, Option.all_eq_true]
  · rw [get?_active_recover] at hposition
    obtain ⟨trade, htrade⟩ := List.length_eq_one_iff.mp hone
    obtain ⟨hlast, -⟩ := Option.filter_eq_some_iff.mp hposition
    rw [htrade] at hlast ⊢
    obtain rfl : positionOf trade = position := Option.some.inj hlast
    exact (rebuiltFrom_append_iff [] trade).mpr ⟨rfl, rfl⟩

/-- Two open trades of one symbol. -/
def twoTrades : List TradeRow :=
  [{ symbol := "NIFTY", qty := 10, entryPrice := 100 },
    { symbol := "NIFTY", qty := 5, entryPrice := 130 }]

/-- The broker holds a symbol that is not in the table. -/
def brokerBook : Dict String Unit := Dict.set (Dict.set Table.empty "NIFTY" ()) "BANKNIFTY" ()

def restarted : StateManager Unit :=
  recoverStateFromDb {} (.ok twoTrades) 0 (some brokerBook)

/-- The first of the two trades is lost, and beside the unknown symbol the report says aligned. -/
theorem second_trade_replaces_first :
    restarted.active.get? "NIFTY" = some { qty := 5, entryPrice := 130 } ∧
      netQty (openTrades twoTrades "NIFTY") = 15 ∧
      (restarted.sessionRecoveryReport (some brokerBook)).positionsAligned = true ∧
      (restarted.brokerPos (some brokerBook)).contains "BANKNIFTY" = true ∧
      restarted.localPos.contains "BANKNIFTY" = false := by
  decide +kernel

end StateManager

end AutoTrade.Positions
