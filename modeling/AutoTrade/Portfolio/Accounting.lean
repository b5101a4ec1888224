import AutoTrade.Library.AverageCost
import AutoTrade.Library.Run
import AutoTrade.Portfolio.PortfolioService
import Mathlib.Algebra.BigOperators.Group.List.Basic

/-! # The accounting identity of the portfolio

A held position is a holding at average cost, and the five branches of
`update_position` are the five cases of a fill on it. A call that closes
something appends to the trade history, which is where it fails.
-/

namespace AutoTrade.Portfolio

open AutoTrade.Library

namespace PortfolioService

def holdingOf (s : PortfolioService) (symbol : String) : Holding ℚ :=
  match s.positions.get? symbol with
  | none => .flat
  | some p => ⟨p.quantity, p.averagePrice⟩

/-- No position of quantity 0 is kept. -/
def AllOpen (s : PortfolioService) : Prop :=
  ∀ symbol p, s.positions.get? symbol = some p → p.quantity ≠ 0

theorem holdingOf_eq_of_get? {s : PortfolioService} {symbol : String} {p : Position}
    (h : s.positions.get? symbol = some p) :
    s.holdingOf symbol = ⟨p.quantity, p.averagePrice⟩ := by
  unfold holdingOf
  rw [h]

theorem holdingOf_put (s : PortfolioService) (p : Position) (symbol : String) :
    (s.put p).holdingOf symbol =
      if symbol = p.symbol then ⟨p.quantity, p.averagePrice⟩ else s.holdingOf symbol := by
  unfold holdingOf put
  rw [Dict.get?_set]
  by_cases h : symbol = p.symbol <;> simp [h]

theorem holdingOf_remove (s : PortfolioService) (closed symbol : String) :
    (s.remove closed).holdingOf symbol =
      if symbol = closed then .flat else s.holdingOf symbol := by
  unfold holdingOf remove
  rw [Dict.get?_erase]
  by_cases h : symbol = closed <;> simp [h]

theorem AllOpen.put {s : PortfolioService} (hopen : s.AllOpen) {p : Position} (hp : p.quantity ≠ 0) :
    (s.put p).AllOpen := by
  intro symbol p' hget
  unfold PortfolioService.put at hget
  rw [Dict.get?_set] at hget
  split at hget
  · cases hget
    exact hp
  · exact hopen symbol p' hget

theorem AllOpen.remove {s : PortfolioService} (hopen : s.AllOpen) (closed : String) :
    (s.remove closed).AllOpen := by
  intro symbol p hget
  unfold PortfolioService.remove at hget
  rw [Dict.get?_erase] at hget
  split at hget
  · cases hget
  · exact hopen symbol p hget

/-- A call has moved the holding of one symbol as the fill does, and made a record of what that
realises. -/
structure Moves (s s' : PortfolioService) (trade : Option TradeRecord) (symbol : String)
    (d : Deal ℚ) : Prop where
  holding : ∀ other, s'.holdingOf other =
    if other = symbol then (s.holdingOf symbol).fill d else s.holdingOf other
  realised : (trade.toList.map TradeRecord.realizedPnl).sum = (s.holdingOf symbol).realised d
  own : ∀ t ∈ trade, t.symbol = symbol
  allOpen : s'.AllOpen

/-- The position of the symbol is replaced. -/
theorem Moves.of_put {s : PortfolioService} (hopen : s.AllOpen) (history : TradeHistory)
    {p : Position} {trade : Option TradeRecord} {d : Deal ℚ} (hp : p.quantity ≠ 0)
    (hfill : (s.holdingOf p.symbol).fill d = ⟨p.quantity, p.averagePrice⟩)
    (hrealised : (trade.toList.map TradeRecord.realizedPnl).sum = (s.holdingOf p.symbol).realised d)
    (hown : ∀ t ∈ trade, t.symbol = p.symbol) :
    s.Moves ({ s with tradeHistory := history }.put p) trade p.symbol d where
  holding := fun other => by
    rw [holdingOf_put, hfill]
    rfl
  realised := hrealised
  own := hown
  allOpen := AllOpen.put (s := { s with tradeHistory := history }) hopen hp

/-- The position of the symbol is replaced by what is left of it, or by one on the other side. -/
theorem Moves.of_exit {s : PortfolioService} (hopen : s.AllOpen) (history : TradeHistory)
    {p : Position} {h : Holding ℚ} {exit : TradeRecord} {d : Deal ℚ} {realised : ℚ}
    (hheld : s.holdingOf p.symbol = h) (hp : p.quantity ≠ 0)
    (hfill : h.fill d = ⟨p.quantity, p.averagePrice⟩ ∧ h.realised d = realised)
    (hrealised : exit.realizedPnl = realised) (hown : exit.symbol = p.symbol) :
    s.Moves ({ s with tradeHistory := history }.put p) (some exit) p.symbol d := by
  refine Moves.of_put hopen history hp (by rw [hheld]; exact hfill.1) ?_ (by simpa using hown)
  rw [hheld, hfill.2, ← hrealised]
  exact List.sum_singleton

/-- The position of the symbol is closed. -/
theorem Moves.of_remove {s : PortfolioService} (hopen : s.AllOpen) (history : TradeHistory)
    {symbol : String} {trade : Option TradeRecord} {d : Deal ℚ}
    (hheld : (s.holdingOf symbol).quantity ≠ 0)
    (hclosed : (s.holdingOf symbol).quantity + d.quantity = 0)
    (hrealised : (trade.toList.map TradeRecord.realizedPnl).sum =
      (d.price - (s.holdingOf symbol).average) * (s.holdingOf symbol).quantity)
    (hown : ∀ t ∈ trade, t.symbol = symbol) :
    s.Moves ({ s with tradeHistory := history }.remove symbol) trade symbol d where
  holding := fun other => by
    rw [holdingOf_remove, Holding.fill, if_neg hheld, if_pos hclosed]
    rfl
  realised := by rw [hrealised, Holding.realised, if_neg hheld, if_pos hclosed]
  own := hown
  allOpen := AllOpen.remove (s := { s with tradeHistory := history }) hopen symbol

end PortfolioService

theorem Fill.signed_ne_zero (f : Fill) : f.signed ≠ 0 := by
  unfold Fill.signed
  split
  · exact f.quantity_pos.ne'
  · exact neg_ne_zero.mpr f.quantity_pos.ne'

def Fill.deal (f : Fill) : Deal ℚ := ⟨f.signed, f.price⟩

namespace PortfolioService

/-- What a fill on the other side realises on part of a position. -/
theorem realised_part {q dq : ℚ} (hopposite : q * dq < 0) :
    |dq| * (if sideOf q = "BUY" then 1 else -1) = -dq := by
  unfold sideOf
  rcases mul_neg_iff.mp hopposite with ⟨hq, hdq⟩ | ⟨hq, hdq⟩
  · rw [if_pos hq, if_pos rfl, abs_of_neg hdq, mul_one]
  · rw [if_neg hq.not_gt, if_neg (by decide), abs_of_pos hdq, mul_neg_one]

/-- What a fill realises on the whole of a position. -/
theorem realised_whole {q : ℚ} (hq : q ≠ 0) : |q| * (if 0 < q then 1 else -1) = q := by
  rcases lt_or_gt_of_ne hq with hneg | hpos
  · rw [if_neg hneg.not_gt, abs_of_neg hneg, mul_neg_one, neg_neg]
  · rw [if_pos hpos, abs_of_pos hpos, mul_one]

/-- A fill that goes through moves the holding of its symbol. -/
theorem updatePosition_moves {s : PortfolioService} (hopen : s.AllOpen) {fill : Fill} {p : Position}
    (hok : (s.updatePosition fill).2.2 = .ok p) :
    s.Moves (s.updatePosition fill).1 (s.updatePosition fill).2.1 fill.symbol fill.deal := by
  unfold updatePosition at hok ⊢
  dsimp only at hok ⊢
  cases hget : s.positions.get? fill.symbol with
  | none =>
      have hheld : s.holdingOf fill.symbol = .flat := by
        unfold holdingOf
        rw [hget]
      refine Moves.of_put hopen s.tradeHistory fill.signed_ne_zero ?_ ?_ (by simp)
      · rw [hheld]
        rfl
      · rw [hheld]
        rfl
  | some old =>
      rw [hget] at hok
      have hheld := holdingOf_eq_of_get? hget
      have hold := hopen _ _ hget
      dsimp only at hok ⊢
      by_cases hclosed : old.quantity + fill.signed = 0
      · rw [if_pos hclosed] at hok ⊢
        split at hok
        · cases hok
        · rename_i history _
          exact Moves.of_remove hopen history (by rw [hheld]; exact hold) (by rw [hheld]; exact hclosed)
            (by rw [hheld]; simp [closingRecord, Fill.deal]) (by simp [closingRecord])
      rw [if_neg hclosed] at hok ⊢
      by_cases hsame : 0 < old.quantity * fill.signed
      · rw [if_pos hsame] at hok ⊢
        have hfill := Holding.fill_of_same (h := ⟨old.quantity, old.averagePrice⟩) (d := fill.deal)
          hold hclosed hsame
        exact Moves.of_put hopen s.tradeHistory hclosed (by rw [hheld]; exact hfill.1)
          (by rw [hheld, hfill.2]; rfl) (by simp)
      rw [if_neg hsame] at hok ⊢
      have hopposite : old.quantity * fill.signed < 0 :=
        lt_of_le_of_ne (not_lt.mp hsame) (mul_ne_zero hold fill.signed_ne_zero)
      by_cases hpart : |fill.signed| < |old.quantity|
      · rw [if_pos hpart] at hok ⊢
        split at hok
        · cases hok
        · rename_i history _
          have hfill := Holding.fill_of_part (h := ⟨old.quantity, old.averagePrice⟩) (d := fill.deal)
            hold hclosed hsame hpart
          refine Moves.of_exit hopen history hheld hclosed hfill ?_ rfl
          simp only [closingRecord, Fill.deal, min_eq_right hpart.le, mul_assoc,
            realised_part hopposite]
          ring
      · rw [if_neg hpart] at hok ⊢
        split at hok
        · cases hok
        · rename_i history _
          have hfill := Holding.fill_of_turn (h := ⟨old.quantity, old.averagePrice⟩) (d := fill.deal)
            hold hclosed hsame hpart
          refine Moves.of_exit hopen history hheld hclosed hfill ?_ rfl
          simp only [closingRecord, Fill.deal, mul_assoc, realised_whole hold]

/-- A close that goes through is a fill of the whole position on the other side. -/
theorem closePosition_moves {s : PortfolioService} (hopen : s.AllOpen) {symbol : String}
    {exitPrice commission : ℚ} {now : Time} {trade : Option TradeRecord}
    (hok : (s.closePosition symbol exitPrice commission now).2.2 = .ok trade) :
    (s.closePosition symbol exitPrice commission now).2.1 = trade ∧
      (trade = none ∧ (s.closePosition symbol exitPrice commission now).1 = s ∨
        trade ≠ none ∧ s.Moves (s.closePosition symbol exitPrice commission now).1 trade symbol
          ⟨-(s.holdingOf symbol).quantity, exitPrice⟩) := by
  unfold closePosition at hok ⊢
  cases hget : s.positions.get? symbol with
  | none =>
      rw [hget] at hok
      cases hok
      exact ⟨rfl, .inl ⟨rfl, rfl⟩⟩
  | some p =>
      rw [hget] at hok
      have hheld := holdingOf_eq_of_get? hget
      have hp := hopen _ _ hget
      dsimp only at hok ⊢
      rw [if_neg hp] at hok ⊢
      split at hok
      · cases hok
      · rename_i history _
        cases hok
        refine ⟨rfl, .inr ⟨Option.some_ne_none _, ?_⟩⟩
        exact Moves.of_remove hopen history (by rw [hheld]; exact hp) (add_neg_cancel _)
          (by rw [hheld]; simp) (by simp)

/-- Only a position that is held is closed with a record. -/
theorem not_flat_of_made {s : PortfolioService} (hopen : s.AllOpen) {symbol : String}
    {exitPrice commission : ℚ} {now : Time} {t : TradeRecord}
    (hmade : (s.closePosition symbol exitPrice commission now).2.1 = some t) :
    (s.holdingOf symbol).quantity ≠ 0 := by
  unfold closePosition at hmade
  cases hget : s.positions.get? symbol with
  | none =>
      rw [hget] at hmade
      cases hmade
  | some p =>
      rw [holdingOf_eq_of_get? hget]
      exact hopen _ _ hget

/-- Without a deque a fill goes through exactly when it opens or adds to a position. -/
theorem updatePosition_ok_iff {s : PortfolioService} (hfield : s.tradeHistory = .field)
    (fill : Fill) : (∃ p, (s.updatePosition fill).2.2 = .ok p) ↔
      ∀ old, s.positions.get? fill.symbol = some old → 0 < old.quantity * fill.signed := by
  unfold updatePosition
  dsimp only
  cases hget : s.positions.get? fill.symbol with
  | none => simp
  | some old =>
      simp only [hfield, TradeHistory.append, Option.some.injEq, forall_eq']
      by_cases hsame : 0 < old.quantity * fill.signed
      · have hclosed : old.quantity + fill.signed ≠ 0 := by
          intro hzero
          rw [eq_neg_of_add_eq_zero_right hzero, mul_neg] at hsame
          exact absurd hsame (not_lt.mpr (neg_nonpos.mpr (mul_self_nonneg _)))
        simp [hclosed, hsame]
      · rw [if_neg hsame]
        split <;> simp [hsame]
        split <;> simp

theorem closePosition_ok_iff {s : PortfolioService} (hfield : s.tradeHistory = .field)
    (hopen : s.AllOpen) (symbol : String) (exitPrice commission : ℚ) (now : Time) :
    (∃ trade, (s.closePosition symbol exitPrice commission now).2.2 = .ok trade) ↔
      s.positions.get? symbol = none := by
  unfold closePosition
  cases hget : s.positions.get? symbol with
  | none => simp
  | some p => simp [hopen _ _ hget, hfield, TradeHistory.append]

theorem tradeHistory_updatePosition {s : PortfolioService} (hfield : s.tradeHistory = .field)
    (fill : Fill) : (s.updatePosition fill).1.tradeHistory = .field := by
  unfold updatePosition
  dsimp only
  simp only [hfield, TradeHistory.append]
  cases s.positions.get? fill.symbol with
  | none => exact hfield
  | some old =>
      dsimp only
      split
      · exact hfield
      · split
        · exact hfield
        · split <;> exact hfield

theorem tradeHistory_closePosition {s : PortfolioService} (hfield : s.tradeHistory = .field)
    (symbol : String) (exitPrice commission : ℚ) (now : Time) :
    (s.closePosition symbol exitPrice commission now).1.tradeHistory = .field := by
  unfold closePosition
  simp only [hfield, TradeHistory.append]
  cases s.positions.get? symbol with
  | none => exact hfield
  | some p =>
      dsimp only
      split <;> exact hfield

/-- With a deque every fill goes through. -/
theorem updatePosition_ok_of_deque {s : PortfolioService} {records : List TradeRecord}
    (hdeque : s.tradeHistory = .deque records) (fill : Fill) :
    (∃ p, (s.updatePosition fill).2.2 = .ok p) ∧
      ∃ later, (s.updatePosition fill).1.tradeHistory = .deque later := by
  unfold updatePosition
  dsimp only
  simp only [hdeque, TradeHistory.append]
  cases s.positions.get? fill.symbol with
  | none => exact ⟨⟨_, rfl⟩, _, hdeque⟩
  | some old =>
      dsimp only
      split
      · exact ⟨⟨_, rfl⟩, _, rfl⟩
      · split
        · exact ⟨⟨_, rfl⟩, _, hdeque⟩
        · split <;> exact ⟨⟨_, rfl⟩, _, rfl⟩

theorem closePosition_ok_of_deque {s : PortfolioService} {records : List TradeRecord}
    (hdeque : s.tradeHistory = .deque records) (symbol : String) (exitPrice commission : ℚ)
    (now : Time) :
    (∃ trade, (s.closePosition symbol exitPrice commission now).2.2 = .ok trade) ∧
      ∃ later, (s.closePosition symbol exitPrice commission now).1.tradeHistory = .deque later := by
  unfold closePosition
  simp only [hdeque, TradeHistory.append]
  cases s.positions.get? symbol with
  | none => exact ⟨⟨_, rfl⟩, _, hdeque⟩
  | some p =>
      dsimp only
      split
      · exact ⟨⟨_, rfl⟩, _, hdeque⟩
      · exact ⟨⟨_, rfl⟩, _, rfl⟩

end PortfolioService

/-! ## Runs -/

inductive PortfolioCall
  | fill (fill : Fill)
  | close (symbol : String) (exitPrice commission : ℚ) (now : Time)

/-- `deals`, `trades` and `prices` are not in the code: the signed fills, with a close as the fill of
the whole position on the other side; the trade records that were made; and the prices of the fills
of each symbol since its position was last flat or turned round. -/
structure PortfolioRun where
  service : PortfolioService
  deals : List (String × Deal ℚ) := []
  trades : List TradeRecord := []
  prices : String → List ℚ := fun _ => []

namespace PortfolioRun

def fresh : PortfolioRun := { service := .new }

/-- A service whose trade history is a deque, as `__init__` declares it. -/
def freshDeque : PortfolioRun := { service := { tradeHistory := .deque [] } }

def book (r : PortfolioRun) (symbol : String) (d : Deal ℚ) (service : PortfolioService)
    (trade : Option TradeRecord) : PortfolioRun where
  service := service
  deals := r.deals ++ [(symbol, d)]
  trades := r.trades ++ trade.toList
  prices := fun other =>
    if other = symbol then (r.service.holdingOf symbol).pricesAfter (r.prices symbol) d
    else r.prices other

def step (r : PortfolioRun) : PortfolioCall → PortfolioRun
  | .fill fill =>
      let (service, trade, _) := r.service.updatePosition fill
      r.book fill.symbol fill.deal service trade
  | .close symbol exitPrice commission now =>
      let call := r.service.closePosition symbol exitPrice commission now
      match call.2.1 with
      | none => r
      | some trade =>
          r.book symbol ⟨-(r.service.holdingOf symbol).quantity, exitPrice⟩ call.1 (some trade)

def Succeeds (r : PortfolioRun) : PortfolioCall → Prop
  | .fill fill => ∃ p, (r.service.updatePosition fill).2.2 = .ok p
  | .close symbol exitPrice commission now =>
      ∃ trade, (r.service.closePosition symbol exitPrice commission now).2.2 = .ok trade

/-- A fill opens a position or adds to it, and only what is not held is closed. -/
def AddsOnly (r : PortfolioRun) : PortfolioCall → Prop
  | .fill fill => ∀ old, r.service.positions.get? fill.symbol = some old → 0 < old.quantity * fill.signed
  | .close symbol _ _ _ => r.service.positions.get? symbol = none

def dealsOf (r : PortfolioRun) (symbol : String) : List (Deal ℚ) :=
  (r.deals.filter fun e => decide (e.1 = symbol)).map Prod.snd

def realisedOf (r : PortfolioRun) (symbol : String) : ℚ :=
  ((r.trades.filter fun t => decide (t.symbol = symbol)).map TradeRecord.realizedPnl).sum

/-- The books of a symbol: the quantity is the sum of the signed fills, what was realised and the cost
of what is held make up what was paid, and the average lies between prices that were paid. -/
structure AccountedAt (r : PortfolioRun) (symbol : String) : Prop where
  quantity : (r.service.holdingOf symbol).quantity = ((r.dealsOf symbol).map Deal.quantity).sum
  realised : r.realisedOf symbol =
    (r.service.holdingOf symbol).quantity * (r.service.holdingOf symbol).average -
      ((r.dealsOf symbol).map fun d => d.quantity * d.price).sum
  between : (r.service.holdingOf symbol).quantity ≠ 0 →
    (r.service.holdingOf symbol).Between (r.prices symbol)

def Accounted (r : PortfolioRun) : Prop := ∀ symbol, r.AccountedAt symbol

/-! ## One call -/

theorem dealsOf_book (r : PortfolioRun) (symbol : String) (d : Deal ℚ) (service : PortfolioService)
    (trade : Option TradeRecord) (other : String) :
    (r.book symbol d service trade).dealsOf other =
      if other = symbol then r.dealsOf other ++ [d] else r.dealsOf other := by
  unfold dealsOf book
  by_cases h : other = symbol
  · simp [h]
  · simp [h, Ne.symm h]

theorem realisedOf_book (r : PortfolioRun) {symbol : String} (d : Deal ℚ)
    (service : PortfolioService) {trade : Option TradeRecord} (hown : ∀ t ∈ trade, t.symbol = symbol)
    (other : String) : (r.book symbol d service trade).realisedOf other =
      if other = symbol then r.realisedOf other + (trade.toList.map TradeRecord.realizedPnl).sum
      else r.realisedOf other := by
  unfold realisedOf book
  cases trade with
  | none => simp
  | some t =>
      obtain rfl : t.symbol = symbol := hown t rfl
      by_cases h : other = t.symbol
      · simp [h]
      · simp [h, Ne.symm h]

/-- A fill on the holding of a symbol keeps the books of every symbol. -/
theorem Accounted.book {r : PortfolioRun} (hr : r.Accounted) {symbol : String} {d : Deal ℚ}
    {service : PortfolioService} {trade : Option TradeRecord} (hd : d.quantity ≠ 0)
    (hmoves : r.service.Moves service trade symbol d) : (r.book symbol d service trade).Accounted := by
  intro other
  have hholding : (r.book symbol d service trade).service.holdingOf other =
      if other = symbol then (r.service.holdingOf symbol).fill d else r.service.holdingOf other :=
    hmoves.holding other
  have hprices : (r.book symbol d service trade).prices other =
      if other = symbol then (r.service.holdingOf symbol).pricesAfter (r.prices symbol) d
      else r.prices other := rfl
  have hdeals := r.dealsOf_book symbol d service trade other
  have hrealised := r.realisedOf_book d service hmoves.own other
  by_cases h : other = symbol
  · subst h
    rw [if_pos rfl] at hholding hprices hdeals hrealised
    have hbefore := hr other
    refine ⟨?_, ?_, ?_⟩
    · rw [hholding, hdeals, Holding.quantity_fill, hbefore.quantity]
      simp
    · rw [hholding, hdeals, hrealised, hmoves.realised, Holding.realised_eq, hbefore.realised]
      simp only [List.map_append, List.map_cons, List.map_nil, List.sum_append, List.sum_singleton]
      ring
    · rw [hholding, hprices]
      exact Holding.between_fill hd hbefore.between
  · rw [if_neg h] at hholding hprices hdeals hrealised
    have hbefore := hr other
    refine ⟨?_, ?_, ?_⟩
    · rw [hholding, hdeals]
      exact hbefore.quantity
    · rw [hholding, hdeals, hrealised]
      exact hbefore.realised
    · rw [hholding, hprices]
      exact hbefore.between

/-- A close that makes no record leaves the run as it was. -/
theorem step_close_of_none {r : PortfolioRun} {symbol : String} {exitPrice commission : ℚ} {now : Time}
    (hnone : (r.service.closePosition symbol exitPrice commission now).2.1 = none) :
    r.step (.close symbol exitPrice commission now) = r := by
  dsimp only [PortfolioRun.step]
  rw [hnone]

theorem step_close_of_some {r : PortfolioRun} {symbol : String} {exitPrice commission : ℚ} {now : Time}
    {t : TradeRecord}
    (hsome : (r.service.closePosition symbol exitPrice commission now).2.1 = some t) :
    r.step (.close symbol exitPrice commission now) =
      r.book symbol ⟨-(r.service.holdingOf symbol).quantity, exitPrice⟩
        (r.service.closePosition symbol exitPrice commission now).1 (some t) := by
  dsimp only [PortfolioRun.step]
  rw [hsome]

/-- A call that goes through keeps the books, whatever the trade history is. -/
theorem Accounted.step {r : PortfolioRun} (hr : r.Accounted) (hopen : r.service.AllOpen)
    {call : PortfolioCall} (hok : r.Succeeds call) :
    (r.step call).Accounted ∧ (r.step call).service.AllOpen := by
  cases call with
  | fill fill =>
      obtain ⟨p, hp⟩ := hok
      have hmoves := PortfolioService.updatePosition_moves hopen hp
      exact ⟨hr.book fill.signed_ne_zero hmoves, hmoves.allOpen⟩
  | close symbol exitPrice commission now =>
      obtain ⟨trade, htrade⟩ := hok
      obtain ⟨hmade, ⟨rfl, hsame⟩ | ⟨hsome, hmoves⟩⟩ :=
        PortfolioService.closePosition_moves hopen htrade
      · rw [step_close_of_none hmade]
        exact ⟨hr, hopen⟩
      · obtain ⟨t, rfl⟩ := Option.ne_none_iff_exists'.mp hsome
        rw [step_close_of_some hmade]
        refine ⟨hr.book ?_ hmoves, hmoves.allOpen⟩
        intro hzero
        have hheld : (r.service.holdingOf symbol).quantity = 0 := neg_eq_zero.mp hzero
        exact PortfolioService.not_flat_of_made hopen hmade hheld

theorem accounted_of_no_deals {r : PortfolioRun} (hpositions : r.service.positions = Table.empty)
    (hdeals : r.deals = []) (htrades : r.trades = []) : r.Accounted ∧ r.service.AllOpen := by
  have hflat : ∀ symbol, r.service.holdingOf symbol = .flat := by
    intro symbol
    unfold PortfolioService.holdingOf
    rw [hpositions]
    rfl
  refine ⟨fun symbol => ⟨?_, ?_, ?_⟩, ?_⟩
  · simp [hflat symbol, dealsOf, hdeals, Holding.flat]
  · simp [hflat symbol, dealsOf, realisedOf, hdeals, htrades, Holding.flat]
  · intro hopen
    exact absurd (by rw [hflat symbol]; rfl) hopen
  · intro symbol p hget
    rw [hpositions] at hget
    cases hget

/-! ## Whole runs -/

theorem succeeds_iff {r : PortfolioRun} (hopen : r.service.AllOpen)
    (hfield : r.service.tradeHistory = .field) (call : PortfolioCall) :
    r.Succeeds call ↔ r.AddsOnly call := by
  cases call with
  | fill fill => exact PortfolioService.updatePosition_ok_iff hfield fill
  | close symbol exitPrice commission now =>
      exact PortfolioService.closePosition_ok_iff hfield hopen symbol exitPrice commission now

theorem tradeHistory_step {r : PortfolioRun} (hfield : r.service.tradeHistory = .field)
    (call : PortfolioCall) : (r.step call).service.tradeHistory = .field := by
  cases call with
  | fill fill => exact PortfolioService.tradeHistory_updatePosition hfield fill
  | close symbol exitPrice commission now =>
      dsimp only [PortfolioRun.step]
      split
      · exact hfield
      · exact PortfolioService.tradeHistory_closePosition hfield symbol exitPrice commission now

/-- All the calls of a run go through and its books balance throughout exactly when none of them
reduces, closes or turns round a position. -/
theorem accounted_and_succeeds_iff (calls : List PortfolioCall) :
    Always step Accounted fresh calls ∧ StepsMeet step Succeeds fresh calls ↔
      StepsMeet step AddsOnly fresh calls := by
  refine always_and_stepsMeet_iff
    (J := fun r => r.Accounted ∧ r.service.AllOpen ∧ r.service.tradeHistory = .field)
    (fun _ h => h.1) ?_ ?_ ?_
  · rintro r call - ⟨hr, hopen, hfield⟩ hadds
    have hok := (succeeds_iff hopen hfield call).mpr hadds
    obtain ⟨hnext, hopenNext⟩ := hr.step hopen hok
    exact ⟨⟨hnext, hopenNext, tradeHistory_step hfield call⟩, hok⟩
  · rintro r call - ⟨-, hopen, hfield⟩ - hok
    exact (succeeds_iff hopen hfield call).mp hok
  · obtain ⟨haccounted, hopen⟩ := accounted_of_no_deals (r := fresh) rfl rfl rfl
    exact ⟨haccounted, hopen, rfl⟩

/-- With a deque all the calls of a run go through, whatever they close, and its books balance. -/
theorem accounted_of_deque (calls : List PortfolioCall) :
    Always step Accounted freshDeque calls ∧ StepsMeet step Succeeds freshDeque calls := by
  have hkept : ∀ r : PortfolioRun, ∀ call,
      (r.Accounted ∧ r.service.AllOpen ∧ ∃ records, r.service.tradeHistory = .deque records) →
      ((r.step call).Accounted ∧ (r.step call).service.AllOpen ∧
        ∃ records, (r.step call).service.tradeHistory = .deque records) ∧ r.Succeeds call := by
    rintro r call ⟨hr, hopen, records, hdeque⟩
    have hcall : r.Succeeds call ∧ ∃ later, (r.step call).service.tradeHistory = .deque later := by
      cases call with
      | fill fill => exact PortfolioService.updatePosition_ok_of_deque hdeque fill
      | close symbol exitPrice commission now =>
          obtain ⟨hok, hlater⟩ :=
            PortfolioService.closePosition_ok_of_deque hdeque symbol exitPrice commission now
          refine ⟨hok, ?_⟩
          dsimp only [PortfolioRun.step]
          split
          · exact ⟨records, hdeque⟩
          · exact hlater
    obtain ⟨hnext, hopenNext⟩ := hr.step hopen hcall.1
    exact ⟨⟨hnext, hopenNext, hcall.2⟩, hcall.1⟩
  obtain ⟨haccounted, hopen⟩ := accounted_of_no_deals (r := freshDeque) rfl rfl rfl
  obtain ⟨halways, hok⟩ := always_and_stepsMeet (C := fun _ _ => True)
    (fun r call _ hr _ => hkept r call hr) ⟨haccounted, hopen, [], rfl⟩ (stepsMeet_true _ calls)
  exact ⟨halways.mono fun _ h => h.1, hok⟩

/-- Ten are bought at 100 and sold at 110: the sale raises. -/
theorem sale_does_not_succeed :
    ¬ StepsMeet step Succeeds fresh
      [.fill ⟨"NIFTY", "BUY", 10, 100, 0, none, none, by decide⟩,
        .fill ⟨"NIFTY", "SELL", 10, 110, 1, none, none, by decide⟩] := by
  rintro ⟨-, ⟨p, hp⟩, -⟩
  have hok := congrArg Except.isOk hp
  change _ = true at hok
  clear hp
  revert hok
  decide +kernel

end PortfolioRun

end AutoTrade.Portfolio
