import AutoTrade.Risk.AllowedTrades
import Mathlib.Data.Fintype.Card

/-! # The entries of a day under several threads

`PositionService` has a trade evaluated again once it holds its lock, and calls
`record_trade_entry` for the filled order after it has released the lock. Between
the two, other threads are evaluated against a count without this entry, so each
thread under way may bring the day one entry above the limit.
-/

namespace AutoTrade.Risk

open AutoTrade.Library
open AutoTrade.Safety

namespace TradeGate

instance (c : Checked) : Decidable c.Allows :=
  match h : c.2 with
  | .error _ => .isFalse (by rintro ⟨_, heq, -⟩; rw [h] at heq; cases heq)
  | .ok evaluation =>
      decidable_of_iff (evaluation.decision = .allowed)
        ⟨fun hallowed => ⟨evaluation, h, hallowed⟩, by
          rintro ⟨_, heq, hallowed⟩
          rw [h] at heq
          cases heq
          exact hallowed⟩

end TradeGate

/-- The gate, and the threads that are allowed a trade and have neither recorded it nor given it
up. -/
structure Traders (k : Nat) where
  gate : TradeGate
  cleared : Finset (Fin k) := ∅

inductive TraderOp (k : Nat)
  | evaluateTrade (thread : Fin k) (symbol : String) (signalData : SignalData)
      (portfolio : PortfolioRiskMetrics) (answers : Answers)
  | recordTradeEntry (thread : Fin k) (now : Time)
  /-- the order is blocked, rejected or fails -/
  | giveUp (thread : Fin k)
  /-- a call that is no part of an entry -/
  | call (op : GateOp)

namespace Traders

open TradeGate

variable {k : Nat}

/-- The clock that a step reads for the day. -/
def instants : TraderOp k → List Time
  | .evaluateTrade _ _ _ _ answers => [answers.now]
  | .recordTradeEntry _ now => [now]
  | .call (.resetDailyMetrics _ _ today) => [today]
  | _ => []

variable (floatText : ℚ → String) (compute : Greeks.Pricer)

def step (w : Traders k) : TraderOp k → Traders k
  | .evaluateTrade thread symbol signalData portfolio answers =>
      let evaluated := w.gate.evaluateTrade floatText compute symbol signalData portfolio answers
      { gate := evaluated.1
        cleared := if evaluated.Allows then insert thread w.cleared else w.cleared.erase thread }
  | .recordTradeEntry thread now =>
      if thread ∈ w.cleared then
        { gate := w.gate.recordTradeEntry now, cleared := w.cleared.erase thread }
      else w
  | .giveUp thread => { w with cleared := w.cleared.erase thread }
  | .call op =>
      if entryInstant op = none then { w with gate := w.gate.step floatText compute op } else w

/-! ## The limit of the day -/

/-- Both copies of the limit are at most `most`. -/
structure LimitAtMost (most : Int) (g : TradeGate) : Prop where
  synced : g.limits = g.config.limitConfig
  below : g.limits.value .maxTradesDay ≤ most

theorem LimitAtMost.maxDailyTrades {most : Int} {g : TradeGate} (h : LimitAtMost most g) :
    g.config.maxDailyTrades ≤ most := by
  have hbelow := h.below
  rw [h.synced] at hbelow
  exact Int.cast_le.mp hbelow

/-- What a call makes of the limit of the day. -/
def RaisesTo (most : Int) (op : GateOp) : Prop := ∀ q ∈ acceptedFor .maxTradesDay op, q ≤ most

theorem LimitAtMost.step {most : Int} {g : TradeGate} (h : LimitAtMost most g) {o : GateOp}
    (hop : RaisesTo most o) : LimitAtMost most (g.step floatText compute o) := by
  refine ⟨synced_step floatText compute h.synced o, ?_⟩
  rw [value_step]
  cases haccepted : acceptedFor .maxTradesDay o with
  | none => exact h.below
  | some q => exact hop q haccepted

/-- The call that a step makes may raise the limit of the day to `most` at the highest. -/
def StepRaisesTo (most : Int) : TraderOp k → Prop
  | .call op => RaisesTo most op
  | _ => True

theorem limitAtMost_step {most : Int} {w : Traders k} (h : LimitAtMost most w.gate)
    {op : TraderOp k} (hop : StepRaisesTo most op) :
    LimitAtMost most (w.step floatText compute op).gate := by
  cases op with
  | evaluateTrade thread symbol signalData portfolio answers =>
      exact h.step floatText compute (o := .evaluateTrade symbol signalData portfolio answers) nofun
  | recordTradeEntry thread now =>
      dsimp only [Traders.step]
      split
      · exact h.step floatText compute (o := .recordTradeEntry now) nofun
      · exact h
  | giveUp thread => exact h
  | call op =>
      dsimp only [Traders.step]
      split
      · exact h.step floatText compute hop
      · exact h

/-- The entries of the day and the threads that may still record one, at an instant. -/
def Bounded (most : Int) (now : Time) (w : Traders k) : Prop :=
  (w.gate.getTradesToday now : Int) + w.cleared.card ≤ most - 1 + k

theorem card_erase_add_one_le {cleared : Finset (Fin k)} {thread : Fin k} (h : thread ∈ cleared) :
    (cleared.erase thread).card + 1 ≤ cleared.card := by
  rw [Finset.card_erase_of_mem h]
  have hpos := Finset.card_pos.mpr ⟨thread, h⟩
  omega

theorem bounded_step {most : Int} {now : Time} {w : Traders k} (hlimit : LimitAtMost most w.gate)
    (h : w.Bounded most now) {op : TraderOp k} (hclock : ∀ t ∈ instants op, t ≤ now) :
    (w.step floatText compute op).Bounded most now := by
  unfold Bounded at h ⊢
  cases op with
  | evaluateTrade thread symbol signalData portfolio answers =>
      have hnow : answers.now ≤ now := hclock _ (List.mem_singleton_self _)
      have hsame : (w.gate.evaluateTrade floatText compute symbol signalData portfolio
          answers).1.getTradesToday now = w.gate.getTradesToday now :=
        @getTradesToday_step floatText compute w.gate
          (.evaluateTrade symbol signalData portfolio answers) now trivial
      dsimp only [Traders.step]
      rw [hsame]
      split
      · -- an allowed evaluation has seen less than the limit, and every other thread may follow
        rename_i hallowed
        rw [evaluateTrade_allows_iff] at hallowed
        have hroom := hallowed.1.trades
        have hmost := hlimit.maxDailyTrades
        have hlater := w.gate.getTradesToday_antitone hnow
        have hcard := Finset.card_le_univ (insert thread w.cleared)
        rw [Fintype.card_fin] at hcard
        omega
      · have hcard := Finset.card_erase_le (s := w.cleared) (a := thread)
        omega
  | recordTradeEntry thread at' =>
      dsimp only [Traders.step]
      split
      · rename_i hthread
        have hone : (w.gate.recordTradeEntry at').getTradesToday now ≤
            w.gate.getTradesToday now + 1 := by
          rw [TradeGate.recordTradeEntry, getTradesToday, List.countP_append]
          exact Nat.add_le_add_left List.countP_le_length _
        have hcard := card_erase_add_one_le hthread
        show ((w.gate.recordTradeEntry at').getTradesToday now : Int) +
          (w.cleared.erase thread).card ≤ _
        omega
      · exact h
  | giveUp thread =>
      have hcard := Finset.card_erase_le (s := w.cleared) (a := thread)
      show (w.gate.getTradesToday now : Int) + (w.cleared.erase thread).card ≤ _
      omega
  | call op =>
      dsimp only [Traders.step]
      split
      · rename_i hnone
        have hreset : ResetBefore now op := by
          cases op with
          | resetDailyMetrics asked reset today => exact hclock _ (List.mem_singleton_self _)
          | _ => trivial
        rw [getTradesToday_step floatText compute w.gate hreset, hnone]
        exact h
      · exact h

/-- With `k` threads and a limit that is at most `most` all along, a day has at most `most - 1 + k`
entries, whatever the order of their steps: one thread alone keeps the limit. -/
theorem entries_within_limit (config : GateConfig) (configuredLot : String → LotValue)
    (safety : SafetyState) (start : Time) (most : Int) (hmost : 1 ≤ most)
    (hconfig : config.maxDailyTrades ≤ most) (ops : List (TraderOp k))
    (hraises : ∀ op ∈ ops, StepRaisesTo most op) (now : Time)
    (hclock : (ops.flatMap instants ++ [now]).Pairwise (· ≤ ·)) :
    ((run (step floatText compute) { gate := new config configuredLot safety start } ops
        ).gate.getTradesToday now : Int) ≤ most - 1 + k := by
  have hboth : LimitAtMost most (run (step floatText compute)
      ({ gate := new config configuredLot safety start } : Traders k) ops).gate ∧
      (run (step floatText compute)
        ({ gate := new config configuredLot safety start } : Traders k) ops).Bounded most now := by
    induction ops using List.reverseRecOn with
    | nil =>
        refine ⟨⟨rfl, Int.cast_le.mpr hconfig⟩, ?_⟩
        show ((0 : Nat) : Int) + ((0 : Nat) : Int) ≤ most - 1 + k
        omega
    | append_singleton rest op ih =>
        have hlast : run (step floatText compute)
            ({ gate := new config configuredLot safety start } : Traders k) (rest ++ [op]) =
              step floatText compute (run (step floatText compute)
                ({ gate := new config configuredLot safety start } : Traders k) rest) op :=
          List.foldl_append
        rw [List.flatMap_append, List.flatMap_singleton, List.append_assoc,
          List.pairwise_append] at hclock
        obtain ⟨hrest, hop, hacross⟩ := hclock
        have hbefore := ih (fun x hx => hraises x (List.mem_append_left _ hx))
          (List.pairwise_append.mpr ⟨hrest, List.pairwise_singleton _ _,
            fun t ht t' ht' => hacross t ht t' (List.mem_append_right _ ht')⟩)
        have hnow : ∀ t ∈ instants op, t ≤ now := fun t ht =>
          (List.pairwise_append.mp hop).2.2 t ht now (List.mem_singleton_self _)
        rw [hlast]
        exact ⟨limitAtMost_step floatText compute hbefore.1 (hraises op (by simp)),
          bounded_step floatText compute hbefore.1 hbefore.2 hnow⟩
  have hbound := hboth.2
  unfold Bounded at hbound
  omega

/-- Two threads are evaluated before either records its entry. -/
def twoTraders : List (TraderOp 2) :=
  [.evaluateTrade 0 "NIFTY" deepSignal calmPortfolio calmAnswers,
    .evaluateTrade 1 "NIFTY" deepSignal calmPortfolio calmAnswers,
    .recordTradeEntry 0 (2 * hour), .recordTradeEntry 1 (2 * hour)]

theorem entries_within_limit_two :
    ((run (step (fun _ => "") Greeks.deepPricer)
        { gate := new { maxDailyTrades := 1 } (fun _ => .falsy) {} 0 } twoTraders
        ).gate.getTradesToday (3 * hour) : Int) ≤ 1 - 1 + (2 : Nat) := by
  refine entries_within_limit (fun _ => "") Greeks.deepPricer { maxDailyTrades := 1 }
    (fun _ => .falsy) {} 0 1 (by decide) (by decide) twoTraders ?_ (3 * hour) (by decide)
  simp [twoTraders, StepRaisesTo]

end Traders

end AutoTrade.Risk
