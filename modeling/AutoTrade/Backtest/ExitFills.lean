import AutoTrade.Backtest.BacktestEngine
import Mathlib.Algebra.Order.Ring.Rat

/-! # Where a simulated exit is filled

Both engines close a position at the level itself as soon as the bar is on the
far side of it. On a bar that lies wholly beyond the level that price was never
traded, and for a stop it is better than any that was.
-/

namespace AutoTrade.Backtest

open AutoTrade.Library

/-- Open and close lie between the low and the high of the bar. -/
structure Bar.WellFormed (row : Bar) : Prop where
  low_open : row.lowPrice ≤ row.openPrice
  open_high : row.openPrice ≤ row.highPrice
  low_close : row.lowPrice ≤ row.closePrice
  close_high : row.closePrice ≤ row.highPrice

/-- The price was traded on the bar. -/
def Attainable (row : Bar) (price : ℚ) : Prop := row.lowPrice ≤ price ∧ price ≤ row.highPrice

/-- An exit is filled at a price of the bar, and at the stop where the bar has both levels. -/
structure SoundExit (row : Bar) (stop target : ℚ) (exit : Option (ℚ × String)) : Prop where
  attainable : ∀ fill ∈ exit, Attainable row fill.1
  conservative : Attainable row stop → Attainable row target → ∃ fill ∈ exit, fill.1 = stop

/-- The bar does not lie wholly beyond the stop, nor, short of the stop, wholly beyond the target. -/
def NotBeyond (direction : String) (stop target : ℚ) (row : Bar) : Prop :=
  if direction = "CALL" then
    stop ≤ row.highPrice ∧ (row.lowPrice ≤ stop ∨ row.lowPrice ≤ target)
  else row.lowPrice ≤ stop ∧ (stop ≤ row.highPrice ∨ target ≤ row.highPrice)

instance (direction : String) (stop target : ℚ) (row : Bar) :
    Decidable (NotBeyond direction stop target row) := by
  unfold NotBeyond
  infer_instance

/-! ## The rule of both engines -/

section Rule

variable {row : Bar} {stop target : ℚ} {due : Prop} [Decidable due] {stopped reached : String}

/-- Out at the stop, else at the target, else at the close where the time is up. -/
def levelExit (direction : String) (stop target : ℚ) (row : Bar) (due : Prop) [Decidable due]
    (reached : String) : Option (ℚ × String) :=
  let call := direction = "CALL"
  if (if call then row.lowPrice ≤ stop else stop ≤ row.highPrice) then some (stop, "stop_loss")
  else if (if call then target ≤ row.highPrice else row.lowPrice ≤ target) then
    some (target, reached)
  else if due then some (row.closePrice, "time_exit")
  else none

theorem soundExit_closed (hrow : row.WellFormed) (hstop : ¬ Attainable row stop) :
    SoundExit row stop target (if due then some (row.closePrice, "time_exit") else none) where
  attainable fill hfill := by
    obtain ⟨-, hfill⟩ := Option.ite_none_right_eq_some.mp hfill
    obtain rfl := Option.some.inj hfill
    exact ⟨hrow.low_close, hrow.close_high⟩
  conservative h := absurd h hstop

theorem soundExit_some {price : ℚ} {reason : String}
    (hconservative : Attainable row stop → Attainable row target → price = stop) :
    SoundExit row stop target (some (price, reason)) ↔ Attainable row price := by
  constructor
  · intro h
    exact h.attainable (price, reason) rfl
  · intro h
    refine ⟨fun fill hfill => ?_, fun hstop htarget => ?_⟩
    · obtain rfl := Option.some.inj hfill
      exact h
    · exact ⟨(price, reason), rfl, hconservative hstop htarget⟩

theorem levelExit_call (hrow : row.WellFormed) :
    SoundExit row stop target (levelExit "CALL" stop target row due reached) ↔
      stop ≤ row.highPrice ∧ (row.lowPrice ≤ stop ∨ row.lowPrice ≤ target) := by
  have hrange : row.lowPrice ≤ row.highPrice := hrow.low_open.trans hrow.open_high
  unfold levelExit
  simp only [if_true]
  by_cases hstop : row.lowPrice ≤ stop
  · rw [if_pos hstop, soundExit_some fun _ _ => rfl]
    exact ⟨fun h => ⟨h.2, Or.inl hstop⟩, fun h => ⟨hstop, h.1⟩⟩
  · have hbelow : stop ≤ row.highPrice := (not_le.mp hstop).le.trans hrange
    rw [if_neg hstop, and_iff_right hbelow, or_iff_right hstop]
    by_cases htarget : target ≤ row.highPrice
    · rw [if_pos htarget, soundExit_some fun h _ => absurd h.1 hstop]
      exact ⟨And.left, fun h => ⟨h, htarget⟩⟩
    · rw [if_neg htarget]
      exact iff_of_true (soundExit_closed hrow fun h => hstop h.1)
        (hrange.trans (not_le.mp htarget).le)

theorem levelExit_put {direction : String} (hput : direction ≠ "CALL") (hrow : row.WellFormed) :
    SoundExit row stop target (levelExit direction stop target row due reached) ↔
      row.lowPrice ≤ stop ∧ (stop ≤ row.highPrice ∨ target ≤ row.highPrice) := by
  have hrange : row.lowPrice ≤ row.highPrice := hrow.low_open.trans hrow.open_high
  unfold levelExit
  simp only [hput, if_false]
  by_cases hstop : stop ≤ row.highPrice
  · rw [if_pos hstop, soundExit_some fun _ _ => rfl]
    exact ⟨fun h => ⟨h.1, Or.inl hstop⟩, fun h => ⟨h.1, hstop⟩⟩
  · have habove : row.lowPrice ≤ stop := hrange.trans (not_le.mp hstop).le
    rw [if_neg hstop, and_iff_right habove, or_iff_right hstop]
    by_cases htarget : row.lowPrice ≤ target
    · rw [if_pos htarget, soundExit_some fun h _ => absurd h.2 hstop]
      exact ⟨And.right, fun h => ⟨htarget, h⟩⟩
    · rw [if_neg htarget]
      exact iff_of_true (soundExit_closed hrow fun h => hstop h.2)
        ((not_le.mp htarget).le.trans hrange)

theorem levelExit_sound_iff (direction : String) (hrow : row.WellFormed) :
    SoundExit row stop target (levelExit direction stop target row due reached) ↔
      NotBeyond direction stop target row := by
  unfold NotBeyond
  by_cases hcall : direction = "CALL"
  · rw [if_pos hcall, hcall]
    exact levelExit_call hrow
  · rw [if_neg hcall]
    exact levelExit_put hcall hrow

end Rule

/-! ## The two engines -/

theorem maybeExitBar_eq {μ : Type} (position : Position μ) (row : Bar) (idx : Nat) :
    CandleBacktestEngine.maybeExitBar position row idx =
      levelExit position.direction position.stopLoss position.tp row
        (position.maxBars ≤ (idx : Int) - position.entryIdx) "take_profit" :=
  rfl

theorem exitOn_eq {σ : Type} (engine : BacktestEngine σ) (position : BacktestEngine.Position)
    (row : Bar) (idx : Nat) :
    engine.exitOn position row idx =
      levelExit position.direction position.stopLoss position.target row
        (engine.cfg.maxBarsInTrade ≤ (idx : Int) - position.entryIdx) "target" := by
  unfold BacktestEngine.exitOn levelExit
  by_cases hcall : position.direction = "CALL"
  · by_cases hstop : row.lowPrice ≤ position.stopLoss
    · simp [hcall, hstop]
    · by_cases htarget : position.target ≤ row.highPrice <;> simp [hcall, hstop, htarget]
  · by_cases hstop : position.stopLoss ≤ row.highPrice
    · simp [hcall, hstop]
    · by_cases htarget : row.lowPrice ≤ position.target <;> simp [hcall, hstop, htarget]

/-- On a well-formed bar the exit of either engine is at a traded price, and at the stop where both
levels were traded, exactly where the bar is not wholly beyond the level it is checked for. -/
theorem exits_sound_iff {σ μ : Type} (engine : BacktestEngine σ)
    (replayed : BacktestEngine.Position) (position : Position μ) (row : Bar)
    (hrow : row.WellFormed) (idx : Nat) :
    (SoundExit row replayed.stopLoss replayed.target (engine.exitOn replayed row idx) ↔
      NotBeyond replayed.direction replayed.stopLoss replayed.target row) ∧
    (SoundExit row position.stopLoss position.tp
        (CandleBacktestEngine.maybeExitBar position row idx) ↔
      NotBeyond position.direction position.stopLoss position.tp row) := by
  rw [exitOn_eq, maybeExitBar_eq]
  exact ⟨levelExit_sound_iff _ hrow, levelExit_sound_iff _ hrow⟩

/-- A bar that opened below the stop of a call and never came back to it. -/
def gapBar : Bar :=
  { timestamp := 0, openPrice := 90, highPrice := 95, lowPrice := 88, closePrice := 92
    volume := 1000 }

/-- A call from 105 to 120 with a stop at the given price. -/
def sampleCall (stopLoss : ℚ) : BacktestEngine.Position :=
  { entryIdx := 0, entryTime := 0, entryPrice := 105, stopLoss := stopLoss, target := 120
    direction := "CALL", qty := 1, score := 80, threshold := 65 }

/-- The same in the candle engine. -/
def sampleCandleCall (stopLoss : ℚ) : Position Unit :=
  { entryIdx := 0, entryTime := 0, entryPrice := 105, stopLoss := stopLoss, tp := 120
    direction := "CALL", qty := 1, entryPremium := 0, optSpec := none
    signalMeta := { confidence := 0, signalReason := "", mktRegime := "NEUTRAL", rest := () }
    score := 80, threshold := 65, regime := "NEUTRAL", maxBars := 40 }

theorem gapBar_wellFormed : gapBar.WellFormed where
  low_open := by decide
  open_high := by decide
  low_close := by decide
  close_high := by decide

/-- A stop at 90 is filled within the bar. -/
theorem stop_in_bar_sound :
    SoundExit gapBar 90 120 (silentEngine.exitOn (sampleCall 90) gapBar 1) :=
  (exits_sound_iff silentEngine (sampleCall 90) (sampleCandleCall 90) gapBar gapBar_wellFormed
    1).1.mpr (by decide)

/-- A stop at 100 is filled at 100 by both engines, five points above the high of the bar. -/
theorem gap_filled_at_stop :
    ¬ SoundExit gapBar 100 120 (silentEngine.exitOn (sampleCall 100) gapBar 1) ∧
      ¬ SoundExit gapBar 100 120
        (CandleBacktestEngine.maybeExitBar (sampleCandleCall 100) gapBar 1) := by
  constructor
  · intro h
    exact absurd (h.attainable (100, "stop_loss") (by decide)).2 (by decide)
  · intro h
    exact absurd (h.attainable (100, "stop_loss") (by decide)).2 (by decide)

/-! ## The trades of a run -/

section Trades

variable {σ : Type} {engine : BacktestEngine σ} {name : String} {vix : ℚ} {bars : List Bar}

/-- The recorded exit is a traded price of one of the bars, rounded to four decimals. -/
def FilledOn (bars : List Bar) (trade : BacktestTrade) : Prop :=
  ∃ row ∈ bars, trade.exitTime = row.timestamp ∧
    ∃ price, Attainable row price ∧ trade.exitPrice = roundTo 4 price

theorem filledOn_step {s : BacktestEngine.State σ} {entry : Bar × Nat}
    (hentry : entry ∈ engine.loopBars bars) (hrow : entry.1.WellFormed)
    (hbeyond : ∀ position ∈ s.position,
      NotBeyond position.direction position.stopLoss position.target entry.1)
    (h : ∀ trade ∈ s.trades, FilledOn bars trade) :
    ∀ trade ∈ (engine.step name vix bars s entry).trades, FilledOn bars trade := by
  unfold BacktestEngine.step
  cases hposition : s.position with
  | none =>
      dsimp only
      split
      · exact h
      · exact h
  | some position =>
      cases hexit : engine.exitOn position entry.1 entry.2 with
      | none =>
          simp only [hexit]
          exact h
      | some exit =>
          simp only [hexit]
          have hsound := exitOn_eq engine position entry.1 entry.2 ▸
            (levelExit_sound_iff position.direction hrow).mpr (hbeyond position hposition)
          have hprice := hsound.attainable exit hexit
          intro trade htrade
          rcases List.mem_append.mp htrade with hold | hnew
          · exact h trade hold
          · obtain rfl := List.mem_singleton.mp hnew
            have hbar : entry.1 ∈ bars := List.mem_of_mem_drop
              (List.fst_mem_of_mem_zipIdx hentry)
            exact ⟨entry.1, hbar, rfl, exit.1, hprice, rfl⟩

/-- In a run whose open positions never meet a bar beyond their levels, every trade is closed at a
traded price. -/
theorem trades_filled (strategy : σ) (hbars : ∀ row ∈ bars, row.WellFormed)
    (hbeyond : StepsMeet (engine.step name vix bars) (fun s entry => ∀ position ∈ s.position,
        NotBeyond position.direction position.stopLoss position.target entry.1)
      (engine.start strategy) (engine.loopBars bars)) :
    ∀ trade ∈ (engine.run name vix strategy bars).1.trades, FilledOn bars trade := by
  refine (always_of_stepsMeet (I := fun s => ∀ trade ∈ s.trades, FilledOn bars trade)
    (fun s entry hentry h hmeet => ?_) (fun trade htrade => ?_) hbeyond).final
  · have hbar : entry.1 ∈ bars := List.mem_of_mem_drop (List.fst_mem_of_mem_zipIdx hentry)
    exact filledOn_step hentry (hbars entry.1 hbar) hmeet h
  · cases htrade

end Trades

end AutoTrade.Backtest
