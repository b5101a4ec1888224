import AutoTrade.Trading.EntryAccounting

/-! # The trader's limits over a run

The count of the day's trades is tested when an entry starts and raised when it is recorded, so the
limit is kept up to the entries that run at once. The re-entry test never refuses anything: the
trader has its trackers told the outcome of an exit, and no stop loss.
-/

namespace AutoTrade.Trading

open AutoTrade.Library

namespace Trader

/-- The entries under way, whatever their symbol. -/
def entriesUnderWay (w : Trader) : Nat := pooled (Frame.enters fun _ => true) w.inFlight

theorem config_stage (w : Trader) (a : Answers) (frame : Frame) :
    (w.stage a frame).1.config = w.config := by
  cases frame with
  | recording entry qty price => rfl
  | _ => exact (sameCounts_stage w a (fun _ _ _ h => Frame.noConfusion h)).config

/-- Only a record counts a trade, and it ends an entry. -/
theorem dailyTrades_stage (w : Trader) (a : Answers) (frame : Frame) :
    w.dailyTrades ≤ (w.stage a frame).1.dailyTrades ∧
      (w.stage a frame).1.dailyTrades + pooled (Frame.enters fun _ => true) (w.stage a frame).2 ≤
        w.dailyTrades + frame.enters fun _ => true := by
  have henters := enters_stage (fun _ => true) w a frame
  have hsame : (w.stage a frame).1.dailyTrades = w.dailyTrades →
      w.dailyTrades ≤ (w.stage a frame).1.dailyTrades ∧
        (w.stage a frame).1.dailyTrades + pooled (Frame.enters fun _ => true) (w.stage a frame).2 ≤
          w.dailyTrades + frame.enters fun _ => true := by
    intro h
    rw [h]
    omega
  cases frame with
  | recording entry qty price => simp [stage, recordEntry, Frame.enters]
  | _ => exact hsame (sameCounts_stage w a (fun _ _ _ h => Frame.noConfusion h)).dailyTrades

/-- The count and the entries under way together stay within the limit and the `n` entries that may
run beside the last one. -/
structure WithinLimit (limit : Int) (n : Nat) (w : Trader) : Prop where
  config : w.config.maxDailyTrades = limit
  counted : 0 ≤ w.dailyTrades
  closed : limit ≤ 0 → w.entriesUnderWay = 0
  few : w.entriesUnderWay ≤ n + 1
  sum : w.dailyTrades + w.entriesUnderWay ≤ max limit 0 + n

theorem WithinLimit.turn {limit : Int} {n : Nat} {w : Trader} (h : WithinLimit limit n w)
    {t : TraderTurn} (hfew : (w.turn t).entriesUnderWay ≤ n + 1) :
    WithinLimit limit n (w.turn t) := by
  have hcounted := h.counted
  have hsum := h.sum
  rcases pooled_turn (Frame.enters fun _ => true) w t with ⟨call, a, rfl, hpool⟩ |
    ⟨place, a, frame, rfl, hframe, hpool⟩ | hsame
  · have hpool' : (w.turn (.start call a)).entriesUnderWay =
        w.entriesUnderWay + pooled (Frame.enters fun _ => true) (w.begin a call).2 := hpool
    rcases enters_begin (fun _ => true) w a call with hzero | ⟨entry, rfl, hadmits, hone⟩
    · have hcount : (w.turn (.start call a)).dailyTrades = w.dailyTrades ∨
          (w.turn (.start call a)).dailyTrades = 0 := by
        cases call with
        | exitPosition symbol =>
            simp only [Trader.turn, begin, popPosition]
            split <;> exact .inl rfl
        | resetDailyIfNeeded =>
            simp only [Trader.turn, begin, resetDailyIfNeeded]
            split
            · exact .inl rfl
            · exact .inr rfl
        | _ => exact .inl rfl
      have hconfig : (w.turn (.start call a)).config = w.config := by
        cases call with
        | exitPosition symbol =>
            simp only [Trader.turn, begin, popPosition]
            split <;> rfl
        | resetDailyIfNeeded =>
            simp only [Trader.turn, begin, resetDailyIfNeeded]
            split <;> rfl
        | _ => rfl
      rw [hzero, Nat.add_zero] at hpool'
      refine ⟨hconfig ▸ h.config, ?_, fun hl => hpool'.trans (h.closed hl), hfew, ?_⟩
      · rcases hcount with hc | hc <;> omega
      · rw [hpool']
        rcases hcount with hc | hc
        · omega
        · have hclosed := h.closed
          have hfewer := h.few
          rcases le_or_gt limit 0 with hl | hl
          · have := hclosed hl
            omega
          · omega
    · have hlimit : w.dailyTrades < w.config.maxDailyTrades := by
        have h' := (Bool.and_eq_true_iff.mp (Bool.and_eq_true_iff.mp hadmits).1).2
        exact of_decide_eq_true h'
      have hl := h.config
      rw [hone, if_pos rfl] at hpool'
      have hcount : (w.turn (.start (.enterPosition entry) a)).dailyTrades = w.dailyTrades := rfl
      refine ⟨h.config, h.counted, fun hclosed => ?_, hfew, ?_⟩
      · omega
      · rw [hcount]
        omega
  · have hpool' : (w.turn (.resume place a)).entriesUnderWay + frame.enters (fun _ => true) =
        w.entriesUnderWay + pooled (Frame.enters fun _ => true) (w.stage a frame).2 := hpool
    have henters := enters_stage (fun _ => true) w a frame
    obtain ⟨hmore, hstage⟩ := dailyTrades_stage w a frame
    have hcount : (w.turn (.resume place a)).dailyTrades = (w.stage a frame).1.dailyTrades := by
      rw [turn_resume hframe]
    have hconfig : (w.turn (.resume place a)).config = w.config := by
      rw [turn_resume hframe]
      exact config_stage w a frame
    refine ⟨hconfig ▸ h.config, ?_, fun hl => ?_, hfew, ?_⟩
    · omega
    · have := h.closed hl
      omega
    · omega
  · rw [hsame] at hfew ⊢
    exact h

/-- While at most `n + 1` entries are under way at once, the count of the day's trades passes the
limit by `n` at most; a single loop that enters positions keeps the limit. -/
theorem dailyTrades_le (config : TraderConfig) (n : Nat) (turns : List TraderTurn)
    (hfew : Always turn (fun w => w.entriesUnderWay ≤ n + 1) (new config) turns) :
    (run turn (new config) turns).dailyTrades ≤ max config.maxDailyTrades 0 + n := by
  have hstart : WithinLimit config.maxDailyTrades n (new config) := by
    refine ⟨rfl, le_refl 0, fun _ => rfl, Nat.zero_le _, ?_⟩
    have hzero : ((new config).entriesUnderWay : Int) = 0 := rfl
    have hcount : (new config).dailyTrades = 0 := rfl
    omega
  have hrun : WithinLimit config.maxDailyTrades n (run turn (new config) turns) :=
    (always_of_stepsMeet (I := WithinLimit config.maxDailyTrades n)
      (fun w t _ h hC => h.turn hC) hstart hfew.after_steps).final
  have hsum := hrun.sum
  omega

/-- A market hour on a weekday. -/
def noon : Answers := ⟨12 * hour, .price (some 100), .returns true⟩

def oneTradeConfig : TraderConfig :=
  ⟨Table.empty, 95 / 100, 105 / 100, 1, 1, Table.empty, {}⟩

theorem dailyTrades_le_one_at_a_time :
    (run turn (new oneTradeConfig)
      [.start (.enterPosition ⟨"TCS", "BUY", 80, ""⟩) noon, .resume 0 noon, .resume 0 noon,
        .resume 0 noon, .start (.enterPosition ⟨"INFY", "BUY", 80, ""⟩) noon]).dailyTrades ≤ 1 + 0 :=
  dailyTrades_le oneTradeConfig 0 _ (by decide)

/-- Two entries that start together pass a limit of one trade. -/
example :
    (run turn (new oneTradeConfig)
      [.start (.enterPosition ⟨"TCS", "BUY", 80, ""⟩) noon,
        .start (.enterPosition ⟨"INFY", "BUY", 80, ""⟩) noon, .resume 0 noon, .resume 0 noon,
        .resume 0 noon, .resume 0 noon, .resume 0 noon, .resume 0 noon]).dailyTrades = 2 := by
  decide

/-! ## The re-entry test -/

/-- No tracker has a stop loss. -/
def NoStopLoss (w : Trader) : Prop :=
  ∀ symbol t, w.reentryTrackers.get? symbol = some t → t.lastSlTs = none

theorem NoStopLoss.recordTradeOutcome {w : Trader} (h : w.NoStopLoss) (symbol : String)
    (wasProfit : Bool) : (w.recordTradeOutcome symbol wasProfit).NoStopLoss := by
  unfold Trader.recordTradeOutcome
  split
  · exact h
  · rename_i old hold
    intro s t ht
    dsimp only at ht
    rw [Dict.get?_set] at ht
    split at ht
    · cases ht
      rw [ReentryTracker.lastSlTs_recordOutcome]
      exact h symbol old hold
    · exact h s t ht

theorem NoStopLoss.resetDailyIfNeeded {w : Trader} (h : w.NoStopLoss) (now : Time) :
    (w.resetDailyIfNeeded now).NoStopLoss := by
  unfold Trader.resetDailyIfNeeded
  dsimp only
  split
  · exact h
  · intro s t ht
    dsimp only at ht
    rw [Dict.get?_mapValues] at ht
    obtain ⟨old, -, rfl⟩ := Option.map_eq_some_iff.mp ht
    rfl

theorem NoStopLoss.turn {w : Trader} (h : w.NoStopLoss) (t : TraderTurn) :
    (w.turn t).NoStopLoss := by
  have hsame : ∀ w' : Trader, w'.reentryTrackers = w.reentryTrackers → w'.NoStopLoss := by
    intro w' htrackers s t ht
    exact h s t (htrackers ▸ ht)
  cases t with
  | start call a =>
      cases call with
      | resetDailyIfNeeded => exact h.resetDailyIfNeeded a.now
      | exitPosition symbol =>
          refine hsame _ ?_
          simp only [Trader.turn, begin, popPosition]
          split <;> rfl
      | _ => exact hsame _ rfl
  | resume place a =>
      cases hframe : w.inFlight[place]? with
      | none => exact hsame _ (by rw [Trader.turn, hframe])
      | some frame =>
          rw [turn_resume hframe]
          cases frame with
          | noting symbol wasProfit rest => exact h.recordTradeOutcome symbol wasProfit
          | monitoring rest =>
              refine hsame _ ?_
              cases rest with
              | nil => rfl
              | cons symbol rest =>
                  simp only [stage]
                  split <;> rfl
          | pricing symbol position price rest =>
              refine hsame _ ?_
              simp only [stage, notePrice]
              split <;> rfl
          | stopping symbol rest =>
              refine hsame _ ?_
              simp only [stage, popPosition]
              split <;> rfl
          | entering entry => exact hsame _ rfl
          | recording entry qty price => exact hsame _ rfl
          | _ =>
              refine hsame _ ?_
              simp only [stage]
              split <;> (try split) <;> rfl

/-- However often the monitor has exited a symbol on a stop loss, and whatever the cooldown, the
direction and the score say: no entry of any run is refused for re-entry. -/
theorem reentry_never_refused (config : TraderConfig) (turns : List TraderTurn) (symbol : String)
    (t : ReentryTracker)
    (htracker : (run turn (new config) turns).reentryTrackers.get? symbol = some t)
    (c : ReentryConfig) (now : Time) (score : Int) (direction : String) :
    (t.evaluateReentry c now score direction).allowed = true := by
  have hstart : (new config).NoStopLoss := fun _ _ => lastSlTs_buildReentryTrackers
  have hrun : (run turn (new config) turns).NoStopLoss :=
    run_invariant (I := NoStopLoss) (fun w t h => h.turn t) hstart turns
  exact ReentryTracker.allowed_of_lastSlTs (hrun symbol t htracker) c now score direction

def oneSymbolConfig : TraderConfig :=
  ⟨Dict.set Table.empty "TCS" "EQUITY", 95 / 100, 105 / 100, 5, 1, Table.empty, {}⟩

/-- A position is bought at a hundred and stopped out at eighty. -/
def stoppedOut : List TraderTurn :=
  let fallen : Answers := ⟨13 * hour, .price (some 80), .returns true⟩
  [.start (.enterPosition ⟨"TCS", "BUY", 80, ""⟩) noon, .resume 0 noon, .resume 0 noon,
    .resume 0 noon, .start .monitorPositions fallen, .resume 0 fallen, .resume 0 fallen,
    .resume 0 fallen, .resume 0 fallen, .resume 0 fallen, .resume 0 fallen, .resume 0 fallen]

theorem reentry_after_stop :
    (ReentryTracker.evaluateReentry { indexName := "TCS", losses := 1 }
      { reentryEnabled := true } (13 * hour + second) 60 "SELL").allowed = true :=
  reentry_never_refused oneSymbolConfig stoppedOut "TCS" _ (by decide +kernel) _ _ _ _

end Trader

end AutoTrade.Trading
