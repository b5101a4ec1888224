import AutoTrade.Trading.EquityTrader
import Mathlib.Tactic.Ring
import Mathlib.Tactic.Linarith

/-! # What the trader's book says of its orders

The lock is released between the tests of an entry and its record, and a position leaves the book
before it is sold. So the book alone does not tell what was bought and not sold: the calls in flight,
the failed exits and the replaced records have to be added.
-/

namespace AutoTrade.Trading

open AutoTrade.Library

/-! ## Quantities -/

/-- The quantity of the symbol that a call in flight has bought and not recorded, or taken out of the
book and not sold. -/
def Frame.holding (s : String) : Frame → Int
  | .recording entry qty _ => if entry.symbol = s then qty else 0
  | .exiting symbol position _ => if symbol = s then position.qty else 0
  | .selling symbol position _ _ => if symbol = s then position.qty else 0
  | _ => 0

/-- The call is inside `enter_position`, past the tests, and goes for one of these symbols. -/
def Frame.enters (p : String → Bool) : Frame → Nat
  | .entering entry | .ordering entry _ _ | .recording entry _ _ => if p entry.symbol then 1 else 0
  | _ => 0

namespace Trader

/-- The quantity the log has for an event of the symbol. -/
def logged (w : Trader) (event : TradeEvent) (s : String) : Int :=
  ((w.log.filter fun e => decide (e.event = event ∧ e.symbol = s)).map LogEntry.qty).sum

def bookQty (w : Trader) (s : String) : Int := ((w.positions.get? s).map Position.qty).getD 0

/-- What was bought and neither went out again nor stands in the book. -/
def unrecorded (w : Trader) (s : String) : Int :=
  w.logged .entered s - w.logged .sold s - w.logged .sellFailed s - w.logged .abandoned s -
    w.logged .overwritten s - w.bookQty s

theorem logged_note (w : Trader) (event : TradeEvent) (symbol : String) (qty : Int)
    (event' : TradeEvent) (s : String) :
    (w.note event symbol qty).logged event' s =
      w.logged event' s + if event = event' ∧ symbol = s then qty else 0 := by
  unfold logged note
  rw [List.filter_append, List.map_append, List.sum_append]
  by_cases h : event = event' ∧ symbol = s <;> simp [h]

@[simp] theorem bookQty_note (w : Trader) (event : TradeEvent) (symbol : String) (qty : Int)
    (s : String) : (w.note event symbol qty).bookQty s = w.bookQty s := rfl

theorem unrecorded_note (w : Trader) (event : TradeEvent) (symbol : String) (qty : Int)
    (s : String) :
    (w.note event symbol qty).unrecorded s =
      w.unrecorded s + if symbol = s then (if event = .entered then qty else -qty) else 0 := by
  unfold unrecorded
  rw [bookQty_note]
  simp only [logged_note]
  by_cases hs : symbol = s
  · cases event <;> simp [hs] <;> ring
  · simp [hs]

/-- Where nothing is logged, only the book can change what is unrecorded. -/
theorem unrecorded_of_log {w w' : Trader} (hlog : w'.log = w.log) (s : String) :
    w'.unrecorded s = w.unrecorded s + w.bookQty s - w'.bookQty s := by
  have hlogged : ∀ event, w'.logged event s = w.logged event s := by
    intro event
    unfold logged
    rw [hlog]
  unfold unrecorded
  simp only [hlogged]
  ring

theorem bookQty_erase (w : Trader) (symbol s : String) :
    bookQty { w with positions := w.positions.erase symbol } s =
      if symbol = s then 0 else w.bookQty s := by
  unfold bookQty
  rw [Dict.get?_erase]
  by_cases hs : symbol = s
  · simp [hs]
  · simp [hs, Ne.symm hs]

theorem bookQty_set (w : Trader) (symbol : String) (position : Position) (s : String) :
    bookQty { w with positions := w.positions.set symbol position } s =
      if symbol = s then position.qty else w.bookQty s := by
  unfold bookQty
  rw [Dict.get?_set]
  by_cases hs : symbol = s
  · simp [hs]
  · simp [hs, Ne.symm hs]

theorem unrecorded_popPosition (w : Trader) (symbol : String) (rest : List String) (s : String) :
    (w.popPosition symbol rest).1.unrecorded s =
      w.unrecorded s + pooled (Frame.holding s) (w.popPosition symbol rest).2 := by
  unfold popPosition
  cases hold : w.positions.get? symbol with
  | none => simp [Frame.holding]
  | some position =>
      have hlog : ({ w with positions := w.positions.erase symbol } : Trader).log = w.log := rfl
      rw [unrecorded_of_log hlog, bookQty_erase, pooled_singleton, Frame.holding]
      by_cases hs : symbol = s
      · subst hs
        simp [bookQty, hold]
      · simp [hs]

theorem unrecorded_recordEntry (w : Trader) (entry : Entry) (qty : Int) (price : ℚ) (now : Time)
    (s : String) :
    (w.recordEntry entry qty price now).unrecorded s + (if entry.symbol = s then qty else 0) =
      w.unrecorded s := by
  have hbook : (w.recordEntry entry qty price now).bookQty s =
      if entry.symbol = s then qty else w.bookQty s :=
    bookQty_set w entry.symbol _ s
  cases hold : w.positions.get? entry.symbol with
  | none =>
      have hlog : (w.recordEntry entry qty price now).log = w.log := by simp [recordEntry, hold]
      rw [unrecorded_of_log hlog, hbook]
      by_cases hs : entry.symbol = s
      · subst hs
        simp [bookQty, hold]
      · simp [hs]
  | some old =>
      have hlog : (w.recordEntry entry qty price now).log =
          (w.note .overwritten entry.symbol old.qty).log := by simp [recordEntry, note, hold]
      rw [unrecorded_of_log hlog, hbook, unrecorded_note, bookQty_note]
      by_cases hs : entry.symbol = s
      · subst hs
        simp [bookQty, hold]
      · simp [hs]

theorem unrecorded_notePrice (w : Trader) (symbol : String) (price : ℚ) (s : String) :
    (w.notePrice symbol price).unrecorded s = w.unrecorded s := by
  have hlog : (w.notePrice symbol price).log = w.log := by
    unfold notePrice
    split <;> rfl
  have hbook : (w.notePrice symbol price).bookQty s = w.bookQty s := by
    unfold notePrice
    split
    · rfl
    · rename_i position hold
      rw [bookQty_set]
      by_cases hs : symbol = s
      · subst hs
        simp [bookQty, hold]
      · simp [hs]
  rw [unrecorded_of_log hlog, hbook]
  ring

theorem unrecorded_recordTradeOutcome (w : Trader) (symbol : String) (wasProfit : Bool)
    (s : String) : (w.recordTradeOutcome symbol wasProfit).unrecorded s = w.unrecorded s := by
  unfold recordTradeOutcome
  split <;> rfl

theorem exists_of_prepareEntry {w : Trader} {entry : Entry} {a : Answers} {frame : Frame}
    (h : w.prepareEntry entry a = some frame) : ∃ qty price, frame = .ordering entry qty price := by
  unfold prepareEntry at h
  rcases hprice : a.price with (_ | price) | _
  · simp [hprice] at h
  · simp only [hprice, ite_eq_iff, reduceCtorEq, and_false, false_or, Option.some.injEq] at h
    exact ⟨_, _, h.2.2.symm⟩
  · simp [hprice] at h

/-- One stage of a call moves quantities between the log, the book and the call's frame, and loses
none. -/
theorem unrecorded_stage (w : Trader) (a : Answers) (frame : Frame) (s : String) :
    (w.stage a frame).1.unrecorded s + frame.holding s =
      w.unrecorded s + pooled (Frame.holding s) (w.stage a frame).2 := by
  cases frame with
  | entering entry =>
      rw [stage]
      cases hnext : w.prepareEntry entry a with
      | none => rfl
      | some next =>
          obtain ⟨qty, price, rfl⟩ := exists_of_prepareEntry hnext
          rfl
  | ordering entry qty price =>
      simp only [stage]
      split
      · rw [unrecorded_note, pooled_singleton]
        by_cases hs : entry.symbol = s <;> simp [Frame.holding, hs]
      · rfl
  | recording entry qty price =>
      rw [stage, Frame.holding, unrecorded_recordEntry, pooled_nil, add_zero]
  | exiting symbol position rest =>
      simp only [stage]
      split
      · rw [unrecorded_note, pooled_nil]
        by_cases hs : symbol = s <;> simp [Frame.holding, hs]
      · rw [pooled_singleton]
        rfl
  | selling symbol position price rest =>
      simp only [stage]
      split
      · rw [unrecorded_note, pooled_singleton]
        by_cases hs : symbol = s <;> simp [Frame.holding, hs]
      · rw [unrecorded_note, pooled_singleton]
        by_cases hs : symbol = s <;> simp [Frame.holding, hs]
      · rw [unrecorded_note, pooled_nil]
        by_cases hs : symbol = s <;> simp [Frame.holding, hs]
  | noting symbol wasProfit rest =>
      rw [stage, unrecorded_recordTradeOutcome, pooled_singleton]
      rfl
  | monitoring rest =>
      cases rest with
      | nil => rfl
      | cons symbol rest =>
          simp only [stage]
          split <;> rfl
  | watching symbol position rest =>
      simp only [stage]
      split
      · rfl
      · rfl
      · split <;> rfl
  | pricing symbol position price rest =>
      rw [stage, unrecorded_notePrice, pooled_singleton]
      split <;> rfl
  | stopping symbol rest =>
      rw [stage, unrecorded_popPosition]
      exact add_zero _

theorem unrecorded_begin (w : Trader) (a : Answers) (call : TraderCall) (s : String) :
    (w.begin a call).1.unrecorded s =
      w.unrecorded s + pooled (Frame.holding s) (w.begin a call).2 := by
  cases call with
  | enterPosition entry =>
      rw [begin]
      split <;> simp [Frame.holding]
  | exitPosition symbol => exact unrecorded_popPosition w symbol [] s
  | monitorPositions => simp [begin, Frame.holding]
  | resetDailyIfNeeded =>
      simp only [begin, pooled_nil, add_zero, resetDailyIfNeeded]
      split <;> rfl

/-- The fields that only a record and the start of a day touch. -/
structure SameCounts (w w' : Trader) : Prop where
  config : w'.config = w.config
  inFlight : w'.inFlight = w.inFlight
  dailyTrades : w'.dailyTrades = w.dailyTrades

theorem sameCounts_stage (w : Trader) (a : Answers) {frame : Frame}
    (hframe : ∀ entry qty price, frame ≠ .recording entry qty price) :
    SameCounts w (w.stage a frame).1 := by
  cases frame with
  | recording entry qty price => exact absurd rfl (hframe entry qty price)
  | monitoring rest =>
      cases rest with
      | nil => exact ⟨rfl, rfl, rfl⟩
      | cons symbol rest =>
          simp only [stage]
          split <;> exact ⟨rfl, rfl, rfl⟩
  | noting symbol wasProfit rest =>
      simp only [stage, recordTradeOutcome]
      split <;> exact ⟨rfl, rfl, rfl⟩
  | pricing symbol position price rest =>
      simp only [stage, notePrice]
      split <;> exact ⟨rfl, rfl, rfl⟩
  | stopping symbol rest =>
      simp only [stage, popPosition]
      split <;> exact ⟨rfl, rfl, rfl⟩
  | entering entry => exact ⟨rfl, rfl, rfl⟩
  | _ =>
      simp only [stage]
      split <;> (try split) <;> exact ⟨rfl, rfl, rfl⟩

theorem stage_inFlight (w : Trader) (a : Answers) (frame : Frame) :
    (w.stage a frame).1.inFlight = w.inFlight := by
  cases frame with
  | recording entry qty price => rfl
  | _ => exact (sameCounts_stage w a (fun _ _ _ h => Frame.noConfusion h)).inFlight

theorem begin_inFlight (w : Trader) (a : Answers) (call : TraderCall) :
    (w.begin a call).1.inFlight = w.inFlight := by
  cases call with
  | exitPosition symbol =>
      simp only [begin, popPosition]
      split <;> rfl
  | resetDailyIfNeeded =>
      simp only [begin, resetDailyIfNeeded]
      split <;> rfl
  | _ => rfl

theorem turn_resume {w : Trader} {place : Nat} {frame : Frame}
    (hframe : w.inFlight[place]? = some frame) (a : Answers) :
    w.turn (.resume place a) =
      { (w.stage a frame).1 with
        inFlight := replaceAt w.inFlight place (w.stage a frame).2 } := by
  rw [turn, hframe]
  dsimp only
  rw [stage_inFlight]

/-- How the calls in flight change: a started call's frame joins them, and a resumed one's frame is
replaced. -/
theorem pooled_turn {M : Type} [AddCommMonoid M] (weight : Frame → M) (w : Trader)
    (t : TraderTurn) :
    (∃ call a, t = .start call a ∧
        pooled weight (w.turn t).inFlight =
          pooled weight w.inFlight + pooled weight (w.begin a call).2) ∨
      (∃ place a frame, t = .resume place a ∧ w.inFlight[place]? = some frame ∧
        pooled weight (w.turn t).inFlight + weight frame =
          pooled weight w.inFlight + pooled weight (w.stage a frame).2) ∨
      w.turn t = w := by
  cases t with
  | start call a =>
      refine .inl ⟨call, a, rfl, ?_⟩
      rw [turn]
      dsimp only
      rw [begin_inFlight, pooled_append]
  | resume place a =>
      right
      rw [turn]
      cases hframe : w.inFlight[place]? with
      | none => exact .inr rfl
      | some frame =>
          refine .inl ⟨place, a, frame, rfl, hframe, ?_⟩
          dsimp only
          rw [stage_inFlight, pooled_replaceAt weight hframe]

/-- What is unrecorded is in flight. -/
def Reconciled (w : Trader) : Prop :=
  ∀ s, w.unrecorded s = pooled (Frame.holding s) w.inFlight

theorem Reconciled.turn {w : Trader} (h : w.Reconciled) (t : TraderTurn) :
    (w.turn t).Reconciled := by
  intro s
  have hs := h s
  rcases pooled_turn (Frame.holding s) w t with ⟨call, a, rfl, hpool⟩ |
    ⟨place, a, frame, rfl, hframe, hpool⟩ | hsame
  · have hbegin := unrecorded_begin w a call s
    have hturn : (w.turn (.start call a)).unrecorded s = (w.begin a call).1.unrecorded s := rfl
    rw [hturn, hpool, hbegin, hs]
  · have hstage := unrecorded_stage w a frame s
    have hturn : (w.turn (.resume place a)).unrecorded s = (w.stage a frame).1.unrecorded s := by
      rw [turn_resume hframe]
      rfl
    rw [hturn]
    linarith
  · rw [hsame]
    exact hs

/-! ## Entries that run at once -/

theorem enters_popPosition (p : String → Bool) (w : Trader) (symbol : String)
    (rest : List String) : pooled (Frame.enters p) (w.popPosition symbol rest).2 = 0 := by
  unfold popPosition
  split <;> rfl

/-- A stage of a call starts no entry, and ends one at the latest with its record. -/
theorem enters_stage (p : String → Bool) (w : Trader) (a : Answers) (frame : Frame) :
    pooled (Frame.enters p) (w.stage a frame).2 ≤ frame.enters p := by
  cases frame with
  | entering entry =>
      rw [stage]
      cases hnext : w.prepareEntry entry a with
      | none => exact Nat.zero_le _
      | some next =>
          obtain ⟨qty, price, rfl⟩ := exists_of_prepareEntry hnext
          exact le_of_eq (pooled_singleton _ _)
  | ordering entry qty price =>
      simp only [stage]
      split
      · exact le_of_eq (pooled_singleton _ _)
      · exact Nat.zero_le _
  | recording entry qty price => exact Nat.zero_le _
  | stopping symbol rest =>
      rw [stage, enters_popPosition]
      exact Nat.zero_le _
  | monitoring rest =>
      cases rest with
      | nil => exact Nat.zero_le _
      | cons symbol rest =>
          simp only [stage]
          split <;> exact Nat.zero_le _
  | noting symbol wasProfit rest => exact Nat.zero_le _
  | pricing symbol position price rest =>
      simp only [stage]
      split <;> exact Nat.zero_le _
  | _ =>
      simp only [stage]
      split <;> (try split) <;> exact Nat.zero_le _

theorem enters_begin (p : String → Bool) (w : Trader) (a : Answers) (call : TraderCall) :
    pooled (Frame.enters p) (w.begin a call).2 = 0 ∨
      ∃ entry, call = .enterPosition entry ∧ w.admits entry a.now = true ∧
        pooled (Frame.enters p) (w.begin a call).2 = if p entry.symbol then 1 else 0 := by
  cases call with
  | enterPosition entry =>
      rw [begin]
      split
      · rename_i hadmits
        exact .inr ⟨entry, rfl, hadmits, by simp [Frame.enters]⟩
      · exact .inl rfl
  | exitPosition symbol => exact .inl (enters_popPosition p w symbol [])
  | monitorPositions => exact .inl rfl
  | resetDailyIfNeeded => exact .inl rfl

/-- Before the call there is no other one inside `enter_position` for its symbol. -/
def EntersAlone (w : Trader) : TraderTurn → Prop
  | .start (.enterPosition entry) _ =>
      pooled (Frame.enters fun s => decide (s = entry.symbol)) w.inFlight = 0
  | _ => True

instance (w : Trader) : (t : TraderTurn) → Decidable (w.EntersAlone t)
  | .start (.enterPosition _) _ => inferInstanceAs (Decidable (_ = _))
  | .start (.exitPosition _) _ | .start .monitorPositions _ | .start .resetDailyIfNeeded _
  | .resume _ _ => inferInstanceAs (Decidable True)

/-- Each symbol has one entry under way at most, and then no position in the book. -/
structure Alone (w : Trader) : Prop where
  one : ∀ s, pooled (Frame.enters fun x => decide (x = s)) w.inFlight ≤ 1
  fresh : ∀ s, pooled (Frame.enters fun x => decide (x = s)) w.inFlight ≠ 0 →
    w.positions.get? s = none
  log : ∀ e ∈ w.log, e.event ≠ .overwritten

theorem enters_le_pooled {w : Trader} {place : Nat} {frame : Frame}
    (h : w.inFlight[place]? = some frame) (p : String → Bool) :
    frame.enters p ≤ pooled (Frame.enters p) w.inFlight := by
  have hout := pooled_replaceAt (Frame.enters p) h []
  rw [pooled_nil, Nat.add_zero] at hout
  omega

theorem get?_popPosition {w : Trader} {s : String} (h : w.positions.get? s = none)
    (symbol : String) (rest : List String) :
    (w.popPosition symbol rest).1.positions.get? s = none := by
  unfold popPosition
  split
  · exact h
  · dsimp only
    rw [Dict.get?_erase, h]
    split <;> rfl

/-- Only a record puts a symbol into the book. -/
theorem get?_stage {w : Trader} {s : String} (h : w.positions.get? s = none) (a : Answers)
    {frame : Frame} (hframe : ∀ entry qty price, frame = .recording entry qty price →
      entry.symbol ≠ s) :
    (w.stage a frame).1.positions.get? s = none := by
  cases frame with
  | recording entry qty price =>
      rw [stage, recordEntry]
      dsimp only
      rw [Dict.get?_set_of_ne _ _ (hframe entry qty price rfl).symm, h]
  | pricing symbol position price rest =>
      simp only [stage, notePrice]
      split
      · exact h
      · rename_i old hold
        have hne : s ≠ symbol := by
          rintro rfl
          rw [hold] at h
          cases h
        dsimp only
        rw [Dict.get?_set_of_ne _ _ hne, h]
  | stopping symbol rest => exact get?_popPosition h symbol rest
  | noting symbol wasProfit rest =>
      simp only [stage, recordTradeOutcome]
      split <;> exact h
  | monitoring rest =>
      cases rest with
      | nil => exact h
      | cons symbol rest =>
          simp only [stage]
          split <;> exact h
  | entering entry => exact h
  | _ =>
      simp only [stage]
      split <;> (try split) <;> exact h

theorem get?_begin {w : Trader} {s : String} (h : w.positions.get? s = none) (a : Answers)
    (call : TraderCall) : (w.begin a call).1.positions.get? s = none := by
  cases call with
  | exitPosition symbol => exact get?_popPosition h symbol []
  | resetDailyIfNeeded =>
      simp only [begin, resetDailyIfNeeded]
      split <;> exact h
  | _ => exact h

theorem log_stage {w : Trader} (a : Answers) {frame : Frame}
    (hframe : ∀ entry qty price, frame = .recording entry qty price →
      w.positions.get? entry.symbol = none)
    (h : ∀ e ∈ w.log, e.event ≠ .overwritten) :
    ∀ e ∈ (w.stage a frame).1.log, e.event ≠ .overwritten := by
  have hnote : ∀ event symbol qty, event ≠ .overwritten →
      ∀ e ∈ (w.note event symbol qty).log, e.event ≠ .overwritten := by
    intro event symbol qty hevent e he
    rcases List.mem_append.mp he with he | he
    · exact h e he
    · rw [List.mem_singleton.mp he]
      exact hevent
  cases frame with
  | recording entry qty price =>
      simpa [stage, recordEntry, hframe entry qty price rfl] using h
  | ordering entry qty price =>
      simp only [stage]
      split
      · exact hnote _ _ _ (by decide)
      · exact h
  | exiting symbol position rest =>
      simp only [stage]
      split
      · exact hnote _ _ _ (by decide)
      · exact h
  | selling symbol position price rest =>
      simp only [stage]
      split <;> exact hnote _ _ _ (by decide)
  | pricing symbol position price rest =>
      simp only [stage, notePrice]
      split <;> exact h
  | stopping symbol rest =>
      simp only [stage, popPosition]
      split <;> exact h
  | noting symbol wasProfit rest =>
      simp only [stage, recordTradeOutcome]
      split <;> exact h
  | monitoring rest =>
      cases rest with
      | nil => exact h
      | cons symbol rest =>
          simp only [stage]
          split <;> exact h
  | entering entry => exact h
  | watching symbol position rest =>
      simp only [stage]
      split
      · exact h
      · exact h
      · split <;> exact h

theorem log_begin (w : Trader) (a : Answers) (call : TraderCall) :
    (w.begin a call).1.log = w.log := by
  cases call with
  | exitPosition symbol =>
      simp only [begin, popPosition]
      split <;> rfl
  | resetDailyIfNeeded =>
      simp only [begin, resetDailyIfNeeded]
      split <;> rfl
  | _ => rfl

theorem Alone.turn {w : Trader} (h : w.Alone) {t : TraderTurn} (halone : w.EntersAlone t) :
    (w.turn t).Alone := by
  cases t with
  | start call a =>
      have hturn : w.turn (.start call a) =
          { (w.begin a call).1 with inFlight := w.inFlight ++ (w.begin a call).2 } := by
        rw [Trader.turn]
        dsimp only
        rw [begin_inFlight]
      have hpool : ∀ s, pooled (Frame.enters fun x => decide (x = s)) (w.turn (.start call a)).inFlight =
          pooled (Frame.enters fun x => decide (x = s)) w.inFlight +
            pooled (Frame.enters fun x => decide (x = s)) (w.begin a call).2 := by
        intro s
        rw [hturn, pooled_append]
      have hpositions : ∀ s, w.positions.get? s = none →
          (w.turn (.start call a)).positions.get? s = none := by
        intro s hs
        rw [hturn]
        exact get?_begin hs a call
      have hcase : ∀ s, pooled (Frame.enters fun x => decide (x = s)) (w.begin a call).2 = 0 ∨
          pooled (Frame.enters fun x => decide (x = s)) w.inFlight = 0 ∧
            pooled (Frame.enters fun x => decide (x = s)) (w.begin a call).2 ≤ 1 ∧
              w.positions.get? s = none := by
        intro s
        rcases enters_begin (fun x => decide (x = s)) w a call with hzero |
          ⟨entry, rfl, hadmits, hone⟩
        · exact .inl hzero
        · by_cases hs : entry.symbol = s
          · subst hs
            refine .inr ⟨halone, by simp [hone], ?_⟩
            simpa [admits, Dict.contains_iff_get?, Option.isSome_iff_ne_none] using
              (Bool.and_eq_true_iff.mp hadmits).2
          · exact .inl (by simp [hone, hs])
      refine ⟨?_, ?_, ?_⟩
      · intro s
        rw [hpool]
        have hone := h.one s
        rcases hcase s with hzero | ⟨hbefore, hnew, -⟩ <;> omega
      · intro s hne
        rw [hpool] at hne
        rcases hcase s with hzero | ⟨-, -, hnone⟩
        · exact hpositions s (h.fresh s (by omega))
        · exact hpositions s hnone
      · rw [hturn]
        dsimp only
        rw [log_begin]
        exact h.log
  | resume place a =>
      cases hframe : w.inFlight[place]? with
      | none =>
          have hsame : w.turn (.resume place a) = w := by rw [Trader.turn, hframe]
          rw [hsame]
          exact h
      | some frame =>
          have hin := enters_le_pooled hframe
          have hrecording : ∀ entry qty price, frame = .recording entry qty price →
              w.positions.get? entry.symbol = none := by
            rintro entry qty price rfl
            have hle := hin fun x => decide (x = entry.symbol)
            refine h.fresh entry.symbol ?_
            simp only [Frame.enters, decide_true, if_true] at hle
            omega
          have hpool : ∀ s, pooled (Frame.enters fun x => decide (x = s))
              (replaceAt w.inFlight place (w.stage a frame).2) + frame.enters (fun x => decide (x = s)) =
              pooled (Frame.enters fun x => decide (x = s)) w.inFlight +
                pooled (Frame.enters fun x => decide (x = s)) (w.stage a frame).2 :=
            fun s => pooled_replaceAt _ hframe _
          have hstage := fun s => enters_stage (fun x => decide (x = s)) w a frame
          rw [turn_resume hframe]
          refine ⟨?_, ?_, log_stage a hrecording h.log⟩
          · intro s
            have hone := h.one s
            have hs := hpool s
            have hle := hstage s
            dsimp only
            omega
          · intro s hne
            dsimp only at hne ⊢
            have hs := hpool s
            have hle := hstage s
            refine get?_stage (h.fresh s (by omega)) a ?_
            rintro entry qty price rfl rfl
            -- the record ends the only entry for the symbol
            have hone := h.one entry.symbol
            have hnone : pooled (Frame.enters fun x => decide (x = entry.symbol))
                (w.stage a (.recording entry qty price)).2 = 0 := rfl
            simp only [Frame.enters, decide_true, if_true] at hs
            omega

theorem alone_new (config : TraderConfig) : (new config).Alone :=
  ⟨fun s => Nat.zero_le _, fun s h => absurd rfl h, by simp [new]⟩

theorem logged_eq_zero {w : Trader} {event : TradeEvent} (h : ∀ e ∈ w.log, e.event ≠ event)
    (s : String) : w.logged event s = 0 := by
  unfold logged
  rw [List.filter_eq_nil_iff.mpr]
  · rfl
  · intro e he hmatch
    exact h e he (of_decide_eq_true hmatch).1

/-- After any run of any number of calls: what was bought of a symbol and did not go out again is
what the book has, what is in flight, what failed exits and failed price reads left behind, and what
was overwritten. Where no entry starts while another one for its symbol is under way, nothing is. -/
theorem book_reconciles (config : TraderConfig) (turns : List TraderTurn) :
    let w := run turn (new config) turns
    (∀ s, w.logged .entered s = w.logged .sold s + w.logged .sellFailed s + w.logged .abandoned s +
        w.logged .overwritten s + w.bookQty s + pooled (Frame.holding s) w.inFlight) ∧
      (StepsMeet turn EntersAlone (new config) turns → ∀ s, w.logged .overwritten s = 0) := by
  intro w
  constructor
  · intro s
    have hrun : w.Reconciled :=
      run_invariant (I := Reconciled) (fun w t h => h.turn t) (fun s => rfl) turns
    have hs := hrun s
    unfold unrecorded at hs
    linarith
  · intro hmeet s
    have hrun : w.Alone :=
      (always_of_stepsMeet (I := Alone) (fun w t _ h halone => h.turn halone) (alone_new config)
        hmeet).final
    exact logged_eq_zero hrun.log s

end Trader

end AutoTrade.Trading
