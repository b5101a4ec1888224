import AutoTrade.Backtest.BacktestEngine
import Mathlib.Algebra.Order.Ring.Rat
import Mathlib.Tactic.Ring

/-! # Walk-forward windows

`WalkForwardEngine.run` of `walkforward_engine.py`: at each start the strategy
is adapted to the training bars and tested on the bars that follow. The loop
runs on fuel, one unit for each test of its condition, and more fuel than there
are bars is always enough.
-/

namespace AutoTrade.Backtest

open AutoTrade.Library

structure WalkForwardWindow where
  trainStart : Time
  trainEnd : Time
  testStart : Time
  testEnd : Time
  report : BacktestReport
deriving DecidableEq, Repr

structure WalkForwardReport where
  windows : List WalkForwardWindow
  totalTestTrades : Nat
  netTestPnl : ℚ
  avgWinRate : ℚ
  mode : String
deriving DecidableEq, Repr

/-- The arguments of `run` beside the bars. -/
structure WalkForwardArgs where
  name : String
  trainBars : Nat
  testBars : Nat
  stepBars : Option Int := none
  vix : ℚ := 0
  anchored : Bool := false

/-- `iloc[start:stop]`. -/
structure Slice where
  start : Nat
  stop : Nat
deriving DecidableEq, Repr

namespace Slice

def bars (slice : Slice) (all : List Bar) : List Bar := (all.take slice.stop).drop slice.start

/-- The numbers of the bars in the slice. -/
def positions (slice : Slice) : List Nat := List.range' slice.start (slice.stop - slice.start)

/-- `index[0]` and `index[-1]`. -/
def ends (slice : Slice) (all : List Bar) : Except String (Time × Time) :=
  match (slice.bars all).head?, (slice.bars all).getLast? with
  | some first, some last => .ok (first.timestamp, last.timestamp)
  | _, _ => .error "index 0 is out of bounds for axis 0 with size 0"

end Slice

namespace WalkForwardArgs

/-- `int(step_bars or test_bars)`. -/
def step (args : WalkForwardArgs) : Int :=
  if args.stepBars.getD 0 = 0 then args.testBars else args.stepBars.getD 0

def advance (args : WalkForwardArgs) : Nat := (max 1 args.step).toNat

def trainSlice (args : WalkForwardArgs) (idx : Nat) : Slice :=
  if args.anchored then ⟨0, idx + args.trainBars⟩ else ⟨idx, idx + args.trainBars⟩

def testSlice (args : WalkForwardArgs) (idx : Nat) : Slice :=
  ⟨idx + args.trainBars, idx + args.trainBars + args.testBars⟩

end WalkForwardArgs

/-- `adaptFn` trains the strategy engine, whose state it changes. -/
structure WalkForwardEngine (σ : Type) where
  backtest : BacktestEngine σ
  adaptFn : Option (List Bar → σ → σ) := none

namespace WalkForwardEngine

variable {σ : Type} (engine : WalkForwardEngine σ) (args : WalkForwardArgs) (all : List Bar)

/-- The strategy after the training bars of a window. -/
def adapted (idx : Nat) (strategy : σ) : σ :=
  match engine.adaptFn with
  | some adapt => adapt ((args.trainSlice idx).bars all) strategy
  | none => strategy

/-- One window, and the strategy after it. -/
def windowAt (idx : Nat) (strategy : σ) : Except String (WalkForwardWindow × σ) :=
  let (report, after) := engine.backtest.run args.name args.vix
    (engine.adapted args all idx strategy) ((args.testSlice idx).bars all)
  match (args.trainSlice idx).ends all, (args.testSlice idx).ends all with
  | .ok train, .ok test =>
      .ok ({ trainStart := train.1, trainEnd := train.2, testStart := test.1, testEnd := test.2
             report := report }, after)
  | .error e, _ => .error e
  | _, .error e => .error e

/-- The loop from `idx` on; each window stands with the index it was made at. -/
def walk : Nat → Nat → σ → List (Nat × WalkForwardWindow) →
    Option (Except String (List (Nat × WalkForwardWindow) × σ))
  | 0, _, _, _ => none
  | fuel + 1, idx, strategy, windows =>
      if idx + args.trainBars + args.testBars ≤ all.length then
        match engine.windowAt args all idx strategy with
        | .error e => some (.error e)
        | .ok (window, after) =>
            walk fuel (idx + args.advance) after (windows ++ [(idx, window)])
      else some (.ok (windows, strategy))

def report (windows : List WalkForwardWindow) : WalkForwardReport :=
  { windows := windows
    totalTestTrades := (windows.map fun window => window.report.totalTrades).sum
    netTestPnl := roundTo 2 ((windows.map fun window => window.report.netPnl).sum)
    avgWinRate := if windows = [] then 0
      else roundTo 2 ((windows.map fun window => window.report.winRate).sum / windows.length)
    mode := if args.anchored then "anchored" else "rolling" }

/-- `run`, with its windows by their index, and the state the strategy is left in. -/
def run (fuel : Nat) (strategy : σ) :
    Option (Except String (List (Nat × WalkForwardWindow) × WalkForwardReport × σ)) :=
  (engine.walk args all fuel 0 strategy []).map fun outcome =>
    outcome.map fun (windows, after) => (windows, report args (windows.map Prod.snd), after)

/-! ## What a window is made of -/

/-- The window has the timestamps of its training and of its test bars, its report is of a backtest of
the test bars alone, and these come after all training bars. -/
structure WindowOf (engine : WalkForwardEngine σ) (args : WalkForwardArgs) (all : List Bar)
    (idx : Nat) (window : WalkForwardWindow) : Prop where
  inside : (args.testSlice idx).stop ≤ all.length
  trainStart : (all[(args.trainSlice idx).start]?).map Bar.timestamp = some window.trainStart
  trainEnd : (all[(args.trainSlice idx).stop - 1]?).map Bar.timestamp = some window.trainEnd
  testStart : (all[(args.testSlice idx).start]?).map Bar.timestamp = some window.testStart
  testEnd : (all[(args.testSlice idx).stop - 1]?).map Bar.timestamp = some window.testEnd
  report : ∃ strategy, window.report = (engine.backtest.run args.name args.vix strategy
    ((args.testSlice idx).bars all)).1
  later : ∀ i ∈ (args.trainSlice idx).positions, ∀ j ∈ (args.testSlice idx).positions, i < j

end WalkForwardEngine

section Slices

variable {all : List Bar} {args : WalkForwardArgs} {idx : Nat}

/-- The bars of a slice are those at its positions. -/
theorem Slice.bars_eq (slice : Slice) (h : slice.stop ≤ all.length) :
    (slice.bars all).map some = slice.positions.map fun i => all[i]? := by
  refine List.ext_getElem ?_ fun n hbars hpositions => ?_
  · simp only [List.length_map, Slice.bars, Slice.positions, List.length_drop, List.length_take,
      List.length_range', min_eq_left h]
  · simp only [List.length_map, Slice.positions, List.length_range'] at hpositions
    simp only [List.getElem_map, Slice.bars, Slice.positions, List.getElem_drop, List.getElem_take,
      List.getElem_range', Nat.one_mul]
    exact (List.getElem?_eq_getElem (by omega)).symm

variable (all) in
theorem Slice.ends_eq_ok (slice : Slice) (hstart : slice.start < slice.stop)
    (hstop : slice.stop ≤ all.length) :
    ∃ times, slice.ends all = .ok times ∧
      (all[slice.start]?).map Bar.timestamp = some times.1 ∧
      (all[slice.stop - 1]?).map Bar.timestamp = some times.2 := by
  have hlength : (slice.bars all).length = slice.stop - slice.start := by
    simp only [Slice.bars, List.length_drop, List.length_take, min_eq_left hstop]
  have hget : ∀ n, slice.start + n < slice.stop →
      (slice.bars all)[n]? = all[slice.start + n]? := by
    intro n hn
    rw [Slice.bars, List.getElem?_drop, List.getElem?_take, if_pos hn]
  have hhead : (slice.bars all).head? = all[slice.start]? := by
    rw [List.head?_eq_getElem?, hget 0 hstart, Nat.add_zero]
  have hlast : (slice.bars all).getLast? = all[slice.stop - 1]? := by
    rw [List.getLast?_eq_getElem?, hlength, hget _ (by omega)]
    congr 1
    omega
  have hfirst : slice.start < all.length := by omega
  have hfinal : slice.stop - 1 < all.length := by omega
  rw [List.getElem?_eq_getElem hfirst] at hhead
  rw [List.getElem?_eq_getElem hfinal] at hlast
  refine ⟨(all[slice.start].timestamp, all[slice.stop - 1].timestamp), ?_, ?_, ?_⟩
  · rw [Slice.ends, hhead, hlast]
  · rw [List.getElem?_eq_getElem hfirst]
    rfl
  · rw [List.getElem?_eq_getElem hfinal]
    rfl

theorem WalkForwardArgs.trainSlice_stop (args : WalkForwardArgs) (idx : Nat) :
    (args.trainSlice idx).stop = idx + args.trainBars := by
  unfold WalkForwardArgs.trainSlice
  split <;> rfl

theorem WalkForwardArgs.trainSlice_start_le (args : WalkForwardArgs) (idx : Nat) :
    (args.trainSlice idx).start ≤ idx := by
  unfold WalkForwardArgs.trainSlice
  split
  · exact Nat.zero_le idx
  · exact le_rfl

/-- Whatever the mode, the last training bar stands right before the first test bar. -/
theorem WalkForwardArgs.train_lt_test {i j : Nat} (hi : i ∈ (args.trainSlice idx).positions)
    (hj : j ∈ (args.testSlice idx).positions) : i < j := by
  have hstop := args.trainSlice_stop idx
  simp only [Slice.positions, List.mem_range'_1] at hi hj
  have hstart : (args.testSlice idx).start = idx + args.trainBars := rfl
  omega

theorem WalkForwardArgs.advance_pos (args : WalkForwardArgs) : 0 < args.advance := by
  unfold WalkForwardArgs.advance
  omega

end Slices

/-! ## The loop -/

namespace WalkForwardEngine

section Loop

variable {σ : Type} {engine : WalkForwardEngine σ} {args : WalkForwardArgs} {all : List Bar}
  {idx : Nat}

variable (engine) in
theorem windowAt_eq_ok (htrain : 1 ≤ args.trainBars) (htest : 1 ≤ args.testBars)
    (hfits : idx + args.trainBars + args.testBars ≤ all.length) (strategy : σ) :
    ∃ window after, engine.windowAt args all idx strategy = .ok (window, after) ∧
      engine.WindowOf args all idx window := by
  have htrainStop := args.trainSlice_stop idx
  have htrainStart := args.trainSlice_start_le idx
  have htestStart : (args.testSlice idx).start = idx + args.trainBars := rfl
  have htestStop : (args.testSlice idx).stop = idx + args.trainBars + args.testBars := rfl
  obtain ⟨train, htrainOk, htrainFirst, htrainLast⟩ :=
    (args.trainSlice idx).ends_eq_ok all (by omega) (by omega)
  obtain ⟨test, htestOk, htestFirst, htestLast⟩ :=
    (args.testSlice idx).ends_eq_ok all (by omega) (by omega)
  unfold windowAt
  rw [htrainOk, htestOk]
  refine ⟨_, _, rfl, ?_⟩
  exact
    { inside := hfits
      trainStart := htrainFirst
      trainEnd := htrainLast
      testStart := htestFirst
      testEnd := htestLast
      report := ⟨_, rfl⟩
      later := fun i hi j hj => WalkForwardArgs.train_lt_test hi hj }

/-- The windows from one start on, one test length apart, cover whole test lengths. -/
theorem range'_windows {first test rest : Nat} (htest : 1 ≤ test) (hrest : test ≤ rest) :
    List.range' first test ++ List.range' (first + test) ((rest - test) / test * test) =
      List.range' first (rest / test * test) := by
  have hcount : rest / test = (rest - test) / test + 1 := Nat.div_eq_sub_div htest hrest
  rw [List.range'_append_1, hcount, Nat.add_mul, Nat.one_mul, Nat.add_comm test]

variable (engine all) in
/-- From any index on the loop ends, however long the series, and what it adds are windows of the
series; with a step of one test length they lie end to end. -/
theorem walk_returns (htrain : 1 ≤ args.trainBars) (htest : 1 ≤ args.testBars) (idx : Nat)
    (strategy : σ) (windows : List (Nat × WalkForwardWindow)) :
    ∃ added after,
      (∀ fuel, all.length - idx < fuel →
        engine.walk args all fuel idx strategy windows = some (.ok (windows ++ added, after))) ∧
      (∀ entry ∈ added, engine.WindowOf args all entry.1 entry.2) ∧
      (all.length < idx + args.trainBars + args.testBars → added = []) ∧
      (args.advance = args.testBars →
        added.flatMap (fun entry => (args.testSlice entry.1).positions) =
          List.range' (idx + args.trainBars)
            ((all.length - (idx + args.trainBars)) / args.testBars * args.testBars)) := by
  induction hleft : all.length - idx using Nat.strongRecOn generalizing idx strategy windows with
  | ind left ih =>
      by_cases hfits : idx + args.trainBars + args.testBars ≤ all.length
      · obtain ⟨window, after, hwindow, hof⟩ :=
          windowAt_eq_ok engine htrain htest hfits strategy
        have hadvance := args.advance_pos
        obtain ⟨added, final, hwalk, hadded, hnone, hcover⟩ :=
          ih (all.length - (idx + args.advance)) (by omega) (idx + args.advance) after
            (windows ++ [(idx, window)]) rfl
        refine ⟨(idx, window) :: added, final, ?_, ?_, fun h => absurd hfits (not_le.mpr h), ?_⟩
        · intro fuel hfuel
          cases fuel with
          | zero => omega
          | succ fuel =>
              rw [walk, if_pos hfits, hwindow]
              dsimp only
              rw [hwalk fuel (by omega), List.append_assoc, List.singleton_append]
        · intro entry hentry
          rcases List.mem_cons.mp hentry with rfl | hentry
          · exact hof
          · exact hadded entry hentry
        · intro hdefault
          have hpositions : (args.testSlice idx).positions =
              List.range' (idx + args.trainBars) args.testBars := by
            simp [WalkForwardArgs.testSlice, Slice.positions]
          have hnext : idx + args.advance + args.trainBars =
              idx + args.trainBars + args.testBars := by omega
          rw [List.flatMap_cons, hcover hdefault, hpositions, hnext, ← Nat.sub_sub]
          exact range'_windows htest (by omega)
      · have hshort : all.length - (idx + args.trainBars) < args.testBars := by omega
        refine ⟨[], strategy, ?_, fun entry hentry => (List.not_mem_nil hentry).elim,
          fun _ => rfl, fun _ => ?_⟩
        · intro fuel hfuel
          cases fuel with
          | zero => omega
          | succ fuel => rw [walk, if_neg hfits, List.append_nil]
        · rw [Nat.div_eq_of_lt hshort, Nat.zero_mul]
          rfl

/-- With the default step the loop moves on by one test length. -/
theorem advance_of_default (htest : 1 ≤ args.testBars) (h : args.stepBars.getD 0 = 0) :
    args.advance = args.testBars := by
  rw [WalkForwardArgs.advance, WalkForwardArgs.step, if_pos h]
  omega

/-- Ten bars in windows of four and two. -/
def sampleArgs : WalkForwardArgs := { name := "NIFTY", trainBars := 4, testBars := 2 }

end Loop

end WalkForwardEngine

end AutoTrade.Backtest
