import AutoTrade.Signals.GradingLaws
import Mathlib.Data.List.Forall2

/-! # Verdicts along tick paths

A bar does not say in which order its prices were traded. A tick path through
bars keeps to the range of each and attains both its ends. A verdict on an
untouched signal holds along every path through the bars that were accepted, and
a bar that leaves the order open is quarantined.
-/

namespace AutoTrade.Signals

open AutoTrade.Library

/-! ## Paths -/

/-- The price is beyond a target: the first, or the second where there is one. -/
def targetAt (s : SystemSignal) (price : ℚ) : Bool :=
  if s.isCall then decide (s.target1 ≤ price ∨ 0 < s.target2 ∧ s.target2 ≤ price)
  else decide (price ≤ s.target1 ∨ 0 < s.target2 ∧ price ≤ s.target2)

def stopAt (s : SystemSignal) (price : ℚ) : Bool :=
  if s.isCall then decide (price ≤ s.stopLoss) else decide (s.stopLoss ≤ price)

/-- Prices that may have been traded during the bar. -/
structure TicksOf (bar : SignalBar) (ticks : List ℚ) : Prop where
  within : ∀ p ∈ ticks, bar.low ≤ p ∧ p ≤ bar.high
  low_mem : bar.low ∈ ticks
  high_mem : bar.high ∈ ticks

/-- The ticks of each bar, in the order of the bars. -/
abbrev PathThrough (bars : List SignalBar) (path : List (List ℚ)) : Prop :=
  List.Forall₂ TicksOf bars path

/-- A target is reached and the stop is not. -/
def TargetAlone (s : SystemSignal) (ticks : List ℚ) : Prop :=
  (∃ p ∈ ticks, targetAt s p = true) ∧ ∀ p ∈ ticks, stopAt s p = false

def StopAlone (s : SystemSignal) (ticks : List ℚ) : Prop :=
  (∃ p ∈ ticks, stopAt s p = true) ∧ ∀ p ∈ ticks, targetAt s p = false

/-- Which side is touched first: `.lt` for the targets, `.gt` for the stop, `.eq` where they are
touched by one tick or neither is touched. -/
def firstTouches (s : SystemSignal) (ticks : List ℚ) : Ordering :=
  compare (ticks.findIdx (targetAt s)) (ticks.findIdx (stopAt s))

/-- Every path through the bars leaves both sides untouched. -/
def Quiet (s : SystemSignal) (bar : SignalBar) : Prop :=
  (barrierHits s bar).sl = false ∧ (barrierHits s bar).t1 = false ∧ (barrierHits s bar).t2 = false

section Ticks

variable {s : SystemSignal} {bar : SignalBar} {ticks : List ℚ}

theorem exists_targetAt_iff (h : TicksOf bar ticks) :
    (∃ p ∈ ticks, targetAt s p = true) ↔
      (barrierHits s bar).t1 = true ∨ (barrierHits s bar).t2 = true := by
  unfold targetAt barrierHits
  cases s.isCall
  · simp only [Bool.false_eq_true, if_false, decide_eq_true_eq]
    constructor
    · rintro ⟨p, hp, htarget | ⟨hpos, htarget⟩⟩
      · exact .inl ((h.within p hp).1.trans htarget)
      · exact .inr ⟨hpos, (h.within p hp).1.trans htarget⟩
    · rintro (htarget | htarget)
      · exact ⟨bar.low, h.low_mem, .inl htarget⟩
      · exact ⟨bar.low, h.low_mem, .inr htarget⟩
  · simp only [if_true, decide_eq_true_eq]
    constructor
    · rintro ⟨p, hp, htarget | ⟨hpos, htarget⟩⟩
      · exact .inl (htarget.trans (h.within p hp).2)
      · exact .inr ⟨hpos, htarget.trans (h.within p hp).2⟩
    · rintro (htarget | htarget)
      · exact ⟨bar.high, h.high_mem, .inl htarget⟩
      · exact ⟨bar.high, h.high_mem, .inr htarget⟩

theorem exists_stopAt_iff (h : TicksOf bar ticks) :
    (∃ p ∈ ticks, stopAt s p = true) ↔ (barrierHits s bar).sl = true := by
  unfold stopAt barrierHits
  cases s.isCall
  · simp only [Bool.false_eq_true, if_false, decide_eq_true_eq]
    exact ⟨fun ⟨p, hp, hstop⟩ => hstop.trans (h.within p hp).2,
      fun hstop => ⟨bar.high, h.high_mem, hstop⟩⟩
  · simp only [if_true, decide_eq_true_eq]
    exact ⟨fun ⟨p, hp, hstop⟩ => (h.within p hp).1.trans hstop,
      fun hstop => ⟨bar.low, h.low_mem, hstop⟩⟩

theorem targetAt_eq_false (h : TicksOf bar ticks) (ht1 : (barrierHits s bar).t1 = false)
    (ht2 : (barrierHits s bar).t2 = false) : ∀ p ∈ ticks, targetAt s p = false := by
  intro p hp
  by_contra htarget
  rw [Bool.not_eq_false] at htarget
  rcases (exists_targetAt_iff h).mp ⟨p, hp, htarget⟩ with hhit | hhit
  · rw [ht1] at hhit
    cases hhit
  · rw [ht2] at hhit
    cases hhit

theorem stopAt_eq_false (h : TicksOf bar ticks) (hsl : (barrierHits s bar).sl = false) :
    ∀ p ∈ ticks, stopAt s p = false := by
  intro p hp
  by_contra hstop
  rw [Bool.not_eq_false] at hstop
  have hhit := (exists_stopAt_iff h).mp ⟨p, hp, hstop⟩
  rw [hsl] at hhit
  cases hhit

/-- Quiet bars are passed without a touch. -/
theorem untouched_of_quiet {bars : List SignalBar} {path : List (List ℚ)}
    (hpath : PathThrough bars path) (hquiet : ∀ bar ∈ bars, Quiet s bar) :
    ∀ p ∈ path.flatten, targetAt s p = false ∧ stopAt s p = false := by
  induction hpath with
  | nil => simp
  | cons hticks _ ih =>
      intro p hp
      rw [List.flatten_cons, List.mem_append] at hp
      rcases hp with hp | hp
      · obtain ⟨hsl, ht1, ht2⟩ := hquiet _ List.mem_cons_self
        exact ⟨targetAt_eq_false hticks ht1 ht2 p hp, stopAt_eq_false hticks hsl p hp⟩
      · exact ih (fun bar hbar => hquiet bar (List.mem_cons_of_mem _ hbar)) p hp

theorem PathThrough.split {bars later : List SignalBar} {path : List (List ℚ)}
    (h : PathThrough (bars ++ later) path) :
    ∃ init rest, path = init ++ rest ∧ PathThrough bars init ∧ PathThrough later rest := by
  have hinit := List.forall₂_take bars.length h
  have hrest := List.forall₂_drop bars.length h
  rw [List.take_left] at hinit
  rw [List.drop_left] at hrest
  exact ⟨_, _, (List.take_append_drop bars.length path).symm, hinit, hrest⟩

/-- The ticks of the last bar, after those of the others. -/
theorem PathThrough.snoc {bars : List SignalBar} {path : List (List ℚ)}
    (h : PathThrough (bars ++ [bar]) path) :
    ∃ init ticks, path = init ++ [ticks] ∧ PathThrough bars init ∧ TicksOf bar ticks := by
  obtain ⟨init, rest, rfl, hinit, hrest⟩ := h.split
  cases hrest with
  | cons hticks hnil =>
      cases hnil
      exact ⟨init, _, rfl, hinit, hticks⟩

theorem findIdx_append_of_exists {p : ℚ → Bool} (h : ∃ x ∈ ticks, p x = true) (later : List ℚ) :
    (ticks ++ later).findIdx p = ticks.findIdx p ∧ ticks.findIdx p < ticks.length := by
  have hlt := List.findIdx_lt_length_of_exists h
  exact ⟨by rw [List.findIdx_append, if_pos hlt], hlt⟩

theorem le_findIdx_append {p : ℚ → Bool} (h : ∀ x ∈ ticks, p x = false) (later : List ℚ) :
    ticks.length ≤ (ticks ++ later).findIdx p := by
  have hlength : ticks.findIdx p = ticks.length := List.findIdx_eq_length.mpr h
  rw [List.findIdx_append, if_neg (by omega)]
  omega

/-- What is touched later does not matter. -/
theorem TargetAlone.firstTouches (h : TargetAlone s ticks) (later : List ℚ) :
    firstTouches s (ticks ++ later) = .lt := by
  obtain ⟨heq, hlt⟩ := findIdx_append_of_exists h.1 later
  exact compare_lt_iff_lt.mpr ((heq.trans_lt hlt).trans_le (le_findIdx_append h.2 later))

theorem StopAlone.firstTouches (h : StopAlone s ticks) (later : List ℚ) :
    firstTouches s (ticks ++ later) = .gt := by
  obtain ⟨heq, hlt⟩ := findIdx_append_of_exists h.1 later
  exact compare_gt_iff_gt.mpr ((heq.trans_lt hlt).trans_le (le_findIdx_append h.2 later))

theorem firstTouches_of_untouched (h : ∀ p ∈ ticks, targetAt s p = false ∧ stopAt s p = false) :
    firstTouches s ticks = .eq := by
  have htarget : ticks.findIdx (targetAt s) = ticks.length :=
    List.findIdx_eq_length.mpr fun p hp => (h p hp).1
  have hstop : ticks.findIdx (stopAt s) = ticks.length :=
    List.findIdx_eq_length.mpr fun p hp => (h p hp).2
  rw [AutoTrade.Signals.firstTouches, htarget, hstop]
  exact compare_eq_iff_eq.mpr rfl

/-- After quiet bars, a bar that hits the targets alone settles every path. -/
theorem targetAlone_of_hits {bars : List SignalBar} {path : List (List ℚ)}
    (hpath : PathThrough (bars ++ [bar]) path) (hquiet : ∀ bar ∈ bars, Quiet s bar)
    (hsl : (barrierHits s bar).sl = false)
    (htarget : (barrierHits s bar).t1 = true ∨ (barrierHits s bar).t2 = true) :
    TargetAlone s path.flatten := by
  obtain ⟨init, ticks, rfl, hinit, hticks⟩ := hpath.snoc
  have huntouched := untouched_of_quiet hinit hquiet
  rw [List.flatten_append, List.flatten_singleton]
  refine ⟨?_, ?_⟩
  · obtain ⟨p, hp, hhit⟩ := (exists_targetAt_iff hticks).mpr htarget
    exact ⟨p, List.mem_append_right _ hp, hhit⟩
  · intro p hp
    rcases List.mem_append.mp hp with hp | hp
    · exact (huntouched p hp).2
    · exact stopAt_eq_false hticks hsl p hp

theorem stopAlone_of_hits {bars : List SignalBar} {path : List (List ℚ)}
    (hpath : PathThrough (bars ++ [bar]) path) (hquiet : ∀ bar ∈ bars, Quiet s bar)
    (hsl : (barrierHits s bar).sl = true) (ht1 : (barrierHits s bar).t1 = false)
    (ht2 : (barrierHits s bar).t2 = false) : StopAlone s path.flatten := by
  obtain ⟨init, ticks, rfl, hinit, hticks⟩ := hpath.snoc
  have huntouched := untouched_of_quiet hinit hquiet
  rw [List.flatten_append, List.flatten_singleton]
  refine ⟨?_, ?_⟩
  · obtain ⟨p, hp, hhit⟩ := (exists_stopAt_iff hticks).mpr hsl
    exact ⟨p, List.mem_append_right _ hp, hhit⟩
  · intro p hp
    rcases List.mem_append.mp hp with hp | hp
    · exact (huntouched p hp).1
    · exact targetAt_eq_false hticks ht1 ht2 p hp

end Ticks

/-! ## Feeding bars -/

/-- A bar, and how it is evaluated. -/
structure BarInput where
  bar : SignalBar
  now : Time
  checkStaleness : Bool := false

/-- A signal graded bar by bar up to a terminal evaluation, and the bars that were accepted. -/
structure BarFeed where
  signal : SystemSignal
  halted : Bool := false
  accepted : List SignalBar := []

section Runtime

variable (rt : SignalRuntime)

/-- The four ways an untouched signal is graded. -/
theorem transition_untouched {s : SystemSignal} (h : s.firstTouch = .absent) (hits : BarrierHits)
    (now : Time) :
    (hits.sl = true ∧ (hits.t1 = true ∨ hits.t2 = true) ∧
      transition rt s hits now = untouched .ambiguous .ambiguous) ∨
    (hits.sl = false ∧ (hits.t1 = true ∨ hits.t2 = true) ∧
      (transition rt s hits now).firstTouch ∈ [.t1, .t2]) ∨
    (hits.sl = true ∧ hits.t1 = false ∧ hits.t2 = false ∧
      (transition rt s hits now).firstTouch = .sl) ∨
    (hits.sl = false ∧ hits.t1 = false ∧ hits.t2 = false ∧
      (transition rt s hits now).firstTouch = .absent) := by
  unfold transition
  rw [if_pos h]
  obtain ⟨sl, t1, t2⟩ := hits
  cases sl <;> cases t1 <;> cases t2
  case false.false.false =>
    by_cases hover : (rt.isMarketDay (dayOf now) && horizonOver rt s now) = true
    · simp [hover, untouched]
    · simp [hover, SystemSignal.keep, h]
  all_goals simp [untouched, touched]

namespace BarFeed

def step (f : BarFeed) (i : BarInput) : BarFeed :=
  if f.halted then f
  else
    let e := evaluateBar rt f.signal i.bar i.now i.checkStaleness
    { signal := f.signal.persist e
      halted := e.isTerminal
      accepted :=
        if acceptsBar f.signal i.bar i.now i.checkStaleness then f.accepted ++ [i.bar]
        else f.accepted }

/-- The verdicts so far: none, a quarantine, or one that every path came to at some bar. -/
def Settled (s : SystemSignal) (f : BarFeed) : Prop :=
  (f.signal.firstTouch = .absent ∧ ∀ bar ∈ f.accepted, Quiet s bar) ∨
  (f.halted = true ∧ f.signal.firstTouch = .absent ∧ f.signal.status = .ambiguous) ∨
  (f.signal.firstTouch ≠ .absent ∧ ∃ bars later, f.accepted = bars ++ later ∧
    ((∀ path, PathThrough bars path → TargetAlone s path.flatten) ∨
      ∀ path, PathThrough bars path → StopAlone s path.flatten))

end BarFeed

variable {rt}

theorem barrierHits_persist (s : SystemSignal) (e : SignalEvaluationResult) :
    barrierHits (s.persist e) = barrierHits s := by
  unfold SystemSignal.persist
  split <;> rfl

namespace BarFeed

theorem barrierHits_step (f : BarFeed) (i : BarInput) :
    barrierHits (step rt f i).signal = barrierHits f.signal := by
  unfold step
  split
  · rfl
  · exact barrierHits_persist ..

/-- A touch that is there stays, whatever is fed. -/
theorem firstTouch_step {f : BarFeed} (h : f.signal.firstTouch ≠ .absent) (i : BarInput) :
    (step rt f i).signal.firstTouch = f.signal.firstTouch := by
  unfold step
  split
  · rfl
  · exact ((evaluateBar_keeps rt h i.bar i.now i.checkStaleness).persist
      (SameTouch.refl f.signal)).firstTouch

theorem accepted_step (f : BarFeed) (i : BarInput) :
    ∃ later, (step rt f i).accepted = f.accepted ++ later := by
  unfold step
  split
  · exact ⟨[], (List.append_nil _).symm⟩
  · dsimp only
    split
    · exact ⟨[i.bar], rfl⟩
    · exact ⟨[], (List.append_nil _).symm⟩

/-- What a bar makes of a signal that is still graded and untouched. -/
theorem step_of_untouched {f : BarFeed} (hopen : f.halted = false)
    (habsent : f.signal.firstTouch = .absent) (i : BarInput) :
    ((step rt f i).accepted = f.accepted ∧ (step rt f i).signal.firstTouch = .absent) ∨
    ((step rt f i).accepted = f.accepted ++ [i.bar] ∧
      (((step rt f i).signal.firstTouch = .absent ∧ Quiet f.signal i.bar) ∨
        ((step rt f i).halted = true ∧ (step rt f i).signal.firstTouch = .absent ∧
          (step rt f i).signal.status = .ambiguous) ∨
        ((step rt f i).signal.firstTouch ∈ [.t1, .t2] ∧ (barrierHits f.signal i.bar).sl = false ∧
          ((barrierHits f.signal i.bar).t1 = true ∨ (barrierHits f.signal i.bar).t2 = true)) ∨
        ((step rt f i).signal.firstTouch = .sl ∧ (barrierHits f.signal i.bar).sl = true ∧
          (barrierHits f.signal i.bar).t1 = false ∧ (barrierHits f.signal i.bar).t2 = false))) := by
  have hstep : step rt f i =
      { signal := f.signal.persist (evaluateBar rt f.signal i.bar i.now i.checkStaleness)
        halted := (evaluateBar rt f.signal i.bar i.now i.checkStaleness).isTerminal
        accepted :=
          if acceptsBar f.signal i.bar i.now i.checkStaleness then f.accepted ++ [i.bar]
          else f.accepted } := if_neg (by rw [hopen]; exact Bool.false_ne_true)
  have htouch : (step rt f i).signal.firstTouch =
      (evaluateBar rt f.signal i.bar i.now i.checkStaleness).toTransition.firstTouch := by
    rw [hstep]
    exact persist_evaluateBar_firstTouch ..
  by_cases haccepts : acceptsBar f.signal i.bar i.now i.checkStaleness = true
  · have haccepted : (step rt f i).accepted = f.accepted ++ [i.bar] := by
      rw [hstep]
      exact if_pos haccepts
    rw [evaluateBar_transition, if_pos haccepts] at htouch
    refine .inr ⟨haccepted, ?_⟩
    rcases @transition_untouched rt _ habsent (barrierHits f.signal i.bar) i.now with
      ⟨-, -, hconflict⟩ | ⟨hsl, htarget, ht⟩ | ⟨hsl, ht1, ht2, ht⟩ | ⟨hsl, ht1, ht2, ht⟩
    · have hevaluated :
          (evaluateBar rt f.signal i.bar i.now i.checkStaleness).toTransition =
            untouched .ambiguous .ambiguous := by
        rw [evaluateBar_transition, if_pos haccepts, hconflict]
      refine .inr (.inl ⟨?_, ?_, ?_⟩)
      · rw [hstep, evaluateBar_isTerminal, hevaluated]
        rfl
      · rw [htouch, hconflict]
        rfl
      · rw [hstep, SystemSignal.persist, show (evaluateBar rt f.signal i.bar i.now
          i.checkStaleness).newStatus = some .ambiguous from congrArg Transition.newStatus hevaluated]
    · exact .inr (.inr (.inl ⟨htouch ▸ ht, hsl, htarget⟩))
    · exact .inr (.inr (.inr ⟨htouch.trans ht, hsl, ht1, ht2⟩))
    · exact .inl ⟨htouch.trans ht, hsl, ht1, ht2⟩
  · rw [evaluateBar_transition, if_neg haccepts] at htouch
    refine .inl ⟨?_, htouch.trans habsent⟩
    rw [hstep]
    exact if_neg haccepts

theorem Settled.step {s : SystemSignal} {f : BarFeed} (hhits : barrierHits f.signal = barrierHits s)
    (h : Settled s f) (i : BarInput) : Settled s (step rt f i) := by
  by_cases hhalted : f.halted = true
  · have hsame : BarFeed.step rt f i = f := if_pos hhalted
    rw [hsame]
    exact h
  rw [Bool.not_eq_true] at hhalted
  rcases h with ⟨habsent, hquiet⟩ | ⟨hstopped, -⟩ | ⟨htouch, bars, later, haccepted, hsides⟩
  · have hquiet' : ∀ bar ∈ f.accepted, Quiet f.signal bar := by
      intro bar hbar
      rw [Quiet, hhits]
      exact hquiet bar hbar
    rcases @step_of_untouched rt _ hhalted habsent i with
      ⟨hkept, hstill⟩ | ⟨haccepted, hgraded⟩
    · refine .inl ⟨hstill, ?_⟩
      rw [hkept]
      exact hquiet
    · rcases hgraded with ⟨hstill, hbar⟩ | hconflict | ⟨htouch, hsl, htarget⟩ |
        ⟨htouch, hsl, ht1, ht2⟩
      · refine .inl ⟨hstill, ?_⟩
        rw [haccepted]
        intro bar hmem
        rcases List.mem_append.mp hmem with hmem | hmem
        · exact hquiet bar hmem
        · rw [List.mem_singleton.mp hmem, Quiet, ← hhits]
          exact hbar
      · exact .inr (.inl hconflict)
      · refine .inr (.inr ⟨?_, f.accepted ++ [i.bar], [], ?_, .inl fun path hpath => ?_⟩)
        · intro habsent'
          rw [habsent'] at htouch
          simp at htouch
        · rw [haccepted, List.append_nil]
        · rw [hhits] at hsl htarget
          exact targetAlone_of_hits hpath hquiet hsl htarget
      · refine .inr (.inr ⟨?_, f.accepted ++ [i.bar], [], ?_, .inr fun path hpath => ?_⟩)
        · rw [htouch]
          exact fun hnone => nomatch hnone
        · rw [haccepted, List.append_nil]
        · rw [hhits] at hsl ht1 ht2
          exact stopAlone_of_hits hpath hquiet hsl ht1 ht2
  · rw [hhalted] at hstopped
    cases hstopped
  · obtain ⟨more, hmore⟩ := @accepted_step rt f i
    refine .inr (.inr ⟨?_, bars, later ++ more, ?_, hsides⟩)
    · rw [firstTouch_step htouch]
      exact htouch
    · rw [hmore, haccepted, List.append_assoc]

theorem barrierHits_run (f : BarFeed) (inputs : List BarInput) :
    barrierHits (run (BarFeed.step rt) f inputs).signal = barrierHits f.signal :=
  run_invariant (I := fun g : BarFeed => barrierHits g.signal = barrierHits f.signal)
    (fun g i h => (barrierHits_step g i).trans h) rfl inputs

theorem settled_run {s : SystemSignal} (h : s.firstTouch = .absent) (inputs : List BarInput) :
    Settled s (run (BarFeed.step rt) { signal := s } inputs) := by
  have hstart : barrierHits s = barrierHits s ∧ Settled s { signal := s } :=
    ⟨rfl, .inl ⟨h, by simp⟩⟩
  exact (run_invariant (I := fun f : BarFeed => barrierHits f.signal = barrierHits s ∧ Settled s f)
    (fun f i hf => ⟨(barrierHits_step f i).trans hf.1, hf.2.step hf.1 i⟩) hstart inputs).2

end BarFeed

/-- Where a step comes to a first touch, every path through the bars reached that side, and the other
one not yet. -/
def VerdictSound (s : SystemSignal) (bars : List SignalBar) (f f' : BarFeed) : Prop :=
  f'.signal.firstTouch ≠ f.signal.firstTouch → ∀ path, PathThrough bars path →
    (f'.signal.firstTouch ∈ [.t1, .t2] → TargetAlone s path.flatten) ∧
      (f'.signal.firstTouch = .sl → StopAlone s path.flatten)

/-- A signal is ambiguous where two paths through the bars touch its sides in different orders. -/
def OrderQuarantined (s : SystemSignal) (bars : List SignalBar) (f : BarFeed) : Prop :=
  ∀ path path', PathThrough bars path → PathThrough bars path' →
    firstTouches s path.flatten ≠ firstTouches s path'.flatten → f.signal.status = .ambiguous

theorem BarFeed.Settled.orderQuarantined {s : SystemSignal} {f : BarFeed} (h : f.Settled s) :
    OrderQuarantined s f.accepted f := by
  intro path path' hpath hpath' hdiffer
  rcases h with ⟨-, hquiet⟩ | ⟨-, -, hstatus⟩ | ⟨-, bars, later, haccepted, hsides⟩
  · refine absurd ?_ hdiffer
    rw [firstTouches_of_untouched (untouched_of_quiet hpath hquiet),
      firstTouches_of_untouched (untouched_of_quiet hpath' hquiet)]
  · exact hstatus
  · rw [haccepted] at hpath hpath'
    refine absurd ?_ hdiffer
    obtain ⟨init, rest, rfl, hinit, -⟩ := hpath.split
    obtain ⟨init', rest', rfl, hinit', -⟩ := hpath'.split
    rw [List.flatten_append, List.flatten_append]
    rcases hsides with htarget | hstop
    · rw [(htarget init hinit).firstTouches, (htarget init' hinit').firstTouches]
    · rw [(hstop init hinit).firstTouches, (hstop init' hinit').firstTouches]

theorem BarFeed.Settled.verdictSound {s : SystemSignal} {f : BarFeed}
    (hhits : barrierHits f.signal = barrierHits s) (h : f.Settled s) (i : BarInput) :
    VerdictSound s (BarFeed.step rt f i).accepted f (BarFeed.step rt f i) := by
  intro hchanged path hpath
  by_cases habsent : f.signal.firstTouch = .absent
  · by_cases hhalted : f.halted = true
    · exact absurd (congrArg (fun g : BarFeed => g.signal.firstTouch) (if_pos hhalted)) hchanged
    rw [Bool.not_eq_true] at hhalted
    rcases h with ⟨-, hquiet⟩ | ⟨hstopped, -⟩ | ⟨htouch, -⟩
    · rcases @BarFeed.step_of_untouched rt _ hhalted habsent i with
        ⟨-, hstill⟩ | ⟨haccepted, ⟨hstill, -⟩ | ⟨-, hstill, -⟩ | ⟨htouch, hsl, htarget⟩ |
          ⟨htouch, hsl, ht1, ht2⟩⟩
      · exact absurd (hstill.trans habsent.symm) hchanged
      · exact absurd (hstill.trans habsent.symm) hchanged
      · exact absurd (hstill.trans habsent.symm) hchanged
      · rw [haccepted] at hpath
        rw [hhits] at hsl htarget
        refine ⟨fun _ => targetAlone_of_hits hpath hquiet hsl htarget, fun hstop => ?_⟩
        rw [hstop] at htouch
        simp at htouch
      · rw [haccepted] at hpath
        rw [hhits] at hsl ht1 ht2
        refine ⟨fun htarget => ?_, fun _ => stopAlone_of_hits hpath hquiet hsl ht1 ht2⟩
        rw [htouch] at htarget
        simp at htarget
    · rw [hhalted] at hstopped
      cases hstopped
    · exact absurd habsent htouch
  · exact absurd (BarFeed.firstTouch_step habsent i) hchanged

variable (rt) in
/-- Of every run over bars, whatever the signal it starts from: a first touch is what every path
through the accepted bars came to, and paths of an untouched signal that disagree are quarantined. -/
theorem intrabar_verdicts_sound (s : SystemSignal) (inputs : List BarInput) (i : BarInput) :
    let f := run (BarFeed.step rt) { signal := s } inputs
    VerdictSound s (BarFeed.step rt f i).accepted f (BarFeed.step rt f i) ∧
      (s.firstTouch = .absent → OrderQuarantined s f.accepted f) := by
  intro f
  by_cases habsent : s.firstTouch = .absent
  · have hsettled := @BarFeed.settled_run rt _ habsent inputs
    exact ⟨hsettled.verdictSound (BarFeed.barrierHits_run _ inputs) i,
      fun _ => hsettled.orderQuarantined⟩
  · have htouched : f.signal.firstTouch ≠ .absent :=
      run_invariant (I := fun g : BarFeed => g.signal.firstTouch ≠ .absent)
        (fun g j h => by rwa [BarFeed.firstTouch_step h]) habsent inputs
    exact ⟨fun hchanged => absurd (BarFeed.firstTouch_step htouched i) hchanged,
      fun h => absurd h habsent⟩

end Runtime

/-! ## A bar from the future -/

/-- Through the stop, and dated an hour ahead. -/
def plunge : BarInput :=
  { bar := ⟨100, 105, 85, 100, "2024-01-05T11:05:00+05:30", some (fridayAt 125)⟩
    now := fridayAt 65 }

/-- Through the first target. -/
def climb : BarInput :=
  { bar := ⟨105, 112, 104, 111, "2024-01-05T10:10:00+05:30", some (fridayAt 70)⟩
    now := fridayAt 70 }

/-- The bar through the stop is not looked at, and the next one counts as a first target. -/
theorem first_touch_after_unseen_bar :
    let f := run (BarFeed.step sampleRuntime) { signal := sampleSignal } [plunge]
    (∀ bar ∈ [plunge.bar, climb.bar], bar.low ≤ bar.openPrice ∧ bar.close ≤ bar.high) ∧
      ¬ VerdictSound sampleSignal [plunge.bar, climb.bar] f (BarFeed.step sampleRuntime f climb) := by
  intro f
  refine ⟨by decide +kernel, fun hsound => ?_⟩
  have hpath : PathThrough [plunge.bar, climb.bar] [[105, 85], [104, 112]] :=
    .cons ⟨by decide +kernel, by decide +kernel, by decide +kernel⟩
      (.cons ⟨by decide +kernel, by decide +kernel, by decide +kernel⟩ .nil)
  have htarget := (hsound (by decide +kernel) _ hpath).1 (by decide +kernel)
  have hstop : stopAt sampleSignal 85 = false := htarget.2 85 (by decide +kernel)
  revert hstop
  decide +kernel

end AutoTrade.Signals
