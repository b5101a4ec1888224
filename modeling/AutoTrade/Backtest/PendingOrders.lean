import AutoTrade.Backtest.Books

/-! # From a signal to its position

A signal waits in the one slot `pending` until the loop comes to the bar it is
to be executed on. The search goes on while it waits and a later order takes the
slot; with no latency the bar has been passed when the order is written.
-/

namespace AutoTrade.Backtest

open AutoTrade.Library

namespace CandleBacktestEngine

variable {π μ : Type} {engine : CandleBacktestEngine π μ} {cfg : CandleBacktestConfig}
  {bars : List Bar} {s : BacktestState μ} {k : Nat}

/-! ## What is entered -/

/-- The order of a bar's signal with the row it is to be executed on, where there is one. -/
def orderOf (engine : CandleBacktestEngine π μ) (cfg : CandleBacktestConfig) (bars : List Bar)
    (entry : Bar × Nat) : Option (Pending μ × Bar) :=
  (engine.signalAt cfg bars entry.1 entry.2).bind fun finalized =>
    (bars[enterOn cfg entry.2]?).map fun refRow =>
      (newPending cfg finalized (enterOn cfg entry.2) refRow, refRow)

/-- A signal is looked for on this bar. -/
structure Looks (s : BacktestState μ) (idx : Nat) : Prop where
  free : s.position = none
  clear : ¬ s.Due idx
  rested : s.cooldownUntil ≤ idx

/-- The position that an order becomes on its bar. -/
def positionOf (engine : CandleBacktestEngine π μ) (cfg : CandleBacktestConfig) (order : Pending μ)
    (row : Bar) : Position μ :=
  (engine.executePending cfg order order.enterOnIdx row.timestamp 0).1

def enteredOn (engine : CandleBacktestEngine π μ) (cfg : CandleBacktestConfig)
    (s : BacktestState μ) (entry : Bar × Nat) : Option (Position μ) :=
  (s.pending.filter fun order => order.enterOnIdx = entry.2).map (engine.positionOf cfg · entry.1)

/-- The positions a run enters, in order. -/
def positionsEntered (engine : CandleBacktestEngine π μ) (cfg : CandleBacktestConfig)
    (bars : List Bar) : BacktestState μ → List (Bar × Nat) → List (Position μ)
  | _, [] => []
  | s, entry :: rest =>
      (engine.enteredOn cfg s entry).toList ++
        positionsEntered engine cfg bars (engine.step cfg bars s entry) rest

/-- A signal found while no order waits is entered on its bar, and nothing else is. -/
def SignalsEntered (engine : CandleBacktestEngine π μ) (cfg : CandleBacktestConfig)
    (bars : List Bar) (s : BacktestState μ) (entries : List (Bar × Nat)) : Prop :=
  ∀ before entry after order row, entries = before ++ entry :: after →
    Looks (Library.run (engine.step cfg bars) s before) entry.2 →
    (Library.run (engine.step cfg bars) s before).pending = none →
    engine.orderOf cfg bars entry = some (order, row) →
    (engine.positionsEntered cfg bars s entries).filter
        (fun position => position.entryIdx = enterOn cfg entry.2) =
      [engine.positionOf cfg order row]

/-- An order that falls due finds no position open. -/
def OneAtATime (engine : CandleBacktestEngine π μ) (cfg : CandleBacktestConfig)
    (bars : List Bar) (s : BacktestState μ) (entries : List (Bar × Nat)) : Prop :=
  StepsMeet (engine.step cfg bars) (fun s entry => s.Due entry.2 → s.position = none) s entries

/-- Where an order is written, its bar is still to come and no other order waits. -/
def Timely (engine : CandleBacktestEngine π μ) (cfg : CandleBacktestConfig) (bars : List Bar)
    (s : BacktestState μ) (entry : Bar × Nat) : Prop :=
  Looks s entry.2 → (engine.orderOf cfg bars entry).isSome →
    0 < cfg.latencyBars ∧ s.pending = none

/-- The rows from one on, each with its number. -/
def barsFrom (bars : List Bar) (k : Nat) : List (Bar × Nat) := (bars.drop k).zipIdx k

/-! ## One bar -/

theorem barsFrom_cases (bars : List Bar) (k : Nat) :
    (bars.length ≤ k ∧ barsFrom bars k = []) ∨
      ∃ row, bars[k]? = some row ∧ barsFrom bars k = (row, k) :: barsFrom bars (k + 1) := by
  by_cases hk : k < bars.length
  · refine Or.inr ⟨bars[k], List.getElem?_eq_getElem hk, ?_⟩
    rw [barsFrom, List.drop_eq_getElem_cons hk]
    rfl
  · have hend : bars.length ≤ k := not_lt.mp hk
    exact Or.inl ⟨hend, by simp [barsFrom, List.drop_eq_nil_of_le hend]⟩

/-- Induction along the bars from one on. -/
theorem barsFrom_induction (bars : List Bar) {motive : Nat → Prop}
    (done : ∀ k, bars.length ≤ k → barsFrom bars k = [] → motive k)
    (bar : ∀ k row, bars[k]? = some row → barsFrom bars k = (row, k) :: barsFrom bars (k + 1) →
      motive (k + 1) → motive k) (k : Nat) : motive k := by
  induction hleft : bars.length - k generalizing k with
  | zero =>
      have hend : bars.length ≤ k := by omega
      exact done k hend (by simp [barsFrom, List.drop_eq_nil_of_le hend])
  | succ left ih =>
      rcases barsFrom_cases bars k with ⟨hend, hempty⟩ | ⟨row, hrow, hcons⟩
      · exact done k hend hempty
      · exact bar k row hrow hcons (ih (k + 1) (by omega))

theorem le_of_mem_barsFrom {entry : Bar × Nat} (h : entry ∈ barsFrom bars k) : k ≤ entry.2 :=
  List.le_snd_of_mem_zipIdx h

theorem enteredOn_of_due {order : Pending μ} (horder : s.pending = some order)
    (entry : Bar × Nat) (hdue : order.enterOnIdx = entry.2) :
    engine.enteredOn cfg s entry = some (engine.positionOf cfg order entry.1) := by
  simp [enteredOn, horder, Option.filter, hdue]

theorem enteredOn_of_clear {entry : Bar × Nat} (h : ¬ s.Due entry.2) :
    engine.enteredOn cfg s entry = none := by
  cases horder : s.pending with
  | none => simp [enteredOn, horder]
  | some order =>
      have hother : order.enterOnIdx ≠ entry.2 := by simpa [BacktestState.Due, horder] using h
      simp [enteredOn, horder, Option.filter, hother]

/-- What the log calls entered is the position of the state. -/
theorem enterDue_position (entry : Bar × Nat) :
    (engine.enterDue cfg s entry.1 entry.2).position =
      (engine.enteredOn cfg s entry).or s.position := by
  unfold enterDue enteredOn
  cases horder : s.pending with
  | none => rfl
  | some order =>
      by_cases hdue : order.enterOnIdx = entry.2
      · simp only [hdue, if_true, Option.filter, decide_true, Option.map_some, Option.some_or]
        rw [positionOf, hdue]
        rfl
      · simp [hdue, Option.filter]

theorem step_pending_of_due {entry : Bar × Nat} (h : s.Due entry.2) :
    (engine.step cfg bars s entry).pending = none := by
  rcases enterDue_cases engine cfg s entry.1 entry.2 with ⟨hclear, -⟩ | ⟨-, position, hin⟩
  · exact absurd h hclear
  · rw [step, hin]
    rcases finishBar_cases engine cfg bars _ entry.1 entry.2 with
      ⟨position, exitPx, reason, -, hclose⟩ | ⟨pending, synthetic, total, hkeep, hpending⟩
    · rw [hclose]
      rfl
    · rw [hkeep]
      exact hpending rfl

theorem step_pending_of_looks {entry : Bar × Nat} (h : Looks s entry.2) :
    (engine.step cfg bars s entry).pending =
      ((engine.orderOf cfg bars entry).map Prod.fst).or s.pending := by
  rcases enterDue_cases engine cfg s entry.1 entry.2 with ⟨-, hsame⟩ | ⟨hdue, -⟩
  · have hsearch : ¬ (s.position.isSome ∨ (entry.2 : Int) < s.cooldownUntil) := by
      simp [h.free, h.rested]
    rw [step, hsame, finishBar, h.free, Option.bind_none]
    simp only [← h.free, hsearch, if_false]
    unfold lookForSignal orderOf
    cases engine.signalAt cfg bars entry.1 entry.2 with
    | none => rfl
    | some finalized => cases bars[enterOn cfg entry.2]? <;> rfl
  · exact absurd hdue h.clear

theorem step_pending_of_busy {entry : Bar × Nat} (hclear : ¬ s.Due entry.2)
    (h : ¬ Looks s entry.2) : (engine.step cfg bars s entry).pending = s.pending := by
  rcases enterDue_cases engine cfg s entry.1 entry.2 with ⟨-, hsame⟩ | ⟨hdue, -⟩
  · rw [step, hsame]
    unfold finishBar
    split
    · rfl
    · have hbusy : s.position.isSome ∨ (entry.2 : Int) < s.cooldownUntil := by
        by_contra hidle
        simp only [not_or, Bool.not_eq_true, Option.isSome_eq_false_iff,
          Option.isNone_iff_eq_none, not_lt] at hidle
        exact h ⟨hidle.1, hclear, hidle.2⟩
      simp only [hbusy, if_true]
  · exact absurd hdue hclear

/-- The log lists what the books count as entered. -/
theorem length_positionsEntered (h : Ledger cfg s) (bars : List Bar) (entries : List (Bar × Nat)) :
    s.entered + (engine.positionsEntered cfg bars s entries).length =
      (Library.run (engine.step cfg bars) s entries).entered := by
  induction entries generalizing s with
  | nil => rfl
  | cons entry rest ih =>
      have hone : (engine.step cfg bars s entry).entered =
          s.entered + (engine.enteredOn cfg s entry).toList.length := by
        rw [step, entered_finishBar]
        rcases enterDue_cases engine cfg s entry.1 entry.2 with
          ⟨hclear, hsame⟩ | ⟨hdue, position, hin⟩
        · rw [hsame, enteredOn_of_clear hclear]
          rfl
        · obtain ⟨order, horder, hon⟩ := (Option.any_eq_true _ _).mp hdue
          rw [hin, enteredOn_of_due horder entry (of_decide_eq_true hon)]
          simp [BacktestState.entered, h.free_of_due hdue]
      have hrest := ih (ledger_step engine bars s entry h)
      rw [hone] at hrest
      rw [positionsEntered, List.length_append, ← Nat.add_assoc]
      exact hrest

/-! ## Where a position of the log lies -/

theorem positionsEntered_cons (row : Bar) (rest : List (Bar × Nat)) :
    engine.positionsEntered cfg bars s ((row, k) :: rest) =
      (engine.enteredOn cfg s (row, k)).toList ++
        engine.positionsEntered cfg bars (engine.step cfg bars s (row, k)) rest :=
  rfl

theorem entryIdx_of_enteredOn {entry : Bar × Nat} {position : Position μ}
    (h : engine.enteredOn cfg s entry = some position) :
    position.entryIdx = entry.2 ∧ ∃ order ∈ s.pending, order.enterOnIdx = entry.2 := by
  obtain ⟨order, horder, rfl⟩ := Option.map_eq_some_iff.mp h
  obtain ⟨hpending, hdue⟩ := Option.filter_eq_some_iff.mp horder
  have hidx : order.enterOnIdx = entry.2 := of_decide_eq_true hdue
  exact ⟨hidx, order, hpending, hidx⟩

/-- The pending order after a bar is the one before it or the order of the bar itself. -/
theorem step_pending (engine : CandleBacktestEngine π μ) (cfg : CandleBacktestConfig)
    (bars : List Bar) (s : BacktestState μ) (entry : Bar × Nat) {order : Pending μ}
    (h : (engine.step cfg bars s entry).pending = some order) :
    s.pending = some order ∨ order.enterOnIdx = enterOn cfg entry.2 := by
  by_cases hdue : s.Due entry.2
  · rw [step_pending_of_due hdue] at h
    cases h
  · by_cases hlooks : Looks s entry.2
    · rw [step_pending_of_looks hlooks] at h
      cases horder : engine.orderOf cfg bars entry with
      | none =>
          rw [horder] at h
          exact Or.inl h
      | some found =>
          rw [horder] at h
          obtain rfl := Option.some.inj h
          obtain ⟨finalized, -, hfound⟩ := Option.bind_eq_some_iff.mp horder
          obtain ⟨refRow, -, rfl⟩ := Option.map_eq_some_iff.mp hfound
          exact Or.inr rfl
    · rw [step_pending_of_busy hdue hlooks] at h
      exact Or.inl h

/-- A run enters nothing before the bar of the waiting order and of any order it can still write. -/
theorem le_entryIdx {m : Nat} (hpending : ∀ order ∈ s.pending, m ≤ order.enterOnIdx)
    (hlater : m ≤ enterOn cfg k) {position : Position μ}
    (h : position ∈ engine.positionsEntered cfg bars s (barsFrom bars k)) :
    m ≤ position.entryIdx := by
  induction k using barsFrom_induction bars generalizing s with
  | done k hend hempty =>
      rw [hempty] at h
      cases h
  | bar k row hrow hcons ih =>
      rw [hcons] at h
      rcases List.mem_append.mp h with hhere | hrest
      · obtain ⟨hidx, order, horder, hdue⟩ :=
          entryIdx_of_enteredOn (Option.mem_toList.mp hhere)
        exact hidx ▸ hdue ▸ hpending order horder
      · refine ih (fun order horder => ?_) ?_ hrest
        · rcases step_pending engine cfg bars s (row, k) horder with hold | hnew
          · exact hpending order hold
          · exact hnew ▸ hlater
        · exact hlater.trans (Nat.add_le_add_right (Nat.le_succ k) _)

theorem le_entryIdx_barsFrom {position : Position μ}
    (h : position ∈ engine.positionsEntered cfg bars s (barsFrom bars k)) :
    k ≤ position.entryIdx := by
  induction k using barsFrom_induction bars generalizing s with
  | done k hend hempty =>
      rw [hempty] at h
      cases h
  | bar k row hrow hcons ih =>
      rw [hcons] at h
      rcases List.mem_append.mp h with hhere | hrest
      · exact (entryIdx_of_enteredOn (Option.mem_toList.mp hhere)).1.ge
      · exact (Nat.le_succ k).trans (ih hrest)

/-- On a bar that lies ahead, the log of a run and that of the rest of it agree. -/
theorem filter_positionsEntered {m : Nat} (row : Bar) (rest : List (Bar × Nat))
    (hahead : s.Due k → m ≠ k) :
    (engine.positionsEntered cfg bars s ((row, k) :: rest)).filter
        (fun position => position.entryIdx = m) =
      (engine.positionsEntered cfg bars (engine.step cfg bars s (row, k)) rest).filter
        (fun position => position.entryIdx = m) := by
  rw [positionsEntered_cons, List.filter_append]
  by_cases hdue : s.Due k
  · have hhere : (engine.enteredOn cfg s (row, k)).toList.filter
        (fun position => position.entryIdx = m) = [] := by
      refine List.filter_eq_nil_iff.mpr fun position hposition => ?_
      have hidx := (entryIdx_of_enteredOn (Option.mem_toList.mp hposition)).1
      simpa [hidx] using (hahead hdue).symm
    rw [hhere, List.nil_append]
  · rw [enteredOn_of_clear hdue]
    rfl

/-! ## Timely orders are entered -/

theorem not_due_of_later {order : Pending μ} (horder : s.pending = some order)
    (h : order.enterOnIdx ≠ k) : ¬ s.Due k := by
  simpa [BacktestState.Due, horder] using h

/-- An order that waits is the only one entered on its bar. -/
theorem entered_of_pending {order : Pending μ} {row : Bar} (horder : s.pending = some order)
    (hk : k ≤ order.enterOnIdx) (hrow : bars[order.enterOnIdx]? = some row)
    (htimely : StepsMeet (engine.step cfg bars) (engine.Timely cfg bars) s (barsFrom bars k)) :
    (engine.positionsEntered cfg bars s (barsFrom bars k)).filter
        (fun position => position.entryIdx = order.enterOnIdx) =
      [engine.positionOf cfg order row] := by
  induction k using barsFrom_induction bars generalizing s with
  | done k hend hempty =>
      have hinside := (List.getElem?_eq_some_iff.mp hrow).1
      omega
  | bar k head hhead hcons ih =>
      rw [hcons] at htimely ⊢
      by_cases hdue : order.enterOnIdx = k
      · obtain rfl : head = row := Option.some.inj (hhead.symm.trans (hdue ▸ hrow))
        have hrest : (engine.positionsEntered cfg bars (engine.step cfg bars s (head, k))
            (barsFrom bars (k + 1))).filter
              (fun position => position.entryIdx = order.enterOnIdx) = [] := by
          refine List.filter_eq_nil_iff.mpr fun position hposition => ?_
          have hlater := le_entryIdx_barsFrom hposition
          simp only [decide_eq_true_eq]
          omega
        rw [positionsEntered_cons, List.filter_append, hrest,
          enteredOn_of_due horder (head, k) hdue]
        simp [positionOf, executePending]
      · have hclear := not_due_of_later horder hdue
        have hkept : (engine.step cfg bars s (head, k)).pending = some order := by
          by_cases hlooks : Looks s k
          · rw [step_pending_of_looks hlooks]
            cases hfound : engine.orderOf cfg bars (head, k) with
            | none => exact horder
            | some found =>
                have hnone := (htimely.1 hlooks (by rw [hfound]; rfl)).2
                rw [horder] at hnone
                cases hnone
          · rw [step_pending_of_busy hclear hlooks, horder]
        rw [filter_positionsEntered head _ fun h => absurd h hclear]
        exact ih hkept (Nat.lt_of_le_of_ne hk (Ne.symm hdue)) htimely.2

theorem orderOf_eq_some {entry : Bar × Nat} {order : Pending μ} {row : Bar}
    (h : engine.orderOf cfg bars entry = some (order, row)) :
    order.enterOnIdx = enterOn cfg entry.2 ∧ bars[order.enterOnIdx]? = some row := by
  obtain ⟨finalized, -, hfound⟩ := Option.bind_eq_some_iff.mp h
  obtain ⟨refRow, hrow, heq⟩ := Option.map_eq_some_iff.mp hfound
  obtain ⟨rfl, rfl⟩ := Prod.mk.inj heq
  exact ⟨rfl, hrow⟩

theorem le_enterOn (cfg : CandleBacktestConfig) (idx : Nat) : idx ≤ enterOn cfg idx :=
  Nat.le_add_right _ _

theorem lt_enterOn_iff {idx : Nat} : idx < enterOn cfg idx ↔ 0 < cfg.latencyBars := by
  unfold enterOn
  omega

theorem signalsEntered_of_timely
    (htimely : StepsMeet (engine.step cfg bars) (engine.Timely cfg bars) s (barsFrom bars k)) :
    engine.SignalsEntered cfg bars s (barsFrom bars k) := by
  induction k using barsFrom_induction bars generalizing s with
  | done k hend hempty =>
      rw [hempty]
      intro before entry after order row hsplit
      cases before <;> cases hsplit
  | bar k head hhead hcons ih =>
      rw [hcons] at htimely ⊢
      intro before entry after order row hsplit hlooks hnone horder
      cases before with
      | nil =>
          obtain ⟨rfl, rfl⟩ := List.cons.inj hsplit
          replace hlooks : Looks s k := hlooks
          obtain ⟨hon, hrow⟩ := orderOf_eq_some horder
          have hlatency := (htimely.1 hlooks (by rw [horder]; rfl)).1
          have hpending : (engine.step cfg bars s (head, k)).pending = some order := by
            rw [step_pending_of_looks hlooks, horder]
            rfl
          have hnext : k + 1 ≤ order.enterOnIdx := hon ▸ lt_enterOn_iff.mpr hlatency
          rw [filter_positionsEntered head _ fun h => absurd h hlooks.clear, ← hon]
          exact entered_of_pending hpending hnext hrow htimely.2
      | cons first before =>
          obtain ⟨rfl, hrest⟩ := List.cons.inj hsplit
          have hmem : entry ∈ barsFrom bars (k + 1) := by simp [hrest]
          have hlater := le_of_mem_barsFrom hmem
          have hon := le_enterOn cfg entry.2
          rw [filter_positionsEntered head _ fun _ => by omega]
          exact ih htimely.2 before entry after order row hrest hlooks hnone horder

/-! ## Orders that are entered were timely -/

theorem mem_positionsEntered_cons (hclear : ¬ s.Due k) {head : Bar} {rest : List (Bar × Nat)}
    {position : Position μ} :
    position ∈ engine.positionsEntered cfg bars s ((head, k) :: rest) ↔
      position ∈ engine.positionsEntered cfg bars (engine.step cfg bars s (head, k)) rest := by
  rw [positionsEntered_cons, enteredOn_of_clear hclear, Option.toList_none, List.nil_append]

/-- The position of a signal that is found on the first bar comes later. -/
theorem SignalsEntered.first {head : Bar} {rest : List (Bar × Nat)} {order : Pending μ} {row : Bar}
    (hall : engine.SignalsEntered cfg bars s ((head, k) :: rest)) (hlooks : Looks s k)
    (hnone : s.pending = none) (horder : engine.orderOf cfg bars (head, k) = some (order, row)) :
    ∃ position ∈ engine.positionsEntered cfg bars (engine.step cfg bars s (head, k)) rest,
      position.entryIdx = enterOn cfg k := by
  have hlog := hall [] (head, k) rest order row rfl hlooks hnone horder
  have hmem : engine.positionOf cfg order row ∈
      [engine.positionOf cfg order row] := List.mem_singleton_self _
  rw [← hlog, List.mem_filter] at hmem
  exact ⟨_, (mem_positionsEntered_cons hlooks.clear).mp hmem.1, of_decide_eq_true hmem.2⟩

theorem SignalsEntered.rest {head : Bar}
    (hall : engine.SignalsEntered cfg bars s ((head, k) :: barsFrom bars (k + 1))) :
    engine.SignalsEntered cfg bars (engine.step cfg bars s (head, k)) (barsFrom bars (k + 1)) := by
  intro before entry after order row hsplit hlooks hnone horder
  have hlog := hall ((head, k) :: before) entry after order row (by rw [hsplit]; rfl) hlooks hnone
    horder
  have hmem : entry ∈ barsFrom bars (k + 1) := by simp [hsplit]
  have hlater := le_of_mem_barsFrom hmem
  have hon := le_enterOn cfg entry.2
  rwa [filter_positionsEntered head _ fun _ => by omega] at hlog

/-- Where every waiting order of a run will be entered, and every signal found without one is, each
order is timely. -/
theorem timely_of_signalsEntered (hearlier : ∀ order ∈ s.pending, order.enterOnIdx < enterOn cfg k)
    (hpromise : ∀ order ∈ s.pending, ∃ position ∈ engine.positionsEntered cfg bars s
      (barsFrom bars k), position.entryIdx = order.enterOnIdx)
    (hall : engine.SignalsEntered cfg bars s (barsFrom bars k)) :
    StepsMeet (engine.step cfg bars) (engine.Timely cfg bars) s (barsFrom bars k) := by
  induction k using barsFrom_induction bars generalizing s with
  | done k hend hempty =>
      rw [hempty]
      trivial
  | bar k head hhead hcons ih =>
      rw [hcons] at hpromise hall ⊢
      have htimely : engine.Timely cfg bars s (head, k) := by
        intro hlooks hsome
        obtain ⟨⟨order, row⟩, horder⟩ := Option.isSome_iff_exists.mp hsome
        have hwritten : (engine.step cfg bars s (head, k)).pending = some order := by
          rw [step_pending_of_looks hlooks, horder]
          rfl
        have hnone : s.pending = none := by
          -- the order written here falls due after the one it replaces, which is never entered
          refine Option.eq_none_iff_forall_ne_some.mpr fun old hold => ?_
          obtain ⟨position, hposition, hidx⟩ := hpromise old hold
          have hlow : enterOn cfg k ≤ position.entryIdx := by
            refine le_entryIdx (k := k + 1) (fun next hnext => ?_)
              (Nat.add_le_add_right (Nat.le_succ k) _)
              ((mem_positionsEntered_cons hlooks.clear).mp hposition)
            obtain rfl : order = next := Option.some.inj (hwritten.symm.trans hnext)
            exact (orderOf_eq_some horder).1.ge
          have hold := hearlier old hold
          omega
        obtain ⟨position, hposition, hidx⟩ := hall.first hlooks hnone horder
        have hlater := le_entryIdx_barsFrom hposition
        exact ⟨lt_enterOn_iff.mp (hidx ▸ hlater), hnone⟩
      refine ⟨htimely, ih ?_ ?_ hall.rest⟩
      · intro order horder
        have hlonger : enterOn cfg k < enterOn cfg (k + 1) :=
          Nat.add_lt_add_right (Nat.lt_succ_self k) _
        rcases step_pending engine cfg bars s (head, k) horder with hold | hnew
        · exact (hearlier order hold).trans hlonger
        · exact hnew ▸ hlonger
      · intro order horder
        by_cases hdue : s.Due k
        · rw [step_pending_of_due hdue] at horder
          cases horder
        · have hkept : s.pending = some order →
              ∃ position ∈ engine.positionsEntered cfg bars (engine.step cfg bars s (head, k))
                (barsFrom bars (k + 1)), position.entryIdx = order.enterOnIdx := by
            intro hold
            obtain ⟨position, hposition, hidx⟩ := hpromise order hold
            exact ⟨position, (mem_positionsEntered_cons hdue).mp hposition, hidx⟩
          by_cases hlooks : Looks s k
          · rw [step_pending_of_looks hlooks] at horder
            cases hfound : engine.orderOf cfg bars (head, k) with
            | none =>
                rw [hfound] at horder
                exact hkept horder
            | some found =>
                rw [hfound] at horder
                obtain rfl := Option.some.inj horder
                have hnone := (htimely hlooks (by rw [hfound]; rfl)).2
                rw [(orderOf_eq_some hfound).1]
                exact hall.first hlooks hnone hfound
          · rw [step_pending_of_busy hdue hlooks] at horder
            exact hkept horder

/-! ## Which runs enter every signal -/

theorem oneAtATime (engine : CandleBacktestEngine π μ) (cfg : CandleBacktestConfig)
    (bars : List Bar) :
    engine.OneAtATime cfg bars (start cfg) (loopBars cfg bars) := by
  refine (always_and_stepsMeet (fun s entry _ h _ => ?_) ledger_start (stepsMeet_true _ _)).2
  exact ⟨ledger_step engine bars s entry h, h.free_of_due⟩

/-- No order ever falls due beside an open position, and every signal found while no order waits is
entered once on its bar exactly where each order written has a bar to come and replaces no other. -/
theorem signals_entered_iff (engine : CandleBacktestEngine π μ) (cfg : CandleBacktestConfig)
    (bars : List Bar) :
    engine.SignalsEntered cfg bars (start cfg) (loopBars cfg bars) ∧
        engine.OneAtATime cfg bars (start cfg) (loopBars cfg bars) ↔
      StepsMeet (engine.step cfg bars) (engine.Timely cfg bars) (start cfg)
        (loopBars cfg bars) := by
  rw [and_iff_left (oneAtATime engine cfg bars)]
  constructor
  · intro h
    exact timely_of_signalsEntered (fun order horder => by cases horder)
      (fun order horder => by cases horder) h
  · intro h
    exact signalsEntered_of_timely h

/-- With a latency of one bar an order is executed before the next search. -/
theorem timely_of_latency_one (hone : cfg.latencyBars = 1)
    (hnext : ∀ order ∈ s.pending, order.enterOnIdx = k) :
    StepsMeet (engine.step cfg bars) (engine.Timely cfg bars) s (barsFrom bars k) := by
  induction k using barsFrom_induction bars generalizing s with
  | done k hend hempty =>
      rw [hempty]
      trivial
  | bar k head hhead hcons ih =>
      rw [hcons]
      have hnone : ¬ s.Due k → s.pending = none := by
        intro hclear
        refine Option.eq_none_iff_forall_ne_some.mpr fun order horder => hclear ?_
        simp [BacktestState.Due, horder, hnext order horder]
      refine ⟨fun hlooks _ => ⟨by omega, hnone hlooks.clear⟩, ih fun order horder => ?_⟩
      rcases step_pending engine cfg bars s (head, k) horder with hold | hnew
      · have hdue : s.Due k := by
          simp [BacktestState.Due, hold, hnext order hold]
        rw [step_pending_of_due hdue] at horder
        cases horder
      · rw [hnew, enterOn, hone]
        rfl

/-- The default latency enters every signal. -/
theorem signalsEntered_of_latency_one (engine : CandleBacktestEngine π μ) (bars : List Bar)
    (hone : cfg.latencyBars = 1) :
    engine.SignalsEntered cfg bars (start cfg) (loopBars cfg bars) :=
  signalsEntered_of_timely (timely_of_latency_one hone fun order horder => by cases horder)

/-! ## A signal on every bar -/

/-- The sample engine with another latency. -/
def latencyConfig (latencyBars : Int) : CandleBacktestConfig :=
  { strictOi := false, latencyBars := latencyBars }

theorem not_signalsEntered_of_first (hlooks : Looks s k) (hnone : s.pending = none)
    (hsignal : ((bars[k]?).bind fun row => engine.orderOf cfg bars (row, k)).isSome)
    (hempty : (engine.positionsEntered cfg bars s (barsFrom bars k)).all
      fun position => position.entryIdx ≠ enterOn cfg k) :
    ¬ engine.SignalsEntered cfg bars s (barsFrom bars k) := by
  intro h
  obtain ⟨⟨order, refRow⟩, horder⟩ := Option.isSome_iff_exists.mp hsignal
  obtain ⟨row, hrow, horder⟩ := Option.bind_eq_some_iff.mp horder
  rcases barsFrom_cases bars k with ⟨hend, -⟩ | ⟨head, hhead, hcons⟩
  · have hinside := (List.getElem?_eq_some_iff.mp hrow).1
    omega
  · obtain rfl : head = row := Option.some.inj (hhead.symm.trans hrow)
    rw [hcons] at h hempty
    obtain ⟨position, hposition, hidx⟩ := h.first hlooks hnone horder
    have hmem := (mem_positionsEntered_cons hlooks.clear).mpr hposition
    exact absurd hidx (of_decide_eq_true (List.all_eq_true.mp hempty position hmem))

/-- Forty bars, each of which closes above its opening price: with a latency of two bars the order of
the first is lost to that of the second, and with none it is written too late. -/
theorem first_signal_never_entered :
    ¬ sampleEngine.SignalsEntered (latencyConfig 2) (sampleBars 0 40 20000)
        (start (latencyConfig 2)) (loopBars (latencyConfig 2) (sampleBars 0 40 20000)) ∧
      ¬ sampleEngine.SignalsEntered (latencyConfig 0) (sampleBars 0 40 20000)
        (start (latencyConfig 0)) (loopBars (latencyConfig 0) (sampleBars 0 40 20000)) := by
  constructor
  · exact not_signalsEntered_of_first ⟨rfl, Bool.false_ne_true, by decide⟩ rfl
      (by decide +kernel) (by decide +kernel)
  · exact not_signalsEntered_of_first ⟨rfl, Bool.false_ne_true, by decide⟩ rfl
      (by decide +kernel) (by decide +kernel)

end CandleBacktestEngine

end AutoTrade.Backtest
