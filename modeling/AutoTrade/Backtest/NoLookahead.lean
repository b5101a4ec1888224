import AutoTrade.Backtest.CandleEngine

/-! # The backtest does not look ahead

Two series that agree up to a bar are run side by side. The only thing read from
a later bar is the reference price of a pending order, and that price is not
used before the bar it comes from: until then the two runs differ in it alone.
-/

namespace AutoTrade.Backtest

variable {π μ : Type}

/-- The same bar to enter on, and the same order if that bar is no later than `k`. -/
def Pending.Agrees (k : Nat) (p p' : Pending μ) : Prop :=
  p.enterOnIdx = p'.enterOnIdx ∧ (p.enterOnIdx ≤ k → p = p')

/-- The states agree on everything that does not depend on bars after `k`. -/
def BacktestState.Agrees (k : Nat) (s s' : BacktestState μ) : Prop :=
  s' = { s with pending := s'.pending } ∧ Option.Rel (Pending.Agrees k) s.pending s'.pending

theorem Pending.Agrees.refl (k : Nat) (p : Pending μ) : p.Agrees k p := ⟨rfl, fun _ => rfl⟩

theorem BacktestState.Agrees.refl (k : Nat) (s : BacktestState μ) : s.Agrees k s := by
  refine ⟨rfl, ?_⟩
  cases s.pending with
  | none => exact .none
  | some p => exact .some (.refl k p)

namespace CandleBacktestEngine

variable {engine : CandleBacktestEngine π μ} {cfg : CandleBacktestConfig} {bars bars' : List Bar}
  {k idx : Nat} {row : Bar} {s s' : BacktestState μ}

/-! ## One bar of both runs -/

theorem enterDue_agrees (h : s.Agrees k s') (hidx : idx ≤ k) :
    (engine.enterDue cfg s row idx).Agrees k (engine.enterDue cfg s' row idx) := by
  obtain ⟨hsame, hpending⟩ := h
  rw [hsame]
  cases hp : s.pending with
  | none =>
      rw [hp] at hpending
      cases hp' : s'.pending with
      | none =>
          simp only [enterDue, hp]
          exact ⟨rfl, by rw [hp]; exact .none⟩
      | some p' =>
          rw [hp'] at hpending
          cases hpending
  | some p =>
      cases hp' : s'.pending with
      | none =>
          rw [hp, hp'] at hpending
          cases hpending
      | some p' =>
          rw [hp, hp'] at hpending
          cases hpending with
          | some hagree =>
              by_cases hdue : p.enterOnIdx = idx
              · obtain rfl := hagree.2 (hdue ▸ hidx)
                simp only [enterDue, hp, hdue, if_true]
                exact BacktestState.Agrees.refl k _
              · have hdue' : p'.enterOnIdx ≠ idx := hagree.1 ▸ hdue
                simp only [enterDue, hp, hdue, hdue', if_false]
                exact ⟨rfl, by rw [hp]; exact .some hagree⟩

theorem take_agrees (hagree : bars.take (k + 1) = bars'.take (k + 1)) (hidx : idx ≤ k) :
    bars.take (idx + 1) = bars'.take (idx + 1) := by
  have h := congrArg (List.take (idx + 1)) hagree
  rwa [List.take_take, List.take_take, min_eq_left (by omega)] at h

theorem signalAt_agrees (hagree : bars.take (k + 1) = bars'.take (k + 1)) (hidx : idx ≤ k) :
    engine.signalAt cfg bars row idx = engine.signalAt cfg bars' row idx := by
  have hframes : engine.buildFrames bars idx = engine.buildFrames bars' idx := by
    simp only [buildFrames, take_agrees hagree hidx]
  simp only [signalAt, hframes]

theorem getElem?_agrees (hagree : bars.take (k + 1) = bars'.take (k + 1)) {i : Nat} (hi : i ≤ k) :
    bars[i]? = bars'[i]? := by
  have h := congrArg (fun l : List Bar => l[i]?) hagree
  simpa [List.getElem?_take, Nat.lt_succ_of_le hi] using h

/-- A new order waits for the same bar in both runs, and one within the common bars is the same. -/
theorem lookForSignal_agrees (h : s.Agrees k s') (hlength : bars.length = bars'.length)
    (hagree : bars.take (k + 1) = bars'.take (k + 1)) (hidx : idx ≤ k) :
    (engine.lookForSignal cfg bars s row idx).Agrees k
      (engine.lookForSignal cfg bars' s' row idx) := by
  obtain ⟨hsame, hpending⟩ := h
  rw [hsame]
  unfold lookForSignal
  rw [signalAt_agrees hagree hidx]
  cases engine.signalAt cfg bars' row idx with
  | none => exact ⟨rfl, hpending⟩
  | some finalized =>
      by_cases hin : enterOn cfg idx < bars.length
      · have hin' : enterOn cfg idx < bars'.length := hlength ▸ hin
        simp only [List.getElem?_eq_getElem hin, List.getElem?_eq_getElem hin']
        refine ⟨rfl, .some ⟨rfl, fun hle => ?_⟩⟩
        have hrow := getElem?_agrees hagree (show enterOn cfg idx ≤ k from hle)
        rw [List.getElem?_eq_getElem hin, List.getElem?_eq_getElem hin'] at hrow
        rw [Option.some.inj hrow]
      · have hin' : ¬ enterOn cfg idx < bars'.length := hlength ▸ hin
        simp only [List.getElem?_eq_none (Nat.le_of_not_lt hin),
          List.getElem?_eq_none (Nat.le_of_not_lt hin')]
        exact ⟨rfl, hpending⟩

theorem finishBar_agrees (h : s.Agrees k s') (hlength : bars.length = bars'.length)
    (hagree : bars.take (k + 1) = bars'.take (k + 1)) (hidx : idx ≤ k) :
    (engine.finishBar cfg bars s row idx).Agrees k (engine.finishBar cfg bars' s' row idx) := by
  obtain ⟨hsame, hpending⟩ := h
  rw [hsame]
  unfold finishBar
  cases s.position.bind fun position => (maybeExitBar position row idx).map (position, ·) with
  | some exit => exact ⟨rfl, hpending⟩
  | none =>
      by_cases hbusy : s.position.isSome ∨ (idx : Int) < s.cooldownUntil
      · simp only [hbusy, if_true]
        exact ⟨rfl, hpending⟩
      · simp only [hbusy, if_false]
        exact lookForSignal_agrees ⟨rfl, hpending⟩ hlength hagree hidx

theorem step_agrees (h : s.Agrees k s') (hlength : bars.length = bars'.length)
    (hagree : bars.take (k + 1) = bars'.take (k + 1)) (hidx : idx ≤ k) :
    (engine.step cfg bars s (row, idx)).Agrees k (engine.step cfg bars' s' (row, idx)) :=
  finishBar_agrees (enterDue_agrees h hidx) hlength hagree hidx

/-! ## The common bars -/

theorem foldl_agrees (hlength : bars.length = bars'.length)
    (hagree : bars.take (k + 1) = bars'.take (k + 1)) {entries : List (Bar × Nat)}
    (hentries : ∀ entry ∈ entries, entry.2 ≤ k) (h : s.Agrees k s') :
    (entries.foldl (engine.step cfg bars) s).Agrees k
      (entries.foldl (engine.step cfg bars') s') := by
  induction entries generalizing s s' with
  | nil => exact h
  | cons entry rest ih =>
      refine ih (fun e he => hentries e (List.mem_cons_of_mem _ he)) ?_
      exact step_agrees h hlength hagree (hentries entry List.mem_cons_self)

/-- The bars of the loop up to `k`, and those after it. -/
theorem loopBars_split (cfg : CandleBacktestConfig) (bars : List Bar) (k : Nat) : ∃ early late,
    early = ((bars.take (k + 1)).drop cfg.warmup).zipIdx cfg.warmup ∧
      loopBars cfg bars = early ++ late ∧ (∀ entry ∈ early, entry.2 ≤ k) ∧
      (∀ entry ∈ late, k < entry.2) ∧ (early.length = k + 1 - cfg.warmup ∨ late = []) := by
  refine ⟨_, ((bars.drop (k + 1)).drop (cfg.warmup - (bars.take (k + 1)).length)).zipIdx
    (cfg.warmup + ((bars.take (k + 1)).drop cfg.warmup).length), rfl, ?_, ?_, ?_, ?_⟩
  · rw [← List.zipIdx_append, ← List.drop_append, List.take_append_drop, loopBars]
  · intro entry hentry
    have hle := List.le_snd_of_mem_zipIdx hentry
    have hlt := List.snd_lt_add_of_mem_zipIdx hentry
    rw [List.length_drop, List.length_take] at hlt
    omega
  · intro entry hentry
    have hle := List.le_snd_of_mem_zipIdx hentry
    have hlt := List.snd_lt_add_of_mem_zipIdx hentry
    simp only [List.length_drop, List.length_take] at hle hlt
    omega
  · by_cases hlong : k + 1 ≤ bars.length
    · left
      simp [hlong]
    · right
      rw [List.drop_eq_nil_of_le (by omega : bars.length ≤ k + 1)]
      simp

/-! ## The bars after the common ones -/

theorem enterDue_journal (engine : CandleBacktestEngine π μ) (cfg : CandleBacktestConfig)
    (s : BacktestState μ) (row : Bar) (idx : Nat) :
    (engine.enterDue cfg s row idx).journal = s.journal ∧
      (engine.enterDue cfg s row idx).equity = s.equity := by
  unfold enterDue
  split
  · exact ⟨rfl, rfl⟩
  · split <;> exact ⟨rfl, rfl⟩

/-- A bar adds one point to the curve, and to the journal only rows of its own. -/
theorem step_extends (engine : CandleBacktestEngine π μ) (cfg : CandleBacktestConfig)
    (bars : List Bar) (s : BacktestState μ) (entry : Bar × Nat) :
    ∃ rows value, (engine.step cfg bars s entry).journal = s.journal ++ rows ∧
      (∀ row ∈ rows, row.1 = entry.2) ∧
      (engine.step cfg bars s entry).equity = s.equity ++ [value] := by
  obtain ⟨hjournal, hequity⟩ := enterDue_journal engine cfg s entry.1 entry.2
  unfold step
  generalize engine.enterDue cfg s entry.1 entry.2 = due at hjournal hequity
  unfold finishBar
  split
  · rename_i position exitPx reason hexit
    refine ⟨_, _, by rw [← hjournal]; rfl, ?_, by rw [← hequity]; rfl⟩
    intro row hrow
    rw [List.mem_singleton.mp hrow]
  · split
    · exact ⟨[], due.capital, by simp [hjournal], by simp, by simp [hequity]⟩
    · obtain ⟨pending, synthetic, total, hlook⟩ := engine.lookForSignal_frame cfg bars
        { due with equity := due.equity ++ [due.capital] } entry.1 entry.2
      rw [hlook]
      exact ⟨[], due.capital, by simp [hjournal], by simp, by simp [hequity]⟩

theorem foldl_extends (engine : CandleBacktestEngine π μ) (cfg : CandleBacktestConfig)
    (bars : List Bar) (entries : List (Bar × Nat)) (s : BacktestState μ) :
    ∃ rows values, (entries.foldl (engine.step cfg bars) s).journal = s.journal ++ rows ∧
      (∀ row ∈ rows, ∃ entry ∈ entries, row.1 = entry.2) ∧
      (entries.foldl (engine.step cfg bars) s).equity = s.equity ++ values ∧
      values.length = entries.length := by
  induction entries generalizing s with
  | nil => exact ⟨[], [], by simp, by simp, by simp, rfl⟩
  | cons entry rest ih =>
      obtain ⟨rows, value, hjournal, hrows, hequity⟩ := step_extends engine cfg bars s entry
      obtain ⟨rows', values', hjournal', hrows', hequity', hlength⟩ :=
        ih (engine.step cfg bars s entry)
      refine ⟨rows ++ rows', value :: values', ?_, ?_, ?_, by simp [hlength]⟩
      · rw [List.foldl_cons, hjournal', hjournal, List.append_assoc]
      · intro row hrow
        rcases List.mem_append.mp hrow with hfirst | hlater
        · exact ⟨entry, List.mem_cons_self, hrows row hfirst⟩
        · obtain ⟨e, he, heq⟩ := hrows' row hlater
          exact ⟨e, List.mem_cons_of_mem _ he, heq⟩
      · rw [List.foldl_cons, hequity', hequity, List.append_assoc]
        rfl

end CandleBacktestEngine

/-! ## Both results -/

/-- The curve's entries for the bars up to `k`; the first entry is for the first bar of the loop. -/
def CandleBacktestResult.equityUpTo (cfg : CandleBacktestConfig) (k : Nat)
    (result : CandleBacktestResult μ) : List ℚ :=
  result.equityCurve.take (k + 1 - cfg.warmup)

/-- The journal rows of the trades exited at bar `k` or before. -/
def CandleBacktestResult.exitedBy (k : Nat) (result : CandleBacktestResult μ) :
    List (TradeJournalRow μ) :=
  (result.journal.filter fun row => decide (row.1 ≤ k)).map Prod.snd

namespace CandleBacktestEngine

variable {engine : CandleBacktestEngine π μ} {cfg : CandleBacktestConfig}

theorem run_eq_ok {bars : List Bar} {result : CandleBacktestResult μ}
    (h : engine.run cfg bars = .ok result) :
    result.journal = (engine.loop cfg bars).journal ∧
      result.equityCurve = (engine.loop cfg bars).equity ∧
      result.maxDrawdownPct = roundTo 4 (engine.loop cfg bars).maxDd ∧
      result.endingCapital = roundTo 2 (engine.loop cfg bars).capital := by
  unfold run at h
  dsimp only at h
  split at h
  · cases h
  · split at h
    · cases h
    · obtain rfl := Except.ok.inj h
      exact ⟨rfl, rfl, rfl, rfl⟩

/-- Without the check on snapshots a run with a capital to start from returns. -/
theorem run_returns (engine : CandleBacktestEngine π μ) (cfg : CandleBacktestConfig)
    (bars : List Bar) (hstrict : cfg.strictOi = false)
    (hcapital : cfg.initialCapital ≠ 0) : ∃ result, engine.run cfg bars = .ok result := by
  unfold run
  simp [hstrict, hcapital]

/-- The state after the bars up to `k`, with this series in view. -/
def stateUpTo (engine : CandleBacktestEngine π μ) (cfg : CandleBacktestConfig) (bars : List Bar)
    (k : Nat) : BacktestState μ :=
  (((bars.take (k + 1)).drop cfg.warmup).zipIdx cfg.warmup).foldl (engine.step cfg bars) (start cfg)

/-- What a result has for the bars up to `k` is what the loop had after them. -/
theorem result_upTo {bars : List Bar} {k : Nat} {result : CandleBacktestResult μ}
    (h : engine.run cfg bars = .ok result) :
    result.equityUpTo cfg k = (engine.stateUpTo cfg bars k).equity ∧
      result.exitedBy k = (engine.stateUpTo cfg bars k).journal.map Prod.snd := by
  obtain ⟨hjournal, hequity, -⟩ := run_eq_ok h
  obtain ⟨early, late, hearly, hsplit, hbefore, hafter, hlength⟩ := loopBars_split cfg bars k
  obtain ⟨rows, values, hj, hrows, he, hvalues⟩ := foldl_extends engine cfg bars early (start cfg)
  obtain ⟨rows', values', hj', hrows', he', hvalues'⟩ := foldl_extends engine cfg bars late
    (early.foldl (engine.step cfg bars) (start cfg))
  have hloop : engine.loop cfg bars = late.foldl (engine.step cfg bars)
      (early.foldl (engine.step cfg bars) (start cfg)) := by
    rw [loop, hsplit, List.foldl_append]
  have hstate : engine.stateUpTo cfg bars k = early.foldl (engine.step cfg bars) (start cfg) := by
    rw [stateUpTo, ← hearly]
  rw [hstate]
  constructor
  · rw [CandleBacktestResult.equityUpTo, hequity, hloop, he', he]
    simp only [start, List.nil_append]
    rcases hlength with hfull | hnone
    · rw [← hfull, ← hvalues, List.take_left]
    · subst hnone
      obtain rfl := List.length_eq_zero_iff.mp hvalues'
      rw [List.append_nil]
      refine List.take_of_length_le ?_
      rw [hvalues, hearly, List.length_zipIdx, List.length_drop, List.length_take]
      omega
  · have hkept : ∀ row ∈ rows, decide (row.1 ≤ k) = true := by
      intro row hrow
      obtain ⟨entry, hentry, heq⟩ := hrows row hrow
      exact decide_eq_true (heq ▸ hbefore entry hentry)
    have hdropped : ∀ row ∈ rows', ¬ decide (row.1 ≤ k) = true := by
      intro row hrow
      obtain ⟨entry, hentry, heq⟩ := hrows' row hrow
      have hlate := hafter entry hentry
      simp only [decide_eq_true_eq]
      omega
    rw [CandleBacktestResult.exitedBy, hjournal, hloop, hj', hj]
    simp only [start, List.nil_append]
    rw [List.filter_append, List.filter_eq_self.mpr hkept, List.filter_eq_nil_iff.mpr hdropped,
      List.append_nil]

/-- For two series of one length that agree up to bar `k` a run returns the same curve for the bars up
to `k` and the same rows for the trades exited by then. -/
theorem run_sees_no_later_bar (engine : CandleBacktestEngine π μ) (cfg : CandleBacktestConfig)
    (hstrict : cfg.strictOi = false) {bars bars' : List Bar} (hlength : bars.length = bars'.length)
    (k : Nat) (hagree : bars.take (k + 1) = bars'.take (k + 1)) :
    (cfg.initialCapital ≠ 0 →
      (∃ result, engine.run cfg bars = .ok result) ∧ ∃ result, engine.run cfg bars' = .ok result) ∧
    ∀ result result', engine.run cfg bars = .ok result → engine.run cfg bars' = .ok result' →
      result.equityUpTo cfg k = result'.equityUpTo cfg k ∧ result.exitedBy k = result'.exitedBy k := by
  refine ⟨fun hcapital => ⟨engine.run_returns cfg bars hstrict hcapital,
    engine.run_returns cfg bars' hstrict hcapital⟩, ?_⟩
  intro result result' hrun hrun'
  obtain ⟨hequity, hexited⟩ := result_upTo (k := k) hrun
  obtain ⟨hequity', hexited'⟩ := result_upTo (k := k) hrun'
  obtain ⟨early, late, hearly, -, hbefore, -⟩ := loopBars_split cfg bars k
  have hstates : (engine.stateUpTo cfg bars k).Agrees k (engine.stateUpTo cfg bars' k) := by
    rw [stateUpTo, stateUpTo, ← hagree, ← hearly]
    exact foldl_agrees hlength hagree hbefore (.refl k _)
  rw [hequity, hequity', hexited, hexited', hstates.1]
  exact ⟨rfl, rfl⟩

/-- A flat series, and one that leaps after bar 39. -/
theorem flat_and_leaping_agree :
    ∃ result result',
      sampleEngine.run { strictOi := false } (sampleBars 0 45 20000) = .ok result ∧
      sampleEngine.run { strictOi := false } (sampleBars 0 40 20000 ++ sampleBars 40 5 20100) =
        .ok result' ∧
      result.equityUpTo { strictOi := false } 39 = result'.equityUpTo { strictOi := false } 39 ∧
        result.exitedBy 39 = result'.exitedBy 39 := by
  have hlength : (sampleBars 0 45 20000).length =
      (sampleBars 0 40 20000 ++ sampleBars 40 5 20100).length := by decide
  obtain ⟨hreturn, hsame⟩ := run_sees_no_later_bar sampleEngine { strictOi := false } rfl hlength 39
    (by decide +kernel)
  obtain ⟨⟨result, hrun⟩, result', hrun'⟩ := hreturn (by decide)
  exact ⟨result, result', hrun, hrun', hsame result result' hrun hrun'⟩

end CandleBacktestEngine

end AutoTrade.Backtest
