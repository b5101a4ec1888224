import AutoTrade.Risk.GateRuns

/-! # What the gate allows

An evaluation allows a trade where the limits in force leave room for it and the
checks that depend on no limit pass. Over a run, the room left by the count of the
day is that of the entries recorded since midnight.
-/

namespace AutoTrade.Risk

open AutoTrade.Library
open AutoTrade.Safety

namespace TradeGate

/-! ## The entries of the day -/

theorem startOfDay_mono {t t' : Int} (h : t ≤ t') : startOfDay t ≤ startOfDay t' := by
  show t - t % 86400000000 ≤ t' - t' % 86400000000
  omega

theorem getTradesToday_antitone (g : TradeGate) {now later : Time} (h : now ≤ later) :
    g.getTradesToday later ≤ g.getTradesToday now := by
  refine List.countP_mono_left fun t _ ht => ?_
  rw [decide_eq_true_eq] at ht ⊢
  exact (startOfDay_mono h).trans ht

/-- The instant of an entry that a call records. -/
def entryInstant : GateOp → Option Time
  | .recordTradeEntry now => some now
  | _ => none

/-- The entries of the calls, from midnight on. -/
def entriesToday (ops : List GateOp) (now : Time) : Nat :=
  (ops.filterMap entryInstant).countP fun t => decide (startOfDay now ≤ t)

/-- The clock of a reset is not ahead of an instant. -/
def ResetBefore (now : Time) : GateOp → Prop
  | .resetDailyMetrics _ _ today => today ≤ now
  | _ => True

section Entries

variable (floatText : ℚ → String) (compute : Greeks.Pricer)

/-- A reset drops entries of the days before alone. -/
theorem getTradesToday_reset (g : TradeGate) {asked reset today now : Time} (h : today ≤ now) :
    (g.resetDailyMetrics asked reset today).getTradesToday now = g.getTradesToday now := by
  show (g.tradeEntryTimes.filter fun t => decide (startOfDay today ≤ t)).countP
    (fun t => decide (startOfDay now ≤ t)) = _
  rw [List.countP_filter]
  refine List.countP_congr fun t _ => ?_
  have hday := startOfDay_mono h
  simp only [Bool.and_eq_true, decide_eq_true_eq, and_iff_left_iff_imp]
  exact hday.trans

theorem getTradesToday_step (g : TradeGate) {op : GateOp} {now : Time} (h : ResetBefore now op) :
    (g.step floatText compute op).getTradesToday now =
      g.getTradesToday now +
        ((entryInstant op).toList.countP fun t => decide (startOfDay now ≤ t)) := by
  have hbook : ∀ g', SameBook g g' → g'.getTradesToday now = g.getTradesToday now := by
    intro g' hsame
    rw [getTradesToday, hsame.entries, ← getTradesToday]
  cases op with
  | evaluateTrade symbol signalData portfolio answers =>
      exact hbook _ (g.sameBook_evaluateTrade floatText compute symbol signalData portfolio answers)
  | updateRiskLimit name value =>
      show (g.updateRiskLimit name value).1.getTradesToday now = _
      rw [updateRiskLimit_fst]
      split <;> rfl
  | recordTradeEntry at' => exact List.countP_append
  | resetDailyMetrics asked reset today => exact g.getTradesToday_reset h
  | getPortfolioRiskMetrics reading => exact hbook _ (g.sameBook_metrics reading).1
  | _ => rfl

/-- The count of the day is that of the entries recorded since midnight, whatever was reset in
between. -/
theorem getTradesToday_run (g : TradeGate) {ops : List GateOp} {now : Time}
    (h : ∀ op ∈ ops, ResetBefore now op) :
    (run (step floatText compute) g ops).getTradesToday now =
      g.getTradesToday now + entriesToday ops now := by
  induction ops generalizing g with
  | nil => rfl
  | cons op rest ih =>
      rw [List.forall_mem_cons] at h
      have hnext : run (step floatText compute) g (op :: rest) =
          run (step floatText compute) (g.step floatText compute op) rest := rfl
      have hsplit : (op :: rest).filterMap entryInstant =
          (entryInstant op).toList ++ rest.filterMap entryInstant := by
        rw [List.filterMap_cons]
        cases entryInstant op <;> rfl
      rw [hnext, ih _ h.2, getTradesToday_step floatText compute g h.1, entriesToday, entriesToday,
        hsplit, List.countP_append, Nat.add_assoc]

end Entries

/-! ## What is allowed -/

/-- A call that does not raise, and allows. -/
def Checked.Allows (c : Checked) : Prop := ∃ evaluation, c.2 = .ok evaluation ∧
  evaluation.decision = .allowed

theorem allows_ok_iff (g : TradeGate) (evaluation : RiskEvaluation) :
    Checked.Allows (g, .ok evaluation) ↔ evaluation.decision = .allowed :=
  ⟨fun ⟨_, heq, h⟩ => Except.ok.inj heq ▸ h, fun h => ⟨evaluation, rfl, h⟩⟩

theorem not_allows_error (g : TradeGate) (e : PyExc) : ¬ Checked.Allows (g, .error e) := nofun

theorem not_allows_denied (g : TradeGate) (reason : String) (score : ℚ) :
    ¬ Checked.Allows (g, .ok (deny reason score)) := by
  rw [allows_ok_iff]
  nofun

theorem runChecks_cons_iff (c : TradeGate → Checked) (rest : List (TradeGate → Checked))
    (g : TradeGate) :
    (runChecks (c :: rest) g).2 = .ok none ↔
      (c g).Allows ∧ (runChecks rest (c g).1).2 = .ok none := by
  rw [runChecks]
  cases hc : c g with
  | mk g' result =>
      cases result with
      | error e => simp [not_allows_error]
      | ok evaluation =>
          rw [allows_ok_iff]
          cases hdecision : evaluation.decision <;> simp [hdecision]

/-- Only a denial ends the checks early. -/
theorem denied_of_runChecks {cs : List (TradeGate → Checked)} {g : TradeGate}
    {evaluation : RiskEvaluation} (h : (runChecks cs g).2 = .ok (some evaluation)) :
    evaluation.decision = .denied := by
  induction cs generalizing g with
  | nil => cases h
  | cons c rest ih =>
      rw [runChecks] at h
      cases hc : c g with
      | mk g' result =>
          rw [hc] at h
          cases result with
          | error e => cases h
          | ok first =>
              dsimp only at h
              split at h
              · rename_i hdenied
                cases h
                exact hdenied
              · exact ih h

section Allowed

variable (floatText : ℚ → String) (compute : Greeks.Pricer)

theorem allows_dailyLossLimit (g : TradeGate) (portfolio : PortfolioRiskMetrics) :
    (g.checkDailyLossLimit floatText portfolio).Allows ↔
      g.config.maxDailyLoss < portfolio.dailyPnl := by
  unfold checkDailyLossLimit
  split
  · rename_i h
    exact iff_of_false (not_allows_denied _ _ _) (not_lt.mpr h)
  · rename_i h
    exact iff_of_true ⟨_, rfl, rfl⟩ (not_le.mp h)

theorem allows_consecutiveLosses (g : TradeGate) (portfolio : PortfolioRiskMetrics) :
    (g.checkConsecutiveLosses portfolio).Allows ↔
      portfolio.consecutiveLosses < g.config.maxConsecutiveLosses := by
  unfold checkConsecutiveLosses
  split
  · rename_i h
    exact iff_of_false (not_allows_denied _ _ _) (not_lt.mpr h)
  · rename_i h
    exact iff_of_true ⟨_, rfl, rfl⟩ (not_le.mp h)

theorem allows_dailyTradeCount (g : TradeGate) (now : Time) :
    (g.checkDailyTradeCount now).Allows ↔
      (g.getTradesToday now : Int) < g.config.maxDailyTrades := by
  unfold checkDailyTradeCount
  dsimp only
  split
  · rename_i h
    exact iff_of_false (not_allows_denied _ _ _) (not_lt.mpr h)
  · rename_i h
    exact iff_of_true ⟨_, rfl, rfl⟩ (not_le.mp h)

theorem allows_portfolioLimits (g : TradeGate) (portfolio : PortfolioRiskMetrics)
    (reading : MetricsReading) :
    (g.checkPortfolioLimits portfolio reading).Allows ↔
      portfolio.openPositionsCount < g.config.maxOpenPositions ∧
        ∃ risk, (g.estimatePortfolioRisk reading).2 = .ok risk ∧
          risk ≤ g.config.maxPortfolioRisk := by
  unfold checkPortfolioLimits
  split
  · rename_i h
    exact iff_of_false (not_allows_denied _ _ _) fun hopen => absurd hopen.1 (not_lt.mpr h)
  · rename_i h
    rw [and_iff_right (not_le.mp h)]
    cases hrisk : g.estimatePortfolioRisk reading with
    | mk g' result =>
        cases result with
        | error e => exact iff_of_false (not_allows_error _ _) nofun
        | ok risk =>
            dsimp only
            split
            · rename_i hhigh
              refine iff_of_false (not_allows_denied _ _ _) ?_
              rintro ⟨_, heq, hle⟩
              cases heq
              exact absurd hhigh (not_lt.mpr hle)
            · rename_i hlow
              exact iff_of_true ⟨_, rfl, rfl⟩ ⟨risk, rfl, not_lt.mp hlow⟩

theorem allows_tradeQuality (g : TradeGate) (signalData : SignalData) :
    (g.checkTradeQuality signalData).Allows ↔
      g.config.minVolumeRatio ≤ signalData.volumeRatio.getD 1 ∧
        signalData.spreadPct.getD 0 ≤ g.config.maxSpreadPct := by
  unfold checkTradeQuality
  dsimp only
  split
  · rename_i h
    exact iff_of_false (not_allows_denied _ _ _) fun hfits => absurd hfits.1 (not_le.mpr h)
  · rename_i hvolume
    split
    · rename_i h
      exact iff_of_false (not_allows_denied _ _ _) fun hfits => absurd hfits.2 (not_le.mpr h)
    · rename_i hspread
      exact iff_of_true ⟨_, rfl, rfl⟩ ⟨not_lt.mp hvolume, not_lt.mp hspread⟩

theorem allows_positionSizingLimits (g : TradeGate) (signalData : SignalData) :
    (g.checkPositionSizingLimits signalData).Allows := by
  unfold checkPositionSizingLimits
  dsimp only
  split <;> exact ⟨_, rfl, rfl⟩

theorem allows_marginRequirements (g : TradeGate) (symbol : String) {signalData : SignalData}
    (portfolio : PortfolioRiskMetrics) (margin : ℚ → Except PyExc ℚ)
    (hprice : 0 < signalData.price.getD 0) :
    (g.checkMarginRequirements symbol signalData portfolio margin).Allows ↔
      g.validateMarginRequirements margin
        (g.intendedQuantity symbol signalData portfolio.availableCapital)
        portfolio.availableCapital = .ok true := by
  unfold checkMarginRequirements
  rw [if_neg (not_le.mpr hprice)]
  split
  · rename_i e h
    rw [h]
    exact iff_of_false (not_allows_error _ _) nofun
  · rename_i h
    rw [h]
    exact iff_of_false (not_allows_denied _ _ _) nofun
  · rename_i h
    rw [h]
    exact iff_of_true ⟨_, rfl, rfl⟩ rfl

/-- The Greeks engine can be asked, and blocks. -/
def GreeksBlock (g : TradeGate) (symbol direction : String) (signalData : SignalData) : Prop :=
  ∃ option result, optionType direction = some option ∧
    Greeks.checkPreTradeGreeks {} compute (proposedGreeks symbol direction option signalData)
      (g.positions.rows.map fun e => heldGreeks e.1 e.2) = .ok result ∧ result.status = .block

theorem allows_greeksLimits (g : TradeGate) (symbol direction : String) (signalData : SignalData)
    (hdirection : direction ≠ "") (hprice : 0 < signalData.price.getD 0) :
    (g.checkGreeksLimits compute symbol direction signalData).Allows ↔
      ¬ g.GreeksBlock compute symbol direction signalData := by
  unfold checkGreeksLimits GreeksBlock
  rw [if_neg (not_or.mpr ⟨hdirection, not_le.mpr hprice⟩)]
  -- what the engine computes plays no part
  generalize Greeks.checkPreTradeGreeks {} compute = check
  cases optionType direction with
  | none =>
      refine iff_of_true ⟨_, rfl, rfl⟩ ?_
      rintro ⟨_, _, heq, -⟩
      cases heq
  | some option =>
      dsimp only
      cases hcheck : check (proposedGreeks symbol direction option signalData)
          (g.positions.rows.map fun e => heldGreeks e.1 e.2) with
      | error text =>
          refine iff_of_true ⟨_, rfl, rfl⟩ ?_
          rintro ⟨_, _, heq, hok, -⟩
          cases heq
          rw [hcheck] at hok
          cases hok
      | ok result =>
          dsimp only
          cases hstatus : result.status with
          | block =>
              exact iff_of_false (not_allows_denied _ _ _)
                fun h => h ⟨option, result, rfl, hcheck, hstatus⟩
          | _ =>
              refine iff_of_true ⟨_, rfl, rfl⟩ ?_
              rintro ⟨_, _, heq, hok, hblock⟩
              cases heq
              rw [hcheck] at hok
              cases hok
              rw [hstatus] at hblock
              cases hblock

/-- What an evaluation asks for apart from the limits. -/
structure Fits (g : TradeGate) (symbol : String) (signalData : SignalData)
    (portfolio : PortfolioRiskMetrics) (answers : Answers) : Prop where
  signal : ∃ direction, signalData.direction = .ok direction ∧ direction.toUpper ≠ "" ∧
    ¬ g.GreeksBlock compute symbol direction.toUpper signalData
  price : 0 < signalData.price.getD 0
  margin : g.validateMarginRequirements answers.margin
    (g.intendedQuantity symbol signalData portfolio.availableCapital)
    portfolio.availableCapital = .ok true
  volume : g.config.minVolumeRatio ≤ signalData.volumeRatio.getD 1
  spread : signalData.spreadPct.getD 0 ≤ g.config.maxSpreadPct
  sized : ∃ evaluation, g.recommend symbol signalData portfolio answers = .ok evaluation

theorem SameBook.getLotSize {g g' : TradeGate} (h : SameBook g g') (symbol : String) :
    g'.tracker.getLotSize symbol = g.tracker.getLotSize symbol := by
  unfold RiskService.getLotSize tracker
  rw [h.lots]

theorem SameBook.greeksBlock {g g' : TradeGate} (h : SameBook g g') (symbol direction : String)
    (signalData : SignalData) : g'.GreeksBlock compute symbol direction signalData ↔
      g.GreeksBlock compute symbol direction signalData := by
  unfold GreeksBlock
  rw [h.positions]

theorem SameBook.margin {g g' : TradeGate} (h : SameBook g g') (symbol : String)
    (signalData : SignalData) (margin : ℚ → Except PyExc ℚ) (capital : ℚ) :
    g'.validateMarginRequirements margin (g'.intendedQuantity symbol signalData capital) capital =
      g.validateMarginRequirements margin (g.intendedQuantity symbol signalData capital)
        capital := by
  unfold validateMarginRequirements intendedQuantity
  rw [h.config, h.getLotSize]

theorem SameBook.recommend {g g' : TradeGate} (h : SameBook g g') (symbol : String)
    (signalData : SignalData) (portfolio : PortfolioRiskMetrics) (answers : Answers) :
    g'.recommend symbol signalData portfolio answers =
      g.recommend symbol signalData portfolio answers := by
  unfold TradeGate.recommend sizingInput calculateRiskScore
  rw [h.config, h.getLotSize]

theorem decision_recommend {g : TradeGate} {symbol : String} {signalData : SignalData}
    {portfolio : PortfolioRiskMetrics} {answers : Answers} {evaluation : RiskEvaluation}
    (h : g.recommend symbol signalData portfolio answers = .ok evaluation) :
    evaluation.decision = .allowed := by
  unfold recommend at h
  split at h
  · cases h
  · split at h
    · cases h
    · split at h
      · cases h
      · cases h
        rfl

/-- An evaluation is denied where its recommendation raises one of the errors it handles. -/
theorem allows_orDenied (g : TradeGate) (symbol : String) (signalData : SignalData)
    (portfolio : PortfolioRiskMetrics) (answers : Answers) :
    Checked.Allows (g, orDenied (g.recommend symbol signalData portfolio answers)) ↔
      ∃ evaluation, g.recommend symbol signalData portfolio answers = .ok evaluation := by
  cases hrecommend : g.recommend symbol signalData portfolio answers with
  | ok evaluation =>
      exact iff_of_true ⟨evaluation, rfl, decision_recommend hrecommend⟩ ⟨_, rfl⟩
  | error e =>
      unfold orDenied
      refine iff_of_false ?_ nofun
      dsimp only
      split
      · exact not_allows_denied _ _ _
      · exact not_allows_error _ _

/-- The first three checks leave what they allow as it is. -/
theorem fst_firstChecks (g : TradeGate) (portfolio : PortfolioRiskMetrics) (now : Time) :
    (g.config.maxDailyLoss < portfolio.dailyPnl →
        (g.checkDailyLossLimit floatText portfolio).1 = g) ∧
      (portfolio.consecutiveLosses < g.config.maxConsecutiveLosses →
        (g.checkConsecutiveLosses portfolio).1 = g) ∧
      (g.checkDailyTradeCount now).1 = g := by
  refine ⟨fun h => ?_, fun h => ?_, ?_⟩
  · rw [checkDailyLossLimit, if_neg (not_le.mpr h)]
  · rw [checkConsecutiveLosses, if_neg (not_le.mpr h)]
  · dsimp only [checkDailyTradeCount]
    split <;> rfl

/-- The checks that depend on the limits. -/
structure WithinLimits (g : TradeGate) (portfolio : PortfolioRiskMetrics) (answers : Answers) :
    Prop where
  dailyLoss : g.config.maxDailyLoss < portfolio.dailyPnl
  consecutiveLosses : portfolio.consecutiveLosses < g.config.maxConsecutiveLosses
  trades : (g.getTradesToday answers.now : Int) < g.config.maxDailyTrades
  openPositions : portfolio.openPositionsCount < g.config.maxOpenPositions
  risk : ∃ risk, (g.estimatePortfolioRisk answers.metrics).2 = .ok risk ∧
    risk ≤ g.config.maxPortfolioRisk

theorem withinLimits_iff (g : TradeGate) (portfolio : PortfolioRiskMetrics) (answers : Answers) :
    g.WithinLimits portfolio answers ↔
      g.config.limitConfig.value .maxDailyLoss < portfolio.dailyPnl ∧
        (portfolio.consecutiveLosses : ℚ) < g.config.limitConfig.value .maxConsecutiveLosses ∧
        (g.getTradesToday answers.now : ℚ) < g.config.limitConfig.value .maxTradesDay ∧
        (portfolio.openPositionsCount : ℚ) < g.config.limitConfig.value .maxOpen ∧
        ∃ risk, (g.estimatePortfolioRisk answers.metrics).2 = .ok risk ∧
          risk ≤ g.config.limitConfig.value .maxPortfolioRisk := by
  have htrades : (g.getTradesToday answers.now : ℚ) < (g.config.maxDailyTrades : ℚ) ↔
      (g.getTradesToday answers.now : Int) < g.config.maxDailyTrades := by
    rw [← Int.cast_natCast, Int.cast_lt]
  constructor
  · rintro ⟨hloss, hlosses, hbelow, hopen, hrisk⟩
    exact ⟨hloss, Int.cast_lt.mpr hlosses, htrades.mpr hbelow, Int.cast_lt.mpr hopen, hrisk⟩
  · rintro ⟨hloss, hlosses, hbelow, hopen, hrisk⟩
    exact ⟨hloss, Int.cast_lt.mp hlosses, htrades.mp hbelow, Int.cast_lt.mp hopen, hrisk⟩

theorem runChecks_limits_iff (g : TradeGate) (symbol direction : String) (signalData : SignalData)
    (portfolio : PortfolioRiskMetrics) (answers : Answers) :
    (runChecks (checks floatText compute symbol direction signalData portfolio answers) g).2 =
        .ok none ↔
      g.WithinLimits portfolio answers ∧
        (runChecks ((checks floatText compute symbol direction signalData portfolio answers).drop 4)
          (g.checkPortfolioLimits portfolio answers.metrics).1).2 = .ok none := by
  obtain ⟨hfirst, hsecond, hthird⟩ := g.fst_firstChecks floatText portfolio answers.now
  rw [checks, runChecks_cons_iff, runChecks_cons_iff, runChecks_cons_iff, runChecks_cons_iff,
    allows_dailyLossLimit]
  constructor
  · rintro ⟨hloss, hlosses, htrades, hlimits, hrest⟩
    rw [hfirst hloss] at hlosses htrades hlimits hrest
    rw [allows_consecutiveLosses] at hlosses
    rw [hsecond hlosses] at htrades hlimits hrest
    rw [allows_dailyTradeCount] at htrades
    rw [hthird] at hlimits hrest
    rw [allows_portfolioLimits] at hlimits
    exact ⟨⟨hloss, hlosses, htrades, hlimits.1, hlimits.2⟩, hrest⟩
  · rintro ⟨⟨hloss, hlosses, htrades, hopen, hrisk⟩, hrest⟩
    rw [hfirst hloss, hsecond hlosses, hthird, allows_consecutiveLosses, allows_dailyTradeCount,
      allows_portfolioLimits]
    exact ⟨hloss, hlosses, htrades, ⟨hopen, hrisk⟩, hrest⟩

/-- The later checks leave everything as it is. -/
theorem runChecks_laterChecks_iff (g : TradeGate) (symbol direction : String)
    (signalData : SignalData) (portfolio : PortfolioRiskMetrics) (answers : Answers)
    (hdirection : direction ≠ "") (hprice : 0 < signalData.price.getD 0) :
    (runChecks ((checks floatText compute symbol direction signalData portfolio answers).drop 4)
        g).2 = .ok none ↔
      ¬ g.GreeksBlock compute symbol direction signalData ∧
        g.validateMarginRequirements answers.margin
          (g.intendedQuantity symbol signalData portfolio.availableCapital)
          portfolio.availableCapital = .ok true ∧
        g.config.minVolumeRatio ≤ signalData.volumeRatio.getD 1 ∧
        signalData.spreadPct.getD 0 ≤ g.config.maxSpreadPct := by
  have hgreeks : (g.checkGreeksLimits compute symbol direction signalData).1 = g := by
    unfold checkGreeksLimits
    (repeat' split) <;> rfl
  have hmargin : (g.checkMarginRequirements symbol signalData portfolio answers.margin).1 = g := by
    unfold checkMarginRequirements
    (repeat' split) <;> rfl
  have hquality : (g.checkTradeQuality signalData).1 = g := by
    dsimp only [checkTradeQuality]
    (repeat' split) <;> rfl
  rw [checks, List.drop_succ_cons, List.drop_succ_cons, List.drop_succ_cons, List.drop_succ_cons,
    List.drop_zero, runChecks_cons_iff, runChecks_cons_iff, runChecks_cons_iff, runChecks_cons_iff,
    hgreeks, hmargin, hquality, allows_greeksLimits compute g symbol direction signalData hdirection
    hprice, allows_marginRequirements g symbol portfolio answers.margin hprice,
    allows_tradeQuality]
  simp only [allows_positionSizingLimits, runChecks, and_true]

theorem fits_iff {g : TradeGate} {symbol direction : String} {signalData : SignalData}
    {portfolio : PortfolioRiskMetrics} {answers : Answers}
    (hdirection : signalData.direction = .ok direction) (hne : direction.toUpper ≠ "")
    (hprice : 0 < signalData.price.getD 0) :
    g.Fits compute symbol signalData portfolio answers ↔
      (¬ g.GreeksBlock compute symbol direction.toUpper signalData ∧
        g.validateMarginRequirements answers.margin
          (g.intendedQuantity symbol signalData portfolio.availableCapital)
          portfolio.availableCapital = .ok true ∧
        g.config.minVolumeRatio ≤ signalData.volumeRatio.getD 1 ∧
        signalData.spreadPct.getD 0 ≤ g.config.maxSpreadPct) ∧
      ∃ evaluation, g.recommend symbol signalData portfolio answers = .ok evaluation := by
  constructor
  · rintro ⟨⟨_, heq, -, hgreeks⟩, -, hmargin, hvolume, hspread, hsized⟩
    cases hdirection.symm.trans heq
    exact ⟨⟨hgreeks, hmargin, hvolume, hspread⟩, hsized⟩
  · rintro ⟨⟨hgreeks, hmargin, hvolume, hspread⟩, hsized⟩
    exact ⟨⟨direction, hdirection, hne, hgreeks⟩, hprice, hmargin, hvolume, hspread, hsized⟩

theorem evaluateTrade_allows_iff (g : TradeGate) (symbol : String) (signalData : SignalData)
    (portfolio : PortfolioRiskMetrics) (answers : Answers) :
    (g.evaluateTrade floatText compute symbol signalData portfolio answers).Allows ↔
      g.WithinLimits portfolio answers ∧ g.Fits compute symbol signalData portfolio answers := by
  unfold evaluateTrade
  cases hdirection : signalData.direction with
  | error text =>
      refine iff_of_false (not_allows_denied _ _ _) ?_
      rintro ⟨-, ⟨_, heq, -⟩, -⟩
      cases hdirection.symm.trans heq
  | ok direction =>
      dsimp only
      split
      · rename_i hinvalid
        refine iff_of_false (not_allows_denied _ _ _) ?_
        rintro ⟨-, ⟨_, heq, hne, -⟩, hprice, -⟩
        cases hdirection.symm.trans heq
        exact hinvalid.elim hne (not_le.mpr hprice)
      · rename_i hvalid
        obtain ⟨hne, hprice⟩ := not_or.mp hvalid
        rw [not_le] at hprice
        have hlimits := g.runChecks_limits_iff floatText compute symbol direction.toUpper signalData
          portfolio answers
        rw [runChecks_laterChecks_iff floatText compute _ symbol direction.toUpper signalData
          portfolio answers hne hprice] at hlimits
        have hportfolio := (g.sameBook_checkPortfolioLimits portfolio answers.metrics).1
        rw [hportfolio.greeksBlock compute, hportfolio.margin, hportfolio.config] at hlimits
        have hbook := sameBook_runChecks floatText compute symbol direction.toUpper signalData
          portfolio answers g
        rw [fits_iff compute hdirection hne hprice, ← and_assoc, ← hlimits]
        cases hrun : runChecks
            (checks floatText compute symbol direction.toUpper signalData portfolio answers) g with
        | mk g' result =>
            rw [hrun] at hbook
            match result, hrun with
            | .error e, _ =>
                refine iff_of_false ?_ nofun
                dsimp only [orDenied]
                split
                · exact not_allows_denied _ _ _
                · exact not_allows_error _ _
            | .ok (some evaluation), hrun =>
                have hdenied := denied_of_runChecks (congrArg Prod.snd hrun)
                refine iff_of_false ?_ nofun
                rw [allows_ok_iff, hdenied]
                nofun
            | .ok none, _ =>
                dsimp only
                rw [allows_orDenied, hbook.recommend, eq_self_iff_true, true_and]

/-- After any calls, what is allowed is decided by the last values accepted for the limits, the
entries recorded since midnight and the positions tracked. -/
theorem allowed_by_history (config : GateConfig) (configuredLot : String → LotValue)
    (safety : SafetyState) (start : Time) (ops : List GateOp) (symbol : String)
    (signalData : SignalData) (portfolio : PortfolioRiskMetrics) (answers : Answers)
    (hclock : ∀ op ∈ ops, ResetBefore answers.now op) :
    (evaluateTrade floatText compute
        (run (step floatText compute) (new config configuredLot safety start) ops) symbol signalData
        portfolio answers).Allows ↔
      valueInForce config ops .maxDailyLoss < portfolio.dailyPnl ∧
        (portfolio.consecutiveLosses : ℚ) < valueInForce config ops .maxConsecutiveLosses ∧
        (entriesToday ops answers.now : ℚ) < valueInForce config ops .maxTradesDay ∧
        (portfolio.openPositionsCount : ℚ) < valueInForce config ops .maxOpen ∧
        (∃ risk, ((run (step floatText compute) (new config configuredLot safety start)
          ops).estimatePortfolioRisk answers.metrics).2 = .ok risk ∧
          risk ≤ valueInForce config ops .maxPortfolioRisk) ∧
        (run (step floatText compute) (new config configuredLot safety start) ops).Fits compute
          symbol signalData portfolio answers := by
  have hvalue := value_run floatText compute config configuredLot safety start ops
  have hsync : (run (step floatText compute) (new config configuredLot safety start) ops).limits =
      (run (step floatText compute) (new config configuredLot safety start)
        ops).config.limitConfig :=
    run_invariant (I := fun g : TradeGate => g.limits = g.config.limitConfig)
      (fun _ op h => synced_step floatText compute h op) rfl ops
  have hentries := getTradesToday_run floatText compute (new config configuredLot safety start)
    hclock
  rw [show (new config configuredLot safety start).getTradesToday answers.now = 0 from rfl,
    Nat.zero_add] at hentries
  rw [evaluateTrade_allows_iff, withinLimits_iff, ← hsync, hvalue, hvalue, hvalue, hvalue, hvalue,
    hentries]
  simp only [and_assoc]

end Allowed

/-- A day with one entry, a reset and a raised limit. -/
def quietDay : List GateOp :=
  [.recordTradeEntry 0, .resetDailyMetrics hour hour hour,
    .updateRiskLimit "max_trades_day" ⟨"12", .number 12⟩]

def deepSignal : SignalData where
  direction := .ok "call"
  price := some 25000
  stopLoss := some 24000
  tteDays := some 1
  iv := some (1 / 100)
  strike := some 1

def calmPortfolio : PortfolioRiskMetrics where
  totalCapital := 100000
  usedCapital := 0
  availableCapital := 100000
  dailyPnl := 0
  maxDailyLoss := -2000
  currentDrawdown := 0
  maxDrawdown := 0
  openPositionsCount := 0
  maxOpenPositions := 1
  consecutiveLosses := 0
  maxConsecutiveLosses := 3
  sectorExposure := Table.empty
  symbolExposure := Table.empty

def calmAnswers : Answers where
  now := hour
  metrics := .answer 100000 0 0
  margin := fun _ => .ok 0
  volatility := .ok (some 20)
  capital := .capital 100000
  scoreVolatility := .answer (some 20)

theorem allowed_by_history_quiet :
    (evaluateTrade (fun _ => "") Greeks.deepPricer
        (run (step (fun _ => "") Greeks.deepPricer) (new {} (fun _ => .falsy) {} 0) quietDay)
        "NIFTY" deepSignal calmPortfolio calmAnswers).Allows ↔
      valueInForce {} quietDay .maxDailyLoss < calmPortfolio.dailyPnl ∧
        (calmPortfolio.consecutiveLosses : ℚ) < valueInForce {} quietDay .maxConsecutiveLosses ∧
        (entriesToday quietDay calmAnswers.now : ℚ) < valueInForce {} quietDay .maxTradesDay ∧
        (calmPortfolio.openPositionsCount : ℚ) < valueInForce {} quietDay .maxOpen ∧
        (∃ risk, ((run (step (fun _ => "") Greeks.deepPricer) (new {} (fun _ => .falsy) {} 0)
          quietDay).estimatePortfolioRisk calmAnswers.metrics).2 = .ok risk ∧
          risk ≤ valueInForce {} quietDay .maxPortfolioRisk) ∧
        (run (step (fun _ => "") Greeks.deepPricer) (new {} (fun _ => .falsy) {} 0) quietDay).Fits
          Greeks.deepPricer "NIFTY" deepSignal calmPortfolio calmAnswers := by
  refine allowed_by_history (fun _ => "") Greeks.deepPricer {} (fun _ => .falsy) {} 0 quietDay
    "NIFTY" deepSignal calmPortfolio calmAnswers ?_
  simp [quietDay, ResetBefore, calmAnswers]

end TradeGate

end AutoTrade.Risk
