import AutoTrade.Library.History
import AutoTrade.Risk.TradeGate

/-! # Runs of the gate

The limits in force are the last ones accepted, in the service and in its limits
manager alike, and the halt holds the first breach.
-/

namespace AutoTrade.Risk

open AutoTrade.Events (strip)
open AutoTrade.Library
open AutoTrade.Safety

namespace TradeGate

/-! ## What an evaluation leaves alone -/

/-- All but the drawdown and the halt are the same. -/
structure SameBook (g g' : TradeGate) : Prop where
  config : g'.config = g.config
  limits : g'.limits = g.limits
  lots : g'.configuredLot = g.configuredLot
  positions : g'.positions = g.positions
  entries : g'.tradeEntryTimes = g.tradeEntryTimes
  reset : g'.lastLossReset = g.lastLossReset

theorem SameBook.refl (g : TradeGate) : SameBook g g := ⟨rfl, rfl, rfl, rfl, rfl, rfl⟩

theorem SameBook.trans {g g' g'' : TradeGate} (h : SameBook g g') (h' : SameBook g' g'') :
    SameBook g g'' :=
  ⟨h'.config.trans h.config, h'.limits.trans h.limits, h'.lots.trans h.lots,
    h'.positions.trans h.positions, h'.entries.trans h.entries, h'.reset.trans h.reset⟩

theorem sameBook_metrics (g : TradeGate) (reading : MetricsReading) :
    SameBook g (g.getPortfolioRiskMetrics reading).1 ∧
      (g.getPortfolioRiskMetrics reading).1.safety = g.safety := by
  cases reading with
  | answer capital dailyPnl openPositions => exact ⟨⟨rfl, rfl, rfl, rfl, rfl, rfl⟩, rfl⟩
  | handled => exact ⟨.refl g, rfl⟩
  | attributeError => exact ⟨.refl g, rfl⟩
  | raised e => exact ⟨.refl g, rfl⟩

theorem estimatePortfolioRisk_fst (g : TradeGate) (reading : MetricsReading) :
    (g.estimatePortfolioRisk reading).1 = (g.getPortfolioRiskMetrics reading).1 := by
  cases reading <;> rfl

theorem checkPortfolioLimits_fst (g : TradeGate) (portfolio : PortfolioRiskMetrics)
    (reading : MetricsReading) :
    (g.checkPortfolioLimits portfolio reading).1 = g ∨
      (g.checkPortfolioLimits portfolio reading).1 = (g.getPortfolioRiskMetrics reading).1 := by
  unfold checkPortfolioLimits
  split
  · exact .inl rfl
  · have hfst := g.estimatePortfolioRisk_fst reading
    cases hrisk : g.estimatePortfolioRisk reading with
    | mk g' result =>
        rw [hrisk] at hfst
        cases result with
        | error e => exact .inr hfst
        | ok risk =>
            dsimp only
            split <;> exact .inr hfst

theorem sameBook_checkPortfolioLimits (g : TradeGate) (portfolio : PortfolioRiskMetrics)
    (reading : MetricsReading) :
    SameBook g (g.checkPortfolioLimits portfolio reading).1 ∧
      (g.checkPortfolioLimits portfolio reading).1.safety = g.safety := by
  rcases g.checkPortfolioLimits_fst portfolio reading with h | h
  · rw [h]
    exact ⟨.refl g, rfl⟩
  · rw [h]
    exact g.sameBook_metrics reading

theorem runChecks_keeps {R : TradeGate → TradeGate → Prop} (refl : ∀ g, R g g)
    (trans : ∀ g g' g'', R g g' → R g' g'' → R g g'') {cs : List (TradeGate → Checked)}
    (h : ∀ c ∈ cs, ∀ g, R g (c g).1) (g : TradeGate) : R g (runChecks cs g).1 := by
  induction cs generalizing g with
  | nil => exact refl g
  | cons c rest ih =>
      rw [List.forall_mem_cons] at h
      have hfirst := h.1 g
      unfold runChecks
      cases hc : c g with
      | mk g' result =>
          rw [hc] at hfirst
          cases result with
          | error e => exact hfirst
          | ok evaluation =>
              dsimp only
              split
              · exact hfirst
              · exact trans _ _ _ hfirst (ih h.2 g')

section Gate

variable (floatText : ℚ → String) (compute : Greeks.Pricer)

theorem sameBook_checks {symbol direction : String} {signalData : SignalData}
    {portfolio : PortfolioRiskMetrics} {answers : Answers} {c : TradeGate → Checked}
    (hc : c ∈ checks floatText compute symbol direction signalData portfolio answers)
    (g : TradeGate) : SameBook g (c g).1 := by
  simp only [checks, List.mem_cons, List.not_mem_nil, or_false] at hc
  rcases hc with rfl | rfl | rfl | rfl | rfl | rfl | rfl | rfl
  · dsimp only
    unfold checkDailyLossLimit denyAndHalt
    split <;> exact ⟨rfl, rfl, rfl, rfl, rfl, rfl⟩
  · dsimp only
    unfold checkConsecutiveLosses denyAndHalt
    split <;> exact ⟨rfl, rfl, rfl, rfl, rfl, rfl⟩
  · dsimp only [checkDailyTradeCount]
    split <;> exact .refl g
  · exact (g.sameBook_checkPortfolioLimits portfolio answers.metrics).1
  · dsimp only [checkGreeksLimits]
    (repeat' split) <;> exact .refl g
  · dsimp only [checkMarginRequirements]
    (repeat' split) <;> exact .refl g
  · dsimp only [checkTradeQuality]
    (repeat' split) <;> exact .refl g
  · dsimp only [checkPositionSizingLimits]
    split <;> exact .refl g

theorem sameBook_runChecks (symbol direction : String) (signalData : SignalData)
    (portfolio : PortfolioRiskMetrics) (answers : Answers) (g : TradeGate) :
    SameBook g (runChecks
      (checks floatText compute symbol direction signalData portfolio answers) g).1 :=
  runChecks_keeps SameBook.refl (fun _ _ _ h h' => h.trans h')
    (fun _ hc g => sameBook_checks floatText compute hc g) g

theorem sameBook_evaluateTrade (g : TradeGate) (symbol : String) (signalData : SignalData)
    (portfolio : PortfolioRiskMetrics) (answers : Answers) :
    SameBook g (g.evaluateTrade floatText compute symbol signalData portfolio answers).1 := by
  unfold evaluateTrade
  cases signalData.direction with
  | error text => exact .refl g
  | ok direction =>
      dsimp only
      split
      · exact .refl g
      · have hkeeps := sameBook_runChecks floatText compute symbol direction.toUpper signalData
          portfolio answers g
        split <;> rename_i hrun <;> rw [hrun] at hkeeps <;> exact hkeeps

end Gate

end TradeGate

/-! ## The limits in force -/

/-- What a row of `field_map` lets through. -/
structure LimitField.Accepts (f : LimitField) (q : ℚ) : Prop where
  whole : f.whole = true → (truncate q : ℚ) = q
  minimum : ∀ b ∈ f.minimum, b.1 ≤ q
  maximum : ∀ b ∈ f.maximum, q ≤ b.1

theorem LimitField.upper_eq_ok_iff (f : LimitField) (q r : ℚ) :
    convert.upper f q = .ok r ↔ r = q ∧ ∀ b ∈ f.maximum, q ≤ b.1 := by
  unfold convert.upper
  cases f.maximum with
  | none => simp [eq_comm]
  | some b =>
      dsimp only
      split
      · rename_i h
        simp [h]
      · rename_i h
        simp [not_lt.mp h, eq_comm]

theorem LimitField.convert_eq_ok_iff (f : LimitField) (value : LimitValue) (r : ℚ) :
    f.convert value = .ok r ↔ value.float = .number r ∧ f.Accepts r := by
  unfold convert
  cases value.float with
  | unreadable => simp
  | notFinite =>
      dsimp only
      split <;> simp
  | number q =>
      dsimp only
      by_cases hwhole : f.whole = true ∧ (truncate q : ℚ) ≠ q
      · rw [if_pos hwhole]
        constructor
        · nofun
        · rintro ⟨heq, haccepts⟩
          obtain rfl := FloatReading.number.inj heq
          exact absurd (haccepts.whole hwhole.1) hwhole.2
      · rw [if_neg hwhole]
        have hint : f.whole = true → (truncate q : ℚ) = q := fun h =>
          by_contra fun hne => hwhole ⟨h, hne⟩
        have hupper : convert.upper f q = .ok r ∧ (∀ b ∈ f.minimum, b.1 ≤ q) ↔
            FloatReading.number q = .number r ∧ f.Accepts r := by
          rw [upper_eq_ok_iff]
          constructor
          · rintro ⟨⟨rfl, hmax⟩, hmin⟩
            exact ⟨rfl, hint, hmin, hmax⟩
          · rintro ⟨heq, haccepts⟩
            obtain rfl := FloatReading.number.inj heq
            exact ⟨⟨rfl, haccepts.maximum⟩, haccepts.minimum⟩
        rw [← hupper]
        cases f.minimum with
        | none => simp
        | some b =>
            dsimp only
            split
            · rename_i h
              simp [not_le.mpr h]
            · rename_i h
              simp [not_lt.mp h]

/-- Every limit is one that `update_risk_limit` would accept. -/
def LimitConfig.Valid (l : LimitConfig) : Prop := ∀ f ∈ fieldMap, f.Accepts (l.value f.limit)

theorem limitConfig_assign (c : GateConfig) (limit : RiskLimit) (q : ℚ) :
    (c.assign limit q).limitConfig = c.limitConfig.assign limit q := by
  cases limit <;> rfl

theorem LimitConfig.value_assign_of_ne (l : LimitConfig) {limit other : RiskLimit} (q : ℚ)
    (h : other ≠ limit) : (l.assign limit q).value other = l.value other := by
  cases limit <;> cases other <;> first | rfl | exact absurd rfl h

/-- A whole limit is stored as an `int`, and is accepted only as one. -/
theorem LimitConfig.value_assign_self (l : LimitConfig) {f : LimitField} (hf : f ∈ fieldMap)
    {q : ℚ} (h : f.Accepts q) : (l.assign f.limit q).value f.limit = q := by
  have hwhole := h.whole
  simp only [fieldMap, List.mem_cons, List.not_mem_nil, or_false] at hf
  rcases hf with rfl | rfl | rfl | rfl | rfl
  · rfl
  · exact hwhole rfl
  · exact hwhole rfl
  · rfl
  · exact hwhole rfl

/-- The five rows are for the five limits. -/
theorem eq_of_limit_eq {f f' : LimitField} (hf : f ∈ fieldMap) (hf' : f' ∈ fieldMap)
    (h : f.limit = f'.limit) : f = f' :=
  List.inj_on_of_nodup_map (show (fieldMap.map LimitField.limit).Nodup by decide) hf hf' h

theorem LimitConfig.Valid.assign {l : LimitConfig} (h : l.Valid) {f : LimitField}
    (hf : f ∈ fieldMap) {q : ℚ} (hq : f.Accepts q) : (l.assign f.limit q).Valid := by
  intro f' hf'
  by_cases hsame : f'.limit = f.limit
  · obtain rfl := eq_of_limit_eq hf' hf hsame
    rwa [l.value_assign_self hf hq]
  · rw [l.value_assign_of_ne q hsame]
    exact h f' hf'

theorem truncate_intCast (n : Int) : truncate (n : ℚ) = n := by
  unfold truncate
  split <;> simp

/-- The defaults would be accepted. -/
theorem valid_limitConfig_default : (GateConfig.limitConfig {}).Valid := by
  intro f hf
  simp only [fieldMap, List.mem_cons, List.not_mem_nil, or_false] at hf
  rcases hf with rfl | rfl | rfl | rfl | rfl
  · exact ⟨nofun, nofun, by simp [GateConfig.limitConfig, LimitConfig.value]; norm_num⟩
  · exact ⟨fun _ => congrArg Int.cast (truncate_intCast 10), by
      simp [GateConfig.limitConfig, LimitConfig.value], nofun⟩
  · exact ⟨fun _ => congrArg Int.cast (truncate_intCast 1), by
      simp [GateConfig.limitConfig, LimitConfig.value], nofun⟩
  · exact ⟨nofun, by simp [GateConfig.limitConfig, LimitConfig.value],
      by simp [GateConfig.limitConfig, LimitConfig.value]; norm_num⟩
  · exact ⟨fun _ => congrArg Int.cast (truncate_intCast 3), by
      simp [GateConfig.limitConfig, LimitConfig.value], nofun⟩

namespace TradeGate

/-- What an update that is not refused stores, and for which limit. -/
def acceptedUpdate (name : String) (value : LimitValue) : Option (RiskLimit × ℚ) :=
  (fieldMap.find? fun f => decide (f.key = (strip name).toUpper)).bind fun f =>
    (f.convert value).toOption.map fun q => (f.limit, q)

/-- The limits are changed by an accepted update, in both places; a refused one changes
nothing. -/
theorem updateRiskLimit_fst (g : TradeGate) (name : String) (value : LimitValue) :
    (g.updateRiskLimit name value).1 =
      match acceptedUpdate name value with
      | some (limit, q) =>
          { g with config := g.config.assign limit q, limits := g.limits.assign limit q }
      | none => g := by
  unfold updateRiskLimit acceptedUpdate
  cases fieldMap.find? fun f => decide (f.key = (strip name).toUpper) with
  | none => rfl
  | some f =>
      cases hconvert : f.convert value with
      | error text => simp [hconvert, Except.toOption]
      | ok q => simp [hconvert, Except.toOption]

theorem acceptedUpdate_eq_some {name : String} {value : LimitValue} {limit : RiskLimit} {q : ℚ}
    (h : acceptedUpdate name value = some (limit, q)) :
    ∃ f ∈ fieldMap, f.limit = limit ∧ f.Accepts q := by
  unfold acceptedUpdate at h
  obtain ⟨f, hfind, hmap⟩ := Option.bind_eq_some_iff.mp h
  obtain ⟨r, hconvert, hpair⟩ := Option.map_eq_some_iff.mp hmap
  obtain ⟨hlimit, rfl⟩ := Prod.mk.inj hpair
  refine ⟨f, List.mem_of_find?_eq_some hfind, hlimit, ?_⟩
  cases hvalue : f.convert value with
  | error text => simp [hvalue, Except.toOption] at hconvert
  | ok q' =>
      obtain rfl : q' = r := by simpa [hvalue, Except.toOption] using hconvert
      exact ((f.convert_eq_ok_iff value q').mp hvalue).2

/-- The value that a call gives a limit. -/
def acceptedFor (limit : RiskLimit) : GateOp → Option ℚ
  | .updateRiskLimit name value =>
      (acceptedUpdate name value).bind fun u => if u.1 = limit then some u.2 else none
  | _ => none

section Limits

variable (floatText : ℚ → String) (compute : Greeks.Pricer)

/-- Only an update touches the configuration. -/
theorem sameLimits_step (g : TradeGate) {op : GateOp}
    (h : ∀ name value, op ≠ .updateRiskLimit name value) :
    (g.step floatText compute op).config = g.config ∧
      (g.step floatText compute op).limits = g.limits := by
  cases op with
  | evaluateTrade symbol signalData portfolio answers =>
      have hbook := g.sameBook_evaluateTrade floatText compute symbol signalData portfolio answers
      exact ⟨hbook.config, hbook.limits⟩
  | updateRiskLimit name value => exact absurd rfl (h name value)
  | getPortfolioRiskMetrics reading =>
      have hbook := (g.sameBook_metrics reading).1
      exact ⟨hbook.config, hbook.limits⟩
  | _ => exact ⟨rfl, rfl⟩

theorem synced_step {g : TradeGate} (h : g.limits = g.config.limitConfig) (op : GateOp) :
    (g.step floatText compute op).limits = (g.step floatText compute op).config.limitConfig := by
  by_cases hop : ∃ name value, op = .updateRiskLimit name value
  · obtain ⟨name, value, rfl⟩ := hop
    show (g.updateRiskLimit name value).1.limits =
      (g.updateRiskLimit name value).1.config.limitConfig
    rw [updateRiskLimit_fst]
    split
    · rw [limitConfig_assign, ← h]
    · exact h
  · push Not at hop
    obtain ⟨hconfig, hlimits⟩ := g.sameLimits_step floatText compute hop
    rw [hconfig, hlimits, h]

theorem valid_step {g : TradeGate} (h : g.limits.Valid) (op : GateOp) :
    (g.step floatText compute op).limits.Valid := by
  by_cases hop : ∃ name value, op = .updateRiskLimit name value
  · obtain ⟨name, value, rfl⟩ := hop
    show (g.updateRiskLimit name value).1.limits.Valid
    rw [updateRiskLimit_fst]
    split
    · rename_i limit q haccepted
      obtain ⟨f, hf, rfl, hq⟩ := acceptedUpdate_eq_some haccepted
      exact h.assign hf hq
    · exact h
  · push Not at hop
    rw [(g.sameLimits_step floatText compute hop).2]
    exact h

theorem value_step (limit : RiskLimit) (g : TradeGate) (op : GateOp) :
    (g.step floatText compute op).limits.value limit =
      (acceptedFor limit op).getD (g.limits.value limit) := by
  by_cases hop : ∃ name value, op = .updateRiskLimit name value
  · obtain ⟨name, value, rfl⟩ := hop
    show (g.updateRiskLimit name value).1.limits.value limit = _
    rw [updateRiskLimit_fst, acceptedFor]
    cases haccepted : acceptedUpdate name value with
    | none => rfl
    | some u =>
        obtain ⟨other, q⟩ := u
        obtain ⟨f, hf, rfl, hq⟩ := acceptedUpdate_eq_some haccepted
        show (g.limits.assign f.limit q).value limit =
          (if f.limit = limit then some q else none).getD (g.limits.value limit)
        by_cases hsame : f.limit = limit
        · rw [if_pos hsame, Option.getD_some, ← hsame]
          exact g.limits.value_assign_self hf hq
        · rw [if_neg hsame, Option.getD_none]
          exact g.limits.value_assign_of_ne q (Ne.symm hsame)
  · push Not at hop
    have hnone : acceptedFor limit op = none := by
      cases op with
      | updateRiskLimit name value => exact absurd rfl (hop name value)
      | _ => rfl
    rw [(g.sameLimits_step floatText compute hop).2, hnone, Option.getD_none]

/-- What a limit is after a run. -/
def valueInForce (config : GateConfig) (ops : List GateOp) (limit : RiskLimit) : ℚ :=
  (ops.filterMap (acceptedFor limit)).getLast?.getD (config.limitConfig.value limit)

theorem value_run (config : GateConfig) (configuredLot : String → LotValue) (safety : SafetyState)
    (start : Time) (ops : List GateOp) (limit : RiskLimit) :
    (run (step floatText compute) (new config configuredLot safety start) ops).limits.value limit =
      valueInForce config ops limit :=
  @run_last_write _ _ _ (step floatText compute) (fun g => g.limits.value limit)
    (acceptedFor limit) (value_step floatText compute limit) _ ops

/-- Every limit is the last value accepted for it, or what the service was built with, and is one
that would be accepted; the limits manager holds the same. -/
theorem limits_in_force (config : GateConfig) (configuredLot : String → LotValue)
    (safety : SafetyState) (start : Time) (hvalid : config.limitConfig.Valid) (ops : List GateOp) :
    Always (step floatText compute) (fun g => g.limits = g.config.limitConfig ∧ g.limits.Valid)
      (new config configuredLot safety start) ops ∧
    ∀ limit,
      (run (step floatText compute) (new config configuredLot safety start) ops).limits.value limit =
        valueInForce config ops limit := by
  constructor
  · exact always_of_stepsMeet (fun g op _ h _ =>
      ⟨synced_step floatText compute h.1 op, valid_step floatText compute h.2 op⟩)
      ⟨rfl, hvalid⟩ (stepsMeet_true _ ops)
  · exact value_run floatText compute config configuredLot safety start ops

end Limits

theorem limits_in_force_two_open :
    Always (step (fun _ => "") Greeks.deepPricer)
      (fun g => g.limits = g.config.limitConfig ∧ g.limits.Valid)
      (new {} (fun _ => .falsy) {} 0) [.updateRiskLimit "max_open" ⟨"2", .number 2⟩] ∧
    ∀ limit, (run (step (fun _ => "") Greeks.deepPricer) (new {} (fun _ => .falsy) {} 0)
      [.updateRiskLimit "max_open" ⟨"2", .number 2⟩]).limits.value limit =
        valueInForce {} [.updateRiskLimit "max_open" ⟨"2", .number 2⟩] limit :=
  limits_in_force (fun _ => "") Greeks.deepPricer {} (fun _ => .falsy) {} 0
    valid_limitConfig_default [.updateRiskLimit "max_open" ⟨"2", .number 2⟩]

/-! ## The halt -/

/-- The reason the halt holds. -/
def haltReason? (s : SafetyState) : Option String :=
  if s.hardHalt then some s.hardHaltReason else none

theorem haltReason?_tripHardHalt (s : SafetyState) (reason source : String) :
    haltReason? (tripHardHalt s reason source) =
      (haltReason? s).or (some (haltText reason source)) := by
  unfold tripHardHalt haltReason?
  cases h : s.hardHalt <;> simp [h]

section Halt

variable (floatText : ℚ → String) (compute : Greeks.Pricer)

/-- The breach that an evaluation halts on. -/
def breach? (g : TradeGate) (signalData : SignalData) (portfolio : PortfolioRiskMetrics) :
    Option String :=
  match signalData.direction with
  | .error _ => none
  | .ok direction =>
      if direction.toUpper = "" ∨ signalData.price.getD 0 ≤ 0 then none
      else if portfolio.dailyPnl ≤ g.config.maxDailyLoss then
        some (haltText ("Daily loss limit breached: " ++ floatText portfolio.dailyPnl ++ " <= " ++
          floatText g.config.maxDailyLoss) "RiskService._check_daily_loss_limit")
      else if g.config.maxConsecutiveLosses ≤ portfolio.consecutiveLosses then
        some (haltText ("Consecutive loss limit breached: " ++
          toString portfolio.consecutiveLosses ++ " >= " ++
          toString g.config.maxConsecutiveLosses) "RiskService._check_consecutive_losses")
      else none

theorem runChecks_of_denied {c : TradeGate → Checked} {rest : List (TradeGate → Checked)}
    {g g' : TradeGate} {evaluation : RiskEvaluation} (h : c g = (g', .ok evaluation))
    (hdenied : evaluation.decision = .denied) :
    runChecks (c :: rest) g = (g', .ok (some evaluation)) := by
  rw [runChecks, h]
  exact if_pos hdenied

theorem runChecks_of_allowed {c : TradeGate → Checked} {rest : List (TradeGate → Checked)}
    {g g' : TradeGate} {evaluation : RiskEvaluation} (h : c g = (g', .ok evaluation))
    (hallowed : evaluation.decision = .allowed) : runChecks (c :: rest) g = runChecks rest g' := by
  rw [runChecks, h]
  exact if_neg (by rw [hallowed]; nofun)

/-- After the losses, no check touches the halt. -/
theorem safety_laterChecks {symbol direction : String} {signalData : SignalData}
    {portfolio : PortfolioRiskMetrics} {answers : Answers} {c : TradeGate → Checked}
    (hc : c ∈ (checks floatText compute symbol direction signalData portfolio answers).drop 2)
    (g : TradeGate) : (c g).1.safety = g.safety := by
  simp only [checks, List.drop_succ_cons, List.drop_zero, List.mem_cons, List.not_mem_nil,
    or_false] at hc
  rcases hc with rfl | rfl | rfl | rfl | rfl | rfl
  · dsimp only [checkDailyTradeCount]
    split <;> rfl
  · exact (g.sameBook_checkPortfolioLimits portfolio answers.metrics).2
  · dsimp only [checkGreeksLimits]
    (repeat' split) <;> rfl
  · dsimp only [checkMarginRequirements]
    (repeat' split) <;> rfl
  · dsimp only [checkTradeQuality]
    (repeat' split) <;> rfl
  · dsimp only [checkPositionSizingLimits]
    split <;> rfl

theorem safety_runLaterChecks (symbol direction : String) (signalData : SignalData)
    (portfolio : PortfolioRiskMetrics) (answers : Answers) (g : TradeGate) :
    (runChecks ((checks floatText compute symbol direction signalData portfolio answers).drop 2)
      g).1.safety = g.safety :=
  runChecks_keeps (R := fun g g' => g'.safety = g.safety) (fun _ => rfl)
    (fun _ _ _ h h' => h'.trans h) (fun _ hc g => safety_laterChecks floatText compute hc g) g

/-- An evaluation halts on its breach, and then denies. -/
theorem evaluateTrade_breach (g : TradeGate) (symbol : String) (signalData : SignalData)
    (portfolio : PortfolioRiskMetrics) (answers : Answers) :
    haltReason? (g.evaluateTrade floatText compute symbol signalData portfolio answers).1.safety =
        (haltReason? g.safety).or (g.breach? floatText signalData portfolio) ∧
      (g.breach? floatText signalData portfolio ≠ none →
        ∃ reason, (g.evaluateTrade floatText compute symbol signalData portfolio answers).2 =
          .ok (deny reason 1)) := by
  unfold evaluateTrade breach?
  cases signalData.direction with
  | error text => exact ⟨(Option.or_none).symm, fun h => absurd rfl h⟩
  | ok direction =>
      dsimp only
      split
      · exact ⟨(Option.or_none).symm, fun h => absurd rfl h⟩
      · by_cases hloss : portfolio.dailyPnl ≤ g.config.maxDailyLoss
        · have hfirst : g.checkDailyLossLimit floatText portfolio = _ := if_pos hloss
          rw [if_pos hloss, checks, runChecks_of_denied hfirst rfl]
          exact ⟨haltReason?_tripHardHalt _ _ _, fun _ => ⟨_, rfl⟩⟩
        · have hfirst : g.checkDailyLossLimit floatText portfolio = _ := if_neg hloss
          rw [if_neg hloss, checks, runChecks_of_allowed hfirst rfl]
          by_cases hlosses : g.config.maxConsecutiveLosses ≤ portfolio.consecutiveLosses
          · have hsecond : g.checkConsecutiveLosses portfolio = _ := if_pos hlosses
            rw [if_pos hlosses, runChecks_of_denied hsecond rfl]
            exact ⟨haltReason?_tripHardHalt _ _ _, fun _ => ⟨_, rfl⟩⟩
          · have hsecond : g.checkConsecutiveLosses portfolio = _ := if_neg hlosses
            rw [if_neg hlosses, runChecks_of_allowed hsecond rfl]
            refine ⟨?_, fun h => absurd rfl h⟩
            have hkeeps := safety_runLaterChecks floatText compute symbol direction.toUpper
              signalData portfolio answers g
            rw [Option.or_none]
            split <;> rename_i hrun <;>
              exact congrArg haltReason? ((congrArg (fun r => r.1.safety) hrun).symm.trans hkeeps)

/-- The halt latches the first breach of a run. -/
def breachOf (g : TradeGate) : GateOp → Option String
  | .evaluateTrade _ signalData portfolio _ => g.breach? floatText signalData portfolio
  | _ => none

theorem haltReason?_step (g : TradeGate) (op : GateOp) :
    haltReason? (g.step floatText compute op).safety =
      (haltReason? g.safety).or (g.breachOf floatText op) := by
  cases op with
  | evaluateTrade symbol signalData portfolio answers =>
      exact (g.evaluateTrade_breach floatText compute symbol signalData portfolio answers).1
  | updateRiskLimit name value =>
      have hsame : (g.updateRiskLimit name value).1.safety = g.safety := by
        rw [updateRiskLimit_fst]
        split <;> rfl
      show haltReason? (g.updateRiskLimit name value).1.safety = _
      rw [hsame]
      exact (Option.or_none).symm
  | getPortfolioRiskMetrics reading =>
      show haltReason? (g.getPortfolioRiskMetrics reading).1.safety = _
      rw [(g.sameBook_metrics reading).2]
      exact (Option.or_none).symm
  | resetDailyMetrics asked reset today =>
      have hsame : haltReason? (g.resetDailyMetrics asked reset today).safety =
          haltReason? g.safety := by
        dsimp only [resetDailyMetrics]
        split <;> rfl
      exact hsame.trans (Option.or_none).symm
  | _ => exact (Option.or_none).symm

/-- Over a whole run the halt is set by the first evaluation that finds the daily loss or the
losses in a row at their limit in force, with its reason, and by nothing else; no later call
changes the reason, and each such evaluation denies. -/
theorem halts_on_first_breach (g : TradeGate) (ops : List GateOp) :
    haltReason? (run (step floatText compute) g ops).safety =
        (haltReason? g.safety).or
          (firstEvent (step floatText compute) (breachOf floatText) g ops) ∧
      ∀ symbol signalData portfolio answers,
        (run (step floatText compute) g ops).breach? floatText signalData portfolio ≠ none →
        ∃ reason, ((run (step floatText compute) g ops).evaluateTrade floatText compute symbol
          signalData portfolio answers).2 = .ok (deny reason 1) := by
  constructor
  · exact @latch_run _ _ _ (step floatText compute) (fun g => haltReason? g.safety)
      (breachOf floatText) (haltReason?_step floatText compute) g ops
  · intro symbol signalData portfolio answers
    exact (evaluateTrade_breach floatText compute _ symbol signalData portfolio answers).2

end Halt

end TradeGate

end AutoTrade.Risk
