import AutoTrade.Library.Grouping
import AutoTrade.Library.Run
import AutoTrade.Runtime
import Mathlib.Algebra.Order.Floor.Semiring
import Mathlib.Data.Rat.Floor

/-! # The Greeks limits

`core/options_greeks_engine.py`: the Greeks of a portfolio, the limits that a proposed
position is checked against, and the configuration of the limits. The pricing
formulas are a parameter: a portfolio leaves out a position that they raise an error
for, and the check of a proposed position passes the error on.
-/

namespace AutoTrade.Risk.Greeks

open AutoTrade.Library

inductive OptionType
  | ce
  | pe
deriving DecidableEq, Repr

structure PositionGreeksInput where
  symbol : String
  optionType : OptionType
  direction : String
  spot : ℚ
  strike : ℚ
  tteDays : ℚ
  iv : ℚ
  quantityLots : Int
  riskFreeRate : ℚ := 65 / 1000
deriving DecidableEq, Repr

structure GreeksResult where
  delta : ℚ
  gamma : ℚ
  theta : ℚ
  vega : ℚ
  rho : ℚ
  premium : ℚ
deriving DecidableEq, Repr

/-- `compute_greeks`, with the text of the error it raises. -/
abbrev Pricer := PositionGreeksInput → Except String GreeksResult

def nseLotSizes : List (String × Int) :=
  [("NIFTY", 25), ("BANKNIFTY", 15), ("FINNIFTY", 40), ("MIDCPNIFTY", 75), ("SENSEX", 10)]

def lotSize (symbol : String) : Int := (nseLotSizes.lookup symbol).getD 25

def PositionGreeksInput.quantity (p : PositionGreeksInput) : Int :=
  p.quantityLots * lotSize p.symbol

/-! ## Configuration -/

structure GreeksConfig where
  deltaLimitPerPos : ℚ := 55 / 100
  deltaLimitPortfolio : ℚ := 3 / 2
  gammaLimitPerPos : ℚ := 5 / 100
  gammaLimitPortfolio : ℚ := 1 / 10
  thetaDailyBudget : ℚ := -500
  vegaLimitPerPos : ℚ := 500
  vegaLimitPortfolio : ℚ := 2000
  warnThresholdPct : ℚ := 4 / 5
  blockThresholdPct : ℚ := 1
  enabled : Bool := true
  stressTestEnabled : Bool := true
  shortOptionBlock : Bool := true
deriving DecidableEq, Repr

/-- A value of a configuration: a number or a flag. -/
inductive ConfigValue
  | number (q : ℚ)
  | flag (b : Bool)
deriving DecidableEq, Repr

/-- `float(value)`. -/
def ConfigValue.toNumber : ConfigValue → ℚ
  | .number q => q
  | .flag b => if b then 1 else 0

/-- `bool(value)`. -/
def ConfigValue.toFlag : ConfigValue → Bool
  | .number q => decide (q ≠ 0)
  | .flag b => b

abbrev ConfigDict := Dict String ConfigValue

def numberAt (c : ConfigDict) (key : String) (default : ℚ) : ℚ :=
  ((c.get? key).map ConfigValue.toNumber).getD default

def flagAt (c : ConfigDict) (key : String) : Bool :=
  ((c.get? key).map ConfigValue.toFlag).getD true

namespace GreeksConfig

def fromDict (c : ConfigDict) : GreeksConfig where
  deltaLimitPerPos := numberAt c "greeks_delta_limit_per_pos" (20 / 100)
  deltaLimitPortfolio := numberAt c "greeks_delta_limit_portfolio" (1 / 2)
  gammaLimitPerPos := numberAt c "greeks_gamma_limit_per_pos" (5 / 100)
  gammaLimitPortfolio := numberAt c "greeks_gamma_limit_portfolio" (1 / 10)
  thetaDailyBudget := numberAt c "greeks_theta_daily_budget" (-500)
  vegaLimitPerPos := numberAt c "greeks_vega_limit_per_pos" 500
  vegaLimitPortfolio := numberAt c "greeks_vega_limit_portfolio" 2000
  warnThresholdPct := numberAt c "greeks_warn_threshold_pct" (4 / 5)
  blockThresholdPct := numberAt c "greeks_block_threshold_pct" 1
  enabled := flagAt c "greeks_enabled"
  stressTestEnabled := flagAt c "greeks_stress_test_enabled"
  shortOptionBlock := flagAt c "greeks_short_option_block"

def toDict (c : GreeksConfig) : ConfigDict where
  rows :=
    [("delta_limit_per_pos", .number c.deltaLimitPerPos),
      ("delta_limit_portfolio", .number c.deltaLimitPortfolio),
      ("gamma_limit_per_pos", .number c.gammaLimitPerPos),
      ("gamma_limit_portfolio", .number c.gammaLimitPortfolio),
      ("theta_daily_budget", .number c.thetaDailyBudget),
      ("vega_limit_per_pos", .number c.vegaLimitPerPos),
      ("vega_limit_portfolio", .number c.vegaLimitPortfolio),
      ("warn_threshold_pct", .number c.warnThresholdPct),
      ("block_threshold_pct", .number c.blockThresholdPct),
      ("enabled", .flag c.enabled),
      ("stress_test_enabled", .flag c.stressTestEnabled),
      ("short_option_block", .flag c.shortOptionBlock)]
  nodup := by
    simp only [List.map_cons, List.map_nil]
    decide

/-- `{**config.to_dict(), **cfg}`. -/
def merged (c : GreeksConfig) (cfg : ConfigDict) : ConfigDict :=
  cfg.rows.foldl (fun d e => d.set e.1 e.2) c.toDict

def updateConfig (c : GreeksConfig) (cfg : ConfigDict) : GreeksConfig := fromDict (c.merged cfg)

end GreeksConfig

/-! ## The portfolio -/

structure PositionGreeksSummary where
  delta : ℚ
  gamma : ℚ
  theta : ℚ
  vega : ℚ
  rho : ℚ
  longGamma : Bool
deriving DecidableEq, Repr

structure PortfolioGreeks where
  netDelta : ℚ := 0
  netGamma : ℚ := 0
  netTheta : ℚ := 0
  netVega : ℚ := 0
  netRho : ℚ := 0
  grossExposurePremium : ℚ := 0
  positionsCount : Nat := 0
  bySymbol : Dict String PositionGreeksSummary := Table.empty

/-- The positions that can be priced, with their Greeks. -/
def priced (compute : Pricer) (positions : List PositionGreeksInput) :
    List (PositionGreeksInput × GreeksResult) :=
  positions.filterMap fun p => (compute p).toOption.map fun g => (p, g)

/-- A Greek, scaled by the quantity. -/
def scaled (greek : GreeksResult → ℚ) (e : PositionGreeksInput × GreeksResult) : ℚ :=
  greek e.2 * e.1.quantity

def net (greek : GreeksResult → ℚ) (entries : List (PositionGreeksInput × GreeksResult)) : ℚ :=
  (entries.map (scaled greek)).sum

/-- The summary of a symbol leaves out what has no lots. -/
def summary (entries : List (PositionGreeksInput × GreeksResult)) : PositionGreeksSummary :=
  let held := entries.filter fun e => decide (0 < e.1.quantityLots)
  { delta := roundTo 4 (net GreeksResult.delta held)
    gamma := roundTo 6 (net GreeksResult.gamma held)
    theta := roundTo 4 (net GreeksResult.theta held)
    vega := roundTo 4 (net GreeksResult.vega held)
    rho := roundTo 4 (net GreeksResult.rho held)
    longGamma := decide (0 ≤ net GreeksResult.gamma held) }

def computePortfolioGreeks (compute : Pricer) (positions : List PositionGreeksInput) :
    PortfolioGreeks :=
  if positions = [] then {}
  else
    let entries := priced compute positions
    { netDelta := roundTo 4 (net GreeksResult.delta entries)
      netGamma := roundTo 6 (net GreeksResult.gamma entries)
      netTheta := roundTo 4 (net GreeksResult.theta entries)
      netVega := roundTo 4 (net GreeksResult.vega entries)
      netRho := roundTo 4 (net GreeksResult.rho entries)
      grossExposurePremium := roundTo 2 (net GreeksResult.premium entries)
      positionsCount := positions.length
      bySymbol := (Dict.groupInto (fun e => e.1.symbol) Table.empty entries).mapValues summary }

/-! ## The check before a trade -/

inductive GreeksLimitStatus
  | pass
  | warn
  | block
deriving DecidableEq, Repr

structure GreeksCheckResult where
  status : GreeksLimitStatus
  deltaOk : Bool := true
  gammaOk : Bool := true
  thetaOk : Bool := true
  vegaOk : Bool := true
  portfolioDeltaOk : Bool := true
  portfolioGammaOk : Bool := true
  portfolioThetaOk : Bool := true
  portfolioVegaOk : Bool := true
  reasons : List String := []
  projectedPortfolio : Option PortfolioGreeks := none

def reasonUnless (ok : Bool) (reason : String) : List String := if ok then [] else [reason]

def checkPreTradeGreeks (cfg : GreeksConfig) (compute : Pricer) (proposed : PositionGreeksInput)
    (existingPositions : List PositionGreeksInput) : Except String GreeksCheckResult :=
  if cfg.enabled = false then .ok { status := .pass }
  else if cfg.shortOptionBlock = true ∧ proposed.direction.toUpper = "SHORT" then
    .ok { status := .block, deltaOk := false
          reasons := ["Naked short options blocked - use spreads or long-only strategies"] }
  else
    match compute proposed with
    | .error e => .error e
    | .ok g =>
        let qty := proposed.quantity
        let deltaExposure := |g.delta * qty|
        let gammaExposure := |g.gamma * qty|
        let vegaExposure := g.vega * qty
        let deltaOk := decide (deltaExposure ≤ cfg.deltaLimitPerPos * qty ∨ deltaExposure < 20)
        let gammaOk := decide (gammaExposure ≤ cfg.gammaLimitPerPos ∨ gammaExposure < 1 / 100)
        let vegaOk := decide (vegaExposure ≤ cfg.vegaLimitPerPos ∨ vegaExposure < 10)
        let allPositions := existingPositions ++ [proposed]
        let projected := computePortfolioGreeks compute allPositions
        let contracts : ℚ := ((allPositions.map PositionGreeksInput.quantity).sum : Int)
        let portfolioDeltaOk := decide (|projected.netDelta| ≤ cfg.deltaLimitPortfolio * contracts ∨
          |projected.netDelta| < 10)
        let portfolioGammaOk := decide (|projected.netGamma| ≤ cfg.gammaLimitPortfolio ∨
          |projected.netGamma| < 1 / 10)
        let portfolioThetaOk := decide (cfg.thetaDailyBudget ≤ projected.netTheta)
        let portfolioVegaOk := decide (|projected.netVega| ≤ cfg.vegaLimitPortfolio ∨
          |projected.netVega| < 500)
        let reasons :=
          reasonUnless deltaOk ("Delta limit per position: " ++ formatFixed 2 "" deltaExposure ++
            " > " ++ formatFixed 2 "" (cfg.deltaLimitPerPos * qty)) ++
          reasonUnless gammaOk ("Gamma limit per position: " ++ formatFixed 6 "" gammaExposure ++
            " > " ++ formatFixed 4 "" cfg.gammaLimitPerPos) ++
          reasonUnless vegaOk ("Vega limit per position: " ++ formatFixed 2 "" vegaExposure ++
            " > " ++ formatFixed 2 "" cfg.vegaLimitPerPos) ++
          reasonUnless portfolioDeltaOk
            ("Portfolio delta limit: " ++ formatFixed 2 "" projected.netDelta) ++
          reasonUnless portfolioGammaOk
            ("Portfolio gamma limit: " ++ formatFixed 6 "" projected.netGamma) ++
          reasonUnless portfolioThetaOk ("Portfolio theta budget: " ++
            formatFixed 2 "" projected.netTheta ++ " > " ++
            formatFixed 2 "" cfg.thetaDailyBudget) ++
          reasonUnless portfolioVegaOk ("Portfolio vega limit: " ++
            formatFixed 2 "" projected.netVega ++ " > " ++
            formatFixed 2 "" cfg.vegaLimitPortfolio)
        let passed := deltaOk && gammaOk && vegaOk && portfolioDeltaOk && portfolioGammaOk &&
          portfolioThetaOk && portfolioVegaOk
        -- a delta in contracts is compared with a limit that is a ratio
        let near := decide (
          |projected.netDelta| < cfg.deltaLimitPortfolio * (1 + cfg.warnThresholdPct) ∨
          |projected.netVega| < cfg.vegaLimitPortfolio * (1 + cfg.warnThresholdPct))
        .ok {
          status :=
            if passed then .pass else if reasons.length ≤ 2 ∧ near = true then .warn else .block
          deltaOk, gammaOk, thetaOk := portfolioThetaOk, vegaOk
          portfolioDeltaOk, portfolioGammaOk, portfolioThetaOk, portfolioVegaOk
          reasons
          projectedPortfolio := some projected }

/-! ## Updates of the configuration -/

namespace GreeksConfig

/-- The keys that `from_dict` reads. -/
def keys : List String :=
  ["greeks_delta_limit_per_pos", "greeks_delta_limit_portfolio", "greeks_gamma_limit_per_pos",
    "greeks_gamma_limit_portfolio", "greeks_theta_daily_budget", "greeks_vega_limit_per_pos",
    "greeks_vega_limit_portfolio", "greeks_warn_threshold_pct", "greeks_block_threshold_pct",
    "greeks_enabled", "greeks_stress_test_enabled", "greeks_short_option_block"]

theorem fromDict_congr {c d : ConfigDict} (h : ∀ key ∈ keys, c.get? key = d.get? key) :
    fromDict c = fromDict d := by
  have hnumber : ∀ key ∈ keys, ∀ default, numberAt c key default = numberAt d key default := by
    intro key hkey default
    rw [numberAt, h key hkey, numberAt]
  have hflag : ∀ key ∈ keys, flagAt c key = flagAt d key := by
    intro key hkey
    rw [flagAt, h key hkey, flagAt]
  simp only [keys, List.forall_mem_cons] at hnumber hflag
  obtain ⟨h₁, h₂, h₃, h₄, h₅, h₆, h₇, h₈, h₉, -⟩ := hnumber
  obtain ⟨-, -, -, -, -, -, -, -, -, f₁, f₂, f₃, -⟩ := hflag
  simp only [fromDict, h₁, h₂, h₃, h₄, h₅, h₆, h₇, h₈, h₉, f₁, f₂, f₃]

/-- `to_dict` writes its keys without the prefix that `from_dict` looks for. -/
theorem get?_toDict (c : GreeksConfig) {key : String} (h : key ∈ keys) :
    c.toDict.get? key = none := by
  rw [Dict.get?_eq_none_iff]
  intro e he hkey
  have hapart : ∀ k ∈ c.toDict.rows.map Prod.fst, k ∉ keys := by
    simp only [toDict, List.map_cons, List.map_nil]
    decide
  exact hapart e.1 (List.mem_map_of_mem he) (hkey ▸ h)

theorem get?_merged (c : GreeksConfig) (cfg : ConfigDict) {key : String} (h : key ∈ keys) :
    (c.merged cfg).get? key = cfg.get? key := by
  rw [merged, Dict.get?_foldl_set, get?_toDict c h, Option.or_none]

/-- What the configuration was before is lost. -/
theorem updateConfig_eq (c : GreeksConfig) (cfg : ConfigDict) : c.updateConfig cfg = fromDict cfg :=
  fromDict_congr fun _ h => get?_merged c cfg h

theorem run_updateConfig (c : GreeksConfig) (updates : List ConfigDict) (last : ConfigDict) :
    run updateConfig c (updates ++ [last]) = fromDict last := by
  rw [run, List.foldl_append]
  exact updateConfig_eq _ last

end GreeksConfig

/-! ## The portfolio limit of the delta -/

theorem lotSize_pos (symbol : String) : 0 < lotSize symbol := by
  have hall : ∀ e ∈ nseLotSizes, 0 < e.2 := by decide
  unfold lotSize
  cases h : nseLotSizes.lookup symbol with
  | none => decide
  | some n =>
      obtain ⟨before, after, hlots, -⟩ := List.lookup_eq_some_iff.mp h
      exact hall (symbol, n) (hlots ▸ List.mem_append_right before List.mem_cons_self)

theorem PositionGreeksInput.quantity_nonneg {p : PositionGreeksInput} (h : 0 ≤ p.quantityLots) :
    0 ≤ p.quantity := Int.mul_nonneg h (lotSize_pos p.symbol).le

theorem roundTo_intCast (digits : Nat) (n : Int) : roundTo digits (n : ℚ) = n := by
  have hscale : (n : ℚ) * 10 ^ digits = ((n * 10 ^ digits : Int) : ℚ) := by push_cast; rfl
  rw [roundTo, hscale, roundHalfEven_intCast, ← hscale]
  exact mul_div_cancel_right₀ _ (pow_pos (by decide) digits).ne'

theorem abs_roundTo_le_intCast (digits : Nat) {x : ℚ} {n : Int} (h : |x| ≤ n) :
    |roundTo digits x| ≤ n := by
  have hlow : ((-n : Int) : ℚ) ≤ x := by
    push_cast
    exact (abs_le.mp h).1
  have hmono := roundTo_mono digits hlow
  rw [roundTo_intCast] at hmono
  refine abs_le.mpr ⟨?_, (roundTo_mono digits (abs_le.mp h).2).trans_eq (roundTo_intCast digits n)⟩
  exact_mod_cast hmono

theorem priced_cons (compute : Pricer) (p : PositionGreeksInput) (rest : List PositionGreeksInput) :
    priced compute (p :: rest) =
      ((compute p).toOption.map fun g => (p, g)).toList ++ priced compute rest := by
  unfold priced
  rw [List.filterMap_cons]
  cases (compute p).toOption <;> rfl

theorem net_append (greek : GreeksResult → ℚ) (xs ys : List (PositionGreeksInput × GreeksResult)) :
    net greek (xs ++ ys) = net greek xs + net greek ys := by
  rw [net, List.map_append, List.sum_append, net, net]

/-- A position has a delta for each of its contracts, at most one in size. -/
theorem abs_net_delta_le {compute : Pricer} {positions : List PositionGreeksInput}
    (hlots : ∀ p ∈ positions, 0 ≤ p.quantityLots)
    (hdelta : ∀ p ∈ positions, ∀ g, compute p = .ok g → |g.delta| ≤ 1) :
    |net GreeksResult.delta (priced compute positions)| ≤
      ((positions.map PositionGreeksInput.quantity).sum : Int) := by
  induction positions with
  | nil => simp [priced, net]
  | cons p rest ih =>
      rw [List.forall_mem_cons] at hlots hdelta
      have hquantity : (0 : ℚ) ≤ p.quantity := by
        exact_mod_cast PositionGreeksInput.quantity_nonneg hlots.1
      have hfirst : |net GreeksResult.delta ((compute p).toOption.map fun g => (p, g)).toList| ≤
          p.quantity := by
        cases hg : compute p with
        | error e =>
            show |(0 : ℚ)| ≤ _
            rwa [abs_zero]
        | ok g =>
            show |g.delta * p.quantity + 0| ≤ _
            rw [add_zero, abs_mul, abs_of_nonneg hquantity]
            exact mul_le_of_le_one_left hquantity (hdelta.1 g hg)
      have hrest := ih hlots.2 hdelta.2
      rw [priced_cons, net_append, List.map_cons, List.sum_cons]
      push_cast at hrest ⊢
      exact (abs_add_le _ _).trans (add_le_add hfirst hrest)

theorem abs_netDelta_le {compute : Pricer} {positions : List PositionGreeksInput}
    (hlots : ∀ p ∈ positions, 0 ≤ p.quantityLots)
    (hdelta : ∀ p ∈ positions, ∀ g, compute p = .ok g → |g.delta| ≤ 1) :
    |(computePortfolioGreeks compute positions).netDelta| ≤
      ((positions.map PositionGreeksInput.quantity).sum : Int) := by
  unfold computePortfolioGreeks
  split
  · rename_i hnil
    simp [hnil]
  · exact abs_roundTo_le_intCast 4 (abs_net_delta_le hlots hdelta)

/-- The delta limit of the portfolio is a number of deltas for each contract held, so at one
or more it is met by whatever the portfolio holds. -/
theorem updated_portfolio_delta_ok (c : GreeksConfig) (updates : List ConfigDict)
    (last : ConfigDict) (compute : Pricer) (proposed : PositionGreeksInput)
    (existing : List PositionGreeksInput)
    (hlimit : 1 ≤ numberAt last "greeks_delta_limit_portfolio" (1 / 2))
    (hlots : ∀ p ∈ existing ++ [proposed], 0 ≤ p.quantityLots)
    (hdelta : ∀ p ∈ existing ++ [proposed], ∀ g, compute p = .ok g → |g.delta| ≤ 1) :
    run GreeksConfig.updateConfig c (updates ++ [last]) = GreeksConfig.fromDict last ∧
    ∀ r, checkPreTradeGreeks (run GreeksConfig.updateConfig c (updates ++ [last])) compute proposed
      existing = .ok r → r.portfolioDeltaOk = true := by
  refine ⟨GreeksConfig.run_updateConfig c updates last, fun r hr => ?_⟩
  rw [GreeksConfig.run_updateConfig] at hr
  have hcontracts : (0 : ℚ) ≤
      (((existing ++ [proposed]).map PositionGreeksInput.quantity).sum : Int) :=
    (abs_nonneg _).trans (abs_net_delta_le hlots hdelta)
  have hwithin : |(computePortfolioGreeks compute (existing ++ [proposed])).netDelta| ≤
      (GreeksConfig.fromDict last).deltaLimitPortfolio *
        (((existing ++ [proposed]).map PositionGreeksInput.quantity).sum : Int) :=
    (abs_netDelta_le hlots hdelta).trans (le_mul_of_one_le_left hcontracts hlimit)
  unfold checkPreTradeGreeks at hr
  split at hr
  · cases hr
    rfl
  · split at hr
    · cases hr
      rfl
    · cases hg : compute proposed with
      | error e => simp [hg] at hr
      | ok g =>
          rw [hg] at hr
          cases hr
          exact decide_eq_true (.inl hwithin)

/-- A call deep in the money, and a quote without a price. -/
def deepCall : PositionGreeksInput where
  symbol := "NIFTY"
  optionType := .ce
  direction := "LONG"
  spot := 25000
  strike := 1
  tteDays := 1
  iv := 1 / 100
  quantityLots := 3

def unquoted : PositionGreeksInput := { deepCall with symbol := "SENSEX", spot := 0 }

/-- What the formulas give for these two. -/
def deepPricer : Pricer := fun p =>
  if p.spot = 0 then .error "float division by zero"
  else .ok { delta := 1, gamma := 0, theta := -2 / 10000, vega := 0, rho := 0, premium := 24999 }

theorem updated_portfolio_delta_ok_deep :
    run GreeksConfig.updateConfig {} ([] ++ [Dict.set Table.empty "greeks_delta_limit_portfolio"
      (ConfigValue.number 1)]) = GreeksConfig.fromDict (Dict.set Table.empty
        "greeks_delta_limit_portfolio" (ConfigValue.number 1)) ∧
    ∀ r, checkPreTradeGreeks (run GreeksConfig.updateConfig {} ([] ++ [Dict.set Table.empty
      "greeks_delta_limit_portfolio" (ConfigValue.number 1)])) deepPricer deepCall [unquoted] =
        .ok r → r.portfolioDeltaOk = true := by
  refine updated_portfolio_delta_ok {} [] _ deepPricer deepCall [unquoted] (by decide) ?_ ?_
  · decide
  · intro p _ g hg
    unfold deepPricer at hg
    split at hg
    · cases hg
    · cases hg
      norm_num

/-! ## The symbols of a portfolio -/

section Symbols

variable {compute : Pricer} {positions : List PositionGreeksInput}

theorem mem_of_mem_priced {e : PositionGreeksInput × GreeksResult}
    (h : e ∈ priced compute positions) : e.1 ∈ positions := by
  obtain ⟨p, hp, hg⟩ := List.mem_filterMap.mp h
  obtain ⟨g, -, rfl⟩ := Option.map_eq_some_iff.mp hg
  exact hp

/-- What has no lots adds nothing. -/
theorem net_held (greek : GreeksResult → ℚ) {entries : List (PositionGreeksInput × GreeksResult)}
    (h : ∀ e ∈ entries, 0 ≤ e.1.quantityLots) :
    net greek (entries.filter fun e => decide (0 < e.1.quantityLots)) = net greek entries := by
  induction entries with
  | nil => rfl
  | cons e rest ih =>
      rw [List.forall_mem_cons] at h
      rw [List.filter_cons]
      split
      · rw [net, List.map_cons, List.sum_cons, ← net, ih h.2, net, net, List.map_cons,
          List.sum_cons]
      · rename_i hnone
        have hlots : e.1.quantityLots = 0 := le_antisymm (by simpa using hnone) h.1
        have hzero : scaled greek e = 0 := by
          simp [scaled, PositionGreeksInput.quantity, hlots]
        rw [ih h.2, net, net, List.map_cons, List.sum_cons, hzero, zero_add]

def symbolGroups (compute : Pricer) (positions : List PositionGreeksInput) :
    Dict String (List (PositionGreeksInput × GreeksResult)) :=
  Dict.groupInto (fun e => e.1.symbol) Table.empty (priced compute positions)

theorem get?_symbolGroups (symbol : String) :
    (symbolGroups compute positions).get? symbol =
      if ((priced compute positions).filter fun e => decide (e.1.symbol = symbol)) = [] then none
      else some ((priced compute positions).filter fun e => decide (e.1.symbol = symbol)) := by
  have hempty : Dict.get? (Table.empty : Dict String (List (PositionGreeksInput × GreeksResult)))
      symbol = none := rfl
  rw [symbolGroups, Dict.get?_groupInto, hempty]
  simp only [true_and, Option.getD_none, List.nil_append]

theorem mem_of_mem_symbolGroups {symbol : String}
    {group : List (PositionGreeksInput × GreeksResult)}
    (h : (symbol, group) ∈ (symbolGroups compute positions).rows)
    {e : PositionGreeksInput × GreeksResult} (he : e ∈ group) : e ∈ priced compute positions := by
  rw [← Dict.get?_eq_some_iff, get?_symbolGroups] at h
  split at h
  · cases h
  · rw [← Option.some.inj h] at he
    exact (List.mem_filter.mp he).1

/-- The symbols together have the net of the portfolio, but for the roundings. -/
theorem abs_net_sub_total_le (hlots : ∀ p ∈ positions, 0 ≤ p.quantityLots) (digits : Nat)
    (greek : GreeksResult → ℚ) :
    |roundTo digits (net greek (priced compute positions)) -
        (symbolGroups compute positions).total (fun group =>
          roundTo digits (net greek (group.filter fun e => decide (0 < e.1.quantityLots))))| ≤
      ((symbolGroups compute positions).rows.length + 1) * (1 / 2 / 10 ^ digits) := by
  have hheld : ((symbolGroups compute positions).rows.map fun e =>
      net greek (e.2.filter fun e => decide (0 < e.1.quantityLots))).sum =
      net greek (priced compute positions) := by
    have htotal := @Dict.total_groupInto _ _ _
      (fun e : PositionGreeksInput × GreeksResult => e.1.symbol) _ _ (scaled greek) Table.empty
      (priced compute positions)
    rw [Dict.total_empty, zero_add] at htotal
    rw [net, ← htotal, Dict.total]
    refine congrArg List.sum (List.map_congr_left fun row hrow => ?_)
    exact net_held greek fun e he => hlots e.1 (mem_of_mem_priced (mem_of_mem_symbolGroups hrow he))
  have hrows := abs_sum_sub_le (fun row : String × List (PositionGreeksInput × GreeksResult) =>
    abs_roundTo_sub_le_half digits
      (net greek (row.2.filter fun e => decide (0 < e.1.quantityLots))))
    (symbolGroups compute positions).rows
  rw [hheld] at hrows
  have hnet := abs_roundTo_sub_le_half digits (net greek (priced compute positions))
  rw [abs_le] at hrows hnet ⊢
  unfold Dict.total
  constructor <;> linarith [hrows.1, hrows.2, hnet.1, hnet.2]

theorem computePortfolioGreeks_of_ne_nil (h : positions ≠ []) :
    (computePortfolioGreeks compute positions).bySymbol =
      (symbolGroups compute positions).mapValues summary := by
  unfold computePortfolioGreeks
  rw [if_neg h]
  rfl

theorem total_mapValues_summary (d : Dict String (List (PositionGreeksInput × GreeksResult)))
    (f : PositionGreeksSummary → ℚ) :
    (d.mapValues summary).total f = d.total fun group => f (summary group) := by
  unfold Dict.total Dict.mapValues
  rw [List.map_map]
  rfl

theorem net_perm (greek : GreeksResult → ℚ) {xs ys : List (PositionGreeksInput × GreeksResult)}
    (h : xs.Perm ys) : net greek xs = net greek ys := (h.map (scaled greek)).sum_eq

theorem summary_perm {xs ys : List (PositionGreeksInput × GreeksResult)} (h : xs.Perm ys) :
    summary xs = summary ys := by
  have hheld := fun greek => net_perm greek (h.filter fun e => decide (0 < e.1.quantityLots))
  simp only [summary, hheld]

theorem get?_bySymbol_perm {others : List PositionGreeksInput} (h : positions.Perm others)
    (symbol : String) :
    ((symbolGroups compute positions).mapValues summary).get? symbol =
      ((symbolGroups compute others).mapValues summary).get? symbol := by
  have hpriced : (priced compute positions).Perm (priced compute others) := h.filterMap _
  have hgroup := hpriced.filter fun e => decide (e.1.symbol = symbol)
  rw [Dict.get?_mapValues, Dict.get?_mapValues, get?_symbolGroups, get?_symbolGroups]
  by_cases hnil : ((priced compute positions).filter fun e => decide (e.1.symbol = symbol)) = []
  · rw [if_pos hnil, if_pos (List.perm_nil.mp (hnil ▸ hgroup.symm))]
  · have hother : ((priced compute others).filter fun e => decide (e.1.symbol = symbol)) ≠ [] :=
      fun hempty => hnil (List.perm_nil.mp (hempty ▸ hgroup))
    rw [if_neg hnil, if_neg hother, Option.map_some, Option.map_some, summary_perm hgroup]

end Symbols

/-- The nets of a portfolio, each with the digits it is rounded to and what the symbols have
for it. -/
def PortfolioGreeks.lines (p : PortfolioGreeks) : List (ℚ × Nat × ℚ) :=
  [(p.netDelta, 4, p.bySymbol.total (·.delta)), (p.netGamma, 6, p.bySymbol.total (·.gamma)),
    (p.netTheta, 4, p.bySymbol.total (·.theta)), (p.netVega, 4, p.bySymbol.total (·.vega)),
    (p.netRho, 4, p.bySymbol.total (·.rho))]

/-- Where no position is held short in lots, the symbols account for the nets, each rounding
moving a sum by half a unit of its last digit at most; the order of the positions is no part
of the result. -/
theorem symbols_account_for_nets (compute : Pricer) (positions others : List PositionGreeksInput)
    (hlots : ∀ p ∈ positions, 0 ≤ p.quantityLots) (horder : positions.Perm others) :
    (∀ line ∈ (computePortfolioGreeks compute positions).lines,
      |line.1 - line.2.2| ≤
        ((computePortfolioGreeks compute positions).bySymbol.rows.length + 1) *
          (1 / 2 / 10 ^ line.2.1)) ∧
    ((computePortfolioGreeks compute others).lines.map Prod.fst =
      (computePortfolioGreeks compute positions).lines.map Prod.fst) ∧
    ∀ symbol, (computePortfolioGreeks compute others).bySymbol.get? symbol =
      (computePortfolioGreeks compute positions).bySymbol.get? symbol := by
  by_cases hnil : positions = []
  · subst hnil
    have hothers : others = [] := List.perm_nil.mp horder.symm
    subst hothers
    refine ⟨?_, rfl, fun symbol => rfl⟩
    simp only [computePortfolioGreeks, PortfolioGreeks.lines, Table.empty, Dict.total,
      List.forall_mem_cons]
    norm_num
  · have hothers : others ≠ [] := fun hempty => hnil (List.perm_nil.mp (hempty ▸ horder))
    have hnets := fun greek => net_perm greek (horder.filterMap
      fun p => (compute p).toOption.map fun g => (p, g))
    refine ⟨?_, ?_, fun symbol => ?_⟩
    · have hclose := @abs_net_sub_total_le compute positions hlots
      have hrows : (computePortfolioGreeks compute positions).bySymbol.rows.length =
          (symbolGroups compute positions).rows.length := by
        rw [computePortfolioGreeks_of_ne_nil hnil]
        exact List.length_map _
      rw [hrows]
      simp only [PortfolioGreeks.lines, computePortfolioGreeks_of_ne_nil hnil,
        total_mapValues_summary, List.forall_mem_cons]
      unfold computePortfolioGreeks
      rw [if_neg hnil]
      exact ⟨hclose 4 GreeksResult.delta, hclose 6 GreeksResult.gamma, hclose 4 GreeksResult.theta,
        hclose 4 GreeksResult.vega, hclose 4 GreeksResult.rho, fun _ h => absurd h List.not_mem_nil⟩
    · unfold computePortfolioGreeks
      rw [if_neg hnil, if_neg hothers]
      simp only [PortfolioGreeks.lines, List.map_cons, List.map_nil, priced, hnets]
    · rw [computePortfolioGreeks_of_ne_nil hnil, computePortfolioGreeks_of_ne_nil hothers]
      exact (get?_bySymbol_perm horder symbol).symm

theorem symbols_account_for_nets_deep :
    (∀ line ∈ (computePortfolioGreeks deepPricer [deepCall, unquoted]).lines,
      |line.1 - line.2.2| ≤
        ((computePortfolioGreeks deepPricer [deepCall, unquoted]).bySymbol.rows.length + 1) *
          (1 / 2 / 10 ^ line.2.1)) ∧
    ((computePortfolioGreeks deepPricer [unquoted, deepCall]).lines.map Prod.fst =
      (computePortfolioGreeks deepPricer [deepCall, unquoted]).lines.map Prod.fst) ∧
    ∀ symbol, (computePortfolioGreeks deepPricer [unquoted, deepCall]).bySymbol.get? symbol =
      (computePortfolioGreeks deepPricer [deepCall, unquoted]).bySymbol.get? symbol :=
  symbols_account_for_nets deepPricer [deepCall, unquoted] [unquoted, deepCall] (by decide)
    (.swap unquoted deepCall [])

end AutoTrade.Risk.Greeks
