import AutoTrade.Library.Pareto
import AutoTrade.Library.Selection
import AutoTrade.Library.Table
import Mathlib.Algebra.BigOperators.Ring.List
import Mathlib.Algebra.Order.Field.Basic

/-! # Portfolio optimizer

`PortfolioOptimizer` of `optimizer.py`: maximum Sharpe ratio, minimum volatility,
maximum diversification and the efficient frontier, each by a search of the same
grid of random weights. Numbers are those of a field with an order and a square
root; the sets of symbols are in the order of insertion, which does not restrict
the weights because the draws are arbitrary.
-/

namespace AutoTrade.Portfolio

open AutoTrade.Library

inductive OptimizationMethod
  | maxSharpe
  | minVol
  | maxDiv
  | efficientFrontier
deriving DecidableEq, Repr

inductive OptimizationStatus
  | success
  | warning
  | failed
deriving DecidableEq, Repr

/-- The diversification ratio is `⊥`, minus infinity, where a search for it found none. -/
structure OptimizationResult (K : Type) where
  method : OptimizationMethod
  weights : Dict String K
  expectedReturn : K
  expectedVolatility : K
  sharpeRatio : K
  diversificationRatio : WithBot K
  nAssets : Nat
  status : OptimizationStatus := .success
  message : String := ""

structure EfficientFrontierResult (K : Type) where
  portfolios : List (OptimizationResult K) := []
  maxSharpePortfolio : Option (OptimizationResult K) := none
  minVolPortfolio : Option (OptimizationResult K) := none
  nPoints : Nat := 0

/-- The generator is seeded anew for each grid, so every grid draws the same numbers. -/
structure PortfolioOptimizer (K : Type) where
  nGrid : Nat
  nGrid_pos : 0 < nGrid
  random : Nat → K
  sqrt : K → K

abbrev CovMatrix (K : Type) := Dict String (Dict String K)

variable {K : Type} [Field K] [LinearOrder K]

def ofEntries (entries : List (String × K)) : Dict String K :=
  entries.foldl (fun d e => d.set e.1 e.2) Table.empty

def CovMatrix.entry (cov : CovMatrix K) (si sj : String) : Option K :=
  (cov.get? si).bind fun row => row.get? sj

/-- `set(returns.keys()) & set(cov_matrix.keys())`. -/
def commonSymbols (returns : Dict String K) (cov : CovMatrix K) : List String :=
  (returns.rows.map Prod.fst).filter fun s => cov.contains s

def validateInputs (returns : Dict String K) (cov : CovMatrix K) : List String :=
  let symbols := returns.rows.map Prod.fst ++
    (cov.rows.map Prod.fst).filter fun s => ¬ returns.contains s
  (if returns.rows = [] then ["Returns dict is empty"] else []) ++
    (if cov.rows = [] then ["Covariance matrix is empty"] else []) ++
    symbols.flatMap fun s =>
      (if returns.contains s then [] else ["Symbol '" ++ s ++ "' has no expected return"]) ++
        if cov.contains s then [] else ["Symbol '" ++ s ++ "' has no covariance data"]

namespace PortfolioOptimizer

/-- `__init__`. -/
def init (random : Nat → K) (sqrt : K → K) (nGrid : Int) : PortfolioOptimizer K where
  nGrid := (max 100 (min nGrid 10000)).toNat
  nGrid_pos := by omega
  random := random
  sqrt := sqrt

/-! ## Portfolio statistics -/

def portfolioReturn (returns : Dict String K) (weights : Dict String K) : K :=
  (weights.rows.map fun e => e.2 * (returns.get? e.1).getD 0).sum

def portfolioVariance (cov : CovMatrix K) (weights : Dict String K) : K :=
  (weights.rows.map fun i =>
    if i.2 = 0 then 0
    else (weights.rows.map fun j =>
      if j.2 = 0 then 0 else i.2 * j.2 * (cov.entry i.1 j.1).getD 0).sum).sum

variable (o : PortfolioOptimizer K)

def portfolioVolatility (cov : CovMatrix K) (weights : Dict String K) : K :=
  o.sqrt (max (portfolioVariance cov weights) 0)

def portfolioSharpe (ret vol riskFreeRate : K) : K :=
  if vol ≤ 0 then 0 else (ret - riskFreeRate) / vol

/-- `_diversification_ratio`. -/
def diversificationRatioOf (weights volatility : Dict String K) (portfolioVol : K) : K :=
  if portfolioVol ≤ 0 then 1
  else (weights.rows.map fun e => e.2 * (volatility.get? e.1).getD 0).sum / portfolioVol

/-! ## The grid -/

/-- The numbers the `i`-th portfolio of `n` assets is drawn with. -/
def raw (n i : Nat) : List K := (List.range n).map fun j => o.random (i * n + j)

def drawn (symbols : List String) (i : Nat) : Dict String K :=
  let raw := o.raw symbols.length i
  ofEntries (symbols.zip (raw.map fun r => r / raw.sum))

/-- The first portfolio and the others. -/
def weightGrid (symbols : List String) : Except String (Dict String K × List (Dict String K)) :=
  if symbols ≠ [] ∧ ∃ i < o.nGrid, (o.raw symbols.length i).sum = 0 then
    .error "float division by zero"
  else .ok (o.drawn symbols 0, (List.range' 1 (o.nGrid - 1)).map (o.drawn symbols))

/-! ## Asset volatilities -/

/-- `math.sqrt`. -/
def mathSqrt (x : K) : Except String K :=
  if x < 0 then .error "math domain error" else .ok (o.sqrt x)

def variance (cov : CovMatrix K) (s : String) : K := (cov.entry s s).getD (1 / 100)

/-- `vol_map` where a negative variance is an error. -/
def volMap (cov : CovMatrix K) (symbols : List String) : Except String (Dict String K) :=
  if ∃ s ∈ symbols, variance cov s < 0 then .error "math domain error"
  else .ok (ofEntries (symbols.map fun s => (s, o.sqrt (variance cov s))))

/-- `vol_map` where a variance is at least 0.0001. -/
def flooredVolMap (cov : CovMatrix K) (symbols : List String) : Dict String K :=
  ofEntries (symbols.map fun s =>
    (s, o.sqrt (max ((cov.entry s s).getD (1 / 10000)) (1 / 10000))))

/-! ## Optimization methods -/

def failed (method : OptimizationMethod) (message : String) : OptimizationResult K :=
  { method := method
    weights := Table.empty
    expectedReturn := 0, expectedVolatility := 0
    sharpeRatio := 0, diversificationRatio := (1 : K)
    nAssets := 0, status := .failed
    message := message }

/-- What the three methods share: the checks, and where they go for one asset and for several. -/
def optimizeWith (method : OptimizationMethod) (returns : Dict String K) (cov : CovMatrix K)
    (single : String → Except String (OptimizationResult K))
    (search : List String → Except String (OptimizationResult K)) :
    Except String (OptimizationResult K) :=
  let issues := validateInputs returns cov
  let symbols := commonSymbols returns cov
  if issues ≠ [] then
    .ok (failed method ("Validation failed: " ++ "; ".intercalate (issues.take 3)))
  else if symbols.length < 2 then
    let sym := (symbols.head?.or (returns.rows.map Prod.fst).head?).getD ""
    if sym = "" then .ok (failed method "No assets available") else single sym
  else search symbols

variable (returns : Dict String K) (cov : CovMatrix K)

/-- The Sharpe ratio of a portfolio. -/
def sharpeOf (riskFreeRate : K) (weights : Dict String K) : K :=
  portfolioSharpe (portfolioReturn returns weights) (o.portfolioVolatility cov weights)
    riskFreeRate

def maxSharpe (riskFreeRate : K := 5 / 100) : Except String (OptimizationResult K) :=
  optimizeWith .maxSharpe returns cov
    (fun sym =>
      let ret := (returns.get? sym).getD 0
      match o.mathSqrt (variance cov sym) with
      | .error e => .error e
      | .ok vol =>
          .ok { method := .maxSharpe
                weights := ofEntries [(sym, 1)]
                expectedReturn := ret, expectedVolatility := vol
                sharpeRatio := portfolioSharpe ret vol riskFreeRate
                diversificationRatio := (1 : K)
                nAssets := 1
                message := "Single asset portfolio" })
    fun symbols =>
      match o.weightGrid symbols, o.volMap cov symbols with
      | .error e, _ => .error e
      | .ok _, .error e => .error e
      | .ok (first, rest), .ok vols =>
          let score := o.sharpeOf returns cov riskFreeRate
          let best := leadFrom score first (score first) rest
          let bestVol := o.portfolioVolatility cov best
          .ok { method := .maxSharpe
                weights := best
                expectedReturn := portfolioReturn returns best
                expectedVolatility := bestVol
                sharpeRatio := score best
                diversificationRatio := (diversificationRatioOf best vols bestVol : K)
                nAssets := symbols.length }

def minVolatility (riskFreeRate : K := 5 / 100) : Except String (OptimizationResult K) :=
  optimizeWith .minVol returns cov
    (fun sym =>
      let ret := (returns.get? sym).getD 0
      match o.mathSqrt (variance cov sym) with
      | .error e => .error e
      | .ok vol =>
          .ok { method := .minVol
                weights := ofEntries [(sym, 1)]
                expectedReturn := ret, expectedVolatility := vol
                sharpeRatio := portfolioSharpe ret vol riskFreeRate
                diversificationRatio := (1 : K)
                nAssets := 1 })
    fun symbols =>
      match o.weightGrid symbols, o.volMap cov symbols with
      | .error e, _ => .error e
      | .ok _, .error e => .error e
      | .ok (first, rest), .ok vols =>
          let best := firstMin (o.portfolioVolatility cov) first rest
          let bestVol := o.portfolioVolatility cov best
          let ret := portfolioReturn returns best
          .ok { method := .minVol
                weights := best
                expectedReturn := ret, expectedVolatility := bestVol
                sharpeRatio := portfolioSharpe ret bestVol riskFreeRate
                diversificationRatio := (diversificationRatioOf best vols bestVol : K)
                nAssets := symbols.length }

/-- The diversification ratio of a portfolio, with the variances of the assets floored. -/
def flooredRatio (weights : Dict String K) : K :=
  diversificationRatioOf weights (o.flooredVolMap cov (commonSymbols returns cov))
    (o.portfolioVolatility cov weights)

def maxDiversification (riskFreeRate : K := 5 / 100) : Except String (OptimizationResult K) :=
  optimizeWith .maxDiv returns cov
    (fun sym =>
      match o.mathSqrt (variance cov sym) with
      | .error e => .error e
      | .ok vol =>
          .ok { method := .maxDiv
                weights := ofEntries [(sym, 1)]
                expectedReturn := (returns.get? sym).getD 0
                expectedVolatility := vol
                sharpeRatio := 0, diversificationRatio := (1 : K)
                nAssets := 1 })
    fun symbols =>
      match o.weightGrid symbols with
      | .error e => .error e
      | .ok (first, rest) =>
          -- portfolios without volatility are passed over
          match (first :: rest).filter fun weights => 0 < o.portfolioVolatility cov weights with
          | [] =>
              .ok { method := .maxDiv
                    weights := Table.empty
                    expectedReturn := portfolioReturn returns Table.empty
                    expectedVolatility := 0
                    sharpeRatio := portfolioSharpe (portfolioReturn returns Table.empty) 0
                      riskFreeRate
                    diversificationRatio := ⊥
                    nAssets := symbols.length }
          | risky :: others =>
              let ratio := o.flooredRatio returns cov
              let best := leadFrom ratio risky (ratio risky) others
              let bestVol := o.portfolioVolatility cov best
              let ret := portfolioReturn returns best
              .ok { method := .maxDiv
                    weights := best
                    expectedReturn := ret, expectedVolatility := bestVol
                    sharpeRatio := portfolioSharpe ret bestVol riskFreeRate
                    diversificationRatio := ratio best
                    nAssets := symbols.length }

/-! ## Efficient frontier -/

/-- `xs[::step]`. -/
def strided {α : Type} (step : Nat) (xs : List α) : List α :=
  (xs.zipIdx.filter fun e => e.2 % step = 0).map Prod.fst

/-- `xs[:n]`. -/
def upTo {α : Type} (n : Int) (xs : List α) : List α :=
  if 0 ≤ n then xs.take n.toNat else xs.take (xs.length - n.natAbs)

/-- The Pareto-optimal portfolios among those of the grid. -/
def pareto (portfolios : List (Dict String K)) : List (Dict String K) :=
  frontier (o.portfolioVolatility cov) (portfolioReturn returns) portfolios

def efficientFrontier (riskFreeRate : K := 5 / 100) (nPoints : Int := 50) :
    Except String (EfficientFrontierResult K) :=
  match o.maxSharpe returns cov riskFreeRate, o.minVolatility returns cov riskFreeRate with
  | .error e, _ => .error e
  | .ok _, .error e => .error e
  | .ok maxSharpeResult, .ok minVolResult =>
      let symbols := commonSymbols returns cov
      if symbols.length < 2 then
        .ok { portfolios := if maxSharpeResult.status = .success then [maxSharpeResult] else []
              maxSharpePortfolio := some maxSharpeResult
              minVolPortfolio := some minVolResult
              nPoints := 1 }
      else
        match o.weightGrid symbols with
        | .error e => .error e
        | .ok (first, rest) =>
            let pareto := o.pareto returns cov (first :: rest)
            let step := max 1 (pareto.length / (max nPoints 1).toNat)
            let results := (upTo nPoints (strided step pareto)).map fun weights =>
              { method := .efficientFrontier
                weights := weights
                expectedReturn := portfolioReturn returns weights
                expectedVolatility := o.portfolioVolatility cov weights
                sharpeRatio := o.sharpeOf returns cov riskFreeRate weights
                diversificationRatio := o.flooredRatio returns cov weights
                nAssets := symbols.length }
            .ok { portfolios := results
                  maxSharpePortfolio := some maxSharpeResult
                  minVolPortfolio := some minVolResult
                  nPoints := results.length }

end PortfolioOptimizer

end AutoTrade.Portfolio
