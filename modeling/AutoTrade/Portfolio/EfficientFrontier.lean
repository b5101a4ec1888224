import AutoTrade.Portfolio.Optimizer
import Mathlib.Algebra.Field.Rat
import Mathlib.Algebra.Order.Ring.Rat

/-! # What the searches find

The portfolios of one grid are the candidates of every search. The Sharpe ratio
and the volatility found are the best among them. The frontier is efficient as
long as portfolios of the same volatility come with the best return first, and
the diversification search passes over every portfolio without volatility, so on
a degenerate covariance matrix it may find nothing.
-/

namespace AutoTrade.Portfolio

open AutoTrade.Library

variable {K : Type} [Field K] [LinearOrder K]

/-! ## Weights -/

def SumsToOne (weights : Dict String K) : Prop := (weights.rows.map Prod.snd).sum = 1

omit [LinearOrder K] in
theorem sumsToOne_single (sym : String) : SumsToOne (ofEntries [(sym, (1 : K))]) := by
  simp [SumsToOne, ofEntries, Dict.set, Table.upsert, Table.empty]

omit [LinearOrder K] in
theorem not_sumsToOne_empty : ¬ SumsToOne (Table.empty : Dict String K) := by
  simp [SumsToOne, Table.empty]

omit [Field K] [LinearOrder K] in
theorem nodup_commonSymbols (returns : Dict String K) (cov : CovMatrix K) :
    (commonSymbols returns cov).Nodup := returns.nodup.filter _

namespace PortfolioOptimizer

variable {o : PortfolioOptimizer K} {returns : Dict String K} {cov : CovMatrix K}
variable {riskFreeRate : K} {symbols : List String} {first : Dict String K}
variable {rest : List (Dict String K)} {result : OptimizationResult K}

omit [LinearOrder K] in
theorem sumsToOne_drawn {i : Nat} (hnodup : symbols.Nodup)
    (htotal : (o.raw symbols.length i).sum ≠ 0) : SumsToOne (o.drawn symbols i) := by
  have hlength : ((o.raw symbols.length i).map fun r => r / (o.raw symbols.length i).sum).length =
      symbols.length := by simp [raw]
  have hrows : (o.drawn symbols i).rows =
      symbols.zip ((o.raw symbols.length i).map fun r => r / (o.raw symbols.length i).sum) := by
    refine Dict.rows_foldl_set _ Table.empty ?_
    rw [Table.empty, List.nil_append, List.map_fst_zip hlength.ge]
    exact hnodup
  rw [SumsToOne, hrows, List.map_snd_zip hlength.le]
  simp only [div_eq_mul_inv, List.sum_map_mul_right, List.map_id']
  exact mul_inv_cancel₀ htotal

/-- Every portfolio of the grid is a whole one. -/
theorem sumsToOne_of_mem_grid (hgrid : o.weightGrid symbols = .ok (first, rest))
    (hnodup : symbols.Nodup) (hne : symbols ≠ []) : ∀ c ∈ first :: rest, SumsToOne c := by
  unfold weightGrid at hgrid
  split at hgrid
  · cases hgrid
  · rename_i hnonzero
    cases hgrid
    have htotal : ∀ i < o.nGrid, (o.raw symbols.length i).sum ≠ 0 :=
      fun i hi hzero => hnonzero ⟨hne, i, hi, hzero⟩
    refine List.forall_mem_cons.mpr ⟨sumsToOne_drawn hnodup (htotal 0 o.nGrid_pos), ?_⟩
    refine List.forall_mem_map.mpr fun i hi => sumsToOne_drawn hnodup (htotal i ?_)
    have hrange := List.mem_range'_1.mp hi
    omega

/-! ## Candidates -/

/-- The portfolios that the grid draws; for fewer than two assets there is no grid. -/
def candidates (o : PortfolioOptimizer K) (returns : Dict String K) (cov : CovMatrix K) :
    List (Dict String K) :=
  if (commonSymbols returns cov).length < 2 then []
  else
    match o.weightGrid (commonSymbols returns cov) with
    | .error _ => []
    | .ok (first, rest) => first :: rest

theorem candidates_of_single (h : (commonSymbols returns cov).length < 2) :
    o.candidates returns cov = [] := if_pos h

theorem candidates_of_grid (h : ¬ (commonSymbols returns cov).length < 2)
    (hgrid : o.weightGrid (commonSymbols returns cov) = .ok (first, rest)) :
    o.candidates returns cov = first :: rest := by
  rw [candidates, if_neg h, hgrid]

theorem exists_grid (h : o.candidates returns cov ≠ []) :
    ¬ (commonSymbols returns cov).length < 2 ∧
      ∃ first rest, o.weightGrid (commonSymbols returns cov) = .ok (first, rest) ∧
        o.candidates returns cov = first :: rest := by
  have hseveral : ¬ (commonSymbols returns cov).length < 2 := fun hlt => h (candidates_of_single hlt)
  refine ⟨hseveral, ?_⟩
  cases hgrid : o.weightGrid (commonSymbols returns cov) with
  | error e => exact absurd (by rw [candidates, if_neg hseveral, hgrid]) h
  | ok grid => exact ⟨grid.1, grid.2, rfl, candidates_of_grid hseveral hgrid⟩

theorem sumsToOne_of_mem_candidates : ∀ c ∈ o.candidates returns cov, SumsToOne c := by
  intro c hc
  obtain ⟨hseveral, first, rest, hgrid, heq⟩ := exists_grid (List.ne_nil_of_mem hc)
  have hne : commonSymbols returns cov ≠ [] := fun hnil => hseveral (by simp [hnil])
  exact sumsToOne_of_mem_grid hgrid (nodup_commonSymbols returns cov) hne c (heq ▸ hc)

/-! ## The three searches -/

omit [LinearOrder K] in
/-- A successful result is that of a single asset or that of the search. -/
theorem optimizeWith_success {method : OptimizationMethod}
    {single : String → Except String (OptimizationResult K)}
    {search : List String → Except String (OptimizationResult K)}
    (h : optimizeWith method returns cov single search = .ok result)
    (hsuccess : result.status = .success) :
    ((commonSymbols returns cov).length < 2 ∧ ∃ sym, single sym = .ok result) ∨
      (¬ (commonSymbols returns cov).length < 2 ∧ validateInputs returns cov = [] ∧
        search (commonSymbols returns cov) = .ok result) := by
  unfold optimizeWith at h
  dsimp only at h
  split at h
  · cases h
    cases hsuccess
  · rename_i hvalid
    split at h
    · rename_i hsingle
      split at h
      · cases h
        cases hsuccess
      · exact Or.inl ⟨hsingle, _, h⟩
    · rename_i hseveral
      exact Or.inr ⟨hseveral, not_not.mp hvalid, h⟩

/-- Where one asset gets all the weight and the search returns a best portfolio of the grid, a
successful result is whole and best among the candidates. -/
theorem optimizeWith_optimal {method : OptimizationMethod}
    {single : String → Except String (OptimizationResult K)}
    {search : List String → Except String (OptimizationResult K)}
    (Best : Dict String K → Dict String K → Prop)
    (hsingle : ∀ sym result, single sym = .ok result → result.weights = ofEntries [(sym, 1)])
    (hsearch : ∀ result, search (commonSymbols returns cov) = .ok result → ∃ first rest,
      o.weightGrid (commonSymbols returns cov) = .ok (first, rest) ∧
        result.weights ∈ first :: rest ∧ ∀ c ∈ first :: rest, Best result.weights c)
    (h : optimizeWith method returns cov single search = .ok result)
    (hsuccess : result.status = .success) :
    SumsToOne result.weights ∧ ∀ c ∈ o.candidates returns cov, Best result.weights c := by
  rcases optimizeWith_success h hsuccess with ⟨hfew, sym, hone⟩ | ⟨hseveral, -, hfound⟩
  · rw [hsingle sym result hone, candidates_of_single hfew]
    exact ⟨sumsToOne_single sym, fun c hc => absurd hc List.not_mem_nil⟩
  · obtain ⟨first, rest, hgrid, hmem, hbest⟩ := hsearch result hfound
    rw [← candidates_of_grid hseveral hgrid] at hmem hbest
    exact ⟨sumsToOne_of_mem_candidates _ hmem, hbest⟩

theorem maxSharpe_optimal (h : o.maxSharpe returns cov riskFreeRate = .ok result)
    (hsuccess : result.status = .success) :
    SumsToOne result.weights ∧ ∀ c ∈ o.candidates returns cov,
      o.sharpeOf returns cov riskFreeRate c ≤
        o.sharpeOf returns cov riskFreeRate result.weights := by
  refine optimizeWith_optimal (fun best c => o.sharpeOf returns cov riskFreeRate c ≤
    o.sharpeOf returns cov riskFreeRate best) ?_ ?_ h hsuccess
  · intro sym result hsingle
    dsimp only at hsingle
    split at hsingle
    · cases hsingle
    · cases hsingle
      rfl
  · intro result hsearch
    dsimp only at hsearch
    split at hsearch
    · cases hsearch
    · cases hsearch
    · rename_i first rest vols hgrid hvols
      cases hsearch
      exact ⟨first, rest, hgrid, leadFrom_self_spec _ first rest⟩

theorem minVolatility_optimal (h : o.minVolatility returns cov riskFreeRate = .ok result)
    (hsuccess : result.status = .success) :
    SumsToOne result.weights ∧ ∀ c ∈ o.candidates returns cov,
      o.portfolioVolatility cov result.weights ≤ o.portfolioVolatility cov c := by
  refine optimizeWith_optimal (fun best c => o.portfolioVolatility cov best ≤
    o.portfolioVolatility cov c) ?_ ?_ h hsuccess
  · intro sym result hsingle
    dsimp only at hsingle
    split at hsingle
    · cases hsingle
    · cases hsingle
      rfl
  · intro result hsearch
    dsimp only at hsearch
    split at hsearch
    · cases hsearch
    · cases hsearch
    · rename_i first rest vols hgrid hvols
      cases hsearch
      exact ⟨first, rest, hgrid, firstMin_spec _ first rest⟩

variable (riskFreeRate) in
/-- The search for the ratio is one among the portfolios with volatility, and returns no weights at
all where there are none. -/
theorem maxDiversification_search (hgrid : o.weightGrid (commonSymbols returns cov) =
      .ok (first, rest)) (hseveral : ¬ (commonSymbols returns cov).length < 2)
    (hvalid : validateInputs returns cov = []) :
    ∃ result, o.maxDiversification returns cov riskFreeRate = .ok result ∧
      result.status = .success ∧
      (((∀ c ∈ first :: rest, o.portfolioVolatility cov c ≤ 0) ∧ result.weights = Table.empty) ∨
        (result.weights ∈ first :: rest ∧ 0 < o.portfolioVolatility cov result.weights ∧
          ∀ c ∈ first :: rest, 0 < o.portfolioVolatility cov c →
            o.flooredRatio returns cov c ≤ o.flooredRatio returns cov result.weights)) := by
  unfold maxDiversification optimizeWith
  dsimp only
  rw [if_neg (not_not.mpr hvalid), if_neg hseveral, hgrid]
  dsimp only
  have hmem : ∀ {c}, c ∈ (first :: rest).filter (fun w => 0 < o.portfolioVolatility cov w) ↔
      c ∈ first :: rest ∧ 0 < o.portfolioVolatility cov c := by
    intro c
    rw [List.mem_filter, decide_eq_true_eq]
  generalize (first :: rest).filter (fun w => 0 < o.portfolioVolatility cov w) = risky at hmem ⊢
  cases risky with
  | nil =>
      refine ⟨_, rfl, rfl, Or.inl ⟨fun c hc => not_lt.mp fun hpos => ?_, rfl⟩⟩
      exact absurd (hmem.mpr ⟨hc, hpos⟩) List.not_mem_nil
  | cons a others =>
      obtain ⟨hbest, hmax⟩ := leadFrom_self_spec (o.flooredRatio returns cov) a others
      obtain ⟨hdrawn, hpos⟩ := hmem.mp hbest
      exact ⟨_, rfl, rfl, Or.inr ⟨hdrawn, hpos, fun c hc hrisky => hmax c (hmem.mpr ⟨hc, hrisky⟩)⟩⟩

/-! ## The frontier -/

omit [Field K] [LinearOrder K] in
theorem mem_of_mem_sample {α : Type} {n : Int} {step : Nat} {xs : List α} {x : α}
    (h : x ∈ upTo n (strided step xs)) : x ∈ xs := by
  have hstrided : x ∈ strided step xs := by
    unfold upTo at h
    split at h
    · exact List.mem_of_mem_take h
    · exact List.mem_of_mem_take h
  obtain ⟨e, he, rfl⟩ := List.mem_map.mp hstrided
  exact List.fst_mem_of_mem_zipIdx (List.mem_filter.mp he).1

/-- Asked for as many points as there are, the frontier is returned whole. -/
theorem sample_length {α : Type} (xs : List α) :
    upTo xs.length (strided (max 1 (xs.length / (max (xs.length : Int) 1).toNat)) xs) = xs := by
  have hstep : max 1 (xs.length / (max (xs.length : Int) 1).toNat) = 1 := by
    have hdiv : xs.length / (max (xs.length : Int) 1).toNat ≤ 1 :=
      Nat.div_le_of_le_mul (by omega)
    omega
  have hall : strided 1 xs = xs := by simp [strided, Nat.mod_one]
  rw [hstep, hall, upTo, if_pos (Int.natCast_nonneg _), Int.toNat_natCast, List.take_length]

theorem volMap_ok_iff : (∃ vols, o.volMap cov symbols = .ok vols) ↔
    ∀ s ∈ symbols, 0 ≤ variance cov s := by
  unfold volMap
  split
  · rename_i hnegative
    obtain ⟨s, hs, hlt⟩ := hnegative
    exact iff_of_false (fun ⟨_, h⟩ => by cases h) fun h => not_lt.mpr (h s hs) hlt
  · rename_i hnonneg
    exact iff_of_true ⟨_, rfl⟩ fun s hs => not_lt.mp fun hlt => hnonneg ⟨s, hs, hlt⟩

omit [LinearOrder K] in
theorem optimizeWith_ok {method : OptimizationMethod}
    {single : String → Except String (OptimizationResult K)}
    {search : List String → Except String (OptimizationResult K)}
    (hseveral : ¬ (commonSymbols returns cov).length < 2)
    (h : validateInputs returns cov = [] → ∃ result, search (commonSymbols returns cov) = .ok result) :
    ∃ result, optimizeWith method returns cov single search = .ok result := by
  unfold optimizeWith
  dsimp only
  split
  · exact ⟨_, rfl⟩
  · rename_i hvalid
    exact h (not_not.mp hvalid)

variable (riskFreeRate) in
/-- With several assets and a grid, `max_sharpe` returns exactly when the inputs do not pass the
checks or no variance is negative. -/
theorem maxSharpe_ok_iff (hseveral : ¬ (commonSymbols returns cov).length < 2)
    (hgrid : o.weightGrid (commonSymbols returns cov) = .ok (first, rest)) :
    (∃ result, o.maxSharpe returns cov riskFreeRate = .ok result) ↔
      (validateInputs returns cov = [] → ∀ s ∈ commonSymbols returns cov, 0 ≤ variance cov s) := by
  rw [← volMap_ok_iff (o := o)]
  constructor
  · rintro ⟨result, h⟩ hvalid
    unfold maxSharpe optimizeWith at h
    dsimp only at h
    rw [if_neg (not_not.mpr hvalid), if_neg hseveral, hgrid] at h
    cases hvols : o.volMap cov (commonSymbols returns cov) with
    | error e =>
        rw [hvols] at h
        cases h
    | ok vols => exact ⟨vols, rfl⟩
  · intro h
    refine optimizeWith_ok hseveral fun hvalid => ?_
    obtain ⟨vols, hvols⟩ := h hvalid
    rw [hgrid, hvols]
    exact ⟨_, rfl⟩

variable (riskFreeRate) in
theorem minVolatility_ok (hseveral : ¬ (commonSymbols returns cov).length < 2)
    (hgrid : o.weightGrid (commonSymbols returns cov) = .ok (first, rest))
    (h : validateInputs returns cov = [] → ∀ s ∈ commonSymbols returns cov, 0 ≤ variance cov s) :
    ∃ result, o.minVolatility returns cov riskFreeRate = .ok result := by
  refine optimizeWith_ok hseveral fun hvalid => ?_
  obtain ⟨vols, hvols⟩ := (volMap_ok_iff (o := o)).mpr (h hvalid)
  rw [hgrid, hvols]
  exact ⟨_, rfl⟩

/-- What `efficient_frontier` returns for several assets is a sample of the Pareto list. -/
theorem efficientFrontier_sample {nPoints : Int} {ef : EfficientFrontierResult K}
    (hseveral : ¬ (commonSymbols returns cov).length < 2)
    (hgrid : o.weightGrid (commonSymbols returns cov) = .ok (first, rest))
    (h : o.efficientFrontier returns cov riskFreeRate nPoints = .ok ef) :
    (validateInputs returns cov = [] → ∀ s ∈ commonSymbols returns cov, 0 ≤ variance cov s) ∧
      ef.portfolios.map OptimizationResult.weights =
        upTo nPoints (strided
          (max 1 ((o.pareto returns cov (first :: rest)).length / (max nPoints 1).toNat))
          (o.pareto returns cov (first :: rest))) := by
  unfold efficientFrontier at h
  split at h
  · cases h
  · cases h
  · rename_i maxSharpeResult minVolResult hsharpe hvol
    dsimp only at h
    rw [if_neg hseveral, hgrid] at h
    cases h
    refine ⟨(maxSharpe_ok_iff riskFreeRate hseveral hgrid).mp ⟨_, hsharpe⟩, ?_⟩
    rw [List.map_map]
    exact List.map_id _

variable (riskFreeRate) in
theorem efficientFrontier_ok (nPoints : Int)
    (hseveral : ¬ (commonSymbols returns cov).length < 2)
    (hgrid : o.weightGrid (commonSymbols returns cov) = .ok (first, rest))
    (h : validateInputs returns cov = [] → ∀ s ∈ commonSymbols returns cov, 0 ≤ variance cov s) :
    ∃ ef, o.efficientFrontier returns cov riskFreeRate nPoints = .ok ef := by
  obtain ⟨maxSharpeResult, hsharpe⟩ :=
    (maxSharpe_ok_iff riskFreeRate hseveral hgrid).mpr h
  obtain ⟨minVolResult, hvol⟩ :=
    minVolatility_ok riskFreeRate hseveral hgrid h
  unfold efficientFrontier
  rw [hsharpe, hvol]
  dsimp only
  rw [if_neg hseveral, hgrid]
  exact ⟨_, rfl⟩

/-- For fewer than two assets the frontier is the result of `max_sharpe`, if that succeeds. -/
theorem efficientFrontier_single {nPoints : Int} {ef : EfficientFrontierResult K}
    (hfew : (commonSymbols returns cov).length < 2)
    (h : o.efficientFrontier returns cov riskFreeRate nPoints = .ok ef) :
    ∀ p ∈ ef.portfolios, SumsToOne p.weights := by
  unfold efficientFrontier at h
  split at h
  · cases h
  · cases h
  · rename_i maxSharpeResult minVolResult hsharpe hvol
    dsimp only at h
    rw [if_pos hfew] at h
    cases h
    intro p hp
    dsimp only at hp
    split at hp
    · rename_i hsuccess
      obtain rfl := List.mem_singleton.mp hp
      exact (maxSharpe_optimal hsharpe hsuccess).1
    · cases hp

/-! ## When the searches are right -/

section Searches

variable (o : PortfolioOptimizer K) (returns : Dict String K) (cov : CovMatrix K) (riskFreeRate : K)

/-- No returned portfolio of the frontier is beaten by a candidate, for any number of points. -/
def FrontierUndominated : Prop :=
  ∀ nPoints ef, o.efficientFrontier returns cov riskFreeRate nPoints = .ok ef →
    ∀ p ∈ ef.portfolios, SumsToOne p.weights ∧ ∀ c ∈ o.candidates returns cov,
      ¬ Dominates (o.portfolioVolatility cov) (portfolioReturn returns) c p.weights

def SharpeMaximal : Prop :=
  ∀ result, o.maxSharpe returns cov riskFreeRate = .ok result → result.status = .success →
    SumsToOne result.weights ∧ ∀ c ∈ o.candidates returns cov,
      o.sharpeOf returns cov riskFreeRate c ≤ o.sharpeOf returns cov riskFreeRate result.weights

def VolatilityMinimal : Prop :=
  ∀ result, o.minVolatility returns cov riskFreeRate = .ok result → result.status = .success →
    SumsToOne result.weights ∧ ∀ c ∈ o.candidates returns cov,
      o.portfolioVolatility cov result.weights ≤ o.portfolioVolatility cov c

def DiversificationMaximal : Prop :=
  ∀ result, o.maxDiversification returns cov riskFreeRate = .ok result →
    result.status = .success →
    SumsToOne result.weights ∧ ∀ c ∈ o.candidates returns cov,
      o.flooredRatio returns cov c ≤ o.flooredRatio returns cov result.weights

/-- Where `efficient_frontier` gets to its grid, portfolios of the same volatility are drawn with the
best return first. -/
def FrontierTiesInOrder : Prop :=
  (validateInputs returns cov = [] → ∀ s ∈ commonSymbols returns cov, 0 ≤ variance cov s) →
    TiesInOrder (o.portfolioVolatility cov) (portfolioReturn returns) (o.candidates returns cov)

/-- Some candidate has volatility, and one of those has a ratio of at least 1 if any has none. -/
structure SomeRisk : Prop where
  risky : ∃ c ∈ o.candidates returns cov, 0 < o.portfolioVolatility cov c
  riskless : ∀ c ∈ o.candidates returns cov, o.portfolioVolatility cov c ≤ 0 →
    ∃ d ∈ o.candidates returns cov, 0 < o.portfolioVolatility cov d ∧
      1 ≤ o.flooredRatio returns cov d

theorem frontierUndominated_iff :
    o.FrontierUndominated returns cov riskFreeRate ↔ o.FrontierTiesInOrder returns cov := by
  constructor
  · intro h hvariances
    by_cases hnone : o.candidates returns cov = []
    · intro before x after hsplit
      simp [hnone] at hsplit
    · obtain ⟨hseveral, first, rest, hgrid, heq⟩ := exists_grid hnone
      refine undominated_iff.mp fun x hx => ?_
      rw [heq] at hx
      change x ∈ o.pareto returns cov (first :: rest) at hx
      -- as many points as there are leave no portfolio out
      let n : Int := (o.pareto returns cov (first :: rest)).length
      obtain ⟨ef, hef⟩ := efficientFrontier_ok riskFreeRate n hseveral hgrid hvariances
      have hall := (efficientFrontier_sample hseveral hgrid hef).2
      rw [sample_length] at hall
      rw [← hall] at hx
      obtain ⟨p, hp, rfl⟩ := List.mem_map.mp hx
      exact (h n ef hef p hp).2
  · intro h nPoints ef hef p hp
    by_cases hfew : (commonSymbols returns cov).length < 2
    · exact ⟨efficientFrontier_single hfew hef p hp, by simp [candidates_of_single hfew]⟩
    · cases hgrid : o.weightGrid (commonSymbols returns cov) with
      | error e =>
          unfold efficientFrontier at hef
          split at hef
          · cases hef
          · cases hef
          · dsimp only at hef
            rw [if_neg hfew, hgrid] at hef
            cases hef
      | ok grid =>
          have heq := candidates_of_grid hfew hgrid
          obtain ⟨hvariances, hsample⟩ := efficientFrontier_sample hfew hgrid hef
          have hkept : p.weights ∈ o.pareto returns cov (o.candidates returns cov) := by
            rw [heq]
            exact mem_of_mem_sample (hsample ▸ List.mem_map_of_mem hp)
          have hdrawn : p.weights ∈ o.candidates returns cov := by
            obtain ⟨-, before, after, hsplit, -⟩ := mem_frontier_iff.mp hkept
            rw [hsplit]
            exact List.mem_append_right _ List.mem_cons_self
          exact ⟨sumsToOne_of_mem_candidates _ hdrawn,
            undominated_iff.mpr (h hvariances) _ hkept⟩

theorem diversificationMaximal_iff :
    o.DiversificationMaximal returns cov riskFreeRate ↔
      (validateInputs returns cov = [] → o.candidates returns cov ≠ [] →
        o.SomeRisk returns cov) := by
  have hriskless : ∀ c, o.portfolioVolatility cov c ≤ 0 → o.flooredRatio returns cov c = 1 :=
    fun c hc => if_pos hc
  constructor
  · intro h hvalid hne
    obtain ⟨hseveral, first, rest, hgrid, heq⟩ := exists_grid hne
    obtain ⟨result, hresult, hsuccess, hfound⟩ :=
      maxDiversification_search riskFreeRate hgrid hseveral hvalid
    obtain ⟨hsum, hmax⟩ := h result hresult hsuccess
    rw [← heq] at hfound
    rcases hfound with ⟨-, hempty⟩ | ⟨hmem, hpos, -⟩
    · exact absurd (hempty ▸ hsum) not_sumsToOne_empty
    · exact ⟨⟨_, hmem, hpos⟩, fun c hc hzero =>
        ⟨_, hmem, hpos, (hriskless c hzero).symm.le.trans (hmax c hc)⟩⟩
  · intro h result hresult hsuccess
    rcases optimizeWith_success hresult hsuccess with
      ⟨hfew, sym, hsingle⟩ | ⟨hseveral, hvalid, hsearch⟩
    · split at hsingle
      · cases hsingle
      · cases hsingle
        exact ⟨sumsToOne_single sym, by simp [candidates_of_single hfew]⟩
    · cases hgrid : o.weightGrid (commonSymbols returns cov) with
      | error e =>
          rw [hgrid] at hsearch
          cases hsearch
      | ok grid =>
          have heq := candidates_of_grid hseveral hgrid
          obtain ⟨found, hok, -, hfound⟩ :=
            maxDiversification_search riskFreeRate hgrid hseveral hvalid
          obtain rfl := Except.ok.inj (hok.symm.trans hresult)
          obtain ⟨⟨c, hc, hpos⟩, hbeaten⟩ := h hvalid (by simp [heq])
          rw [← heq] at hfound
          rcases hfound with ⟨hnone, -⟩ | ⟨hmem, -, hmax⟩
          · exact absurd hpos (not_lt.mpr (hnone c hc))
          · refine ⟨sumsToOne_of_mem_candidates _ hmem, fun c hc => ?_⟩
            rcases le_or_gt (o.portfolioVolatility cov c) 0 with hzero | hpos
            · obtain ⟨d, hd, hdpos, hratio⟩ := hbeaten c hc hzero
              exact (hriskless c hzero).le.trans (hratio.trans (hmax d hd hdpos))
            · exact hmax c hc hpos

/-- The frontier is efficient and the three searches are optimal exactly when ties come with the best
return first and the diversification search has something to find. -/
theorem searches_efficient_iff :
    (o.FrontierUndominated returns cov riskFreeRate ∧ o.SharpeMaximal returns cov riskFreeRate ∧
        o.VolatilityMinimal returns cov riskFreeRate ∧
        o.DiversificationMaximal returns cov riskFreeRate) ↔
      o.FrontierTiesInOrder returns cov ∧
        (validateInputs returns cov = [] → o.candidates returns cov ≠ [] →
          o.SomeRisk returns cov) := by
  rw [frontierUndominated_iff, diversificationMaximal_iff]
  constructor
  · rintro ⟨hties, -, -, hrisk⟩
    exact ⟨hties, hrisk⟩
  · rintro ⟨hties, hrisk⟩
    exact ⟨hties, fun _ => maxSharpe_optimal, fun _ => minVolatility_optimal, hrisk⟩

end Searches

/-! ## Two assets without risk -/

/-- A generator of ones, with a three in fourth place. -/
def twoDraws : PortfolioOptimizer ℚ where
  nGrid := 2
  nGrid_pos := by decide
  random := fun i => if i = 3 then 3 else 1
  sqrt := fun x => if x = 1 / 10000 then 1 / 100 else x

def risklessReturns : Dict String ℚ := ofEntries [("A", 1 / 10), ("B", 2 / 10)]

def risklessCov : CovMatrix ℚ where
  rows := [("A", ofEntries [("A", 0), ("B", 0)]), ("B", ofEntries [("A", 0), ("B", 0)])]
  nodup := by decide

/-- Both portfolios stay on the frontier, although the second returns more at the same volatility, and
the search for diversification succeeds without any weights. -/
theorem riskless_assets_not_efficient :
    ¬ twoDraws.FrontierUndominated risklessReturns risklessCov (5 / 100) ∧
      ¬ twoDraws.DiversificationMaximal risklessReturns risklessCov (5 / 100) := by
  have hvalid : validateInputs risklessReturns risklessCov = [] := by decide
  have hcandidates : twoDraws.candidates risklessReturns risklessCov =
      [twoDraws.drawn ["A", "B"] 0, twoDraws.drawn ["A", "B"] 1] :=
    candidates_of_grid (by decide) (if_neg (by decide +kernel))
  constructor
  · intro h
    have hties := (frontierUndominated_iff _ _ _ _).mp h fun _ => by decide +kernel
    have hlater := hties [] _ _ hcandidates (by decide +kernel) (by simp)
      (twoDraws.drawn ["A", "B"] 1) List.mem_cons_self (by decide +kernel)
    exact absurd hlater (by decide +kernel)
  · intro h
    obtain ⟨⟨c, hc, hpos⟩, -⟩ :=
      (diversificationMaximal_iff _ _ _ _).mp h hvalid (by simp [hcandidates])
    have hriskless : ∀ c ∈ twoDraws.candidates risklessReturns risklessCov,
        twoDraws.portfolioVolatility risklessCov c ≤ 0 := by decide +kernel
    exact absurd hpos (not_lt.mpr (hriskless c hc))

end PortfolioOptimizer

end AutoTrade.Portfolio
