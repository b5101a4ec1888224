import AutoTrade.Risk.RiskService
import Mathlib.Order.Bounds.Defs

/-! # Drawdown of the day's result

Each metrics call takes a reading of the day's result, keeps its running peak
and reports how far the result is below it. The peak is read before the reading
raises it, so a reading that sets a new peak is reported as a negative drawdown.
-/

namespace AutoTrade.Risk

open AutoTrade.Library

/-- The maximum of zero and the values, as a running maximum. -/
def highest (values : List ℚ) : ℚ := values.foldl max 0

theorem highest_append (values : List ℚ) (v : ℚ) :
    highest (values ++ [v]) = max (highest values) v := by
  simp [highest]

theorem le_highest {values : List ℚ} {v : ℚ} (h : v ∈ values) : v ≤ highest values := by
  induction values using List.reverseRecOn with
  | nil => cases h
  | append_singleton init last ih =>
      rw [highest_append]
      rcases List.mem_append.mp h with hinit | hlast
      · exact (ih hinit).trans (le_max_left _ _)
      · rw [List.mem_singleton.mp hlast]
        exact le_max_right _ _

theorem highest_mem_or_zero (values : List ℚ) : highest values ∈ values ∨ highest values = 0 := by
  induction values using List.reverseRecOn with
  | nil => exact .inr rfl
  | append_singleton init v ih =>
      rw [highest_append]
      rcases max_choice (highest init) v with hinit | hlast
      · rw [hinit]
        exact ih.imp_left (List.mem_append_left [v])
      · rw [hlast]
        exact .inl (List.mem_append_right init (List.mem_singleton.mpr rfl))

/-- Where one value is not negative, the maximum is one of the values. -/
theorem isGreatest_highest {values : List ℚ} {v : ℚ} (h : v ∈ values) (hv : 0 ≤ v) :
    IsGreatest {d | d ∈ values} (highest values) := by
  refine ⟨?_, fun d hd => le_highest hd⟩
  rcases highest_mem_or_zero values with hmem | hzero
  · exact hmem
  · have heq : v = highest values := le_antisymm (le_highest h) (hzero.trans_le hv)
    exact heq ▸ h

/-- Of what `reset_daily_metrics` resets, the metrics read the peak and the drawdown. -/
def RiskService.resetDailyMetrics (s : RiskService) : RiskService :=
  { s with peakPnl := 0, maxDrawdown := 0 }

inductive MetricsOp
  | metrics (readings : Option Readings)
  | position (op : PositionOp)
  | reset

/-- The service with the metrics it has reported since the last reset, the oldest first. A call whose
callbacks raise observes no result and is not among them. -/
structure DrawdownHistory where
  service : RiskService
  reports : List PortfolioRiskMetrics := []

namespace DrawdownHistory

def step (h : DrawdownHistory) : MetricsOp → DrawdownHistory
  | .metrics none => { h with service := (h.service.getPortfolioRiskMetrics none).1 }
  | .metrics (some r) =>
      { service := (h.service.getPortfolioRiskMetrics (some r)).1
        reports := h.reports ++ [(h.service.getPortfolioRiskMetrics (some r)).2] }
  | .position op => { h with service := h.service.step op }
  | .reset => { service := h.service.resetDailyMetrics }

end DrawdownHistory

def observed (reports : List PortfolioRiskMetrics) : List ℚ := reports.map (·.dailyPnl)

def drawdowns (reports : List PortfolioRiskMetrics) : List ℚ := reports.map (·.currentDrawdown)

theorem observed_append (reports : List PortfolioRiskMetrics) (m : PortfolioRiskMetrics) :
    observed (reports ++ [m]) = observed reports ++ [m.dailyPnl] := by
  simp [observed]

theorem drawdowns_append (reports : List PortfolioRiskMetrics) (m : PortfolioRiskMetrics) :
    drawdowns (reports ++ [m]) = drawdowns reports ++ [m.currentDrawdown] := by
  simp [drawdowns]

/-- The report gives the drawdown below the highest result so far, which is never negative, and the
greatest one of the reports so far. -/
structure ReportsDrawdown (earlier : List PortfolioRiskMetrics) (m : PortfolioRiskMetrics) :
    Prop where
  current : m.currentDrawdown = highest (observed (earlier ++ [m])) - m.dailyPnl
  nonneg : 0 ≤ m.currentDrawdown
  maximum : IsGreatest {d | d ∈ drawdowns (earlier ++ [m])} m.maxDrawdown

def SetsNoPeak (earlier : List PortfolioRiskMetrics) (m : PortfolioRiskMetrics) : Prop :=
  m.dailyPnl ≤ highest (observed earlier)

namespace DrawdownHistory

/-- The peak is the highest result observed, and the drawdown the highest one reported. -/
structure Tracks (h : DrawdownHistory) : Prop where
  peak : h.service.peakPnl = highest (observed h.reports)
  drawdown : h.service.maxDrawdown = highest (drawdowns h.reports)
  reports : EachAfter (fun earlier m => ReportsDrawdown earlier m ↔ SetsNoPeak earlier m) h.reports

theorem tracks_reset (s : RiskService) : Tracks { service := s.resetDailyMetrics } :=
  ⟨rfl, rfl, eachAfter_nil _⟩

/-- The reported numbers of one call, and the state it leaves. -/
theorem metrics_spec {h : DrawdownHistory} (tracks : h.Tracks) (r : Readings) :
    let answer := h.service.getPortfolioRiskMetrics (some r)
    answer.2.dailyPnl = r.dailyPnl ∧
      answer.2.currentDrawdown = highest (observed h.reports) - r.dailyPnl ∧
      answer.1.peakPnl = highest (observed (h.reports ++ [answer.2])) ∧
      answer.1.maxDrawdown = highest (drawdowns (h.reports ++ [answer.2])) ∧
      answer.2.maxDrawdown = answer.1.maxDrawdown := by
  have hcurrent : (h.service.getPortfolioRiskMetrics (some r)).2.currentDrawdown =
      h.service.peakPnl - r.dailyPnl := rfl
  refine ⟨rfl, tracks.peak ▸ hcurrent, ?_, ?_, rfl⟩
  · rw [observed_append, highest_append]
    change (if h.service.peakPnl < r.dailyPnl then r.dailyPnl else h.service.peakPnl) =
      max (highest (observed h.reports)) r.dailyPnl
    rw [max_def_lt, tracks.peak]
  · rw [drawdowns_append, highest_append, hcurrent]
    change (if h.service.maxDrawdown < h.service.peakPnl - r.dailyPnl then
        h.service.peakPnl - r.dailyPnl else h.service.maxDrawdown) =
      max (highest (drawdowns h.reports)) (h.service.peakPnl - r.dailyPnl)
    rw [max_def_lt, tracks.drawdown]

/-- A report is right exactly when its reading sets no new peak, whatever was reported before. -/
theorem reportsDrawdown_iff {h : DrawdownHistory} (tracks : h.Tracks) (r : Readings) :
    ReportsDrawdown h.reports (h.service.getPortfolioRiskMetrics (some r)).2 ↔
      SetsNoPeak h.reports (h.service.getPortfolioRiskMetrics (some r)).2 := by
  obtain ⟨hpnl, hcurrent, -, hmax, hreported⟩ := metrics_spec tracks r
  generalize hm : (h.service.getPortfolioRiskMetrics (some r)).2 = m at *
  unfold SetsNoPeak
  constructor
  · intro right
    have hnonneg := right.nonneg
    rw [hcurrent, ← hpnl] at hnonneg
    exact sub_nonneg.mp hnonneg
  · intro below
    have hnonneg : 0 ≤ m.currentDrawdown := by
      rw [hcurrent, ← hpnl]
      exact sub_nonneg.mpr below
    have hmem : m.currentDrawdown ∈ drawdowns (h.reports ++ [m]) :=
      List.mem_map.mpr ⟨m, by simp, rfl⟩
    refine ⟨?_, hnonneg, ?_⟩
    · rw [observed_append, highest_append, max_eq_left below, hcurrent, hpnl]
    · rw [hreported, hmax]
      exact isGreatest_highest hmem hnonneg

theorem Tracks.step {h : DrawdownHistory} (tracks : h.Tracks) (op : MetricsOp) :
    (h.step op).Tracks := by
  cases op with
  | metrics readings =>
      cases readings with
      | none => exact tracks
      | some r =>
          obtain ⟨-, -, hpeak, hmax, -⟩ := metrics_spec tracks r
          exact ⟨hpeak, hmax, tracks.reports.append (reportsDrawdown_iff tracks r)⟩
  | position op =>
      obtain ⟨hpeak, hmax⟩ : (h.service.step op).peakPnl = h.service.peakPnl ∧
          (h.service.step op).maxDrawdown = h.service.maxDrawdown := by
        cases op with
        | update u =>
            simp only [RiskService.step, RiskService.updatePosition]
            split <;> exact ⟨rfl, rfl⟩
        | remove symbol => exact ⟨rfl, rfl⟩
      exact ⟨hpeak.trans tracks.peak, hmax.trans tracks.drawdown, tracks.reports⟩
  | reset => exact tracks_reset h.service

end DrawdownHistory

/-- Over every run since a reset, a report is right exactly when its own result is not above the
highest one before it. -/
theorem drawdown_reported_iff_no_new_peak (s : RiskService) (ops : List MetricsOp) :
    EachAfter (fun earlier m => ReportsDrawdown earlier m ↔ SetsNoPeak earlier m)
      (run DrawdownHistory.step { service := s.resetDailyMetrics } ops).reports :=
  (run_invariant (fun _ op tracks => tracks.step op) (DrawdownHistory.tracks_reset s) ops).reports

def freshRiskService : RiskService where
  config := { maxDailyLoss := -2000, maxOpenPositions := 1, maxConsecutiveLosses := 3 }
  configuredLot := fun _ => .falsy

def firstProfit : Readings where
  capital := 100000
  dailyPnl := 5
  openPositions := 1
  consecutiveLosses := 0

/-- The first result of the day is a profit of 5: the reported drawdown is -5. -/
theorem first_profit_reported_as_drawdown :
    ¬ EachAfter ReportsDrawdown
      (run DrawdownHistory.step { service := freshRiskService.resetDailyMetrics }
        [.metrics (some firstProfit)]).reports := by
  intro right
  have hnonneg := (right [] _ [] rfl).nonneg
  exact absurd hnonneg (by decide +kernel)

end AutoTrade.Risk
