import AutoTrade.Library.RunningMax
import AutoTrade.Signals.ActiveSignals
import AutoTrade.Signals.ForwardObservation
import AutoTrade.Signals.HistoricalReplay

/-! # Excursions

How far the observed prices of a signal went its way and against it, and what it
realised in multiples of its initial risk. The rows that the tracker leaves have
an exit exactly when they are closed, and the exit lies within the excursions.
-/

namespace AutoTrade.Signals

open AutoTrade.Library

/-! ## Measuring excursions -/

def favorable (direction : String) (entryPrice price : ℚ) : ℚ :=
  if direction ∈ ["CALL", "BUY", "LONG"] then price - entryPrice else entryPrice - price

def adverse (direction : String) (entryPrice price : ℚ) : ℚ :=
  if direction ∈ ["CALL", "BUY", "LONG"] then entryPrice - price else price - entryPrice

structure DirectionalExcursions where
  mfe : ℚ
  mae : ℚ
  mfePct : ℚ
  maePct : ℚ
deriving DecidableEq, Repr

def calculateDirectionalMfeMae (direction : String) (entryPrice : ℚ) (prices : List ℚ) :
    DirectionalExcursions :=
  let priced := prices.filter fun p => decide (0 < p)
  if entryPrice ≤ 0 ∨ priced = [] then ⟨0, 0, 0, 0⟩
  else
    let mfe := (priced.map (favorable direction entryPrice)).foldl max 0
    let mae := (priced.map (adverse direction entryPrice)).foldl max 0
    { mfe := roundTo 4 mfe
      mae := roundTo 4 mae
      mfePct := roundTo 4 (mfe / entryPrice * 100)
      maePct := roundTo 4 (mae / entryPrice * 100) }

def calculateRealizedR (direction : String) (entryPrice : ℚ) (exitPrice initialRisk : Option ℚ) :
    Option ℚ :=
  match exitPrice, initialRisk with
  | some price, some risk =>
      if risk ≤ 0 ∨ entryPrice ≤ 0 then none
      else some (roundTo 4 (favorable direction entryPrice price / risk))
  | _, _ => none

/-- The distance to a stop on the wrong side counts too. -/
def initialRisk (direction : String) (p : Prediction) : Option ℚ :=
  if 0 < p.entryPrice ∧ 0 < p.stopLoss then
    let diff := adverse direction p.entryPrice p.stopLoss
    some (if 0 < diff then roundTo 4 diff else roundTo 4 |p.entryPrice - p.stopLoss|)
  else none

/-- The columns of a measurement on its excursions. -/
structure ExcursionColumns where
  initialRisk : Option ℚ
  excursions : Option DirectionalExcursions
  mfeR : Option ℚ
  maeR : Option ℚ
  realizedR : Option ℚ
deriving DecidableEq, Repr

def excursionColumns (direction : String) (p : Prediction) (r : BarrierRecord)
    (exitPrice : Option ℚ) : ExcursionColumns :=
  let risk := initialRisk direction p
  let positiveRisk := risk.filter fun k => decide (0 < k)
  let excursions :=
    if p.isValid && r.hasObservations then
      some (calculateDirectionalMfeMae direction p.entryPrice r.prices)
    else none
  { initialRisk := risk
    excursions
    mfeR := excursions.bind fun e => positiveRisk.map fun k => roundTo 4 (e.mfe / k)
    maeR := excursions.bind fun e => positiveRisk.map fun k => roundTo 4 (e.mae / k)
    realizedR :=
      if p.isValid then
        positiveRisk.bind fun k => calculateRealizedR direction p.entryPrice exitPrice (some k)
      else none }

theorem adverse_eq_neg (direction : String) (entryPrice price : ℚ) :
    adverse direction entryPrice price = -favorable direction entryPrice price := by
  unfold adverse favorable
  split
  · exact (neg_sub price entryPrice).symm
  · exact (neg_sub entryPrice price).symm

theorem abs_round4_sub_le (x : ℚ) : |roundTo 4 x - x| ≤ 1 / 20000 := by
  have h := abs_roundTo_sub_le_half 4 x
  linarith

/-- What is gained at a price of the path, or at the entry, is within the excursions. -/
theorem within_excursions {direction : String} {entryPrice price : ℚ} {prices : List ℚ}
    (hentry : 0 < entryPrice) (hprice : 0 < price) (hmem : price ∈ prices ∨ price = entryPrice)
    (hprices : ∃ p ∈ prices, 0 < p) :
    let e := calculateDirectionalMfeMae direction entryPrice prices
    favorable direction entryPrice price ≤ e.mfe + 1 / 20000 ∧
      -favorable direction entryPrice price ≤ e.mae + 1 / 20000 := by
  intro e
  have hpriced : prices.filter (fun p => decide (0 < p)) ≠ [] := by
    obtain ⟨p, hp, hpos⟩ := hprices
    exact List.ne_nil_of_mem (List.mem_filter.mpr ⟨hp, decide_eq_true hpos⟩)
  have hsome : ¬(entryPrice ≤ 0 ∨ prices.filter (fun p => decide (0 < p)) = []) :=
    not_or.mpr ⟨hentry.not_ge, hpriced⟩
  have bound : ∀ gain : ℚ → ℚ, gain entryPrice = 0 → gain price ≤
      roundTo 4 (((prices.filter fun p => decide (0 < p)).map gain).foldl max 0) + 1 / 20000 := by
    intro gain hgain
    have hround := (abs_le.mp (abs_round4_sub_le
      (((prices.filter fun p => decide (0 < p)).map gain).foldl max 0))).1
    have hle : gain price ≤ ((prices.filter fun p => decide (0 < p)).map gain).foldl max 0 := by
      rcases hmem with hmem | rfl
      · exact mem_le_foldl_max 0 (List.mem_map_of_mem
          (List.mem_filter.mpr ⟨hmem, decide_eq_true hprice⟩))
      · exact hgain.trans_le (le_foldl_max 0 _)
    linarith
  simp only [e, calculateDirectionalMfeMae, if_neg hsome]
  rw [← adverse_eq_neg]
  exact ⟨bound _ (by simp [favorable]), bound _ (by simp [adverse])⟩

/-! ## The path -/

theorem mem_addPrice {prices : List ℚ} {x : ℚ} (h : x ∈ prices) (y : ℚ) :
    x ∈ addPrice prices y := by
  unfold addPrice
  split
  · exact List.mem_append_left [y] h
  · exact h

theorem addPrice_self {y : ℚ} (h : 0 < y) (prices : List ℚ) : y ∈ addPrice prices y := by
  unfold addPrice
  split
  · exact List.mem_append_right prices (List.mem_singleton_self y)
  · rename_i hknown
    by_contra hmem
    exact hknown ⟨h, hmem⟩

theorem pos_addPrice {prices : List ℚ} (h : ∀ x ∈ prices, 0 < x) (y : ℚ) :
    ∀ x ∈ addPrice prices y, 0 < x := by
  unfold addPrice
  split
  · rename_i hnew
    intro x hx
    rcases List.mem_append.mp hx with hold | hlast
    · exact h x hold
    · exact List.mem_singleton.mp hlast ▸ hnew.1
  · exact h

/-- A price that the lifecycle may know of. -/
def joinPrice (known : Prop) [Decidable known] (prices : List ℚ) (price : ℚ) : List ℚ :=
  if known then addPrice prices price else prices

section Join

variable {known : Prop} [Decidable known] {prices : List ℚ}

theorem mem_joinPrice {x : ℚ} (h : x ∈ prices) (y : ℚ) : x ∈ joinPrice known prices y := by
  unfold joinPrice
  split
  · exact mem_addPrice h y
  · exact h

theorem joinPrice_self (hknown : known) {y : ℚ} (h : 0 < y) : y ∈ joinPrice known prices y := by
  rw [joinPrice, if_pos hknown]
  exact addPrice_self h prices

theorem pos_joinPrice (h : ∀ x ∈ prices, 0 < x) (y : ℚ) : ∀ x ∈ joinPrice known prices y, 0 < x := by
  unfold joinPrice
  split
  · exact pos_addPrice h y
  · exact h

end Join

namespace BarrierRecord

variable {p : Prediction} {l : Lifecycle} {events : List OutcomeEvent}

def eventPrices (events : List OutcomeEvent) : List ℚ :=
  (events.filter fun e => decide (0 < e.observedPrice)).map OutcomeEvent.observedPrice

theorem prices_eq (p : Prediction) (l : Lifecycle) (events : List OutcomeEvent) :
    (barrierRecord p l events).prices =
      addPrice (addPrice
        (joinPrice (physicalTouch l.firstTouch = .sl ∨ l.status = .slHit)
          (joinPrice (l.status = .target2Hit ∨ physicalTouch l.firstTouch = .t2)
            (joinPrice (physicalTouch l.firstTouch = .t1 ∨ l.status = .target1Hit)
              (eventPrices events) p.target1) p.target2) p.stopLoss)
        ((if 0 < l.firstTouchPrice then some l.firstTouchPrice else none).getD 0)) l.currentPrice := by
  simp only [barrierRecord, decide_eq_true_eq]
  rfl

theorem pos_of_mem_prices {x : ℚ} (h : x ∈ (barrierRecord p l events).prices) : 0 < x := by
  have hevents : ∀ x ∈ eventPrices events, 0 < x := by
    intro x hx
    obtain ⟨e, he, rfl⟩ := List.mem_map.mp hx
    exact of_decide_eq_true (List.mem_filter.mp he).2
  rw [prices_eq] at h
  exact pos_addPrice (pos_addPrice (pos_joinPrice (pos_joinPrice (pos_joinPrice hevents _) _) _) _)
    _ x h

theorem event_mem_prices {e : OutcomeEvent} (he : e ∈ events) (hpos : 0 < e.observedPrice) :
    e.observedPrice ∈ (barrierRecord p l events).prices := by
  have hmem : e.observedPrice ∈ eventPrices events :=
    List.mem_map_of_mem (List.mem_filter.mpr ⟨he, decide_eq_true hpos⟩)
  rw [prices_eq]
  exact mem_addPrice (mem_addPrice (mem_joinPrice (mem_joinPrice (mem_joinPrice hmem _) _) _) _) _

theorem target2_mem_prices (h : l.status = .target2Hit ∨ physicalTouch l.firstTouch = .t2)
    (hpos : 0 < p.target2) : p.target2 ∈ (barrierRecord p l events).prices := by
  rw [prices_eq]
  exact mem_addPrice (mem_addPrice (mem_joinPrice (joinPrice_self h hpos) _) _) _

theorem stopLoss_mem_prices (h : physicalTouch l.firstTouch = .sl ∨ l.status = .slHit)
    (hpos : 0 < p.stopLoss) : p.stopLoss ∈ (barrierRecord p l events).prices := by
  rw [prices_eq]
  exact mem_addPrice (mem_addPrice (joinPrice_self h hpos) _) _

theorem firstTouchPrice_mem_prices (hpos : 0 < l.firstTouchPrice) :
    l.firstTouchPrice ∈ (barrierRecord p l events).prices := by
  rw [prices_eq, if_pos hpos]
  exact mem_addPrice (addPrice_self hpos _) _

theorem currentPrice_mem_prices (hpos : 0 < l.currentPrice) :
    l.currentPrice ∈ (barrierRecord p l events).prices := by
  rw [prices_eq]
  exact addPrice_self hpos _

/-- A hit by an event has the price of the event. -/
theorem firstHit_mem_prices (hevents : ∀ e ∈ events, 0 ≤ e.observedPrice)
    {hit : OutcomeEvent → Bool} {b : BarrierHit} (h : firstHit events hit = some b) {x : ℚ}
    (hx : b.hitPrice = some x) (hne : x ≠ 0) : x ∈ (barrierRecord p l events).prices := by
  obtain ⟨e, he, rfl⟩ := Option.map_eq_some_iff.mp h
  cases hx
  have hmem := List.mem_of_find?_eq_some he
  exact event_mem_prices hmem (lt_of_le_of_ne (hevents e hmem) hne.symm)

theorem t2_mem_prices (hevents : ∀ e ∈ events, 0 ≤ e.observedPrice)
    (hpast : l.status = .target2Hit) (hpos : 0 < p.target2) {x : ℚ}
    (hx : (barrierRecord p l events).t2.bind BarrierHit.hitPrice = some x) (hne : x ≠ 0) :
    x ∈ (barrierRecord p l events).prices := by
  have ht2 : (barrierRecord p l events).t2 =
      if (firstHit events OutcomeEvent.hitT2).isNone then
        some ⟨if physicalTouch l.firstTouch = .t2 then (barrierRecord p l events).firstTouchAt
            else some (barrierRecord p l events).latestObsAt,
          if physicalTouch l.firstTouch = .t2 then
            (if 0 < l.firstTouchPrice then some l.firstTouchPrice else none)
          else some p.target2⟩
      else firstHit events OutcomeEvent.hitT2 := by
    simp only [barrierRecord, hpast, true_or, decide_true, Bool.true_and]
  rw [ht2] at hx
  cases hfirst : firstHit events OutcomeEvent.hitT2 with
  | some b =>
      rw [hfirst] at hx
      exact firstHit_mem_prices hevents hfirst hx hne
  | none =>
      rw [hfirst] at hx
      simp only [Option.isNone_none, if_true, Option.bind_some] at hx
      split at hx
      · split at hx
        · rename_i htouch
          cases hx
          exact firstTouchPrice_mem_prices htouch
        · cases hx
      · cases hx
        exact target2_mem_prices (.inl hpast) hpos

theorem sl_mem_prices (hevents : ∀ e ∈ events, 0 ≤ e.observedPrice)
    (hpast : physicalTouch l.firstTouch = .sl ∨ l.status = .slHit) (hpos : 0 < p.stopLoss) {x : ℚ}
    (hx : (barrierRecord p l events).sl.bind BarrierHit.hitPrice = some x) (hne : x ≠ 0) :
    x ∈ (barrierRecord p l events).prices := by
  have hsl : (barrierRecord p l events).sl =
      if (firstHit events OutcomeEvent.hitSl).isNone then
        some ⟨(barrierRecord p l events).firstTouchAt,
          some (priceOr (if 0 < l.firstTouchPrice then some l.firstTouchPrice else none)
            p.stopLoss)⟩
      else firstHit events OutcomeEvent.hitSl := by
    simp only [barrierRecord, hpast, decide_true, Bool.true_and]
  rw [hsl] at hx
  cases hfirst : firstHit events OutcomeEvent.hitSl with
  | some b =>
      rw [hfirst] at hx
      exact firstHit_mem_prices hevents hfirst hx hne
  | none =>
      rw [hfirst] at hx
      simp only [Option.isNone_none, if_true, Option.bind_some, Option.some.injEq] at hx
      subst hx
      unfold priceOr orPrice
      by_cases htouch : 0 < l.firstTouchPrice
      · simp only [if_pos htouch, Option.getD_some, if_neg htouch.ne']
        exact firstTouchPrice_mem_prices htouch
      · simp only [if_neg htouch, Option.getD_none, if_true]
        exact stopLoss_mem_prices hpast hpos

end BarrierRecord

/-! ## The rows of the tracker -/

/-- What the tracker keeps of each row. -/
structure SystemSignal.Coherent (s : SystemSignal) : Prop where
  /-- A reversal writes no price. -/
  exitPrice : s.exitPrice.getD 0 = 0
  secondTarget : s.status = .target2Hit → 0 < s.target2
  priced : 0 < s.entryPrice → 0 < s.currentPrice
  stopTouch : s.firstTouch = .sl → s.status = .slHit
  reason : s.exitReason ≠ "" → s.status ∈ [.closedOnReversal, .expired]

/-- The prediction has the levels that are read of the row. -/
structure Prediction.Of (p : Prediction) (s : SystemSignal) : Prop where
  entryPrice : p.entryPrice = s.entryPrice
  target2 : p.target2 = s.target2

section Exit

variable {s : SystemSignal} {p : Prediction} {events : List OutcomeEvent}

theorem priceOr_induction {P : ℚ → Prop} {price : Option ℚ} {fallback : ℚ}
    (hprice : ∀ x, price = some x → x ≠ 0 → P x) (hfallback : P fallback) :
    P (priceOr price fallback) := by
  unfold priceOr orPrice
  split
  · exact hfallback
  · rename_i hne
    cases price with
    | none => exact absurd rfl hne
    | some x => exact hprice x rfl hne

/-- A first stop is one that the lifecycle knows of. -/
theorem pastSl_of_slFirst {firstTouch : FirstTouch} {status : OutcomeState}
    {hasObservations isValid : Bool} {exitReason : String}
    (h : normalizeOutcomeState firstTouch status hasObservations isValid exitReason = .slFirst) :
    firstTouch = .sl ∨ status = .slHit := by
  unfold normalizeOutcomeState at h
  split_ifs at h with _ _ _ _ _ hstop
  exact hstop

theorem physicalTouch_eq_sl {touch : FirstTouch} : physicalTouch touch = .sl ↔ touch = .sl := by
  cases touch <;> decide

theorem physicalTouch_ne_expired (touch : FirstTouch) : physicalTouch touch ≠ .expired := by
  cases touch <;> decide

/-- An outcome with an exit is one of a closed row. -/
theorem closed_of_outcome (h : s.Coherent) {hasObservations isValid : Bool}
    (houtcome : normalizeOutcomeState (physicalTouch s.firstTouch) s.status hasObservations isValid
      s.exitReason ∈ [.slFirst, .timeout, .reversed]) : s.status ∈ BarrierRecord.closedStatuses := by
  unfold normalizeOutcomeState at houtcome
  split_ifs at houtcome with _ _ _ hreversal _ hstop hexpired
  all_goals try simp at houtcome
  · rcases hreversal with hclosed | hreason
    · simp [hclosed, BarrierRecord.closedStatuses]
    · have hsome : s.exitReason ≠ "" := by
        intro hempty
        rw [hempty] at hreason
        exact absurd hreason (by decide)
      rcases List.mem_pair.mp (h.reason hsome) with hclosed | hclosed <;>
        simp [hclosed, BarrierRecord.closedStatuses]
  · have hclosed : s.status = .slHit :=
      hstop.elim (fun htouch => h.stopTouch (physicalTouch_eq_sl.mp htouch)) id
    simp [hclosed, BarrierRecord.closedStatuses]
  · have hclosed : s.status = .expired :=
      hexpired.resolve_left (physicalTouch_ne_expired s.firstTouch)
    simp [hclosed, BarrierRecord.closedStatuses]

/-- The exit of a coherent row is a price of its path, or the entry. -/
theorem exit_onPath (h : s.Coherent) (hp : p.Of s) (hvalid : p.isValid = true)
    (hevents : ∀ e ∈ events, 0 ≤ e.observedPrice) {id : String} {price : ℚ}
    (hexit : (measure id p (lifecycleOf (some s)) events).exitPrice = some price) :
    0 < price ∧ (price ∈ (barrierRecord p (lifecycleOf (some s)) events).prices ∨
      price = p.entryPrice) := by
  obtain ⟨hentry, hstop, -⟩ := of_decide_eq_true hvalid
  set l := lifecycleOf (some s) with hl
  set r := barrierRecord p l events with hr
  set outcome := normalizeOutcomeState r.firstTouch l.status r.hasObservations p.isValid
    l.exitReason with houtcome
  have hlifecycle : r.lifecycle = l := rfl
  have onPath : ∀ x, x ∈ r.prices → 0 < x ∧ (x ∈ r.prices ∨ x = p.entryPrice) :=
    fun x hx => ⟨BarrierRecord.pos_of_mem_prices hx, .inl hx⟩
  have hcurrent : 0 < l.currentPrice := h.priced (hp.entryPrice ▸ hentry)
  have hmeasured : (r.exit p outcome).map (·.1) = some price := hexit
  obtain ⟨⟨x, hitAt⟩, hsome, rfl⟩ := Option.map_eq_some_iff.mp hmeasured
  simp only [BarrierRecord.exit, hlifecycle] at hsome
  split_ifs at hsome with hclosed htarget hstopped hexpired
  · cases hsome
    have hpos : 0 < p.target2 := hp.target2 ▸ h.secondTarget htarget
    exact priceOr_induction
      (fun x hx hne => onPath x (BarrierRecord.t2_mem_prices hevents htarget hpos hx hne))
      (onPath _ (BarrierRecord.target2_mem_prices (.inl htarget) hpos))
  · cases hsome
    have hpast : physicalTouch l.firstTouch = .sl ∨ l.status = .slHit :=
      hstopped.elim .inr fun hfirst => pastSl_of_slFirst hfirst
    exact priceOr_induction
      (fun x hx hne => onPath x (BarrierRecord.sl_mem_prices hevents hpast hstop hx hne))
      (onPath _ (BarrierRecord.stopLoss_mem_prices hpast hstop))
  · cases hsome
    exact onPath _ (BarrierRecord.currentPrice_mem_prices hcurrent)
  · cases hsome
    have hnone : orPrice l.currentPrice (priceOr r.firstTouchPrice p.entryPrice) =
        l.currentPrice := if_neg hcurrent.ne'
    rw [hnone]
    refine priceOr_induction (P := fun x => 0 < x ∧ (x ∈ r.prices ∨ x = p.entryPrice))
      (fun x hx hne => ?_)
      (onPath _ (BarrierRecord.currentPrice_mem_prices hcurrent))
    have hzero := h.exitPrice
    rw [show s.exitPrice = some x from hx] at hzero
    exact absurd hzero hne

/-- A coherent row has an exit exactly when it is closed. -/
theorem exit_isSome_iff (h : s.Coherent) (p : Prediction) (events : List OutcomeEvent)
    (signalId : String) :
    (measure signalId p (lifecycleOf (some s)) events).exitPrice.isSome = true ↔
      s.status ∈ BarrierRecord.closedStatuses := by
  set outcome := normalizeOutcomeState (physicalTouch s.firstTouch) s.status
    (barrierRecord p (lifecycleOf (some s)) events).hasObservations p.isValid s.exitReason
    with houtcome
  have hexit : (measure signalId p (lifecycleOf (some s)) events).exitPrice.isSome = true ↔
      s.status ∈ BarrierRecord.closedStatuses ∨ outcome ∈ [.slFirst, .timeout, .reversed] := by
    have hmeasured : (measure signalId p (lifecycleOf (some s)) events).exitPrice =
        ((barrierRecord p (lifecycleOf (some s)) events).exit p outcome).map (·.1) := rfl
    have hlifecycle : (barrierRecord p (lifecycleOf (some s)) events).lifecycle.status = s.status :=
      rfl
    rw [hmeasured, Option.isSome_map]
    unfold BarrierRecord.exit
    dsimp only
    rw [hlifecycle]
    split
    · rename_i hclosed
      refine iff_of_true ?_ hclosed
      split
      · rfl
      · split
        · rfl
        · split <;> rfl
    · rename_i hopen
      exact iff_of_false (by simp) hopen
  rw [hexit]
  exact ⟨fun hclosed => hclosed.elim id fun houtside => closed_of_outcome h houtside, .inl⟩

end Exit

/-! ## Writers keep rows coherent -/

/-- What an evaluation of a coherent signal writes leaves it coherent. -/
structure SignalEvaluationResult.Fits (e : SignalEvaluationResult) (s : SystemSignal) : Prop where
  secondTarget : e.newStatus = some .target2Hit → 0 < s.target2
  stopTouch : ∀ status, e.newStatus = some status → e.firstTouch = .sl → status = .slHit
  priced : 0 < s.entryPrice → 0 < e.currentPrice

section Runtime

variable {rt : SignalRuntime}

theorem SignalEvaluationResult.Fits.persist {e : SignalEvaluationResult} {s : SystemSignal}
    (h : e.Fits s) (hs : s.Coherent) (hreason : s.exitReason = "") : (s.persist e).Coherent := by
  unfold SystemSignal.persist
  split
  · rename_i status hstatus
    exact ⟨hs.exitPrice, fun htarget => h.secondTarget (hstatus.trans (congrArg some htarget)),
      h.priced, h.stopTouch status hstatus, fun hsome => absurd hreason hsome⟩
  · exact ⟨hs.exitPrice, hs.secondTarget, h.priced, hs.stopTouch, hs.reason⟩

theorem barrierHits_secondTarget {s : SystemSignal} {bar : SignalBar}
    (h : (barrierHits s bar).t2 = true) : 0 < s.target2 := by
  unfold barrierHits at h
  split at h
  · exact (of_decide_eq_true h).1
  · exact (of_decide_eq_true h).1

/-- A second target is only reached by a signal that has one, and a touch of the stop only written
with its status. -/
theorem transition_fits {s : SystemSignal} (hs : s.Coherent) {hits : BarrierHits} {now : Time}
    (ht2 : hits.t2 = true → 0 < s.target2) :
    ((transition rt s hits now).newStatus = some .target2Hit → 0 < s.target2) ∧
      ∀ status, (transition rt s hits now).newStatus = some status →
        (transition rt s hits now).firstTouch = .sl → status = .slHit := by
  have htarget := hs.secondTarget
  have hstop := hs.stopTouch
  unfold transition
  repeat' split
  all_goals
    simp_all [untouched, touched, SystemSignal.keep]

theorem acceptsBar_close {s : SystemSignal} {bar : SignalBar} {now : Time} {checkStaleness : Bool}
    (h : acceptsBar s bar now checkStaleness = true) : 0 < bar.close := by
  unfold acceptsBar at h
  simp only [Bool.and_eq_true, decide_eq_true_eq] at h
  exact h.1.2.2.2.1

theorem orPrice_pos {a b : ℚ} (ha : 0 < a) : 0 < orPrice a b := by
  rw [orPrice, if_neg ha.ne']
  exact ha

theorem evaluateBar_fits {s : SystemSignal} (hs : s.Coherent) (bar : SignalBar) (now : Time) :
    (evaluateBar rt s bar now false).Fits s := by
  have htransition := @evaluateBar_transition rt s bar now false
  by_cases haccepts : acceptsBar s bar now false = true
  · rw [if_pos haccepts] at htransition
    have hfits := @transition_fits rt s hs (barrierHits s bar) now barrierHits_secondTarget
    rw [← htransition] at hfits
    refine ⟨hfits.1, hfits.2, fun _ => ?_⟩
    rw [evaluateBar, if_pos haccepts]
    exact acceptsBar_close haccepts
  · rw [if_neg haccepts] at htransition
    have hnone : (evaluateBar rt s bar now false).newStatus = none :=
      congrArg Transition.newStatus htransition
    refine ⟨fun h => by simp [hnone] at h, fun status h => by simp [hnone] at h, fun hentry => ?_⟩
    rw [evaluateBar, if_neg haccepts]
    exact orPrice_pos (hs.priced hentry)

theorem evaluateRow_fits {candles after : List String} {s : SystemSignal} (hs : s.Coherent)
    {o : Observation} {now : Time} {e : SignalEvaluationResult}
    (h : evaluateRow rt candles s o now = (after, .ok (some e))) : e.Fits s := by
  rcases evaluateRow_cases h with ⟨bar, rfl, -⟩ | ⟨price, rfl, -⟩ | ⟨rfl, hopen⟩
  · exact evaluateBar_fits hs bar now
  · have hfits := @evaluateBar_fits rt s hs (tickBar rt price now) now
    unfold evaluatePoll
    dsimp only
    split
    · exact ⟨(nomatch ·), fun _ _ h => (nomatch h), hfits.priced⟩
    · exact hfits
  · have hstop : s.firstTouch ≠ .sl := by
      intro htouch
      simp [SystemSignal.alreadyTerminal, htouch] at hopen
    unfold expiredWithoutPrice
    refine ⟨?_, ?_, fun hentry => orPrice_pos (hs.priced hentry)⟩
    · split <;> exact (nomatch ·)
    · split
      · exact fun _ _ htouch => absurd htouch hstop
      · exact fun _ _ htouch => nomatch htouch

/-- Every evaluation of a replay fits the signal it started from. -/
theorem replayBars_fits {r s : SystemSignal} (hs : s.Coherent) (htarget : s.target2 = r.target2)
    (hentry : s.entryPrice = r.entryPrice) (hreason : s.exitReason = "") {now : Time}
    {last : Option SignalEvaluationResult} (hlast : ∀ e, last = some e → e.Fits r)
    {bars : List SignalBar} {e : SignalEvaluationResult}
    (h : replayBars rt now s last bars = some e) : e.Fits r := by
  induction bars generalizing s last with
  | nil => exact hlast e h
  | cons bar rest ih =>
      have hfits := @evaluateBar_fits rt s hs bar (barClose rt bar now)
      have hnext : ∀ x, some (evaluateBar rt s bar (barClose rt bar now) false) = some x →
          x.Fits r := by
        rintro x hx
        cases hx
        exact ⟨htarget ▸ hfits.secondTarget, hfits.stopTouch, hentry ▸ hfits.priced⟩
      unfold replayBars at h
      dsimp only at h
      split at h
      · exact hnext e h
      · split at h
        · rename_i hhit
          have hstop : (evaluateBar rt s bar (barClose rt bar now) false).firstTouch ≠ .sl :=
            fun htouch => absurd (hfits.stopTouch _ hhit.2 htouch) (by decide)
          generalize evaluateBar rt s bar (barClose rt bar now) false = x at *
          have hcarried : SystemSignal.Coherent
              { s with
                status := .target1Hit
                firstTouch := x.firstTouch
                firstTouchAt := x.firstTouchAt
                firstTouchPrice := x.firstTouchPrice
                outcomeConfidence := x.outcomeConfidence } :=
            ⟨hs.exitPrice, OutcomeState.noConfusion, hs.priced,
              fun htouch => absurd htouch hstop, fun hsome => absurd hreason hsome⟩
          exact ih hcarried htarget hentry hreason hnext h
        · exact ih hs htarget hentry hreason hnext h

theorem coherent_expireIfOpen {s : SystemSignal} (hs : s.Coherent) (now : Time) :
    (expireIfOpen rt s now).Coherent := by
  unfold expireIfOpen expireRow
  split
  · exact hs
  · rename_i hopen
    have hstop : s.sweptTouch ≠ .sl := by
      intro htouch
      have hfirst : s.firstTouch = .sl := by
        unfold SystemSignal.sweptTouch at htouch
        split at htouch
        · cases htouch
        · exact htouch
      exact hopen (by simp [SystemSignal.passedOver, hs.stopTouch hfirst])
    split
    · exact ⟨hs.exitPrice, (nomatch ·), hs.priced, fun htouch => absurd htouch hstop,
        fun _ => by simp⟩
    · exact ⟨hs.exitPrice, (nomatch ·), hs.priced, (nomatch ·), fun _ => by simp⟩

def AllCoherent (t : SystemSignals) : Prop := ∀ s ∈ t.rows, s.Coherent

theorem AllCoherent.of_kept {t t' : SystemSignals} (h : AllCoherent t)
    (hkept : Table.Kept (fun s s' : SystemSignal => s.Coherent → s'.Coherent) t t') :
    AllCoherent t' := by
  intro s' hs'
  obtain ⟨s, hs, hcoherent, -⟩ := hkept.row_before hs'
  exact hcoherent (h s hs)

theorem AllCoherent.insert {t : SystemSignals} (h : AllCoherent t) {row : SystemSignal}
    (hrow : row.Coherent) : AllCoherent (t.insertOrIgnore row) := by
  intro s hs
  by_cases hknown : ∃ r ∈ t.rows, r.signalId = row.signalId
  · rw [Table.insertOrIgnore_of_mem hknown] at hs
    exact h s hs
  · rw [Table.rows_insertOrIgnore_of_fresh fun r hr hid => hknown ⟨r, hr, hid⟩] at hs
    rcases List.mem_append.mp hs with hold | hlast
    · exact h s hold
    · exact List.mem_singleton.mp hlast ▸ hrow

theorem coherent_row (g : GeneratedSignal) (signalId : String) (now : Time) :
    (g.row rt signalId now).Coherent :=
  ⟨rfl, (nomatch ·), id, (nomatch ·), fun hsome => absurd rfl hsome⟩

theorem reason_of_inFlight {s : SystemSignal} (hs : s.Coherent)
    (hstatus : s.status ∉ [.closedOnReversal, .expired]) : s.exitReason = "" := by
  by_contra hsome
  exact hstatus (hs.reason hsome)

theorem allCoherent_update {t : SignalOutcomeTracker} (h : AllCoherent t.signals)
    (observe : String → Observation) (now : Time) :
    AllCoherent (updateActiveSignalOutcomes rt t observe now).signals := by
  have hkeys : Table.Kept (fun _ _ => True) t.signals
      (updateActiveSignalOutcomes rt t observe now).signals :=
    kept_update.mono fun _ _ _ => trivial
  refine h.of_kept (Table.kept_of_rows hkeys fun id s hs => ?_)
  refine updateActive_rows (C := fun _ _ => True)
    (P := fun s s' : SystemSignal => s.Coherent → s'.Coherent) (fun _ hc => hc)
    (fun u r hr after e _ hevaluated hc => ?_) (loopMeets_of_forall (fun _ _ _ => trivial) t) hs
  have hgraded := of_decide_eq_true (List.mem_filter.mp hr).2
  refine (evaluateRow_fits hc hevaluated).persist hc (reason_of_inFlight hc fun hclosed => ?_)
  rcases List.mem_pair.mp hclosed with hstatus | hstatus <;> simp [hstatus] at hgraded

theorem allCoherent_sweep {t : SystemSignals} (h : AllCoherent t) (now : Time) :
    AllCoherent (expireStaleSignals rt t now).1 := by
  unfold expireStaleSignals
  split
  · exact h
  · refine h.of_kept fun id => ?_
    rw [find?_expireCandidates]
    cases t.find? id with
    | none =>
        split
        · exact .none
        · exact .none
    | some s =>
        split
        · exact .some fun hs => coherent_expireIfOpen hs now
        · exact .some fun hs => hs

theorem allCoherent_resolve {t : SystemSignals} (h : AllCoherent t) (limit : Option Nat)
    (bars : String → List SignalBar) (now : Time) :
    AllCoherent (resolveSignals rt t (pendingSignals t limit) bars now) := by
  intro s' hs'
  by_cases hread : ∃ r ∈ pendingSignals t limit, s'.signalId = r.signalId
  · obtain ⟨r, hr, hid⟩ := hread
    obtain ⟨hfound, hstatus⟩ := mem_pendingSignals hr
    have hrow := @find?_resolveSignals rt t _ (nodup_pendingSignals t limit)
      (fun r hr => (mem_pendingSignals hr).1) bars now r hr
    rw [← hid, Table.find?_of_mem hs', Option.some.injEq] at hrow
    have hc : r.Coherent := h r ((Table.find?_eq_some_iff _ _ _).mp hfound).1
    have hreason : r.exitReason = "" := reason_of_inFlight hc fun hclosed => by
      rcases List.mem_pair.mp hclosed with hclosed | hclosed <;> simp [hclosed] at hstatus
    rw [hrow, storedRow]
    split
    · rename_i e hstored
      obtain ⟨hreplay, -⟩ := Option.filter_eq_some_iff.mp hstored
      exact (replayBars_fits hc rfl rfl hreason (by simp) hreplay).persist hc hreason
    · exact hc
  · have hsame := @find?_resolveSignals_of_ne rt t (pendingSignals t limit) s'.signalId
      (fun r hr hid => hread ⟨r, hr, hid⟩) bars now
    rw [Table.find?_of_mem hs'] at hsame
    exact h s' ((Table.find?_eq_some_iff _ _ _).mp hsame.symm).1

theorem allCoherent_record {t : SystemSignals} (h : AllCoherent t) (g : GeneratedSignal)
    (signalId : String) (now : Time) :
    AllCoherent (recordGeneratedSignal rt t g signalId now).1 := by
  rcases @recordGeneratedSignal_cases rt t g signalId now with ⟨-, hsame⟩ |
    ⟨-, -, ⟨-, -, hinsert⟩ | ⟨prior, -, -, -, hreverse⟩⟩
  · rwa [hsame]
  · rw [hinsert]
    exact h.insert (coherent_row g signalId now)
  · rw [hreverse]
    refine AllCoherent.insert (h.of_kept (Table.kept_update (fun _ hc => hc) t prior.signalId _
      fun s _ hs => ?_)) (coherent_row g signalId now)
    unfold closeOnReversal
    split
    · rename_i hactive
      refine ⟨rfl, (nomatch ·), hs.priced, fun htouch => ?_, fun _ => by simp⟩
      exact absurd (hactive.symm.trans (hs.stopTouch htouch)) (by decide)
    · exact hs

theorem allCoherent_step {t : SignalOutcomeTracker} (h : AllCoherent t.signals) (op : OutcomeOp) :
    AllCoherent (op.step rt t).signals := by
  cases op with
  | update observe now => exact allCoherent_update h observe now
  | expireStale now => exact allCoherent_sweep h now
  | resolvePending limit bars now sweepNow =>
      exact allCoherent_sweep (allCoherent_resolve h limit bars now) sweepNow
  | record g signalId now => exact allCoherent_record h g signalId now

/-- A bound on a gain carries over to its rounded multiple of the risk. -/
theorem le_round4_div {x a b risk : ℚ} (hrisk : 0 < risk) (hx : x ≤ a / risk + 1 / 20000)
    (h : a ≤ b + 1 / 20000) : x ≤ roundTo 4 (b / risk) + (1 / 10000 + 1 / (20000 * risk)) := by
  have hround := (abs_le.mp (abs_round4_sub_le (b / risk))).1
  have hdiv : a / risk ≤ b / risk + 1 / (20000 * risk) := by
    calc a / risk ≤ (b + 1 / 20000) / risk := div_le_div_of_nonneg_right h hrisk.le
      _ = b / risk + 1 / (20000 * risk) := by rw [add_div, div_div]
  linarith

theorem realizedR_within {direction : String} {p : Prediction} {r : BarrierRecord} {price : ℚ}
    {e : DirectionalExcursions}
    (he : (excursionColumns direction p r (some price)).excursions = some e)
    (hmfe : favorable direction p.entryPrice price ≤ e.mfe + 1 / 20000)
    (hmae : -favorable direction p.entryPrice price ≤ e.mae + 1 / 20000) {realized : ℚ}
    (hr : (excursionColumns direction p r (some price)).realizedR = some realized) :
    ∃ risk mfeR maeR, (excursionColumns direction p r (some price)).initialRisk = some risk ∧
      0 < risk ∧ (excursionColumns direction p r (some price)).mfeR = some mfeR ∧
        (excursionColumns direction p r (some price)).maeR = some maeR ∧
          realized ≤ mfeR + (1 / 10000 + 1 / (20000 * risk)) ∧
            -realized ≤ maeR + (1 / 10000 + 1 / (20000 * risk)) := by
  have hrealized := hr
  simp only [excursionColumns] at hrealized
  split at hrealized
  · obtain ⟨risk, hfilter, hcalculated⟩ := Option.bind_eq_some_iff.mp hrealized
    obtain ⟨hinitial, hpositive⟩ := Option.filter_eq_some_iff.mp hfilter
    have hrisk : 0 < risk := of_decide_eq_true hpositive
    simp only [calculateRealizedR] at hcalculated
    split at hcalculated
    · cases hcalculated
    · cases hcalculated
      have hround := abs_le.mp (abs_round4_sub_le (favorable direction p.entryPrice price / risk))
      refine ⟨risk, roundTo 4 (e.mfe / risk), roundTo 4 (e.mae / risk), hinitial, hrisk, ?_, ?_,
        le_round4_div hrisk (by linarith [hround.2]) hmfe,
        le_round4_div hrisk ?_ hmae⟩
      · show ((excursionColumns direction p r (some price)).excursions.bind _) = _
        rw [he, Option.bind_some, hfilter, Option.map_some]
      · show ((excursionColumns direction p r (some price)).excursions.bind _) = _
        rw [he, Option.bind_some, hfilter, Option.map_some]
      · rw [neg_div]
        linarith [hround.1]
  · cases hrealized

/-- Over any run of the tracker, a row has an exit exactly when it is closed. The exit of a valid
prediction is no further from the entry than its excursions say, and what it realised in multiples
of the risk is within those of the excursions, up to the rounding of the columns. -/
theorem exit_within_excursions {t : SignalOutcomeTracker} (ht : AllCoherent t.signals)
    (ops : List OutcomeOp) {s : SystemSignal}
    (hs : s ∈ (run (OutcomeOp.step rt) t ops).signals.rows) {p : Prediction} (hp : p.Of s)
    {events : List OutcomeEvent} (hevents : ∀ e ∈ events, 0 ≤ e.observedPrice)
    (signalId direction : String) :
    let m := measure signalId p (lifecycleOf (some s)) events
    let x := excursionColumns direction p (barrierRecord p (lifecycleOf (some s)) events) m.exitPrice
    (m.exitPrice.isSome = true ↔ s.status ∈ BarrierRecord.closedStatuses) ∧
      (p.isValid = true → ∀ price, m.exitPrice = some price →
        ∃ e, x.excursions = some e ∧
          favorable direction p.entryPrice price ≤ e.mfe + 1 / 20000 ∧
          -favorable direction p.entryPrice price ≤ e.mae + 1 / 20000 ∧
          ∀ realized, x.realizedR = some realized →
            ∃ risk mfeR maeR, x.initialRisk = some risk ∧ 0 < risk ∧
              x.mfeR = some mfeR ∧ x.maeR = some maeR ∧
                realized ≤ mfeR + (1 / 10000 + 1 / (20000 * risk)) ∧
                  -realized ≤ maeR + (1 / 10000 + 1 / (20000 * risk))) := by
  intro m x
  have hc : s.Coherent := run_invariant (I := fun t : SignalOutcomeTracker => AllCoherent t.signals)
    (fun _ op h => allCoherent_step h op) ht ops s hs
  refine ⟨exit_isSome_iff hc p events signalId, fun hvalid price hexit => ?_⟩
  obtain ⟨hpos, hpath⟩ := exit_onPath hc hp hvalid hevents hexit
  have hentry : 0 < p.entryPrice := (of_decide_eq_true hvalid).1
  have hcurrent : s.currentPrice ∈ (barrierRecord p (lifecycleOf (some s)) events).prices :=
    BarrierRecord.currentPrice_mem_prices (hc.priced (hp.entryPrice ▸ hentry))
  have hobserved : (barrierRecord p (lifecycleOf (some s)) events).hasObservations = true := by
    rw [BarrierRecord.hasObservations, Bool.not_eq_true', List.isEmpty_eq_false_iff]
    exact List.ne_nil_of_mem hcurrent
  have he : x.excursions = some (calculateDirectionalMfeMae direction p.entryPrice
      (barrierRecord p (lifecycleOf (some s)) events).prices) := by
    simp only [x, excursionColumns, hvalid, hobserved, Bool.and_self, if_true]
  obtain ⟨hmfe, hmae⟩ := @within_excursions direction _ _ _ hentry hpos hpath
    ⟨_, hcurrent, BarrierRecord.pos_of_mem_prices hcurrent⟩
  refine ⟨_, he, hmfe, hmae, fun realized hrealized => ?_⟩
  simp only [x, hexit] at he hrealized ⊢
  exact realizedR_within he hmfe hmae hrealized

end Runtime

/-! ## A stop -/

def samplePrediction : Prediction := ⟨100, 90, 110, 120, "2024-01-05T10:00:00+05:30"⟩

/-- The event of the stop, at the price that was polled. -/
def stopEvents : List OutcomeEvent :=
  [⟨sampleSignal.signalId, "2024-01-05T10:05:00+05:30", 89, true, false, false⟩]

def stoppedMeasurement : OutcomeMeasurement :=
  measure sampleSignal.signalId samplePrediction (lifecycleOf (some stopped)) stopEvents

def stoppedColumns : ExcursionColumns :=
  excursionColumns "CALL" samplePrediction
    (barrierRecord samplePrediction (lifecycleOf (some stopped)) stopEvents)
    stoppedMeasurement.exitPrice

example : stoppedColumns =
    { initialRisk := some 10, excursions := some ⟨0, 11, 0, 11⟩, mfeR := some 0,
      maeR := some (11 / 10), realizedR := some (-11 / 10) } := by
  decide +kernel

theorem exit_within_excursions_stopped :
    (stoppedMeasurement.exitPrice.isSome = true ↔
      stopped.status ∈ BarrierRecord.closedStatuses) ∧
      (samplePrediction.isValid = true → ∀ price, stoppedMeasurement.exitPrice = some price →
        ∃ e, stoppedColumns.excursions = some e ∧
          favorable "CALL" samplePrediction.entryPrice price ≤ e.mfe + 1 / 20000 ∧
          -favorable "CALL" samplePrediction.entryPrice price ≤ e.mae + 1 / 20000 ∧
          ∀ realized, stoppedColumns.realizedR = some realized →
            ∃ risk mfeR maeR, stoppedColumns.initialRisk = some risk ∧ 0 < risk ∧
              stoppedColumns.mfeR = some mfeR ∧ stoppedColumns.maeR = some maeR ∧
                realized ≤ mfeR + (1 / 10000 + 1 / (20000 * risk)) ∧
                  -realized ≤ maeR + (1 / 10000 + 1 / (20000 * risk))) := by
  have hstart : AllCoherent sampleTracker.signals :=
    List.forall_mem_singleton.mpr ⟨rfl, by decide, by decide +kernel, by decide, by decide⟩
  have hrow : stopped ∈ (run (OutcomeOp.step sampleRuntime) sampleTracker [stop]).signals.rows := by
    decide +kernel
  exact exit_within_excursions hstart [stop] hrow ⟨rfl, rfl⟩
    (List.forall_mem_singleton.mpr (by decide +kernel)) sampleSignal.signalId "CALL"

end AutoTrade.Signals
