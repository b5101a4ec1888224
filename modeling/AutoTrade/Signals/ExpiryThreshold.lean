import AutoTrade.Signals.ExpiryRule

/-! # Expiry as a threshold in time

Where market days keep occurring, the loops over the calendar find the last
session of the horizon, and its close is the instant from which the check
without a price answers that the signal would expire.
-/

namespace AutoTrade.Signals

open AutoTrade.Library

section Runtime

variable {rt : SignalRuntime} {s : SystemSignal} {created : Int}

/-- Enough market days follow in the calendar, whose last day is `date.max`, for every horizon. -/
def MarketDaysFollow (rt : SignalRuntime) (created : Int) : Prop :=
  5 ≤ countTradingDays rt created maxOrdinal

/-- The close of the last session lies at or before the time. -/
def HorizonEnded (last : Int) (now : Time) : Prop :=
  last < dayOf now ∨ last = dayOf now ∧ marketCloseTime ≤ clock now

/-- The loop over the calendar ends: the gap to the next market day bounds it. -/
theorem exists_marketDayAfter {n : Nat} (follow : n ≤ countTradingDays rt created maxOrdinal) :
    ∃ last, marketDayAfter rt n (maxOrdinal - created).toNat created = some last := by
  cases h : marketDayAfter rt n (maxOrdinal - created).toNat created with
  | some last => exact ⟨last, rfl⟩
  | none =>
      have hfew := countTradingDays_lt_of_none h (e := maxOrdinal) (by omega)
      omega

theorem exists_expiryDay (s : SystemSignal) (follow : MarketDaysFollow rt created) :
    ∃ last, expiryDay rt s created = some last := by
  have hone : 1 ≤ countTradingDays rt created maxOrdinal := le_trans (by decide) follow
  unfold expiryDay
  dsimp only
  split
  · split
    · exact exists_marketDayAfter hone
    · exact ⟨created, rfl⟩
  · exact exists_marketDayAfter follow

/-- A non-terminal signal is always classified, one way or the other. -/
theorem checkSignalExpiry_open (hopen : s.alreadyTerminal = false)
    (hcreated : createdOn rt s = some created) (follow : MarketDaysFollow rt created)
    (now : Time) : checkSignalExpiry rt s now = .ok .wouldExpire ∨
      checkSignalExpiry rt s now = .ok .wouldRemainActive := by
  obtain ⟨last, hlast⟩ := exists_expiryDay s follow
  unfold checkSignalExpiry
  rw [hcreated]
  dsimp only
  rw [hlast]
  dsimp only
  rw [hopen, if_neg Bool.false_ne_true]
  split
  · exact .inl rfl
  · exact .inr rfl

theorem dayOf_mono {now later : Time} (h : now ≤ later) : dayOf now ≤ dayOf later :=
  Int.ediv_le_ediv (by decide) h

theorem clock_mono {now later : Time} (h : now ≤ later) (hday : dayOf now = dayOf later) :
    clock now ≤ clock later := by
  have hsplit : ∀ t : Time, clock t = t - day * dayOf t := fun t => Int.emod_def t day
  rw [hsplit, hsplit, hday]
  exact sub_le_sub_right h _

/-- Once over, the horizon stays over. -/
theorem wouldExpire_mono (hopen : s.alreadyTerminal = false)
    (hcreated : createdOn rt s = some created) {now later : Time} (h : now ≤ later)
    (hnow : checkSignalExpiry rt s now = .ok .wouldExpire) :
    checkSignalExpiry rt s later = .ok .wouldExpire := by
  rw [wouldExpire_iff hopen hcreated] at hnow ⊢
  obtain ⟨last, hlast, hover⟩ := hnow
  refine ⟨last, hlast, ?_⟩
  have hday := dayOf_mono h
  rcases hover with hlt | ⟨heq, hclose⟩
  · exact .inl (hlt.trans_le hday)
  · rcases hday.lt_or_eq with hlt | hsame
    · exact .inl (heq ▸ hlt)
    · obtain ⟨hmarket, hclock⟩ := (pastMarketClose_iff now).mp hclose
      refine .inr ⟨heq.trans hsame, (pastMarketClose_iff later).mpr ⟨hsame ▸ hmarket, ?_⟩⟩
      exact hclock.trans (clock_mono h hsame)

/-- The last session found is the only market day with its count. -/
theorem marketDayAfter_unique {n left : Nat} {last : Int}
    (h : marketDayAfter rt (n + 1) left created = some last) (e : Int) :
    (rt.isMarketDay e = true ∧ countTradingDays rt created e = n + 1) ↔ e = last := by
  obtain ⟨hle, hcount, hmarket⟩ := marketDayAfter_spec h
  have hlast : rt.isMarketDay last = true := hmarket (Nat.succ_ne_zero n)
  constructor
  · rintro ⟨he, hsame⟩
    have hafter : created ≤ e := by
      by_contra hbefore
      rw [countTradingDays_of_le (not_le.mp hbefore).le] at hsame
      omega
    exact (((le_iff_countTradingDays hle hcount hlast hafter).2 he).mpr hsame).symm
  · rintro rfl
    exact ⟨hlast, hcount⟩

/-- A swing signal expires exactly from the close of the fifth market day after its creation. -/
theorem swing_wouldExpire_iff (hopen : s.alreadyTerminal = false)
    (hcreated : createdOn rt s = some created) (hswing : s.isIntraday = false)
    (follow : MarketDaysFollow rt created) :
    ∃ d, created < d ∧
      (∀ e, (rt.isMarketDay e = true ∧ countTradingDays rt created e = 5) ↔ e = d) ∧
        ∀ now, checkSignalExpiry rt s now = .ok .wouldExpire ↔ HorizonEnded d now := by
  obtain ⟨d, hd⟩ := exists_marketDayAfter follow
  have hunique := marketDayAfter_unique hd
  obtain ⟨hmarket, hcount⟩ := (hunique d).mpr rfl
  have hexpiry : expiryDay rt s created = some d := by
    unfold expiryDay
    dsimp only
    rw [hswing, if_neg Bool.false_ne_true]
    exact hd
  refine ⟨d, ?_, hunique, fun now => ?_⟩
  · by_contra hle
    rw [countTradingDays_of_le (not_lt.mp hle)] at hcount
    cases hcount
  · rw [wouldExpire_iff hopen hcreated, hexpiry]
    simp only [Option.some.injEq, exists_eq_left', pastMarketClose_iff, HorizonEnded]
    refine or_congr_right (and_congr_right fun heq => ?_)
    rw [← heq, hmarket]
    exact and_iff_right rfl

/-- Where market days keep occurring, the check of a non-terminal signal answers, never takes its
answer back, and for a swing signal turns at the close of the fifth market day. -/
theorem expiry_is_threshold (hopen : s.alreadyTerminal = false)
    (hcreated : createdOn rt s = some created) (follow : MarketDaysFollow rt created) :
    (∀ now, checkSignalExpiry rt s now = .ok .wouldExpire ∨
        checkSignalExpiry rt s now = .ok .wouldRemainActive) ∧
      (∀ now later, now ≤ later → checkSignalExpiry rt s now = .ok .wouldExpire →
        checkSignalExpiry rt s later = .ok .wouldExpire) ∧
      (s.isIntraday = false → ∃ d, created < d ∧
        (∀ e, (rt.isMarketDay e = true ∧ countTradingDays rt created e = 5) ↔ e = d) ∧
          ∀ now, checkSignalExpiry rt s now = .ok .wouldExpire ↔ HorizonEnded d now) :=
  ⟨checkSignalExpiry_open hopen hcreated follow,
    fun _ _ h hnow => wouldExpire_mono hopen hcreated h hnow,
    fun hswing => swing_wouldExpire_iff hopen hcreated hswing follow⟩

end Runtime

/-- A swing signal of a Friday, with weekends alone without sessions. -/
theorem expiry_is_threshold_friday :
    (∀ now, checkSignalExpiry sampleRuntime sampleSignal now = .ok .wouldExpire ∨
        checkSignalExpiry sampleRuntime sampleSignal now = .ok .wouldRemainActive) ∧
      (∀ now later, now ≤ later →
        checkSignalExpiry sampleRuntime sampleSignal now = .ok .wouldExpire →
          checkSignalExpiry sampleRuntime sampleSignal later = .ok .wouldExpire) ∧
      (sampleSignal.isIntraday = false → ∃ d, 738890 < d ∧
        (∀ e, (sampleRuntime.isMarketDay e = true ∧
          countTradingDays sampleRuntime 738890 e = 5) ↔ e = d) ∧
          ∀ now, checkSignalExpiry sampleRuntime sampleSignal now = .ok .wouldExpire ↔
            HorizonEnded d now) := by
  refine expiry_is_threshold (by decide) (by decide +kernel) ?_
  have hweek : countTradingDays sampleRuntime 738890 738897 = 5 := by decide +kernel
  exact hweek.symm.le.trans (countTradingDays_mono (by decide) (by decide))

end AutoTrade.Signals
