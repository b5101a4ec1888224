import AutoTrade.Signals.GradingLaws

/-! # Two expiry rules

The holding horizon is written out twice: a bar without a touch expires a signal
by the sessions counted up to the day of the evaluation, and the check without a
price by the close of the session it looks up. They differ on the last session
before its close, and on days without a session.
-/

namespace AutoTrade.Signals

open AutoTrade.Library

section Runtime

variable {rt : SignalRuntime}

/-! ## Counting sessions -/

theorem countTradingDays_add {a b c : Int} (hab : a ≤ b) (hbc : b ≤ c) :
    countTradingDays rt a c = countTradingDays rt a b + countTradingDays rt b c := by
  obtain ⟨m, rfl⟩ := Int.le.dest hab
  obtain ⟨n, rfl⟩ := Int.le.dest hbc
  have hm : (a + m - a).toNat = m := by omega
  have hn : (a + m + n - (a + m)).toNat = n := by omega
  have hmn : (a + m + n - a).toNat = m + n := by omega
  unfold countTradingDays
  rw [hm, hn, hmn, List.range_add, List.filter_append, List.length_append, List.filter_map,
    List.length_map]
  congr 2
  refine List.filter_congr fun k _ => ?_
  simp only [Function.comp_apply, Nat.cast_add]
  congr 1
  omega

theorem countTradingDays_next (d : Int) :
    countTradingDays rt d (d + 1) = if rt.isMarketDay (d + 1) then 1 else 0 := by
  have hone : (d + 1 - d).toNat = 1 := by omega
  unfold countTradingDays
  rw [hone]
  cases h : rt.isMarketDay (d + 1) <;> simp [h]

theorem countTradingDays_self (d : Int) : countTradingDays rt d d = 0 := by
  simp [countTradingDays]

theorem countTradingDays_mono {a b c : Int} (hab : a ≤ b) (hbc : b ≤ c) :
    countTradingDays rt a b ≤ countTradingDays rt a c := by
  rw [countTradingDays_add hab hbc]
  exact Nat.le_add_right _ _

/-- A session that ends an interval counts. -/
theorem countTradingDays_lt {a b c : Int} (hab : a ≤ b) (hbc : b < c)
    (hc : rt.isMarketDay c = true) : countTradingDays rt a b < countTradingDays rt a c := by
  have hlast := @countTradingDays_next rt (c - 1)
  rw [show c - 1 + 1 = c by omega, if_pos hc] at hlast
  have hsplit := @countTradingDays_add rt a (c - 1) c (by omega) (by omega)
  have hmono := @countTradingDays_mono rt a b (c - 1) hab (by omega)
  omega

/-- The session looked up is the one that brings the count to its number. -/
theorem marketDayAfter_spec {n left : Nat} {d last : Int}
    (h : marketDayAfter rt n left d = some last) :
    d ≤ last ∧ countTradingDays rt d last = n ∧ (n ≠ 0 → rt.isMarketDay last = true) := by
  induction n, left, d using marketDayAfter.induct rt with
  | case1 left d =>
      obtain rfl : d = last := by simpa [marketDayAfter] using h
      exact ⟨le_refl d, countTradingDays_self d, fun hne => absurd rfl hne⟩
  | case2 n d => simp [marketDayAfter] at h
  | case3 n left d hopen ih =>
      rw [marketDayAfter, if_pos hopen] at h
      obtain ⟨hle, hcount, hlast⟩ := ih h
      have hnext := @countTradingDays_next rt d
      rw [if_pos hopen] at hnext
      refine ⟨by omega, ?_, fun _ => ?_⟩
      · rw [countTradingDays_add (b := d + 1) (by omega) hle, hnext, hcount]
        omega
      · by_cases hn : n = 0
        · subst hn
          have hsame : last = d + 1 := by simpa [marketDayAfter] using h.symm
          rw [hsame]
          exact hopen
        · exact hlast hn
  | case4 n left d hclosed ih =>
      rw [marketDayAfter, if_neg hclosed] at h
      obtain ⟨hle, hcount, hlast⟩ := ih h
      have hnext := @countTradingDays_next rt d
      rw [if_neg hclosed] at hnext
      refine ⟨by omega, ?_, hlast⟩
      rw [countTradingDays_add (b := d + 1) (by omega) hle, hnext, hcount, Nat.zero_add]

/-- Without one the calendar has fewer sessions left. -/
theorem countTradingDays_lt_of_none {n left : Nat} {d : Int}
    (h : marketDayAfter rt n left d = none) {e : Int} (he : e ≤ d + left) :
    countTradingDays rt d e < n := by
  induction n, left, d using marketDayAfter.induct rt with
  | case1 left d => simp [marketDayAfter] at h
  | case2 n d =>
      have hnone : (e - d).toNat = 0 := by omega
      simp [countTradingDays, hnone]
  | case3 n left d hopen ih =>
      rw [marketDayAfter, if_pos hopen] at h
      by_cases hle : d + 1 ≤ e
      · have hrest := ih h (by push_cast at he; omega)
        rw [countTradingDays_add (b := d + 1) (by omega) hle, countTradingDays_next, if_pos hopen]
        omega
      · have hnone : (e - d).toNat = 0 := by omega
        simp [countTradingDays, hnone]
  | case4 n left d hclosed ih =>
      rw [marketDayAfter, if_neg hclosed] at h
      by_cases hle : d + 1 ≤ e
      · have hrest := ih h (by push_cast at he; omega)
        rw [countTradingDays_add (b := d + 1) (by omega) hle, countTradingDays_next, if_neg hclosed]
        omega
      · have hnone : (e - d).toNat = 0 := by omega
        simp [countTradingDays, hnone]

/-- A day reaches the last session as its count reaches the number of sessions. -/
theorem le_iff_countTradingDays {n : Nat} {d last e : Int} (hle : d ≤ last)
    (hcount : countTradingDays rt d last = n) (hlast : rt.isMarketDay last = true) (hde : d ≤ e) :
    (last ≤ e ↔ n ≤ countTradingDays rt d e) ∧
      (rt.isMarketDay e = true → (last = e ↔ countTradingDays rt d e = n)) := by
  have hafter : last ≤ e → n ≤ countTradingDays rt d e := fun h =>
    hcount.symm.trans_le (countTradingDays_mono hle h)
  have hbefore : e < last → countTradingDays rt d e < n := fun h =>
    (countTradingDays_lt hde h hlast).trans_eq hcount
  refine ⟨⟨hafter, fun h => ?_⟩, fun hopen => ⟨?_, fun h => ?_⟩⟩
  · by_contra hlt
    exact absurd (hbefore (not_le.mp hlt)) (not_lt.mpr h)
  · rintro rfl
    exact hcount
  · rcases lt_trichotomy last e with hlt | heq | hlt
    · have hmore := countTradingDays_lt hle hlt hopen
      omega
    · exact heq
    · have hless := hbefore hlt
      omega

/-! ## Where the rules differ -/

/-- The sessions after the day of creation; an intraday signal that is not created near the close
has none. -/
def SystemSignal.sessions (s : SystemSignal) : Nat := if s.isIntraday then 1 else 5

def endsOnItsDay (rt : SignalRuntime) (s : SystemSignal) : Bool :=
  s.isIntraday && !nearCloseCreated rt s

/-- On a day without a session the bar expires nothing, and on the last session it does not wait for
the close. -/
def ExpiryDiffers (rt : SignalRuntime) (s : SystemSignal) (created : Int) (now : Time) : Prop :=
  if endsOnItsDay rt s then rt.isMarketDay (dayOf now) = false ∧ created < dayOf now
  else if rt.isMarketDay (dayOf now) then
    countTradingDays rt created (dayOf now) = s.sessions ∧ clock now < marketCloseTime
  else s.sessions ≤ countTradingDays rt created (dayOf now)

/-- The bar expires the signal exactly when the check does, and before the close of its last session
it does not. -/
structure OneExpiryRule (rt : SignalRuntime) (s : SystemSignal) (created : Int) (now : Time)
    (e : SignalEvaluationResult) : Prop where
  agree : e.newStatus = some .expired ↔ checkSignalExpiry rt s now = .ok .wouldExpire
  survives : endsOnItsDay rt s = false → ∀ last, created ≤ last → rt.isMarketDay last = true →
    countTradingDays rt created last = s.sessions →
    dayOf now < last ∨ dayOf now = last ∧ clock now < marketCloseTime → e.newStatus ≠ some .expired

theorem expired_iff {s : SystemSignal} (habsent : s.firstTouch = .absent) {bar : SignalBar}
    {now : Time} {checkStaleness : Bool} (haccepts : acceptsBar s bar now checkStaleness = true)
    (hsl : (barrierHits s bar).sl = false) (ht1 : (barrierHits s bar).t1 = false)
    (ht2 : (barrierHits s bar).t2 = false) :
    (evaluateBar rt s bar now checkStaleness).newStatus = some .expired ↔
      rt.isMarketDay (dayOf now) = true ∧ horizonOver rt s now = true := by
  have htransition := @evaluateBar_transition rt s bar now checkStaleness
  rw [if_pos haccepts, transition, if_pos habsent, hsl, ht1, ht2] at htransition
  have hstatus := congrArg Transition.newStatus htransition
  rw [← Bool.and_eq_true]
  cases hover : rt.isMarketDay (dayOf now) && horizonOver rt s now with
  | true =>
      rw [hover] at hstatus
      exact iff_of_true hstatus rfl
  | false =>
      rw [hover] at hstatus
      have hnone : (evaluateBar rt s bar now checkStaleness).newStatus = none := hstatus
      rw [hnone]
      simp

theorem wouldExpire_iff {s : SystemSignal} (hopen : s.alreadyTerminal = false) {created : Int}
    (hcreated : createdOn rt s = some created) (now : Time) :
    checkSignalExpiry rt s now = .ok .wouldExpire ↔
      ∃ last, expiryDay rt s created = some last ∧
        (last < dayOf now ∨ last = dayOf now ∧ pastMarketClose rt now = true) := by
  unfold checkSignalExpiry
  rw [hcreated]
  dsimp only
  cases expiryDay rt s created with
  | none => simp
  | some last =>
      dsimp only
      rw [hopen, if_neg Bool.false_ne_true]
      by_cases h : last < dayOf now ∨ last = dayOf now ∧ pastMarketClose rt now = true
      · rw [if_pos (by simpa using h)]
        exact iff_of_true rfl ⟨last, rfl, h⟩
      · rw [if_neg (by simpa using h)]
        refine iff_of_false (by simp) ?_
        rintro ⟨_, hlast, hover⟩
        exact h (Option.some.inj hlast ▸ hover)

theorem countTradingDays_of_le {a b : Int} (h : b ≤ a) : countTradingDays rt a b = 0 := by
  have hnone : (b - a).toNat = 0 := by omega
  simp [countTradingDays, hnone]

theorem expiryDay_of_sessions {s : SystemSignal} (h : endsOnItsDay rt s = false) (created : Int) :
    expiryDay rt s created = marketDayAfter rt s.sessions (maxOrdinal - created).toNat created := by
  unfold endsOnItsDay at h
  unfold expiryDay SystemSignal.sessions
  cases hintraday : s.isIntraday with
  | true =>
      have hnear : nearCloseCreated rt s = true := by simpa [hintraday] using h
      simp [hnear]
  | false => simp

/-- On a session the horizon is over once it has as many sessions. -/
theorem horizonOver_iff {s : SystemSignal} (h : endsOnItsDay rt s = false) {created : Int}
    (hcreated : createdOn rt s = some created) {now : Time}
    (hopen : rt.isMarketDay (dayOf now) = true) :
    horizonOver rt s now = true ↔ s.sessions ≤ countTradingDays rt created (dayOf now) := by
  unfold endsOnItsDay at h
  unfold horizonOver SystemSignal.sessions
  rw [hcreated, Option.getD_some]
  cases hintraday : s.isIntraday with
  | true =>
      have hnear : nearCloseCreated rt s = true := by simpa [hintraday] using h
      simp only [if_true, hnear, Bool.not_true, Bool.and_false, Bool.or_false, decide_eq_true_eq]
      constructor
      · intro hlt
        have hmore := @countTradingDays_lt rt _ _ _ (le_refl created) hlt hopen
        omega
      · intro hcount
        by_contra hle
        rw [countTradingDays_of_le (not_lt.mp hle)] at hcount
        omega
  | false => simp

theorem pastMarketClose_iff (now : Time) : pastMarketClose rt now = true ↔
    rt.isMarketDay (dayOf now) = true ∧ marketCloseTime ≤ clock now := by
  simp [pastMarketClose]

/-- The two rules, told apart by the day of the evaluation. -/
theorem rules_agree_iff {s : SystemSignal} {created : Int}
    (hcreated : createdOn rt s = some created) {now : Time} (hnow : dayOf now ≤ maxOrdinal) :
    ((rt.isMarketDay (dayOf now) = true ∧ horizonOver rt s now = true ↔
      ∃ last, expiryDay rt s created = some last ∧
        (last < dayOf now ∨ last = dayOf now ∧ pastMarketClose rt now = true))) ↔
      ¬ ExpiryDiffers rt s created now := by
  unfold ExpiryDiffers
  cases hday : endsOnItsDay rt s with
  | true =>
      unfold endsOnItsDay at hday
      rw [Bool.and_eq_true, Bool.not_eq_true'] at hday
      obtain ⟨hintraday, hnear⟩ := hday
      have hlast : expiryDay rt s created = some created := by
        simp [expiryDay, hintraday, hnear]
      have hover : horizonOver rt s now = true ↔
          created < dayOf now ∨ created = dayOf now ∧ pastMarketClose rt now = true := by
        simp [horizonOver, hintraday, hnear, hcreated]
      rw [hlast, hover, if_pos rfl]
      simp only [Option.some.injEq, exists_eq_left', pastMarketClose_iff]
      cases rt.isMarketDay (dayOf now) <;> simp
  | false =>
      rw [expiryDay_of_sessions hday, if_neg Bool.false_ne_true]
      have hnonzero : s.sessions ≠ 0 := by
        unfold SystemSignal.sessions
        split <;> omega
      cases hlast : marketDayAfter rt s.sessions (maxOrdinal - created).toNat created with
      | none =>
          have hfew : countTradingDays rt created (dayOf now) < s.sessions :=
            countTradingDays_lt_of_none hlast (by omega)
          cases hopen : rt.isMarketDay (dayOf now) with
          | true =>
              rw [horizonOver_iff hday hcreated hopen]
              simp [hfew]
              omega
          | false => simp [hfew]
      | some last =>
          obtain ⟨hle, hcount, hclose⟩ := marketDayAfter_spec hlast
          simp only [Option.some.injEq, exists_eq_left', pastMarketClose_iff]
          by_cases hfuture : dayOf now < created
          · have hzero := @countTradingDays_of_le rt _ _ hfuture.le
            cases hopen : rt.isMarketDay (dayOf now) with
            | true =>
                rw [horizonOver_iff hday hcreated hopen, hzero]
                simp
                omega
            | false =>
                rw [hzero]
                simp
                omega
          · obtain ⟨hreached, hlastday⟩ := le_iff_countTradingDays hle hcount (hclose hnonzero)
              (not_lt.mp hfuture)
            cases hopen : rt.isMarketDay (dayOf now) with
            | true =>
                rw [horizonOver_iff hday hcreated hopen, ← hreached, ← hlastday hopen]
                rcases lt_trichotomy last (dayOf now) with hlt | heq | hgt
                · simp [hlt, hlt.le, hlt.ne]
                · simp [heq]
                · simp [hgt.not_ge, hgt.not_gt, hgt.ne']
            | false =>
                rw [← hreached]
                have hne : last ≠ dayOf now := by
                  rintro rfl
                  rw [hclose hnonzero] at hopen
                  cases hopen
                simp
                omega

/-- The rules agree, and no signal ends before the close of its last session, exactly where they do
not differ. -/
theorem one_expiry_rule_iff {s : SystemSignal} (habsent : s.firstTouch = .absent)
    (hactive : s.status = .active) {created : Int} (hcreated : createdOn rt s = some created)
    {bar : SignalBar} {now : Time} {checkStaleness : Bool}
    (haccepts : acceptsBar s bar now checkStaleness = true)
    (hsl : (barrierHits s bar).sl = false) (ht1 : (barrierHits s bar).t1 = false)
    (ht2 : (barrierHits s bar).t2 = false) (hnow : dayOf now ≤ maxOrdinal) :
    OneExpiryRule rt s created now (evaluateBar rt s bar now checkStaleness) ↔
      ¬ ExpiryDiffers rt s created now := by
  have hopen : s.alreadyTerminal = false := by
    simp [SystemSignal.alreadyTerminal, habsent, hactive]
  have hagree : ((evaluateBar rt s bar now checkStaleness).newStatus = some .expired ↔
      checkSignalExpiry rt s now = .ok .wouldExpire) ↔ ¬ ExpiryDiffers rt s created now := by
    rw [expired_iff habsent haccepts hsl ht1 ht2, wouldExpire_iff hopen hcreated]
    exact rules_agree_iff hcreated hnow
  constructor
  · intro h
    exact hagree.mp h.agree
  · intro hsame
    refine ⟨hagree.mpr hsame, fun hday last hle hlast hcount hbefore hexpired => ?_⟩
    obtain ⟨hmarket, hover⟩ := (expired_iff habsent haccepts hsl ht1 ht2).mp hexpired
    rw [horizonOver_iff hday hcreated hmarket] at hover
    have hpositive : 0 < s.sessions := by
      unfold SystemSignal.sessions
      split <;> omega
    have hafter : created ≤ dayOf now := by
      by_contra hfuture
      rw [countTradingDays_of_le (not_le.mp hfuture).le] at hover
      omega
    obtain ⟨hreached, hlastday⟩ := le_iff_countTradingDays hle hcount hlast hafter
    have hlt : ¬ dayOf now < last := not_lt.mpr (hreached.mpr hover)
    obtain ⟨hsameday, hclock⟩ := hbefore.resolve_left hlt
    unfold ExpiryDiffers at hsame
    rw [if_neg (by simp [hday]), if_pos hmarket] at hsame
    exact hsame ⟨(hlastday hmarket).mp hsameday.symm, hclock⟩

end Runtime

/-! ## The fifth session -/

/-- At a time of the fifth session after the sample signal's day, in minutes after nine. -/
def fifthSessionAt (minutes : Int) : Time := fridayAt minutes + 7 * day

def calmBar : SignalBar := ⟨100, 105, 95, 100, "2024-01-12", none⟩

/-- After the close of the fifth session both rules expire the signal. -/
theorem one_expiry_rule_iff_closed :
    OneExpiryRule sampleRuntime sampleSignal 738890 (fifthSessionAt 400)
      (evaluateBar sampleRuntime sampleSignal calmBar (fifthSessionAt 400) false) := by
  refine (one_expiry_rule_iff (by decide) (by decide) (by decide +kernel) (by decide +kernel)
    (by decide +kernel) (by decide +kernel) (by decide +kernel) (by decide +kernel)).mpr ?_
  unfold ExpiryDiffers
  decide +kernel

/-- At ten in the morning of the fifth session a bar expires the signal, and the check does not. -/
theorem expired_before_close :
    ¬ OneExpiryRule sampleRuntime sampleSignal 738890 (fifthSessionAt 60)
      (evaluateBar sampleRuntime sampleSignal calmBar (fifthSessionAt 60) false) := by
  intro h
  refine h.survives (by decide +kernel) 738897 (by decide) (by decide +kernel) (by decide +kernel)
    (.inr (by decide +kernel)) ?_
  decide +kernel

end AutoTrade.Signals
