import AutoTrade.Market.ExchangeCalendar

/-! # Three answers about a session

The status of the market and the two queries about a category each go through
holidays, Muhurat sessions and half days on their own. They agree unless the
configuration names a Muhurat session, whose times are missing; the day of a
listed Muhurat session is also a market day; or a half day is over, which the
state of a category does not know.
-/

namespace AutoTrade.Market

open AutoTrade.Library

namespace EventCalendar

/-! ## The session of a day -/

/-- Every day has one session at most, and a Muhurat session has the exchange's times or none. -/
structure SessionsOk (sessions : List SpecialSession) : Prop where
  nodup : (sessions.map SpecialSession.date).Nodup
  muhurat : ∀ s ∈ sessions, s.type = .muhurat →
    s.times = .ok (muhuratOpen, muhuratClose) ∨ s.times = .error noneComparison

theorem sessionsOk_listed (year : Int) :
    SessionsOk ((nseHalfDays year).foldl addHalfDay
      ((nseSpecialSessions year).map listedSession)) := by
  by_cases hyear : year = 2025
  · subst hyear
    exact ⟨by decide +kernel, fun s hs htype => .inl (by revert s; decide +kernel)⟩
  · unfold nseHalfDays nseSpecialSessions
    rw [if_neg hyear, if_neg hyear]
    exact ⟨List.nodup_nil, fun s hs => by cases hs⟩

theorem SessionsOk.addEvent {sessions : List SpecialSession} (ok : SessionsOk sessions)
    (event : EventDate) : SessionsOk (addEvent sessions event) := by
  unfold Market.addEvent
  split
  · rename_i type day _ _
    split
    · exact ok
    · rename_i hfresh
      simp only [List.any_eq_true, decide_eq_true_eq, not_exists, not_and] at hfresh
      refine ⟨?_, ?_⟩
      · rw [List.map_append, List.map_singleton, List.nodup_append]
        refine ⟨ok.nodup, List.nodup_singleton _, ?_⟩
        rintro d hd _ hlast rfl
        obtain ⟨s, hs, rfl⟩ := List.mem_map.mp hd
        exact hfresh s hs (List.mem_singleton.mp hlast)
      · intro s hs htype
        rcases List.mem_append.mp hs with hold | hnew
        · exact ok.muhurat s hold htype
        · rw [List.mem_singleton.mp hnew]
          exact .inr rfl
  · exact ok

theorem sessionsOk (cal : EventCalendar) (year : Int) :
    SessionsOk (cal.getSpecialSessions year) := by
  have hall : ∀ (events : List EventDate) (sessions : List SpecialSession), SessionsOk sessions →
      SessionsOk (events.foldl addEvent sessions) := by
    intro events
    induction events with
    | nil => exact fun _ ok => ok
    | cons event rest ih => exact fun sessions ok => ih _ (ok.addEvent event)
  have hok := hall cal.cfg.eventDates _ (sessionsOk_listed year)
  have hperm := List.mergeSort_perm (cal.cfg.eventDates.foldl addEvent
    ((nseHalfDays year).foldl addHalfDay ((nseSpecialSessions year).map listedSession)))
    fun s s' => decide (s.date ≤ s'.date)
  exact ⟨(hperm.map SpecialSession.date).nodup_iff.mpr hok.nodup,
    fun s hs => hok.muhurat s (hperm.mem_iff.mp hs)⟩

/-- The special session of a day. -/
def sessionOn (cal : EventCalendar) (day : Int) : Option SpecialSession :=
  (cal.getSpecialSessions (yearOf day)).find? fun s => decide (s.date = day)

/-- Where every day has one session at most, a further test filters the session of the day. -/
theorem find?_date_and {sessions : List SpecialSession}
    (nodup : (sessions.map SpecialSession.date).Nodup) (day : Int) (p : SpecialSession → Bool) :
    (sessions.find? fun s => decide (s.date = day) && p s) =
      (sessions.find? fun s => decide (s.date = day)).filter p := by
  induction sessions with
  | nil => rfl
  | cons s rest ih =>
      obtain ⟨hs, hrest⟩ := List.nodup_cons.mp nodup
      by_cases hday : s.date = day
      · have hlater : (rest.find? fun x => decide (x.date = day) && p x) = none := by
          rw [List.find?_eq_none]
          intro x hx hmatch
          simp only [Bool.and_eq_true, decide_eq_true_eq] at hmatch
          exact hs (List.mem_map.mpr ⟨x, hx, hmatch.1.trans hday.symm⟩)
        cases hp : p s with
        | true => simp [Option.filter_some, hday, hp]
        | false => simp [Option.filter_some, hday, hp, hlater]
      · simp [hday, ih hrest]

section Day

variable {cal : EventCalendar} {now : DateTime}

theorem muhuratSession_eq (cal : EventCalendar) (day : Int) :
    cal.muhuratSession day = (cal.sessionOn day).filter fun s => decide (s.type = .muhurat) := by
  unfold muhuratSession sessionOn
  rw [← find?_date_and (cal.sessionsOk _).nodup]
  congr 1
  funext s
  exact Bool.decide_and _ _

theorem any_date_and (cal : EventCalendar) (day : Int) (type : SessionType) :
    ((cal.getSpecialSessions (yearOf day)).any fun s => decide (s.date = day ∧ s.type = type)) =
      (cal.sessionOn day).any fun s => decide (s.type = type) := by
  have hfind := find?_date_and (cal.sessionsOk (yearOf day)).nodup day
    fun s => decide (s.type = type)
  rw [← List.isSome_find?]
  simp only [Bool.decide_and]
  rw [hfind]
  unfold sessionOn
  cases (cal.getSpecialSessions (yearOf day)).find? fun s => decide (s.date = day) with
  | none => rfl
  | some s =>
      rw [Option.filter_some, Option.any_some]
      cases decide (s.type = type) <;> rfl

theorem isMuhuratTrading_eq (cal : EventCalendar) (day : Int) : cal.isMuhuratTrading day =
    (cal.sessionOn day).any fun s => decide (s.type = .muhurat) :=
  cal.any_date_and day .muhurat

theorem isHalfDay_eq (cal : EventCalendar) (day : Int) : cal.isHalfDay day =
    (cal.sessionOn day).any fun s => decide (s.type = .halfDay) :=
  cal.any_date_and day .halfDay

/-- The status goes by the session of the day alone. -/
theorem specialStatus_eq {sessions : List SpecialSession}
    (nodup : (sessions.map SpecialSession.date).Nodup) (now : DateTime) :
    specialStatus now sessions =
      (sessions.find? fun s => decide (s.date = now.date)).bind fun s =>
        specialStatus now [s] := by
  induction sessions with
  | nil => rfl
  | cons s rest ih =>
      obtain ⟨hs, hrest⟩ := List.nodup_cons.mp nodup
      by_cases hday : s.date = now.date
      · have hlater : specialStatus now rest = none := by
          rw [ih hrest, List.find?_eq_none.mpr]
          · rfl
          · intro x hx hmatch
            exact hs (List.mem_map.mpr ⟨x, hx, (decide_eq_true_eq.mp hmatch).trans hday.symm⟩)
        rw [List.find?_cons_of_pos (by simpa using hday), Option.bind_some]
        unfold specialStatus
        rw [if_neg (not_not.mpr hday), if_neg (not_not.mpr hday), hlater]
        cases s.type <;> rfl
      · rw [List.find?_cons_of_neg (by simpa using hday), ← ih hrest]
        rw [specialStatus, if_pos hday]

theorem getExtendedStatus_eq (cal : EventCalendar) (now : DateTime) :
    cal.getExtendedStatus now =
      match cal.sessionOn now.date with
      | none => .ok (MarketStatus.extended (cal.getMarketStatus now))
      | some s =>
          match s.type with
          | .muhurat => s.times.map fun t => sessionStatus .muhurat t.1 t.2 now.time
          | .halfDay => .ok (sessionStatus .halfDay nseOpen halfDayClose now.time)
          | .specialSession => .ok (MarketStatus.extended (cal.getMarketStatus now)) := by
  unfold getExtendedStatus
  rw [specialStatus_eq (cal.sessionsOk _).nodup]
  change (((cal.sessionOn now.date).bind _).getD _) = _
  cases hon : cal.sessionOn now.date with
  | none => rfl
  | some s =>
      have hday : s.date = now.date := by simpa using List.find?_some hon
      rw [Option.bind_some]
      unfold specialStatus
      rw [if_neg (not_not.mpr hday)]
      dsimp only
      cases s.type <;> rfl

end Day

/-! ## Hours -/

theorem placeIn_eq_open {opens closes time : Time} :
    placeIn opens closes time = .open ↔ opens ≤ time ∧ time ≤ closes := by
  unfold placeIn
  split
  · rename_i hbefore
    exact iff_of_false (by simp) fun h => absurd h.1 (not_le.mpr hbefore)
  · rename_i hfrom
    split
    · rename_i hto
      exact iff_of_true rfl ⟨not_lt.mp hfrom, hto⟩
    · rename_i hafter
      exact iff_of_false (by simp) fun h => hafter h.2

/-- Whatever the category, its hours are one of four. -/
theorem scheduleOf_cases (category : String) :
    scheduleOf category ∈ [equityHours, derivativeHours, currencyHours, commodityHours] := by
  unfold scheduleOf
  split
  · rename_i hours hlisted
    obtain ⟨before, after, hsplit, -⟩ := List.lookup_eq_some_iff.mp hlisted
    have hmem : hours ∈ categorySessionSchedules.map Prod.snd :=
      List.mem_map.mpr ⟨(category, hours), by simp [hsplit], rfl⟩
    revert hmem
    exact (by decide +kernel : ∀ h ∈ categorySessionSchedules.map Prod.snd,
      h ∈ [equityHours, derivativeHours, currencyHours, commodityHours]) hours
  · split
    · decide
    · split
      · decide
      · split
        · decide
        · decide

/-- Every category is open from the open of the equities to the close of a half day. -/
theorem scheduleOf_halfDay (category : String) :
    (scheduleOf category).opens ≤ nseOpen ∧ halfDayClose ≤ (scheduleOf category).closes :=
  (by decide : ∀ h ∈ [equityHours, derivativeHours, currencyHours, commodityHours],
    h.opens ≤ nseOpen ∧ halfDayClose ≤ h.closes) _ (scheduleOf_cases category)

def Within (hours : SessionSchedule) (time : Time) : Prop :=
  hours.opens ≤ time ∧ time ≤ hours.closes

instance (hours : SessionSchedule) (time : Time) : Decidable (Within hours time) :=
  inferInstanceAs (Decidable (_ ∧ _))

def halfDayHours : SessionSchedule := ⟨nseOpen, halfDayClose⟩

/-- The day is a half day, and the category closes early on half days. -/
def ClosesEarly (cal : EventCalendar) (category : String) (day : Int) : Prop :=
  cal.isHalfDay day = true ∧ category ∉ ["COMMODITIES", "COMMODITY"]

/-! ## The three answers -/

/-- The two queries about the category agree, the market has a status, and the equities trade only
under a status that says so. -/
structure AnswersAgree (cal : EventCalendar) (category : String) (now : DateTime) : Prop where
  same : cal.isCategorySessionOpen category now = .ok true ↔
    cal.getCategorySessionState category now = .ok .open
  answered : ∃ status, cal.getExtendedStatus now = .ok status
  equity : scheduleOf category = equityHours → cal.isCategorySessionOpen category now = .ok true →
    ∃ status ∈ [ExtendedMarketStatus.open, .halfDay, .muhurat],
      cal.getExtendedStatus now = .ok status

/-- The Muhurat session of the day has its times; the equities are not within their hours on a market
day with a Muhurat session; and a category within its hours on a half day that ends them early is
within those of the half day. -/
structure SessionsSettled (cal : EventCalendar) (category : String) (now : DateTime) : Prop where
  timed : ∀ s, cal.sessionOn now.date = some s → s.type = .muhurat →
    s.openTime.isSome ∧ s.closeTime.isSome
  muhuratDay : cal.isMarketDay now.date = true → cal.isMuhuratTrading now.date = true →
    scheduleOf category = equityHours → ¬ Within equityHours now.time
  halfDay : cal.isMarketDay now.date = true → cal.ClosesEarly category now.date →
    Within (scheduleOf category) now.time → Within halfDayHours now.time

section Answers

variable {cal : EventCalendar} {category : String} {now : DateTime}

theorem isOpen_marketDay (hmarket : cal.isMarketDay now.date = true) :
    cal.isCategorySessionOpen category now = .ok true ↔ Within (scheduleOf category) now.time ∧
      (cal.ClosesEarly category now.date → Within halfDayHours now.time) := by
  unfold isCategorySessionOpen
  rw [if_neg (not_not.mpr hmarket)]
  split
  · rename_i hearly
    have hhours := scheduleOf_halfDay category
    rw [Except.ok.injEq, decide_eq_true_eq]
    constructor
    · exact fun h => ⟨⟨hhours.1.trans h.1, h.2.trans hhours.2⟩, fun _ => h⟩
    · exact fun h => h.2 hearly
  · rename_i hlate
    rw [Except.ok.injEq, decide_eq_true_eq]
    exact ⟨fun h => ⟨h, fun hearly => absurd hearly hlate⟩, fun h => h.1⟩

theorem state_marketDay (hmarket : cal.isMarketDay now.date = true) :
    cal.getCategorySessionState category now = .ok .open ↔
      Within (scheduleOf category) now.time := by
  unfold getCategorySessionState
  rw [if_neg (not_not.mpr hmarket), Except.ok.injEq, placeIn_eq_open]
  rfl

/-- Off the market days both queries go by the Muhurat session. -/
theorem same_otherDay (hclosed : ¬ cal.isMarketDay now.date = true) :
    cal.isCategorySessionOpen category now = .ok true ↔
      cal.getCategorySessionState category now = .ok .open := by
  unfold isCategorySessionOpen getCategorySessionState
  rw [if_pos hclosed, if_pos hclosed]
  cases (if cal.isMuhuratTrading now.date = true then cal.muhuratSession now.date else none) with
  | none => exact iff_of_false (by simp) (by simp)
  | some s =>
      dsimp only
      cases s.times with
      | error e => exact iff_of_false (by simp [Except.map]) (by simp [Except.map])
      | ok t => simp [Except.map, placeIn_eq_open]

/-- Off the market days a category is open within the times of a Muhurat session only. -/
theorem isOpen_otherDay (hclosed : ¬ cal.isMarketDay now.date = true)
    (h : cal.isCategorySessionOpen category now = .ok true) :
    ∃ s t, cal.sessionOn now.date = some s ∧ s.type = .muhurat ∧ s.times = .ok t ∧
      t.1 ≤ now.time ∧ now.time ≤ t.2 := by
  unfold isCategorySessionOpen at h
  rw [if_pos hclosed, muhuratSession_eq] at h
  split at h
  · rename_i s hs
    have hsession :
        (cal.sessionOn now.date).filter (fun s => decide (s.type = .muhurat)) = some s := by
      by_cases hm : cal.isMuhuratTrading now.date = true
      · rwa [if_pos hm] at hs
      · rw [if_neg hm] at hs
        cases hs
    obtain ⟨hon, htype⟩ := Option.filter_eq_some_iff.mp hsession
    cases htimes : s.times with
    | error e =>
        rw [htimes] at h
        cases h
    | ok t =>
        rw [htimes] at h
        exact ⟨s, t, hon, decide_eq_true_eq.mp htype, htimes, by simpa [Except.map] using h⟩
  · cases h

theorem times_ok_iff (s : SpecialSession) :
    (∃ t, s.times = .ok t) ↔ s.openTime.isSome = true ∧ s.closeTime.isSome = true := by
  unfold SpecialSession.times
  cases s.openTime with
  | none => exact iff_of_false (fun ⟨_, h⟩ => by cases h) fun h => absurd h.1 (by simp)
  | some opens =>
      cases s.closeTime with
      | none => exact iff_of_false (fun ⟨_, h⟩ => by cases h) fun h => absurd h.2 (by simp)
      | some closes => exact iff_of_true ⟨_, rfl⟩ ⟨rfl, rfl⟩

/-- The market has a status unless its Muhurat session lacks its times. -/
theorem answered_iff : (∃ status, cal.getExtendedStatus now = .ok status) ↔
    ∀ s, cal.sessionOn now.date = some s → s.type = .muhurat →
      s.openTime.isSome = true ∧ s.closeTime.isSome = true := by
  rw [getExtendedStatus_eq]
  cases cal.sessionOn now.date with
  | none => exact iff_of_true ⟨_, rfl⟩ fun s hs => by cases hs
  | some s =>
      simp only [Option.some.injEq, forall_eq']
      cases htype : s.type with
      | muhurat =>
          rw [← times_ok_iff]
          cases s.times with
          | error e =>
              refine iff_of_false (fun ⟨_, h⟩ => by cases h) fun h => ?_
              obtain ⟨t, ht⟩ := h rfl
              cases ht
          | ok t => exact iff_of_true ⟨_, rfl⟩ fun _ => ⟨t, rfl⟩
      | halfDay => exact iff_of_true ⟨_, rfl⟩ fun h => by cases h
      | specialSession => exact iff_of_true ⟨_, rfl⟩ fun h => by cases h

theorem same_iff : (cal.isCategorySessionOpen category now = .ok true ↔
      cal.getCategorySessionState category now = .ok .open) ↔
    (cal.isMarketDay now.date = true → cal.ClosesEarly category now.date →
      Within (scheduleOf category) now.time → Within halfDayHours now.time) := by
  by_cases hmarket : cal.isMarketDay now.date = true
  · rw [isOpen_marketDay hmarket, state_marketDay hmarket]
    constructor
    · exact fun h _ hearly hwithin => (h.mpr hwithin).2 hearly
    · exact fun h => ⟨fun hopen => hopen.1, fun hwithin =>
        ⟨hwithin, fun hearly => h hmarket hearly hwithin⟩⟩
  · exact iff_of_true (same_otherDay hmarket) fun h => absurd h hmarket

/-- A day with a session is a Muhurat day or a half day by the type of that session. -/
theorem isMuhuratTrading_of_sessionOn {s : SpecialSession} (hon : cal.sessionOn now.date = some s) :
    cal.isMuhuratTrading now.date = decide (s.type = .muhurat) := by
  rw [isMuhuratTrading_eq, hon, Option.any_some]

theorem isHalfDay_of_sessionOn {s : SpecialSession} (hon : cal.sessionOn now.date = some s) :
    cal.isHalfDay now.date = decide (s.type = .halfDay) := by
  rw [isHalfDay_eq, hon, Option.any_some]

/-- Within the hours of the equities a market day without a Muhurat session is open. -/
theorem getMarketStatus_open (hmarket : cal.isMarketDay now.date = true)
    (hwithin : Within equityHours now.time) : cal.getMarketStatus now = .open := by
  obtain ⟨hfrom, hto⟩ : nseOpen ≤ now.time ∧ now.time ≤ nseClose := hwithin
  unfold getMarketStatus
  rw [if_neg (not_not.mpr hmarket), if_neg (not_lt.mpr hfrom), if_pos hto]

/-- The times of a Muhurat session that has any. -/
theorem muhurat_times {s : SpecialSession} (hon : cal.sessionOn now.date = some s)
    (htype : s.type = .muhurat) {t : Time × Time} (ht : s.times = .ok t) :
    t = (muhuratOpen, muhuratClose) := by
  rcases (cal.sessionsOk _).muhurat s (List.mem_of_find?_eq_some hon) htype with htimes | htimes
  · rw [htimes] at ht
    exact (Except.ok.inj ht).symm
  · rw [htimes] at ht
    cases ht

theorem getExtendedStatus_muhurat {s : SpecialSession} (hon : cal.sessionOn now.date = some s)
    (htype : s.type = .muhurat) {t : Time × Time} (ht : s.times = .ok t) :
    cal.getExtendedStatus now = .ok (sessionStatus .muhurat t.1 t.2 now.time) := by
  rw [getExtendedStatus_eq, hon]
  dsimp only
  rw [htype, ht]
  rfl

theorem getExtendedStatus_halfDay {s : SpecialSession} (hon : cal.sessionOn now.date = some s)
    (htype : s.type = .halfDay) :
    cal.getExtendedStatus now = .ok (sessionStatus .halfDay nseOpen halfDayClose now.time) := by
  rw [getExtendedStatus_eq, hon]
  dsimp only
  rw [htype]

theorem getExtendedStatus_base
    (h : ∀ s, cal.sessionOn now.date = some s → s.type = .specialSession) :
    cal.getExtendedStatus now = .ok (cal.getMarketStatus now).extended := by
  rw [getExtendedStatus_eq]
  cases hon : cal.sessionOn now.date with
  | none => rfl
  | some s =>
      dsimp only
      rw [h s hon]

/-- The equities close before a Muhurat session opens. -/
theorem sessionStatus_muhurat {time : Time} (hwithin : Within equityHours time) :
    sessionStatus .muhurat muhuratOpen muhuratClose time = .preMarket := by
  have hbefore : time < muhuratOpen := lt_of_le_of_lt hwithin.2 (by decide)
  unfold sessionStatus
  rw [if_neg fun h => absurd h.1 (not_le.mpr hbefore), if_pos hbefore]

/-- The market is open for equities within their hours, whichever status says so, unless the day has a
Muhurat session. -/
theorem trades_marketDay (hmarket : cal.isMarketDay now.date = true)
    (hequity : scheduleOf category = equityHours)
    (hopen : cal.isCategorySessionOpen category now = .ok true)
    (hmuhurat : ¬ cal.isMuhuratTrading now.date = true) :
    ∃ status ∈ [ExtendedMarketStatus.open, .halfDay, .muhurat],
      cal.getExtendedStatus now = .ok status := by
  obtain ⟨hwithin, hends⟩ := (isOpen_marketDay hmarket).mp hopen
  rw [hequity] at hwithin
  by_cases hhalf : ∃ s, cal.sessionOn now.date = some s ∧ s.type = .halfDay
  · obtain ⟨s, hon, htype⟩ := hhalf
    have hearly : cal.ClosesEarly category now.date := by
      refine ⟨by rw [isHalfDay_of_sessionOn hon, htype]; rfl, fun hlate => ?_⟩
      exact (by decide : ∀ c ∈ ["COMMODITIES", "COMMODITY"], scheduleOf c ≠ equityHours)
        category hlate hequity
    obtain ⟨hfrom, hto⟩ : nseOpen ≤ now.time ∧ now.time ≤ halfDayClose := hends hearly
    refine ⟨.halfDay, by decide, ?_⟩
    rw [getExtendedStatus_halfDay hon htype, sessionStatus, if_pos ⟨hfrom, hto⟩]
  · refine ⟨.open, by decide, ?_⟩
    rw [getExtendedStatus_base, getMarketStatus_open hmarket hwithin]
    · rfl
    · intro s hon
      rw [isMuhuratTrading_of_sessionOn hon, decide_eq_true_eq] at hmuhurat
      cases htype : s.type with
      | muhurat => exact absurd htype hmuhurat
      | halfDay => exact absurd ⟨s, hon, htype⟩ hhalf
      | specialSession => rfl

/-- On a market day with a Muhurat session the equities are open within their hours, and the status is
that before the session. -/
theorem status_muhuratDay (hmarket : cal.isMarketDay now.date = true)
    (hmuhurat : cal.isMuhuratTrading now.date = true) (hequity : scheduleOf category = equityHours)
    (hwithin : Within equityHours now.time)
    (timed : ∀ s, cal.sessionOn now.date = some s → s.type = .muhurat →
      s.openTime.isSome = true ∧ s.closeTime.isSome = true) :
    cal.isCategorySessionOpen category now = .ok true ∧
      cal.getExtendedStatus now = .ok .preMarket := by
  rw [isMuhuratTrading_eq, Option.any_eq_true] at hmuhurat
  obtain ⟨s, hon, htype⟩ := hmuhurat
  rw [decide_eq_true_eq] at htype
  obtain ⟨t, ht⟩ := (times_ok_iff s).mpr (timed s hon htype)
  constructor
  · refine (isOpen_marketDay hmarket).mpr ⟨hequity ▸ hwithin, fun hearly => ?_⟩
    have hhalf := hearly.1
    rw [isHalfDay_of_sessionOn hon, htype] at hhalf
    cases hhalf
  · rw [getExtendedStatus_muhurat hon htype ht, muhurat_times hon htype ht,
      sessionStatus_muhurat hwithin]

theorem trades_otherDay (hclosed : ¬ cal.isMarketDay now.date = true)
    (hopen : cal.isCategorySessionOpen category now = .ok true) :
    ∃ status ∈ [ExtendedMarketStatus.open, .halfDay, .muhurat],
      cal.getExtendedStatus now = .ok status := by
  obtain ⟨s, t, hon, htype, ht, hfrom, hto⟩ := isOpen_otherDay hclosed hopen
  refine ⟨.muhurat, by decide, ?_⟩
  rw [getExtendedStatus_muhurat hon htype ht, sessionStatus, if_pos ⟨hfrom, hto⟩]

end Answers

/-- The answers about a session agree exactly when its day is settled: the queries about a category
do, the market has a status, and the equities trade only while that status lets them. -/
theorem session_answers_agree_iff (cal : EventCalendar) (normalize : String → String)
    (category : Option String) (now : DateTime) :
    cal.AnswersAgree (categoryName normalize category) now ↔
      cal.SessionsSettled (categoryName normalize category) now := by
  constructor
  · intro agree
    have timed := answered_iff.mp agree.answered
    refine ⟨timed, ?_, same_iff.mp agree.same⟩
    intro hmarket hmuhurat hequity hwithin
    obtain ⟨hopen, hstatus⟩ := status_muhuratDay hmarket hmuhurat hequity hwithin timed
    obtain ⟨status, hmem, hsome⟩ := agree.equity hequity hopen
    have hpre := Except.ok.inj (hstatus.symm.trans hsome)
    rw [← hpre] at hmem
    exact absurd hmem (by decide)
  · intro settled
    refine ⟨same_iff.mpr settled.halfDay, answered_iff.mpr settled.timed, ?_⟩
    intro hequity hopen
    by_cases hmarket : cal.isMarketDay now.date = true
    · refine trades_marketDay hmarket hequity hopen fun hmuhurat => ?_
      exact settled.muhuratDay hmarket hmuhurat hequity
        (hequity ▸ ((isOpen_marketDay hmarket).mp hopen).1)
    · exact trades_otherDay hmarket hopen

/-! ## Three days that do not agree -/

/-- The session of a day is the one that the lists or the configuration put on it. -/
theorem sessionOn_of_mem (cal : EventCalendar) (s : SpecialSession)
    (hmem : s ∈ cal.cfg.eventDates.foldl addEvent ((nseHalfDays (yearOf s.date)).foldl addHalfDay
      ((nseSpecialSessions (yearOf s.date)).map listedSession))) :
    cal.sessionOn s.date = some s := by
  have hs : s ∈ cal.getSpecialSessions (yearOf s.date) :=
    (List.mergeSort_perm _ _).mem_iff.mpr hmem
  cases hon : cal.sessionOn s.date with
  | none =>
      have hnone := List.find?_eq_none.mp hon s hs
      exact absurd (decide_eq_true rfl) hnone
  | some found =>
      have hdate : found.date = s.date := by simpa using List.find?_some hon
      have hfound := List.mem_of_find?_eq_some hon
      rw [List.inj_on_of_nodup_map (cal.sessionsOk _).nodup hfound hs hdate]

def muhuratConfigured : EventCalendar :=
  { cfg := { eventDates := [{ date := some (dateOf 2026 11 8), eventType := some "MUHURAT" }] } }

theorem muhuratConfigured_raises (time : Time) :
    muhuratConfigured.getExtendedStatus ⟨dateOf 2026 11 8, time⟩ = .error noneComparison := by
  have hon := muhuratConfigured.sessionOn_of_mem ⟨dateOf 2026 11 8, .muhurat, none, none⟩
    (by decide +kernel)
  rw [getExtendedStatus_eq, hon]
  rfl

theorem muhurat2025_morning {time : Time} (hwithin : Within equityHours time) :
    isCategorySessionOpen {} "EQUITY" ⟨dateOf 2025 10 21, time⟩ = .ok true ∧
      getExtendedStatus {} ⟨dateOf 2025 10 21, time⟩ = .ok .preMarket := by
  have hon := sessionOn_of_mem {}
    ⟨dateOf 2025 10 21, .muhurat, some muhuratOpen, some muhuratClose⟩ (by decide +kernel)
  have hmarket : isMarketDay {} (dateOf 2025 10 21) = true := by decide +kernel
  have hmuhurat : isMuhuratTrading {} (dateOf 2025 10 21) = true := by
    rw [isMuhuratTrading_eq, hon]
    rfl
  refine status_muhuratDay hmarket hmuhurat (by decide +kernel) hwithin fun s hs _ => ?_
  rw [hon] at hs
  obtain rfl := Option.some.inj hs
  exact ⟨rfl, rfl⟩

theorem halfDay2025_afternoon {time : Time} (hwithin : Within equityHours time)
    (hafter : ¬ Within halfDayHours time) :
    isCategorySessionOpen {} "EQUITY" ⟨dateOf 2025 3 14, time⟩ ≠ .ok true ∧
      getCategorySessionState {} "EQUITY" ⟨dateOf 2025 3 14, time⟩ = .ok .open := by
  have hon := sessionOn_of_mem {} ⟨dateOf 2025 3 14, .halfDay, some nseOpen, some halfDayClose⟩
    (by decide +kernel)
  have hmarket : isMarketDay {} (dateOf 2025 3 14) = true := by decide +kernel
  have hequity : scheduleOf "EQUITY" = equityHours := by decide +kernel
  have hearly : ClosesEarly {} "EQUITY" (dateOf 2025 3 14) := by
    refine ⟨?_, by decide⟩
    rw [isHalfDay_eq, hon]
    rfl
  constructor
  · intro hopen
    exact hafter (((isOpen_marketDay hmarket).mp hopen).2 hearly)
  · rw [state_marketDay hmarket, hequity]
    exact hwithin

/-- A configured Muhurat session raises; on the listed one the equities are open in the morning before
it; and in the afternoon of a half day the state still is that of any other day. -/
theorem unsettled_sessions :
    (let now : DateTime := ⟨dateOf 2026 11 8, timeOfDay 18 30⟩
    muhuratConfigured.getExtendedStatus now = .error noneComparison ∧
      ¬ muhuratConfigured.AnswersAgree "EQUITY" now) ∧
    (let now : DateTime := ⟨dateOf 2025 10 21, timeOfDay 10 0⟩
    isCategorySessionOpen {} "EQUITY" now = .ok true ∧
      getExtendedStatus {} now = .ok .preMarket ∧ ¬ AnswersAgree {} "EQUITY" now) ∧
    (let now : DateTime := ⟨dateOf 2025 3 14, timeOfDay 13 0⟩
    isCategorySessionOpen {} "EQUITY" now ≠ .ok true ∧
      getCategorySessionState {} "EQUITY" now = .ok .open ∧ ¬ AnswersAgree {} "EQUITY" now) := by
  refine ⟨?_, ?_, ?_⟩
  · intro now
    have hraises := muhuratConfigured_raises now.time
    refine ⟨hraises, fun agree => ?_⟩
    obtain ⟨status, hstatus⟩ := agree.answered
    rw [hraises] at hstatus
    cases hstatus
  · intro now
    have hwithin : Within equityHours now.time := by decide
    obtain ⟨hopen, hstatus⟩ := muhurat2025_morning hwithin
    refine ⟨hopen, hstatus, fun agree => ?_⟩
    obtain ⟨status, hmem, hsome⟩ := agree.equity (by decide +kernel) hopen
    rw [← Except.ok.inj (hstatus.symm.trans hsome)] at hmem
    exact absurd hmem (by decide)
  · intro now
    have hwithin : Within equityHours now.time := by decide
    obtain ⟨hopen, hstate⟩ := halfDay2025_afternoon hwithin (by decide)
    exact ⟨hopen, hstate, fun agree => hopen (agree.same.mpr hstate)⟩

end EventCalendar

end AutoTrade.Market
