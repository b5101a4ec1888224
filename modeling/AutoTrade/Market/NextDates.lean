import AutoTrade.Market.ExchangeCalendar
import Mathlib.Data.Int.LeastGreatest
import Mathlib.Order.Bounds.Basic

/-! # The next open and the next expiry

Both are found by a forward scan that ends: after fourteen days, with an open a
week ahead as the fallback, and with the calendar year of the start. As far as
a scan goes, what it finds is the earliest day.
-/

namespace AutoTrade.Market

open AutoTrade.Library

def DateTime.Before (now later : DateTime) : Prop :=
  now.date < later.date ∨ now.date = later.date ∧ now.time < later.time

namespace EventCalendar

/-- The market days that open after the instant. -/
def opensAfter (cal : EventCalendar) (now : DateTime) : Set Int :=
  {day | day ≤ maxDate ∧ cal.isMarketDay day = true ∧ now.Before ⟨day, nseOpen⟩}

/-- The market days on this weekday. -/
def expiriesFrom (cal : EventCalendar) (target start : Int) : Set Int :=
  {day | start ≤ day ∧ weekday day = target ∧ cal.isMarketDay day = true}

/-! ## The next open -/

section Open

variable {cal : EventCalendar} {now : DateTime}

theorem exists_earliestOpen (h : (cal.opensAfter now).Nonempty) :
    ∃ day, IsLeast (cal.opensAfter now) day := by
  refine Int.exists_least_of_bdd ⟨now.date, ?_⟩ h
  rintro day ⟨-, -, hlater | ⟨hsame, -⟩⟩
  · exact le_of_lt hlater
  · exact le_of_eq hsame

/-- The scan finds the earliest market day if that is among its days. -/
theorem scanMarketDays_eq {day : Int} : ∀ (left : Nat) (start : Int),
    IsLeast {d | start ≤ d ∧ d ≤ maxDate ∧ cal.isMarketDay d = true} day →
      cal.scanMarketDays left start = .ok (if day < start + left then some day else none) := by
  intro left
  induction left with
  | zero =>
      intro start h
      rw [if_neg (by have := h.1.1; omega)]
      rfl
  | succ left ih =>
      intro start h
      obtain ⟨⟨hfrom, hmax, hmarket⟩, hleast⟩ := h
      rw [scanMarketDays]
      split
      · rename_i hstart
        have hday : day = start :=
          le_antisymm (hleast ⟨le_refl start, hfrom.trans hmax, hstart⟩) hfrom
        rw [hday, if_pos (by omega)]
      · rename_i hstart
        have hlater : start + 1 ≤ day := by
          rcases hfrom.eq_or_lt with heq | hlt
          · exact absurd (heq ▸ hmarket) hstart
          · exact hlt
        rw [if_neg (by omega), ih (start + 1) ⟨⟨hlater, hmax, hmarket⟩, fun d hd =>
          hleast ⟨by have := hd.1; omega, hd.2⟩⟩]
        congr 2
        rw [Nat.cast_succ, add_assoc, add_comm (1 : Int)]

/-- The next open is the earliest one up to fourteen days after the start; past them it is a week
after the start. -/
theorem getNextMarketOpen_eq {day : Int} (h : IsLeast (cal.opensAfter now) day) :
    cal.getNextMarketOpen now =
      .ok (if day ≤ now.date + 14 then ⟨day, nseOpen⟩ else ⟨now.date + 7, nseOpen⟩) := by
  obtain ⟨⟨hmax, hmarket, hafter⟩, hleast⟩ := h
  unfold getNextMarketOpen
  split
  · rename_i htoday
    obtain ⟨hopens, hearly⟩ := htoday
    have hday : day = now.date := by
      rcases hafter with hlater | ⟨hsame, -⟩
      · have hle := hleast ⟨(le_of_lt hlater).trans hmax, hopens, .inr ⟨rfl, hearly⟩⟩
        exact absurd hle (not_le.mpr hlater)
      · exact hsame.symm
    rw [hday, if_pos (by omega)]
  · rename_i htoday
    have hlater : now.date < day := by
      rcases hafter with hlater | ⟨hsame, hearly⟩
      · exact hlater
      · exact absurd ⟨(show now.date = day from hsame) ▸ hmarket, hearly⟩ htoday
    have hscan : IsLeast {d | now.date + 1 ≤ d ∧ d ≤ maxDate ∧ cal.isMarketDay d = true} day :=
      ⟨⟨hlater, hmax, hmarket⟩, fun d hd => hleast ⟨hd.2.1, hd.2.2, .inl hd.1⟩⟩
    rw [if_neg (by omega), scanMarketDays_eq 14 (now.date + 1) hscan]
    by_cases hcap : day ≤ now.date + 14
    · rw [if_pos hcap, if_pos (by push_cast; omega)]
    · rw [if_neg hcap, if_neg (by push_cast; omega)]

end Open

/-! ## The next expiry -/

/-- In an increasing list the first day from the start on is the least one. -/
theorem find?_of_isLeast {days : List Int} (hsorted : days.Pairwise (· < ·)) {start day : Int}
    (h : IsLeast {d | d ∈ days ∧ start ≤ d} day) :
    days.find? (fun d => decide (start ≤ d)) = some day := by
  induction days with
  | nil => cases h.1.1
  | cons d rest ih =>
      obtain ⟨⟨hmem, hfrom⟩, hleast⟩ := h
      obtain ⟨hfirst, hrest⟩ := List.pairwise_cons.mp hsorted
      by_cases hd : start ≤ d
      · rw [List.find?_cons_of_pos (by simpa using hd)]
        have hle : day ≤ d := hleast ⟨List.mem_cons_self, hd⟩
        rcases List.mem_cons.mp hmem with heq | hlater
        · rw [heq]
        · exact absurd (hfirst day hlater) (not_lt.mpr hle)
      · rw [List.find?_cons_of_neg (by simpa using hd)]
        rcases List.mem_cons.mp hmem with heq | hlater
        · exact absurd (heq ▸ hfrom) hd
        · exact ih hrest ⟨⟨hlater, hfrom⟩, fun x hx => hleast ⟨List.mem_cons_of_mem d hx.1, hx.2⟩⟩

section Expiry

variable {cal : EventCalendar} {year : Int}

/-- The scan of a year collects, in order, the market days of the year a week apart. -/
structure CollectsYear (cal : EventCalendar) (year current : Int) (expiries : List Int) : Prop where
  sorted : expiries.Pairwise (· < ·)
  mem_iff : ∀ d, d ∈ expiries ↔
    current ≤ d ∧ weekday d = weekday current ∧ yearOf d = year ∧ cal.isMarketDay d = true

/-- Past the year no day is left. -/
theorem collectsYear_past {current : Int} (hpast : daysBefore (year + 1) ≤ current) :
    cal.CollectsYear year current [] := by
  refine ⟨List.Pairwise.nil, fun d => iff_of_false List.not_mem_nil ?_⟩
  rintro ⟨hd, -, hsame, -⟩
  have hbelow := (daysBefore_yearOf d).2
  rw [hsame] at hbelow
  omega

/-- The market days from a day on are that day, if it is one, and those from a week later on. -/
theorem CollectsYear.week_iff {current : Int} {later : List Int}
    (collects : cal.CollectsYear year (current + 7) later) (hsame : yearOf current = year) (d : Int) :
    (current ≤ d ∧ weekday d = weekday current ∧ yearOf d = year ∧ cal.isMarketDay d = true) ↔
      (d = current ∧ cal.isMarketDay current = true) ∨ d ∈ later := by
  have hweek : current ≤ d ∧ weekday d = weekday current ↔
      d = current ∨ current + 7 ≤ d ∧ weekday d = weekday (current + 7) := by
    unfold weekday
    omega
  rw [collects.mem_iff]
  constructor
  · rintro ⟨hfrom, hon, hrest⟩
    rcases hweek.mp ⟨hfrom, hon⟩ with rfl | ⟨hle, hday⟩
    · exact .inl ⟨rfl, hrest.2⟩
    · exact .inr ⟨hle, hday, hrest⟩
  · rintro (⟨rfl, hmarket⟩ | ⟨hle, hday, hrest⟩)
    · exact ⟨le_refl d, rfl, hsame, hmarket⟩
    · obtain ⟨hfrom, hon⟩ := hweek.mpr (.inr ⟨hle, hday⟩)
      exact ⟨hfrom, hon, hrest⟩

theorem CollectsYear.step {current : Int} {later : List Int}
    (collects : cal.CollectsYear year (current + 7) later) (hsame : yearOf current = year) :
    cal.CollectsYear year current
      (if cal.isMarketDay current then current :: later else later) := by
  split
  · rename_i hmarket
    refine ⟨List.pairwise_cons.mpr ⟨fun d hd => ?_, collects.sorted⟩, fun d => ?_⟩
    · have hahead := ((collects.mem_iff d).mp hd).1
      omega
    · rw [collects.week_iff hsame, List.mem_cons, and_iff_left hmarket]
  · rename_i hclosed
    refine ⟨collects.sorted, fun d => ?_⟩
    rw [collects.week_iff hsame, or_iff_right fun h => hclosed h.2]

theorem weeklyExpiries_spec (cal : EventCalendar) (hyear : year < 9999) :
    ∀ (left : Nat) (current : Int), daysBefore year ≤ current →
      daysBefore (year + 1) ≤ current + 7 * left →
      ∃ expiries, cal.weeklyExpiries year left current = .ok expiries ∧
        cal.CollectsYear year current expiries := by
  have hlast : daysBefore (year + 1) ≤ daysBefore 9999 :=
    not_lt.mp fun h => absurd ((daysBefore_lt_iff _ _).mp h) (by omega)
  have hnines : daysBefore 9999 = 3651694 := by decide
  intro left
  induction left with
  | zero => exact fun current _ hfuel => ⟨[], rfl, collectsYear_past (by omega)⟩
  | succ left ih =>
      intro current hfirst hfuel
      rw [weeklyExpiries]
      split
      · rename_i hother
        refine ⟨[], rfl, collectsYear_past ?_⟩
        exact not_lt.mp fun h => hother (yearOf_eq hfirst h)
      · rename_i hsame
        have hsame : yearOf current = year := not_not.mp hsame
        have hwithin := (daysBefore_yearOf current).2
        rw [hsame] at hwithin
        rw [if_neg (by unfold maxDate; omega)]
        have hweek : daysBefore (year + 1) ≤ current + 7 + 7 * left := by
          push_cast at hfuel
          omega
        obtain ⟨later, hlater, collects⟩ := ih (current + 7) (by omega) hweek
        rw [hlater]
        exact ⟨_, rfl, collects.step hsame⟩

/-- The expiries of a tracked index start with its first weekday of the year. -/
theorem firstWeekday_spec (year : Int) {target : Int} (h : 0 ≤ target ∧ target ≤ 6) :
    daysBefore year ≤ firstWeekday year target ∧ firstWeekday year target < daysBefore year + 7 ∧
      weekday (firstWeekday year target) = target := by
  unfold firstWeekday weekday
  dsimp only
  split
  · omega
  · omega

theorem target_bounds {indexName : String} {target : Int}
    (h : weeklyExpiryMap.lookup indexName = some target) : 0 ≤ target ∧ target ≤ 6 := by
  obtain ⟨before, after, hsplit, -⟩ := List.lookup_eq_some_iff.mp h
  have hmem : target ∈ weeklyExpiryMap.map Prod.snd :=
    List.mem_map.mpr ⟨(indexName, target), by simp [hsplit], rfl⟩
  exact (by decide : ∀ t ∈ weeklyExpiryMap.map Prod.snd, 0 ≤ t ∧ t ≤ 6) target hmem

/-- The next expiry is looked up among the market days of the year on the weekday of the index. -/
theorem getNextExpiry_find (cal : EventCalendar) {indexName : String} {target start : Int}
    (h : weeklyExpiryMap.lookup indexName = some target) (hyear : yearOf start < 9999) :
    ∃ expiries : List Int, expiries.Pairwise (· < ·) ∧
      (∀ d, d ∈ expiries ↔
        weekday d = target ∧ yearOf d = yearOf start ∧ cal.isMarketDay d = true) ∧
      cal.getNextExpiry indexName start =
        .ok ((expiries.find? fun d => decide (start ≤ d)).map (expiryRecord indexName)) := by
  obtain ⟨hfirst, hnear, hon⟩ := firstWeekday_spec (yearOf start) (target_bounds h)
  have hlength := (daysBefore_year_bounds (yearOf start)).2
  obtain ⟨expiries, hok, collects⟩ := weeklyExpiries_spec cal hyear 54
    (firstWeekday (yearOf start) target) hfirst (by omega)
  refine ⟨expiries, collects.sorted, fun d => ?_, ?_⟩
  · rw [collects.mem_iff, hon]
    refine ⟨fun hd => hd.2, fun hd => ⟨?_, hd⟩⟩
    have hbegin := (daysBefore_yearOf d).1
    rw [hd.2.1] at hbegin
    have hsameday : weekday d = weekday (firstWeekday (yearOf start) target) := hd.1.trans hon.symm
    unfold weekday at hsameday
    omega
  · unfold getNextExpiry getExpiryCalendar
    rw [h]
    dsimp only
    rw [hok]
    change Except.ok (List.find? _ (expiries.map (expiryRecord indexName))) = _
    rw [List.find?_map]
    rfl

/-- The next expiry is the earliest one, if that falls in the year of the start. -/
theorem getNextExpiry_eq {indexName : String} {target start day : Int}
    (h : weeklyExpiryMap.lookup indexName = some target) (hyear : yearOf start < 9999)
    (hday : IsLeast (cal.expiriesFrom target start) day) (hsame : yearOf day = yearOf start) :
    cal.getNextExpiry indexName start = .ok (some (expiryRecord indexName day)) := by
  obtain ⟨expiries, hsorted, hmem, hnext⟩ := getNextExpiry_find cal h hyear
  obtain ⟨⟨hfrom, hon, hmarket⟩, hleast⟩ := hday
  rw [hnext, find?_of_isLeast hsorted
    ⟨⟨(hmem day).mpr ⟨hon, hsame, hmarket⟩, hfrom⟩, fun d hd => ?_⟩]
  · rfl
  · obtain ⟨hd, hstart⟩ := hd
    obtain ⟨hweekday, -, hopen⟩ := (hmem d).mp hd
    exact hleast ⟨hstart, hweekday, hopen⟩

/-- A day is an expiry day if it is the earliest one from itself on. -/
theorem isExpiryDay_iff {indexName : String} {target start : Int}
    (h : weeklyExpiryMap.lookup indexName = some target) (hyear : yearOf start < 9999) :
    ∃ answer, cal.isExpiryDay indexName start = .ok answer ∧
      (answer = true ↔ IsLeast (cal.expiriesFrom target start) start) := by
  obtain ⟨expiries, -, hmem, hnext⟩ := getNextExpiry_find cal h hyear
  refine ⟨_, by rw [isExpiryDay, hnext]; rfl, ?_⟩
  constructor
  · intro hanswer
    obtain ⟨record, hrecord, hdate⟩ := (Option.any_eq_true _ _).mp hanswer
    obtain ⟨d, hfound, rfl⟩ := Option.map_eq_some_iff.mp hrecord
    have hd : d = start := decide_eq_true_eq.mp hdate
    obtain ⟨hon, -, hmarket⟩ := (hmem d).mp (List.mem_of_find?_eq_some hfound)
    exact ⟨⟨le_refl start, hd ▸ hon, hd ▸ hmarket⟩, fun x hx => hx.1⟩
  · intro hstart
    have hok := getNextExpiry_eq h hyear hstart rfl
    rw [hnext] at hok
    rw [Except.ok.inj hok]
    exact decide_eq_true rfl

end Expiry

/-- Where a market day is still to open, the next open is the earliest one up to fourteen days after
the start, and a week after the start beyond them; the next expiry is the earliest one wherever that
falls in the year of the start; and an expiry day is one that is its own earliest expiry. -/
theorem next_dates_earliest (cal : EventCalendar) (now : DateTime)
    (h : (cal.opensAfter now).Nonempty) :
    (∃ day, IsLeast (cal.opensAfter now) day ∧ cal.getNextMarketOpen now =
      .ok (if day ≤ now.date + 14 then ⟨day, nseOpen⟩ else ⟨now.date + 7, nseOpen⟩)) ∧
    ∀ indexName target, weeklyExpiryMap.lookup indexName = some target →
      ∀ start, yearOf start < 9999 →
        (∀ day, IsLeast (cal.expiriesFrom target start) day → yearOf day = yearOf start →
          cal.getNextExpiry indexName start = .ok (some (expiryRecord indexName day))) ∧
        ∃ answer, cal.isExpiryDay indexName start = .ok answer ∧
          (answer = true ↔ IsLeast (cal.expiriesFrom target start) start) := by
  refine ⟨?_, fun indexName target hindex start hyear => ⟨fun day hday hsame => ?_, ?_⟩⟩
  · obtain ⟨day, hday⟩ := exists_earliestOpen h
    exact ⟨day, hday, getNextMarketOpen_eq hday⟩
  · exact getNextExpiry_eq hindex hyear hday hsame
  · exact isExpiryDay_iff hindex hyear

theorem thursday_earliest : IsLeast (expiriesFrom {} 3 (dateOf 2026 1 4)) (dateOf 2026 1 8) := by
  refine ⟨⟨by decide, by decide, by decide⟩, fun d hd => ?_⟩
  obtain ⟨hfrom, hon, -⟩ := hd
  have hsunday : dateOf 2026 1 4 = 739619 := by decide
  have hthursday : dateOf 2026 1 8 = 739623 := by decide
  unfold weekday at hon
  omega

/-- On a Sunday night without holidays ahead the market next opens on Monday, and the index next
expires on Thursday. -/
theorem next_dates_earliest_sunday :
    (∃ day, IsLeast (opensAfter {} ⟨dateOf 2026 1 4, timeOfDay 22 0⟩) day ∧
      getNextMarketOpen {} ⟨dateOf 2026 1 4, timeOfDay 22 0⟩ =
        .ok (if day ≤ dateOf 2026 1 4 + 14 then ⟨day, nseOpen⟩
          else ⟨dateOf 2026 1 4 + 7, nseOpen⟩)) ∧
    getNextExpiry {} "NIFTY" (dateOf 2026 1 4) =
      .ok (some (expiryRecord "NIFTY" (dateOf 2026 1 8))) := by
  have h := next_dates_earliest {} ⟨dateOf 2026 1 4, timeOfDay 22 0⟩
    ⟨dateOf 2026 1 5, by decide, by decide, .inl (by decide)⟩
  exact ⟨h.1, (h.2 "NIFTY" 3 (by decide) (dateOf 2026 1 4) (by decide)).1 _ thursday_earliest
    (by decide)⟩

/-- Three weeks of weekdays that are holidays. -/
def longClosure : EventCalendar :=
  { cfg := { nseHolidays := (List.range 18).map fun i : Nat => some (dateOf 2026 1 6 + i) } }

theorem longClosure_earliest :
    IsLeast (longClosure.opensAfter ⟨dateOf 2026 1 5, timeOfDay 10 0⟩) (dateOf 2026 1 26) := by
  refine ⟨⟨by decide, by decide +kernel, .inl (by decide)⟩, ?_⟩
  rintro day ⟨-, hmarket, hlater | ⟨-, hearly⟩⟩
  · have hclosed : ∀ i : Fin 20, longClosure.isMarketDay (dateOf 2026 1 6 + i.val) = false := by
      decide +kernel
    have hstart : dateOf 2026 1 5 = 739620 := by decide
    have hfirst : dateOf 2026 1 6 = 739621 := by decide
    have hend : dateOf 2026 1 26 = 739641 := by decide
    change dateOf 2026 1 5 < day at hlater
    by_contra hbefore
    have hday := hclosed ⟨(day - dateOf 2026 1 6).toNat, by omega⟩
    rw [show dateOf 2026 1 6 + ((day - dateOf 2026 1 6).toNat : Int) = day by omega,
      hmarket] at hday
    cases hday
  · exact absurd hearly (by decide : ¬ timeOfDay 10 0 < nseOpen)

theorem newYear_earliest : IsLeast (expiriesFrom {} 3 (dateOf 2025 12 31)) (dateOf 2026 1 1) := by
  refine ⟨⟨by decide, by decide, by decide⟩, fun d hd => ?_⟩
  obtain ⟨hfrom, hon, -⟩ := hd
  have hstart : dateOf 2025 12 31 = 739615 := by decide
  have hnext : dateOf 2026 1 1 = 739616 := by decide
  unfold weekday at hon
  omega

/-- Past the fourteen days the next open is a day that is closed, not the earliest one; at the end
of a year an index has no next expiry; and in the last year of the calendar the scan overflows. -/
theorem scans_end :
    (IsLeast (longClosure.opensAfter ⟨dateOf 2026 1 5, timeOfDay 10 0⟩) (dateOf 2026 1 26) ∧
      longClosure.getNextMarketOpen ⟨dateOf 2026 1 5, timeOfDay 10 0⟩ =
        .ok ⟨dateOf 2026 1 12, nseOpen⟩ ∧ longClosure.isMarketDay (dateOf 2026 1 12) = false) ∧
    (IsLeast (expiriesFrom {} 3 (dateOf 2025 12 31)) (dateOf 2026 1 1) ∧
      getNextExpiry {} "NIFTY" (dateOf 2025 12 31) = .ok none) ∧
    getNextExpiry {} "NIFTY" (dateOf 9999 1 1) = .error dateOverflow := by
  refine ⟨⟨longClosure_earliest, ?_, by decide +kernel⟩, ⟨newYear_earliest, by decide +kernel⟩,
    by decide +kernel⟩
  rw [getNextMarketOpen_eq longClosure_earliest, if_neg (by decide)]
  decide

end EventCalendar

end AutoTrade.Market
