import Mathlib.Data.Int.SuccPred
import Mathlib.Order.SuccPred.Basic
import Mathlib.Order.Monotone.Basic

/-! # The Gregorian calendar

Days are counted from the first of January of the year 1, which is day 0 and a
Monday. Years, months and weeks are blocks of consecutive days, so each is given
by a monotone function of the day. The number of a week is that of its Thursday
within the Thursday's year; two weeks that share a number with days in one
calendar year lie at its two ends.
-/

namespace AutoTrade.Library

/-- The days before the first of January. -/
def daysBefore (year : Int) : Int :=
  365 * (year - 1) + (year - 1) / 4 - (year - 1) / 100 + (year - 1) / 400

def isLeap (year : Int) : Bool := decide (year % 4 = 0 ∧ (year % 100 ≠ 0 ∨ year % 400 = 0))

/-- Four centuries have 146097 days; the estimate is off by at most one year. -/
def yearOf (day : Int) : Int :=
  let estimate := 400 * day / 146097 + 1
  if day < daysBefore estimate then estimate - 1
  else if daysBefore (estimate + 1) ≤ day then estimate + 1
  else estimate

/-- Counted from 0. -/
def dayOfYear (day : Int) : Int := day - daysBefore (yearOf day)

theorem daysBefore_succ (year : Int) :
    daysBefore (year + 1) = daysBefore year + if isLeap year then 366 else 365 := by
  unfold daysBefore isLeap
  simp only [decide_eq_true_eq]
  split <;> omega

theorem daysBefore_year_bounds (year : Int) :
    daysBefore year + 365 ≤ daysBefore (year + 1) ∧
      daysBefore (year + 1) ≤ daysBefore year + 366 := by
  rw [daysBefore_succ]
  split <;> omega

theorem daysBefore_lt_succ (year : Int) : daysBefore year < daysBefore (year + 1) := by
  have hlength := (daysBefore_year_bounds year).1
  omega

theorem daysBefore_lt_iff (year later : Int) : daysBefore year < daysBefore later ↔ year < later :=
  (strictMono_int_of_lt_succ daysBefore_lt_succ).lt_iff_lt

theorem daysBefore_yearOf (day : Int) :
    daysBefore (yearOf day) ≤ day ∧ day < daysBefore (yearOf day + 1) := by
  unfold yearOf daysBefore
  dsimp only
  split
  · omega
  · split <;> omega

theorem yearOf_eq {day year : Int} (hfirst : daysBefore year ≤ day)
    (hlast : day < daysBefore (year + 1)) : yearOf day = year := by
  obtain ⟨hle, hlt⟩ := daysBefore_yearOf day
  have hbelow : year < yearOf day + 1 := (daysBefore_lt_iff _ _).mp (hfirst.trans_lt hlt)
  have habove : yearOf day < year + 1 := (daysBefore_lt_iff _ _).mp (hle.trans_lt hlast)
  omega

theorem yearOf_mono {day later : Int} (hle : day ≤ later) : yearOf day ≤ yearOf later := by
  have hfirst := (daysBefore_yearOf day).1
  have hlast := (daysBefore_yearOf later).2
  have hlt : yearOf day < yearOf later + 1 :=
    (daysBefore_lt_iff _ _).mp ((hfirst.trans hle).trans_lt hlast)
  omega

theorem dayOfYear_nonneg (day : Int) : 0 ≤ dayOfYear day := by
  have hfirst := (daysBefore_yearOf day).1
  unfold dayOfYear
  omega

/-! ## Months -/

/-- The days of the year before a month, counted from 1. -/
def daysBeforeMonth (leap : Bool) (month : Nat) : Int :=
  [0, 31, 59, 90, 120, 151, 181, 212, 243, 273, 304, 334].getD (month - 1) 0 +
    if leap && decide (2 < month) then 1 else 0

/-- As many months as have begun. -/
def monthWithin (leap : Bool) (dayOfYear : Int) : Nat :=
  (List.range 12).countP fun i => decide (daysBeforeMonth leap (i + 1) ≤ dayOfYear)

def monthOf (day : Int) : Nat := monthWithin (isLeap (yearOf day)) (dayOfYear day)

/-- Counted from 1. -/
def dayOfMonth (day : Int) : Int :=
  dayOfYear day - daysBeforeMonth (isLeap (yearOf day)) (monthOf day) + 1

/-- Months counted on from year to year. -/
def monthIndex (day : Int) : Int := 12 * yearOf day + monthOf day - 1

example : (yearOf 739615, monthOf 739615, dayOfMonth 739615) = (2025, 12, 31) := by decide

/-- Where a test passes below every number it passes at, the numbers counted come first. -/
theorem of_lt_countP_range {p : Nat → Bool} {n : Nat}
    (hp : ∀ i j, i ≤ j → j < n → p j = true → p i = true) :
    ∀ i < (List.range n).countP p, p i = true := by
  induction n with
  | zero => simp
  | succ n ih =>
      intro i hi
      rw [List.range_succ, List.countP_append, List.countP_singleton] at hi
      split at hi
      · rename_i hn
        have hle : (List.range n).countP p ≤ (List.range n).length := List.countP_le_length
        rw [List.length_range] at hle
        exact hp i n (by omega) (Nat.lt_succ_self n) hn
      · exact ih (fun i j hij hj => hp i j hij (hj.trans (Nat.lt_succ_self n))) i hi

theorem daysBeforeMonth_mono : ∀ leap, ∀ i j : Fin 12, i ≤ j →
    daysBeforeMonth leap (i + 1) ≤ daysBeforeMonth leap (j + 1) := by
  decide +kernel

theorem monthWithin_ends : ∀ leap, monthWithin leap 0 = 1 ∧ monthWithin leap 30 = 1 ∧
    monthWithin leap 335 = 12 := by
  decide +kernel

theorem monthWithin_mono (leap : Bool) {day later : Int} (hle : day ≤ later) :
    monthWithin leap day ≤ monthWithin leap later := by
  refine List.countP_mono_left fun i _ hi => ?_
  exact decide_eq_true ((of_decide_eq_true hi).trans hle)

theorem monthWithin_pos (leap : Bool) {d : Int} (hd : 0 ≤ d) : 0 < monthWithin leap d := by
  have hmono := monthWithin_mono leap hd
  rw [(monthWithin_ends leap).1] at hmono
  exact hmono

theorem daysBeforeMonth_monthWithin_le (leap : Bool) {d : Int} (hd : 0 ≤ d) :
    daysBeforeMonth leap (monthWithin leap d) ≤ d := by
  have hpos := monthWithin_pos leap hd
  have hprefix : ∀ i j, i ≤ j → j < 12 →
      decide (daysBeforeMonth leap (j + 1) ≤ d) = true →
        decide (daysBeforeMonth leap (i + 1) ≤ d) = true := by
    intro i j hij hj h
    have hmono := daysBeforeMonth_mono leap ⟨i, by omega⟩ ⟨j, hj⟩ hij
    exact decide_eq_true (hmono.trans (of_decide_eq_true h))
  have hlast := of_decide_eq_true
    (of_lt_countP_range hprefix (monthWithin leap d - 1) (Nat.sub_lt hpos one_pos))
  have hsucc : monthWithin leap d - 1 + 1 = monthWithin leap d := by omega
  rwa [hsucc] at hlast

theorem monthOf_le (day : Int) : monthOf day ≤ 12 := List.countP_le_length

theorem monthOf_pos (day : Int) : 0 < monthOf day := monthWithin_pos _ (dayOfYear_nonneg day)

theorem dayOfMonth_pos (day : Int) : 0 < dayOfMonth day := by
  have hstarted : daysBeforeMonth (isLeap (yearOf day)) (monthOf day) ≤ dayOfYear day :=
    daysBeforeMonth_monthWithin_le _ (dayOfYear_nonneg day)
  unfold dayOfMonth
  omega

theorem monthOf_eq_one {day : Int} (h : dayOfYear day < 31) : monthOf day = 1 := by
  have hmono := monthWithin_mono (isLeap (yearOf day)) (by omega : dayOfYear day ≤ 30)
  rw [(monthWithin_ends _).2.1] at hmono
  exact le_antisymm hmono (monthOf_pos day)

theorem monthOf_eq_twelve {day : Int} (h : 335 ≤ dayOfYear day) : monthOf day = 12 := by
  have hmono := monthWithin_mono (isLeap (yearOf day)) h
  rw [(monthWithin_ends _).2.2] at hmono
  exact le_antisymm (monthOf_le day) hmono

/-- A day is known by its date. -/
theorem day_ext {day other : Int} (hyear : yearOf day = yearOf other)
    (hmonth : monthOf day = monthOf other) (hday : dayOfMonth day = dayOfMonth other) :
    day = other := by
  unfold dayOfMonth dayOfYear at hday
  rw [hyear, hmonth] at hday
  omega

theorem monthIndex_mono {day later : Int} (hle : day ≤ later) :
    monthIndex day ≤ monthIndex later := by
  have hyear := yearOf_mono hle
  have hmonth := monthOf_le day
  have hlater := monthOf_pos later
  unfold monthIndex
  rcases hyear.lt_or_eq with hlt | heq
  · omega
  · have hday : dayOfYear day ≤ dayOfYear later := by
      unfold dayOfYear
      rw [heq]
      omega
    have hwithin : monthOf day ≤ monthOf later := by
      unfold monthOf
      rw [heq]
      exact monthWithin_mono _ hday
    omega

theorem monthIndex_inj {day other : Int} (h : monthIndex day = monthIndex other) :
    yearOf day = yearOf other ∧ monthOf day = monthOf other := by
  have h₁ := monthOf_le day
  have h₂ := monthOf_le other
  have h₃ := monthOf_pos day
  have h₄ := monthOf_pos other
  unfold monthIndex at h
  omega

/-! ## Weeks -/

def weekIndex (day : Int) : Int := day / 7

/-- The Thursday of a week; its year is the year the week belongs to. -/
def thursday (week : Int) : Int := 7 * week + 3

def isoWeek (week : Int) : Int := dayOfYear (thursday week) / 7 + 1

theorem weekIndex_mono {day later : Int} (hle : day ≤ later) : weekIndex day ≤ weekIndex later :=
  Int.ediv_le_ediv (by decide) hle

theorem weekIndex_bounds (day : Int) :
    7 * weekIndex day ≤ day ∧ day ≤ 7 * weekIndex day + 6 := by
  unfold weekIndex
  omega

/-- A week is numbered next to the week before, or is the first after a fifty-second or fifty-third. -/
theorem isoWeek_succ_ne (week : Int) : isoWeek (week + 1) ≠ isoWeek week := by
  obtain ⟨hfirst, hlast⟩ := daysBefore_yearOf (thursday week)
  obtain ⟨hfirst', hlast'⟩ := daysBefore_yearOf (thursday (week + 1))
  have hyear : yearOf (thursday week) ≤ yearOf (thursday (week + 1)) :=
    yearOf_mono (by unfold thursday; omega)
  have hlength := daysBefore_year_bounds (yearOf (thursday week))
  unfold isoWeek dayOfYear
  rcases hyear.lt_or_eq with hlt | heq
  · have hnext : daysBefore (yearOf (thursday week) + 1) ≤ daysBefore (yearOf (thursday (week + 1))) :=
      (strictMono_int_of_lt_succ daysBefore_lt_succ).monotone (by omega)
    unfold thursday at *
    omega
  · rw [← heq] at hfirst' hlast' ⊢
    unfold thursday at *
    omega

/-- Weeks of one number with days in one calendar year are the same or at its two ends. -/
theorem year_ends_of_isoWeek_eq {day later : Int} (hle : day ≤ later)
    (hyear : yearOf day = yearOf later) (hweek : isoWeek (weekIndex day) = isoWeek (weekIndex later))
    (hne : weekIndex day ≠ weekIndex later) : dayOfYear day < 31 ∧ 335 ≤ dayOfYear later := by
  obtain ⟨hmonday, hsunday⟩ := weekIndex_bounds day
  obtain ⟨hmonday', hsunday'⟩ := weekIndex_bounds later
  have hweeks : weekIndex day < weekIndex later := lt_of_le_of_ne (weekIndex_mono hle) hne
  obtain ⟨hfirst, -⟩ := daysBefore_yearOf day
  obtain ⟨-, hlast⟩ := daysBefore_yearOf later
  rw [← hyear] at hlast
  have hbefore := daysBefore_year_bounds (yearOf day - 1)
  have hlength := daysBefore_year_bounds (yearOf day)
  have hafter := daysBefore_year_bounds (yearOf day + 1)
  rw [sub_add_cancel] at hbefore
  have hsame : ∀ year, yearOf (thursday (weekIndex day)) = year →
      yearOf (thursday (weekIndex later)) ≠ year := by
    intro year hyear₁ hyear₂
    unfold isoWeek dayOfYear at hweek
    rw [hyear₁, hyear₂] at hweek
    unfold thursday at hweek
    omega
  unfold isoWeek dayOfYear at hweek
  unfold dayOfYear
  rw [← hyear]
  generalize yearOf day = year at *
  by_cases hearlier : thursday (weekIndex day) < daysBefore year
  · -- The first week belongs to the year before, so its number is 52 or 53.
    have hyear₁ : yearOf (thursday (weekIndex day)) = year - 1 := by
      refine yearOf_eq ?_ ?_
      · unfold thursday
        omega
      · rwa [sub_add_cancel]
    have hyear₂ : yearOf (thursday (weekIndex later)) = year ∨
        yearOf (thursday (weekIndex later)) = year + 1 := by
      by_cases hwithin : thursday (weekIndex later) < daysBefore (year + 1)
      · refine .inl (yearOf_eq ?_ hwithin)
        unfold thursday
        omega
      · refine .inr (yearOf_eq (not_lt.mp hwithin) ?_)
        unfold thursday
        omega
    rw [hyear₁] at hweek
    rcases hyear₂ with h | h
    · rw [h] at hweek
      unfold thursday at *
      omega
    · rw [h] at hweek
      unfold thursday at *
      omega
  · have hyear₁ : yearOf (thursday (weekIndex day)) = year := by
      refine yearOf_eq (not_lt.mp hearlier) ?_
      unfold thursday
      omega
    have hyear₂ : yearOf (thursday (weekIndex later)) = year + 1 := by
      have hbeyond : ¬ thursday (weekIndex later) < daysBefore (year + 1) := by
        intro hwithin
        refine hsame year hyear₁ (yearOf_eq ?_ hwithin)
        unfold thursday at *
        omega
      refine yearOf_eq (not_lt.mp hbeyond) ?_
      unfold thursday
      omega
    -- The second week is the first of the year after.
    rw [hyear₁, hyear₂] at hweek
    unfold thursday at *
    omega

end AutoTrade.Library
