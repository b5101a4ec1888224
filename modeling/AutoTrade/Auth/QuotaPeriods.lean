import AutoTrade.Auth.SignalPermissions
import AutoTrade.Library.Text

/-! # Quota periods and their labels

A quota's period is a day, an ISO week, a month or a year. The label of a period
is a function of the period and the calendar year, so within both it does not
change; the label of a day, a month or a year names no other, while that of a
week also names the week at the other end of its calendar year.
-/

namespace AutoTrade.Auth

open AutoTrade.Library

/-! ## Texts of numbers -/

theorem toList_pushn (s : String) (c : Char) (n : Nat) :
    (s.pushn c n).toList = s.toList ++ List.replicate n c := by
  rw [String.pushn_eq_repeat_push]
  induction n with
  | zero => simp [Nat.repeat]
  | succ n ih => simp [Nat.repeat, ih, List.replicate_succ']

theorem toList_zeroPadded (width n : Nat) : (zeroPadded width n).toList =
    List.replicate (width - (toString n).length) '0' ++ Nat.toDigits 10 n := by
  unfold zeroPadded
  rw [String.toList_append, toList_pushn]
  exact congrArg _ Nat.toList_repr

theorem zeroPadded_injective (width : Nat) : Function.Injective (zeroPadded width) := by
  have hdecode : ∀ n, Nat.ofDigitChars 10 (zeroPadded width n).toList 0 = n := by
    intro n
    rw [toList_zeroPadded, Nat.ofDigitChars_append, Nat.ofDigitChars_replicate_zero, Nat.mul_zero,
      Nat.ofDigitChars_ten_toDigits]
  intro m n h
  have hdecoded := congrArg (fun s : String => Nat.ofDigitChars 10 s.toList 0) h
  simpa only [hdecode] using hdecoded

theorem isDigit_of_mem_zeroPadded {width n : Nat} {c : Char} (h : c ∈ (zeroPadded width n).toList) :
    c.isDigit := by
  rw [toList_zeroPadded] at h
  rcases List.mem_append.mp h with h | h
  · rw [List.eq_of_mem_replicate h]
    rfl
  · exact Nat.isDigit_of_mem_toDigits (by decide) (by decide) h

theorem dash_notMem_formatInt {width : Nat} {x : Int} (hx : 0 ≤ x) :
    '-' ∉ (formatInt width x).toList := by
  unfold formatInt
  rw [if_neg (not_lt.mpr hx)]
  intro h
  rw [String.toList_append] at h
  have hdigit : '-'.isDigit := isDigit_of_mem_zeroPadded (by simpa using h)
  exact absurd hdigit (by decide)

theorem week_notMem_formatInt (width : Nat) (x : Int) : 'W' ∉ (formatInt width x).toList := by
  unfold formatInt
  rw [String.toList_append]
  intro h
  rcases List.mem_append.mp h with h | h
  · split at h
    · exact absurd h (by decide)
    · exact absurd h (by decide)
  · exact absurd (isDigit_of_mem_zeroPadded h) (by decide)

theorem formatInt_injective (width : Nat) : Function.Injective (formatInt width) := by
  have hsign : ∀ {x : Int}, x < 0 → '-' ∈ (formatInt width x).toList := by
    intro x hx
    unfold formatInt
    rw [if_pos hx, String.toList_append]
    exact List.mem_append_left _ (by decide)
  intro x y h
  have hsame : x < 0 ↔ y < 0 := by
    constructor
    · intro hx
      by_contra hy
      exact dash_notMem_formatInt (not_lt.mp hy) (h ▸ hsign hx)
    · intro hy
      by_contra hx
      exact dash_notMem_formatInt (not_lt.mp hx) (h ▸ hsign hy)
  have habs : x.natAbs = y.natAbs := by
    have hlists := congrArg String.toList h
    unfold formatInt at hlists
    rw [if_congr hsame rfl rfl, String.toList_append, String.toList_append] at hlists
    exact zeroPadded_injective width (String.toList_inj.mp (List.append_cancel_left hlists))
  omega

/-! ## Labels -/

theorem yearLabel_inj {day other : Int} (h : yearLabel day = yearLabel other) :
    yearOf day = yearOf other :=
  formatInt_injective 0 h

theorem weekLabel_inj {day other : Int} (h : weekLabel day = weekLabel other) :
    yearOf day = yearOf other ∧ isoWeek (weekIndex day) = isoWeek (weekIndex other) := by
  obtain ⟨hyear, hweek⟩ := string_append_inj_of_last 'W' (by decide) (week_notMem_formatInt 0 _)
    (week_notMem_formatInt 0 _) h
  exact ⟨formatInt_injective 0 hyear, formatInt_injective 0 hweek⟩

theorem monthLabel_inj {day other : Int} (h : monthLabel day = monthLabel other) :
    monthIndex day = monthIndex other := by
  obtain ⟨hyear, hmonth⟩ := string_append_inj_of_last '-' (by decide)
    (dash_notMem_formatInt (Int.natCast_nonneg _)) (dash_notMem_formatInt (Int.natCast_nonneg _)) h
  unfold monthIndex
  rw [formatInt_injective 0 hyear, formatInt_injective 2 hmonth]

theorem isoformat_inj {day other : Int} (h : isoformat day = isoformat other) : day = other := by
  obtain ⟨hdate, hday⟩ := string_append_inj_of_last '-' (by decide)
    (dash_notMem_formatInt (dayOfMonth_pos day).le) (dash_notMem_formatInt (dayOfMonth_pos other).le) h
  obtain ⟨hyear, hmonth⟩ := string_append_inj_of_last '-' (by decide)
    (dash_notMem_formatInt (Int.natCast_nonneg _)) (dash_notMem_formatInt (Int.natCast_nonneg _)) hdate
  exact day_ext (formatInt_injective 4 hyear) (Int.ofNat_inj.mp (formatInt_injective 2 hmonth))
    (formatInt_injective 2 hday)

/-! ## Periods -/

/-- The day, the ISO week, the month or the year of an instant, counted on. -/
def Timeframe.period (tf : Timeframe) (t : Time) : Int :=
  match tf with
  | .daily => date t
  | .weekly => weekIndex (date t)
  | .monthly => monthIndex (date t)
  | .yearly => yearOf (date t)

/-- The part of a period that lies in one calendar year. -/
def Timeframe.SameStretch (tf : Timeframe) (s t : Time) : Prop :=
  tf.period s = tf.period t ∧ yearOf (date s) = yearOf (date t)

instance (tf : Timeframe) (s t : Time) : Decidable (tf.SameStretch s t) :=
  inferInstanceAs (Decidable (_ ∧ _))

namespace Timeframe

theorem date_mono {s t : Time} (hle : s ≤ t) : date s ≤ date t :=
  Int.add_le_add_right (Int.ediv_le_ediv (by decide) hle) 719162

theorem period_mono (tf : Timeframe) {s t : Time} (hle : s ≤ t) : tf.period s ≤ tf.period t := by
  cases tf with
  | daily => exact date_mono hle
  | weekly => exact weekIndex_mono (date_mono hle)
  | monthly => exact monthIndex_mono (date_mono hle)
  | yearly => exact yearOf_mono (date_mono hle)

/-- Only weeks lie in two years. -/
theorem sameStretch_of_period {tf : Timeframe} (htf : tf ≠ .weekly) {s t : Time}
    (h : tf.period s = tf.period t) : tf.SameStretch s t := by
  refine ⟨h, ?_⟩
  cases tf with
  | daily => exact congrArg yearOf h
  | weekly => exact absurd rfl htf
  | monthly => exact (monthIndex_inj h).1
  | yearly => exact h

theorem label_of_sameStretch {tf : Timeframe} {s t : Time} (h : tf.SameStretch s t) :
    (labels s).get tf = (labels t).get tf := by
  obtain ⟨hperiod, hyear⟩ := h
  cases tf with
  | daily => exact congrArg isoformat hperiod
  | weekly =>
      show weekLabel (date s) = weekLabel (date t)
      unfold weekLabel
      rw [hyear, show weekIndex (date s) = weekIndex (date t) from hperiod]
  | monthly =>
      show monthLabel (date s) = monthLabel (date t)
      unfold monthLabel
      rw [hyear, (monthIndex_inj hperiod).2]
  | yearly => exact congrArg (formatInt 0) hperiod

/-- What lies between two instants of a stretch lies in it. -/
theorem SameStretch.between {tf : Timeframe} {r s t : Time} (h : tf.SameStretch r t) (hrs : r ≤ s)
    (hst : s ≤ t) : tf.SameStretch r s := by
  have hperiod := tf.period_mono hrs
  have hperiod' := tf.period_mono hst
  have hyear := yearOf_mono (date_mono hrs)
  have hyear' := yearOf_mono (date_mono hst)
  have hends := h.1
  have hyears := h.2
  exact ⟨by omega, by omega⟩

theorem period_of_label {tf : Timeframe} (htf : tf ≠ .weekly) {s t : Time}
    (h : (labels s).get tf = (labels t).get tf) : tf.period s = tf.period t := by
  cases tf with
  | daily => exact isoformat_inj h
  | weekly => exact absurd rfl htf
  | monthly => exact monthLabel_inj h
  | yearly => exact yearLabel_inj h

/-- The label of a week is not that of the next. -/
theorem label_ne_of_next {tf : Timeframe} {s t : Time} (h : tf.period t = tf.period s + 1) :
    (labels s).get tf ≠ (labels t).get tf := by
  intro hlabel
  by_cases htf : tf = .weekly
  · subst htf
    have hweek := (weekLabel_inj hlabel).2
    rw [show weekIndex (date t) = weekIndex (date s) + 1 from h] at hweek
    exact isoWeek_succ_ne _ hweek.symm
  · have hperiod := period_of_label htf hlabel
    omega

/-- A label set at `r` that is still that of the period of `s`, while in the next period another label
set at `r` is current again: then that one was current at `s` too. -/
theorem label_of_next {tf other : Timeframe} {r s t : Time} (hrs : r ≤ s) (hst : s ≤ t)
    (hcurrent : (labels r).get tf = (labels s).get tf) (hnext : tf.period t = tf.period s + 1)
    (hagain : (labels r).get other = (labels t).get other) :
    (labels r).get other = (labels s).get other ∧ other ≠ tf := by
  have hne : other ≠ tf := by
    intro heq
    subst heq
    exact label_ne_of_next hnext (hcurrent.symm.trans hagain)
  refine ⟨?_, hne⟩
  by_cases hother : other = .weekly
  · subst hother
    have hperiod := period_of_label (Ne.symm hne) hcurrent
    obtain ⟨hyear, hweek⟩ := weekLabel_inj hagain
    by_cases hsame : weekIndex (date r) = weekIndex (date t)
    · have hstretch : SameStretch .weekly r t := ⟨hsame, hyear⟩
      exact label_of_sameStretch (hstretch.between hrs hst)
    · -- The weeks at the two ends of a year are too far apart.
      obtain ⟨hfirst, hlast⟩ := year_ends_of_isoWeek_eq (date_mono (hrs.trans hst)) hyear hweek hsame
      rw [← hperiod] at hnext
      cases tf with
      | daily =>
          have hday : date t = date r + 1 := hnext
          unfold dayOfYear at hfirst hlast
          rw [hyear] at hfirst
          omega
      | weekly => exact absurd rfl hne
      | monthly =>
          have hmonth : monthIndex (date t) = monthIndex (date r) + 1 := hnext
          unfold monthIndex at hmonth
          rw [monthOf_eq_one hfirst, monthOf_eq_twelve hlast] at hmonth
          omega
      | yearly =>
          have hyear' : yearOf (date t) = yearOf (date r) + 1 := hnext
          omega
  · have hstretch := sameStretch_of_period hother (period_of_label hother hagain)
    exact label_of_sameStretch (hstretch.between hrs hst)

end Timeframe

end AutoTrade.Auth
