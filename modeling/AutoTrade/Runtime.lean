import Mathlib.Data.List.Infix
import Mathlib.Data.Rat.Defs
import Mathlib.Algebra.Order.Field.Rat
import Mathlib.Tactic.Linarith

/-! # The Python runtime as the program sees it

Exceptions carry the class an `except` clause tests and the text `str(e)`
returns. `ConnectionError` is a subclass of `OSError` and `JSONDecodeError` of
`ValueError`, so neither needs a class of its own. Prices are rational numbers;
their text is produced by the platform's float formatting, which is a parameter
where a string is built from one.
-/

namespace AutoTrade

/-- Microseconds on the wall clock that `now_ist()` reads; the host runs on IST,
so `time_provider` reads the same clock. -/
abbrev Time := Int

def second : Time := 1000000

def hour : Time := 3600 * second

/-- `time_provider.format_ts()` keeps whole seconds; this is the instant that
`datetime.fromisoformat` reads back from the text. -/
def formatTs (t : Time) : Time := t / second * second

/-- `(later - earlier).total_seconds()`. -/
def totalSeconds (later earlier : Time) : ℚ := (later - earlier : Int) / (second : ℚ)

/-- `int(time.time())` at an instant of the IST clock, five and a half hours ahead of UTC. -/
def epochSeconds (t : Time) : Int := (t - 19800 * second) / second

inductive ExcClass
  | keyError
  | valueError
  | typeError
  | osError
  | runtimeError
  | attributeError
  | persistenceError
  | other
deriving DecidableEq, Repr

structure PyExc where
  cls : ExcClass
  message : String
deriving DecidableEq, Repr

/-- Whether an `except` clause naming these classes handles the exception. -/
def PyExc.caughtBy (e : PyExc) (classes : List ExcClass) : Bool := decide (e.cls ∈ classes)

/-- Rounding to a whole number, ties to the even one, as `round` and `format` do. -/
def roundHalfEven (x : ℚ) : Int :=
  let rest := x - x.floor
  if rest < 1 / 2 ∨ (rest = 1 / 2 ∧ x.floor % 2 = 0) then x.floor else x.floor + 1

/-- `f"{x:.0f}"`. -/
def formatWhole (x : ℚ) : String :=
  (if x < 0 then "-" else "") ++ toString (roundHalfEven |x|)

/-- `round(x, digits)`. -/
def roundTo (digits : Nat) (x : ℚ) : ℚ := roundHalfEven (x * 10 ^ digits) / 10 ^ digits

/-- `int(x)`. -/
def truncate (x : ℚ) : Int := if 0 ≤ x then x.floor else x.ceil

/-- The digits of `n`, with zeros before them up to the width. -/
def zeroPadded (width n : Nat) : String :=
  "".pushn '0' (width - (toString n).length) ++ toString n

/-- `f"{x:.2f}"` for two digits; `plus` is what stands before a number that is not negative. -/
def formatFixed (digits : Nat) (plus : String) (x : ℚ) : String :=
  let whole := (roundHalfEven (|x| * 10 ^ digits)).toNat
  let point := if digits = 0 then "" else "." ++ zeroPadded digits (whole % 10 ^ digits)
  (if x < 0 then "-" else plus) ++ toString (whole / 10 ^ digits) ++ point

/-- `f"{x:.1%}"`. -/
def formatPercent (x : ℚ) : String := formatFixed 1 "" (x * 100) ++ "%"

theorem roundHalfEven_nonneg {x : ℚ} (h : 0 ≤ x) : 0 ≤ roundHalfEven x := by
  have hfloor : 0 ≤ x.floor := Rat.le_floor_iff.mpr (by simpa using h)
  unfold roundHalfEven
  dsimp only
  split
  · exact hfloor
  · omega

theorem roundTo_nonneg (digits : Nat) {x : ℚ} (h : 0 ≤ x) : 0 ≤ roundTo digits x := by
  have hscale : (0 : ℚ) ≤ 10 ^ digits := pow_nonneg (by decide) digits
  have hround := roundHalfEven_nonneg (mul_nonneg h hscale)
  exact div_nonneg (Rat.intCast_nonneg.mpr hround) hscale

theorem roundHalfEven_mono {x y : ℚ} (h : x ≤ y) : roundHalfEven x ≤ roundHalfEven y := by
  have hfloor : x.floor ≤ y.floor := Rat.floor_monotone h
  by_cases hsame : x.floor = y.floor
  · have hrest : x - x.floor ≤ y - x.floor := sub_le_sub_right h _
    unfold roundHalfEven
    rw [← hsame]
    dsimp only
    split
    · split <;> omega
    · rename_i hup
      rw [if_neg]
      rintro (hlt | ⟨heq, heven⟩)
      · exact hup (.inl (hrest.trans_lt hlt))
      · exact hup ((hrest.trans_eq heq).lt_or_eq.imp_right fun hx => ⟨hx, heven⟩)
  · have hx : roundHalfEven x ≤ x.floor + 1 := by
      unfold roundHalfEven
      dsimp only
      split <;> omega
    have hy : y.floor ≤ roundHalfEven y := by
      unfold roundHalfEven
      dsimp only
      split <;> omega
    omega

theorem roundTo_mono (digits : Nat) {x y : ℚ} (h : x ≤ y) : roundTo digits x ≤ roundTo digits y := by
  have hscale : (0 : ℚ) < 10 ^ digits := pow_pos (by decide) digits
  have hround := roundHalfEven_mono (mul_le_mul_of_nonneg_right h hscale.le)
  exact div_le_div_of_nonneg_right (Rat.intCast_le_intCast.mpr hround) hscale.le

theorem roundHalfEven_intCast (n : Int) : roundHalfEven (n : ℚ) = n := by
  unfold roundHalfEven
  simp [Rat.floor_intCast]

theorem roundTo_roundTo (digits : Nat) (x : ℚ) :
    roundTo digits (roundTo digits x) = roundTo digits x := by
  have hpos : (0 : ℚ) < 10 ^ digits := pow_pos (by decide) digits
  have hscale : roundTo digits x * 10 ^ digits = (roundHalfEven (x * 10 ^ digits) : ℚ) :=
    div_mul_cancel₀ _ hpos.ne'
  rw [roundTo, hscale, roundHalfEven_intCast]
  rfl

theorem abs_roundHalfEven_sub_le (x : ℚ) : |(roundHalfEven x : ℚ) - x| ≤ 1 / 2 := by
  have hle : (x.floor : ℚ) ≤ x := Rat.floor_le x
  have hlt : x < (x.floor + 1 : Int) := Rat.lt_floor_add_one x
  push_cast at hlt
  unfold roundHalfEven
  dsimp only
  rw [abs_le]
  split
  · rename_i h
    rcases h with h | ⟨h, -⟩ <;> constructor <;> linarith
  · rename_i h
    have hhalf : 1 / 2 ≤ x - x.floor := by
      by_contra hless
      exact h (Or.inl (not_le.mp hless))
    push_cast
    constructor <;> linarith

/-- Rounding moves a value by half a unit of the last decimal at most. -/
theorem abs_roundTo_sub_le_half (digits : Nat) (x : ℚ) :
    |roundTo digits x - x| ≤ 1 / 2 / 10 ^ digits := by
  have hpos : (0 : ℚ) < 10 ^ digits := pow_pos (by decide) digits
  have h := abs_le.mp (abs_roundHalfEven_sub_le (x * 10 ^ digits))
  have hscale : roundTo digits x - x =
      (roundHalfEven (x * 10 ^ digits) - x * 10 ^ digits) / 10 ^ digits := by
    rw [sub_div, mul_div_cancel_right₀ x hpos.ne']
    rfl
  rw [hscale, abs_le, ← neg_div]
  exact ⟨div_le_div_of_nonneg_right h.1 hpos.le, div_le_div_of_nonneg_right h.2 hpos.le⟩

/-- Rounding to two decimals moves a value by half a paisa at most. -/
theorem abs_roundTo_sub_le (x : ℚ) : |roundTo 2 x - x| ≤ 5 / 1000 := by
  have h := abs_roundHalfEven_sub_le (x * 10 ^ 2)
  rw [abs_le] at h ⊢
  unfold roundTo
  constructor <;> linarith

theorem truncate_nonneg {x : ℚ} (h : 0 ≤ x) : 0 ≤ truncate x := by
  rw [truncate, if_pos h]
  exact Rat.le_floor_iff.mpr (by simpa using h)

theorem truncate_nonpos {x : ℚ} (h : x ≤ 0) : truncate x ≤ 0 := by
  unfold truncate
  split
  · rename_i hx
    rw [le_antisymm h hx]
    decide
  · exact Rat.ceil_le_iff.mpr (by simpa using h)

theorem truncate_mono {x y : ℚ} (h : x ≤ y) : truncate x ≤ truncate y := by
  by_cases hx : 0 ≤ x
  · rw [truncate, truncate, if_pos hx, if_pos (hx.trans h)]
    exact Rat.floor_monotone h
  · by_cases hy : 0 ≤ y
    · exact (truncate_nonpos (not_le.mp hx).le).trans (truncate_nonneg hy)
    · rw [truncate, truncate, if_neg hx, if_neg hy]
      exact Rat.ceil_le_iff.mpr (h.trans Rat.le_ceil)

/-- Truncation stays at or below a number exactly when what is truncated stays below the next. -/
theorem truncate_le_iff {x : ℚ} {n : Int} (hn : 0 ≤ n) : truncate x ≤ n ↔ x < n + 1 := by
  unfold truncate
  split
  · rw [← Int.lt_add_one_iff, Rat.floor_lt_iff]
    push_cast
    rfl
  · rename_i hneg
    have hx : x < 0 := not_le.mp hneg
    have hcast : (0 : ℚ) ≤ n := by exact_mod_cast hn
    exact iff_of_true (Rat.ceil_le_iff.mpr (hx.le.trans hcast))
      ((hx.trans_le hcast).trans (lt_add_one _))

/-- Python truth of an optional string: `None` and `""` are false. -/
def truthy (s : Option String) : Bool := s.any (· ≠ "")

/-- `a or b` on strings. -/
def orElse (a : Option String) (b : String) : String := if truthy a then a.getD b else b

/-- `needle in text`. -/
def inText (needle text : String) : Bool := decide (needle.toList <:+: text.toList)

theorem truthy_some {s : String} (h : s ≠ "") : truthy (some s) = true := by
  simp [truthy, h]

theorem orElse_some {s : String} (h : s ≠ "") (b : String) : orElse (some s) b = s := by
  simp [orElse, truthy_some h]

end AutoTrade
