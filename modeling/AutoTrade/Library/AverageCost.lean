import Mathlib.Algebra.Order.Field.Basic
import Mathlib.Data.List.Basic
import Mathlib.Tactic.FieldSimp
import Mathlib.Tactic.Linarith
import Mathlib.Tactic.Ring

/-! # Holdings at average cost

A holding is a signed quantity and the average price at which it was built up.
A fill opens it, adds to it, closes part or all of it, or turns it round; what
it closes is realised at the difference between the fill's price and the
average. Over any fills, what was realised and the cost of what is still held
make up what was paid.
-/

namespace AutoTrade.Library

/-- A signed quantity and its price. -/
structure Deal (K : Type) where
  quantity : K
  price : K
deriving DecidableEq, Repr

structure Holding (K : Type) where
  quantity : K
  average : K
deriving DecidableEq, Repr

namespace Holding

variable {K : Type} [Field K] [LinearOrder K]

def flat : Holding K := ⟨0, 0⟩

def fill (h : Holding K) (d : Deal K) : Holding K :=
  if h.quantity = 0 then ⟨d.quantity, d.price⟩
  else if h.quantity + d.quantity = 0 then flat
  else if 0 < h.quantity * d.quantity then
    ⟨h.quantity + d.quantity,
      (h.quantity * h.average + d.quantity * d.price) / (h.quantity + d.quantity)⟩
  else if |d.quantity| < |h.quantity| then ⟨h.quantity + d.quantity, h.average⟩
  else ⟨h.quantity + d.quantity, d.price⟩

/-- What the fill realises. -/
def realised (h : Holding K) (d : Deal K) : K :=
  if h.quantity = 0 then 0
  else if h.quantity + d.quantity = 0 then (d.price - h.average) * h.quantity
  else if 0 < h.quantity * d.quantity then 0
  else if |d.quantity| < |h.quantity| then (h.average - d.price) * d.quantity
  else (d.price - h.average) * h.quantity

/-- The prices since the holding was last flat or turned round, given those up to the fill. -/
def pricesAfter (h : Holding K) (prices : List K) (d : Deal K) : List K :=
  if h.quantity = 0 then [d.price]
  else if h.quantity + d.quantity = 0 then []
  else if h.quantity * (h.quantity + d.quantity) < 0 then [d.price]
  else prices ++ [d.price]

/-- The average lies between two of the prices. -/
def Between (h : Holding K) (prices : List K) : Prop :=
  ∃ low ∈ prices, ∃ high ∈ prices, low ≤ h.average ∧ h.average ≤ high

theorem fill_of_same {h : Holding K} {d : Deal K} (hheld : h.quantity ≠ 0)
    (hopen : h.quantity + d.quantity ≠ 0) (hsame : 0 < h.quantity * d.quantity) :
    h.fill d = ⟨h.quantity + d.quantity,
      (h.quantity * h.average + d.quantity * d.price) / (h.quantity + d.quantity)⟩ ∧
      h.realised d = 0 := by
  unfold fill realised
  rw [if_neg hheld, if_neg hopen, if_pos hsame, if_neg hheld, if_neg hopen, if_pos hsame]
  exact ⟨rfl, rfl⟩

theorem fill_of_part {h : Holding K} {d : Deal K} (hheld : h.quantity ≠ 0)
    (hopen : h.quantity + d.quantity ≠ 0) (hother : ¬ 0 < h.quantity * d.quantity)
    (hpart : |d.quantity| < |h.quantity|) :
    h.fill d = ⟨h.quantity + d.quantity, h.average⟩ ∧
      h.realised d = (h.average - d.price) * d.quantity := by
  unfold fill realised
  rw [if_neg hheld, if_neg hopen, if_neg hother, if_pos hpart, if_neg hheld, if_neg hopen,
    if_neg hother, if_pos hpart]
  exact ⟨rfl, rfl⟩

theorem fill_of_turn {h : Holding K} {d : Deal K} (hheld : h.quantity ≠ 0)
    (hopen : h.quantity + d.quantity ≠ 0) (hother : ¬ 0 < h.quantity * d.quantity)
    (hwhole : ¬ |d.quantity| < |h.quantity|) :
    h.fill d = ⟨h.quantity + d.quantity, d.price⟩ ∧
      h.realised d = (d.price - h.average) * h.quantity := by
  unfold fill realised
  rw [if_neg hheld, if_neg hopen, if_neg hother, if_neg hwhole, if_neg hheld, if_neg hopen,
    if_neg hother, if_neg hwhole]
  exact ⟨rfl, rfl⟩

theorem quantity_fill (h : Holding K) (d : Deal K) :
    (h.fill d).quantity = h.quantity + d.quantity := by
  unfold fill
  split
  · rename_i hflat
    rw [hflat, zero_add]
  · split
    · rename_i hclosed
      rw [hclosed]
      rfl
    · split
      · rfl
      · split <;> rfl

/-- The fill's price is paid for the cost of what is held afterwards, less what was held before and
what is realised. -/
theorem realised_eq (h : Holding K) (d : Deal K) :
    h.realised d = (h.fill d).quantity * (h.fill d).average - h.quantity * h.average -
      d.quantity * d.price := by
  unfold realised fill
  split
  · rename_i hflat
    rw [hflat]
    ring
  · split
    · rename_i hclosed
      have hd : d.quantity = -h.quantity := eq_neg_of_add_eq_zero_right hclosed
      rw [hd]
      simp only [flat]
      ring
    · split
      · rename_i hopen _
        field_simp
        ring
      · split
        · ring
        · ring

section Bounds

variable [IsStrictOrderedRing K]

/-- A weighted average with weights of one sign lies between its parts. -/
theorem weighted_between {q r a b low high : K} (hsign : 0 < q * r) (hla : low ≤ a) (hlb : low ≤ b)
    (hah : a ≤ high) (hbh : b ≤ high) :
    low ≤ (q * a + r * b) / (q + r) ∧ (q * a + r * b) / (q + r) ≤ high := by
  rcases mul_pos_iff.mp hsign with ⟨hq, hr⟩ | ⟨hq, hr⟩
  · have hsum : 0 < q + r := add_pos hq hr
    rw [le_div_iff₀ hsum, div_le_iff₀ hsum]
    constructor <;> nlinarith
  · have hsum : q + r < 0 := add_neg hq hr
    rw [le_div_iff_of_neg hsum, div_le_iff_of_neg hsum]
    constructor <;> nlinarith

/-- A fill on the other side that does not close the holding turns it round exactly when it is not
smaller. -/
theorem turned_iff {q r : K} (hopposite : q * r < 0) (hopen : q + r ≠ 0) :
    q * (q + r) < 0 ↔ ¬ |r| < |q| := by
  have hq : 0 < |q| := abs_pos.mpr fun hq => by simp [hq] at hopposite
  have hproduct : q * (q + r) = |q| * (|q| - |r|) := by
    have hr : q * r = -(|q| * |r|) := by rw [← abs_mul, abs_of_neg hopposite, neg_neg]
    rw [mul_add, hr, mul_sub, abs_mul_abs_self, sub_eq_add_neg]
  have hne : |q| ≠ |r| := by
    intro heq
    rcases abs_eq_abs.mp heq with rfl | rfl
    · exact absurd (mul_self_nonneg q) (not_le.mpr hopposite)
    · exact hopen (neg_add_cancel r)
  rw [hproduct, mul_neg_iff, not_lt]
  constructor
  · rintro (⟨-, hlt⟩ | ⟨hneg, -⟩)
    · exact (sub_neg.mp hlt).le
    · exact absurd hq hneg.not_gt
  · intro hle
    exact .inl ⟨hq, sub_neg.mpr (lt_of_le_of_ne hle hne)⟩

omit [Field K] [IsStrictOrderedRing K] in
theorem between_singleton (q price : K) : (⟨q, price⟩ : Holding K).Between [price] :=
  ⟨price, List.mem_singleton_self _, price, List.mem_singleton_self _, le_rfl, le_rfl⟩

/-- A holding that is open after a fill has its average between prices since it was last flat. -/
theorem between_fill {h : Holding K} {prices : List K} {d : Deal K} (hd : d.quantity ≠ 0)
    (hbetween : h.quantity ≠ 0 → h.Between prices) (hopen : (h.fill d).quantity ≠ 0) :
    (h.fill d).Between (h.pricesAfter prices d) := by
  rw [quantity_fill] at hopen
  unfold fill pricesAfter
  by_cases hflat : h.quantity = 0
  · rw [if_pos hflat, if_pos hflat]
    exact between_singleton _ _
  obtain ⟨low, hlow, high, hhigh, hla, hah⟩ := hbetween hflat
  have hprices : low ∈ prices ++ [d.price] ∧ high ∈ prices ++ [d.price] :=
    ⟨List.mem_append_left _ hlow, List.mem_append_left _ hhigh⟩
  have hlast : d.price ∈ prices ++ [d.price] :=
    List.mem_append_right _ (List.mem_singleton_self _)
  rw [if_neg hflat, if_neg hflat, if_neg hopen, if_neg hopen]
  by_cases hsame : 0 < h.quantity * d.quantity
  · have hkept : ¬ h.quantity * (h.quantity + d.quantity) < 0 := by
      rw [mul_add, not_lt]
      exact add_nonneg (mul_self_nonneg _) hsame.le
    rw [if_pos hsame, if_neg hkept]
    obtain ⟨hleft, hright⟩ := weighted_between hsame ((min_le_left low d.price).trans hla)
      (min_le_right low d.price) (hah.trans (le_max_left high d.price)) (le_max_right high d.price)
    refine ⟨min low d.price, ?_, max high d.price, ?_, hleft, hright⟩
    · rcases min_choice low d.price with h | h <;> rw [h]
      · exact hprices.1
      · exact hlast
    · rcases max_choice high d.price with h | h <;> rw [h]
      · exact hprices.2
      · exact hlast
  · have hopposite : h.quantity * d.quantity < 0 :=
      lt_of_le_of_ne (not_lt.mp hsame) (mul_ne_zero hflat hd)
    rw [if_neg hsame]
    by_cases hpart : |d.quantity| < |h.quantity|
    · rw [if_pos hpart, if_neg fun h => (turned_iff hopposite hopen).mp h hpart]
      exact ⟨low, hprices.1, high, hprices.2, hla, hah⟩
    · rw [if_neg hpart, if_pos ((turned_iff hopposite hopen).mpr hpart)]
      exact between_singleton _ _

end Bounds

end Holding

end AutoTrade.Library
