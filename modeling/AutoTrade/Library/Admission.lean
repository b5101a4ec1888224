import Mathlib.Algebra.Order.Field.Basic
import Mathlib.Data.List.Induction
import Mathlib.Tactic.Linarith
import Mathlib.Tactic.Ring

/-! # Logs of admitted cost

A log lists admissions in the order they were made, each with a time and a cost.
Three ways to keep the cost of every interval bounded are proved to do so: to
look back over a window at each admission, to count within windows that do not
overlap, and to spend tokens that come in at a fixed rate. Where only the number
of admissions counts, windows are half-open.
-/

namespace AutoTrade.Library

section Admission

variable {ε K : Type} [LinearOrder K] (time : ε → K) (cost : ε → Nat) (start : ε → K)

def costOf (log : List ε) (p : ε → Bool) : Nat := ((log.filter p).map cost).sum

def costIn (log : List ε) (s t : K) : Nat :=
  costOf cost log fun e => decide (s ≤ time e ∧ time e ≤ t)

def costSince (log : List ε) (s : K) : Nat := costOf cost log fun e => decide (s ≤ time e)

def windowCost (log : List ε) (w : K) : Nat := costOf cost log fun e => decide (start e = w)

variable {time cost start}

theorem costOf_append (log : List ε) (e : ε) (p : ε → Bool) :
    costOf cost (log ++ [e]) p = costOf cost log p + if p e then cost e else 0 := by
  unfold costOf
  cases hp : p e <;> simp [hp]

theorem costOf_le_add {log : List ε} {p q r : ε → Bool}
    (h : ∀ e ∈ log, p e = true → q e = true ∨ r e = true) :
    costOf cost log p ≤ costOf cost log q + costOf cost log r := by
  induction log using List.reverseRecOn with
  | nil => simp [costOf]
  | append_singleton rest e ih =>
      have hrest := ih fun x hx => h x (List.mem_append_left [e] hx)
      have hlast := h e (by simp)
      simp only [costOf_append]
      cases hp : p e with
      | false => simp only [Bool.false_eq_true, if_false]; omega
      | true =>
          rcases hlast hp with hq | hr
          · simp only [hq, if_true]; omega
          · simp only [hr, if_true]; omega

theorem costOf_eq_zero {log : List ε} {p : ε → Bool} (h : ∀ e ∈ log, p e = false) :
    costOf cost log p = 0 := by
  unfold costOf
  rw [List.filter_eq_nil_iff.mpr fun e he => by simp [h e he]]
  rfl

theorem costOf_mono {log : List ε} {p q : ε → Bool}
    (h : ∀ e ∈ log, p e = true → q e = true) : costOf cost log p ≤ costOf cost log q := by
  have hadd : costOf cost log p ≤ costOf cost log q + costOf cost log fun _ => false :=
    costOf_le_add fun e he hp => .inl (h e he hp)
  rwa [costOf_eq_zero fun e _ => rfl, Nat.add_zero] at hadd

/-- An admission adds its cost to the intervals it lies in. -/
theorem costIn_append (log : List ε) (e : ε) (s t : K) :
    costIn time cost (log ++ [e]) s t =
      costIn time cost log s t + if s ≤ time e ∧ time e ≤ t then cost e else 0 := by
  unfold costIn
  rw [costOf_append]
  by_cases hin : s ≤ time e ∧ time e ≤ t <;> simp [hin]

/-! ## Counting in half-open windows -/

variable (time) in
def countSince (p : ε → Bool) (log : List ε) (s : K) : Nat :=
  log.countP fun e => p e && decide (s ≤ time e)

variable (time) in
def countWithin (p : ε → Bool) (log : List ε) (s t : K) : Nat :=
  log.countP fun e => p e && decide (s ≤ time e ∧ time e < t)

theorem countSince_append (p : ε → Bool) (log : List ε) (e : ε) (s : K) :
    countSince time p (log ++ [e]) s =
      countSince time p log s + if p e = true ∧ s ≤ time e then 1 else 0 := by
  unfold countSince
  rw [List.countP_append, List.countP_singleton]
  simp only [Bool.and_eq_true, decide_eq_true_eq]

theorem countSince_append_of_not {p : ε → Bool} {e : ε} (he : p e = false) (log : List ε) (s : K) :
    countSince time p (log ++ [e]) s = countSince time p log s := by
  rw [countSince_append, if_neg fun h => by simp [he] at h, Nat.add_zero]

theorem countSince_le_append (p : ε → Bool) (log : List ε) (e : ε) (s : K) :
    countSince time p log s ≤ countSince time p (log ++ [e]) s := by
  rw [countSince_append]
  exact Nat.le_add_right _ _

/-- One entry is added to each of two logs. -/
theorem countSince_append_le {η : Type} {time' : η → K} {p : ε → Bool} {q : η → Bool} {log : List ε}
    {log' : List η} {e : ε} {x : η} {s : K}
    (h : countSince time p log s ≤ countSince time' q log' s)
    (hnew : p e = true → q x = true ∧ time e ≤ time' x) :
    countSince time p (log ++ [e]) s ≤ countSince time' q (log' ++ [x]) s := by
  rw [countSince_append, countSince_append]
  by_cases hin : p e = true ∧ s ≤ time e
  · rw [if_pos hin, if_pos ⟨(hnew hin.1).1, hin.2.trans (hnew hin.1).2⟩]
    exact Nat.add_le_add_right h 1
  · rw [if_neg hin]
    exact h.trans (Nat.le_add_right _ _)

theorem countWithin_le_countSince (p : ε → Bool) (log : List ε) (s t : K) :
    countWithin time p log s t ≤ countSince time p log s := by
  refine List.countP_mono_left fun e _ h => ?_
  simp only [Bool.and_eq_true, decide_eq_true_eq] at h ⊢
  exact ⟨h.1, h.2.1⟩

/-- An entry is admitted where fewer than the limit have been made since the start of each window it
lies in. -/
theorem countWithin_append_le {limit : Nat} {p : ε → Bool} {log : List ε} {e : ε} {close : K → K}
    (h : ∀ s, countWithin time p log s (close s) ≤ limit)
    (hnew : p e = true → ∀ s, time e < close s → countSince time p log s < limit) (s : K) :
    countWithin time p (log ++ [e]) s (close s) ≤ limit := by
  have happend : countWithin time p (log ++ [e]) s (close s) =
      countWithin time p log s (close s) +
        if p e = true ∧ s ≤ time e ∧ time e < close s then 1 else 0 := by
    unfold countWithin
    rw [List.countP_append, List.countP_singleton]
    simp only [Bool.and_eq_true, decide_eq_true_eq]
  rw [happend]
  split
  · rename_i hin
    have hbefore : countWithin time p log s (close s) ≤ countSince time p log s :=
      countWithin_le_countSince p log s (close s)
    exact Nat.succ_le_of_lt (hbefore.trans_lt (hnew hin.1 s hin.2.2))
  · exact h s

/-! ## Looking back over a window -/

variable [Field K] [IsStrictOrderedRing K]

variable (time cost) in
def WithinEveryWindow (limit : Int) (window : K) (log : List ε) : Prop :=
  ∀ s, (costIn time cost log s (s + window) : Int) ≤ limit

theorem WithinEveryWindow.append {limit : Int} {window : K} {log : List ε} {e : ε}
    (h : WithinEveryWindow time cost limit window log)
    (hback : (costOf cost log (fun x => decide (time e - window ≤ time x)) + cost e : Int) ≤ limit) :
    WithinEveryWindow time cost limit window (log ++ [e]) := by
  intro s
  rw [costIn_append]
  by_cases hin : s ≤ time e ∧ time e ≤ s + window
  · rw [if_pos hin]
    have hmono : costIn time cost log s (s + window) ≤
        costOf cost log (fun x => decide (time e - window ≤ time x)) := by
      refine costOf_mono fun x _ hmem => ?_
      simp only [decide_eq_true_eq] at hmem ⊢
      linarith [hin.2, hmem.1]
    omega
  · rw [if_neg hin]
    exact h s

/-! ## Counting within windows -/

/-- An admission of an earlier window lies before the later one begins, and the later window's
admissions lie a whole window after the earlier one began. -/
def WindowsApart (time start : ε → K) (window : K) (log : List ε) : Prop :=
  ∀ x ∈ log, ∀ y ∈ log, start x < start y → time x ≤ start y ∧ start x + window ≤ time y

/-- An interval shorter than the window has no admissions of three windows. -/
theorem WindowsApart.not_three {window : K} {log : List ε} (h : WindowsApart time start window log)
    {x y z : ε} (hx : x ∈ log) (hy : y ∈ log) (hz : z ∈ log) {s t : K} (hshort : t - s < window)
    (hsx : s ≤ time x) (hzt : time z ≤ t) (hxy : start x < start y) (hyz : start y < start z) :
    False := by
  have hbefore := (h x hx y hy hxy).1
  have hafter := (h y hy z hz hyz).2
  linarith

theorem WindowsApart.costIn_le {limit : Int} {window : K} {log : List ε}
    (h : WindowsApart time start window log)
    (hlimit : ∀ w, (windowCost cost start log w : Int) ≤ limit)
    {s t : K} (hshort : t - s < window) : (costIn time cost log s t : Int) ≤ 2 * limit := by
  have htwo : ∀ a b, (∀ e ∈ log, s ≤ time e → time e ≤ t → start e = a ∨ start e = b) →
      (costIn time cost log s t : Int) ≤ 2 * limit := by
    intro a b hcover
    have hadd : costIn time cost log s t ≤
        windowCost cost start log a + windowCost cost start log b := by
      refine costOf_le_add fun e he hmem => ?_
      simp only [decide_eq_true_eq] at hmem ⊢
      exact hcover e he hmem.1 hmem.2
    have ha := hlimit a
    have hb := hlimit b
    omega
  by_cases hsome : ∃ x ∈ log, s ≤ time x ∧ time x ≤ t
  · obtain ⟨x, hx, hsx, hxt⟩ := hsome
    by_cases hother : ∃ y ∈ log, s ≤ time y ∧ time y ≤ t ∧ start y ≠ start x
    · obtain ⟨y, hy, hsy, hyt, hne⟩ := hother
      refine htwo (start x) (start y) fun e he hse het => ?_
      by_contra hthird
      push Not at hthird
      rcases lt_or_gt_of_ne hthird.1 with hex | hxe <;>
        rcases lt_or_gt_of_ne hthird.2 with hey | hye <;>
          rcases lt_or_gt_of_ne hne with hyx | hxy
      · exact h.not_three he hy hx hshort hse hxt hey hyx
      · exact h.not_three he hx hy hshort hse hyt hex hxy
      · exact h.not_three hy he hx hshort hsy hxt hye hex
      · exact absurd (hye.trans hex) (not_lt.mpr hxy.le)
      · exact absurd (hxe.trans hey) (not_lt.mpr hyx.le)
      · exact h.not_three hx he hy hshort hsx hyt hxe hey
      · exact h.not_three hy hx he hshort hsy het hyx hxe
      · exact h.not_three hx hy he hshort hsx het hxy hye
    · push Not at hother
      exact htwo (start x) (start x) fun e he hse het => .inl (hother e he hse het)
  · push Not at hsome
    refine htwo 0 0 fun e he hse het => ?_
    exact absurd het (not_le.mpr (hsome e he hse))

omit [IsStrictOrderedRing K] in
theorem WindowsApart.append {window : K} {log : List ε} {e : ε}
    (h : WindowsApart time start window log)
    (hnew : ∀ x ∈ log, start x ≤ start e ∧
      (start x < start e → time x ≤ start e ∧ start x + window ≤ time e)) :
    WindowsApart time start window (log ++ [e]) := by
  intro x hx y hy hlt
  rcases List.mem_append.mp hx with hx | hx <;> rcases List.mem_append.mp hy with hy | hy
  · exact h x hx y hy hlt
  · rw [List.mem_singleton.mp hy] at hlt ⊢
    exact (hnew x hx).2 hlt
  · rw [List.mem_singleton.mp hx] at hlt
    exact absurd hlt (not_lt.mpr (hnew y hy).1)
  · rw [List.mem_singleton.mp hx, List.mem_singleton.mp hy] at hlt
    exact absurd hlt (lt_irrefl _)

/-! ## Tokens -/

variable (time cost) in
/-- Over every interval the cost is at most the capacity and what comes in meanwhile. -/
def Metered (capacity rate : K) (log : List ε) : Prop :=
  ∀ s t, s ≤ t → (costIn time cost log s t : K) ≤ capacity + rate * (t - s)

variable (time cost) in
/-- What was spent since any instant and what is left is covered by the capacity and what came in
since. -/
def Covered (capacity rate tokens clock : K) (log : List ε) : Prop :=
  ∀ s, (costSince time cost log s : K) + tokens ≤ capacity + rate * max 0 (clock - s)

theorem Covered.refill {capacity rate tokens clock tokens' clock' : K} {log : List ε}
    (h : Covered time cost capacity rate tokens clock log) (hlast : ∀ x ∈ log, time x ≤ clock)
    (hclock : clock ≤ clock') (hrate : 0 ≤ rate) (hcap : tokens' ≤ capacity)
    (hrefill : tokens' ≤ tokens + rate * (clock' - clock)) :
    Covered time cost capacity rate tokens' clock' log := by
  intro s
  by_cases hs : s ≤ clock
  · have hbefore := h s
    rw [max_eq_right (by linarith)] at hbefore ⊢
    have hsplit : rate * (clock' - s) = rate * (clock - s) + rate * (clock' - clock) := by ring
    linarith
  · have hzero : costSince time cost log s = 0 := by
      refine costOf_eq_zero fun e he => ?_
      have hle := hlast e he
      exact decide_eq_false (by linarith [not_le.mp hs])
    have hin : 0 ≤ rate * max 0 (clock' - s) := mul_nonneg hrate (le_max_left _ _)
    rw [hzero, Nat.cast_zero]
    linarith

theorem Covered.spend {capacity rate tokens clock : K} {log : List ε}
    (h : Covered time cost capacity rate tokens clock log) (e : ε) :
    Covered time cost capacity rate (tokens - cost e) clock (log ++ [e]) := by
  intro s
  have hbefore := h s
  have hmore : (costSince time cost (log ++ [e]) s : K) ≤ costSince time cost log s + cost e := by
    unfold costSince
    rw [costOf_append]
    push_cast
    split
    · exact le_refl _
    · simp
  linarith

theorem Metered.append {capacity rate tokens : K} {log : List ε} {e : ε}
    (h : Metered time cost capacity rate log) (hrate : 0 ≤ rate) (htokens : 0 ≤ tokens)
    (hcovered : Covered time cost capacity rate tokens (time e) (log ++ [e])) :
    Metered time cost capacity rate (log ++ [e]) := by
  intro s t hst
  by_cases hin : s ≤ time e ∧ time e ≤ t
  · have hspent := hcovered s
    have hmono : (costIn time cost (log ++ [e]) s t : K) ≤ costSince time cost (log ++ [e]) s := by
      refine Nat.cast_le.mpr (costOf_mono fun x _ hmem => ?_)
      simp only [decide_eq_true_eq] at hmem ⊢
      exact hmem.1
    rw [max_eq_right (by linarith [hin.1])] at hspent
    have hlonger : rate * (time e - s) ≤ rate * (t - s) :=
      mul_le_mul_of_nonneg_left (by linarith [hin.2]) hrate
    linarith
  · rw [costIn_append, if_neg hin]
    exact h s t hst

end Admission

end AutoTrade.Library
