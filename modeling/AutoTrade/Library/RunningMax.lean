import Mathlib.Algebra.Order.Group.Defs
import Mathlib.Data.List.Infix
import Mathlib.Order.MinMax
import Mathlib.Order.Monotone.Defs
import Mathlib.Tactic.Abel
import Mathlib.Tactic.Tauto

/-! # Running maxima

A pass over a list that keeps the highest value it has seen, and the worst drop
below it. The worst drop is the least upper bound of the drops from each value to
the ones that come after it; over running sums it is the worst sum of a stretch.
A pass that counts hits in a row comes to the longest stretch of hits.
-/

namespace AutoTrade.Library

variable {α β : Type*} [LinearOrder α]

theorem foldl_max_le_iff {xs : List α} {start bound : α} :
    xs.foldl max start ≤ bound ↔ start ≤ bound ∧ ∀ x ∈ xs, x ≤ bound := by
  induction xs generalizing start with
  | nil => simp
  | cons x rest ih =>
      rw [List.foldl_cons, ih, max_le_iff, List.forall_mem_cons, and_assoc]

theorem le_foldl_max (start : α) (xs : List α) : start ≤ xs.foldl max start :=
  (foldl_max_le_iff.mp le_rfl).1

theorem mem_le_foldl_max (start : α) {xs : List α} {x : α} (hx : x ∈ xs) :
    x ≤ xs.foldl max start :=
  (foldl_max_le_iff.mp le_rfl).2 x hx

/-- The highest value of a pass, and the worst drop below it so far. -/
structure Watermark (α β : Type*) where
  peak : α
  worst : β
deriving DecidableEq, Repr

namespace Watermark

variable [LinearOrder β] (drop : α → α → β)

/-- The value raises the peak before it is compared with it. -/
def see (w : Watermark α β) (x : α) : Watermark α β :=
  { peak := max w.peak x
    worst := max w.worst (drop (max w.peak x) x) }

def pass (w : Watermark α β) (xs : List α) : Watermark α β := xs.foldl (see drop) w

@[simp] theorem pass_nil (w : Watermark α β) : w.pass drop [] = w := rfl

@[simp] theorem pass_cons (w : Watermark α β) (x : α) (xs : List α) :
    w.pass drop (x :: xs) = (w.see drop x).pass drop xs := rfl

theorem peak_pass (w : Watermark α β) (xs : List α) :
    (w.pass drop xs).peak = xs.foldl max w.peak := by
  induction xs generalizing w with
  | nil => rfl
  | cons x rest ih => exact ih (w.see drop x)

variable {drop} {S : Set α}

/-- The drop below the higher of two peaks is the larger of their drops. -/
theorem drop_max_le_iff {y : α} (hgrows : MonotoneOn (fun p => drop p y) S) {p q : α} (hp : p ∈ S)
    (hq : q ∈ S) {bound : β} :
    drop (max p q) y ≤ bound ↔ drop p y ≤ bound ∧ drop q y ≤ bound := by
  rcases le_total p q with hle | hle
  · rw [max_eq_right hle]
    exact ⟨fun h => ⟨(hgrows hp hq hle).trans h, h⟩, And.right⟩
  · rw [max_eq_left hle]
    exact ⟨fun h => ⟨h, (hgrows hq hp hle).trans h⟩, And.left⟩

/-- Where drops grow with the peak, the worst of a pass is the least bound of what it started with
and of the drops from each value to itself and to all that come after it. -/
theorem worst_pass_le_iff {w : Watermark α β} {xs : List α} (hpeak : w.peak ∈ S)
    (hxs : ∀ x ∈ xs, x ∈ S) (hgrows : ∀ x ∈ xs, MonotoneOn (fun p => drop p x) S) {bound : β} :
    (w.pass drop xs).worst ≤ bound ↔
      w.worst ≤ bound ∧ (∀ x ∈ xs, drop x x ≤ bound) ∧
        (w.peak :: xs).Pairwise fun p x => drop p x ≤ bound := by
  induction xs generalizing w with
  | nil => simp
  | cons x rest ih =>
      have hx : x ∈ S := hxs x List.mem_cons_self
      have hmax : max w.peak x ∈ S := by
        rcases max_choice w.peak x with h | h
        · rwa [h]
        · rwa [h]
      have hsplit : ∀ y ∈ x :: rest, drop (max w.peak x) y ≤ bound ↔
          drop w.peak y ≤ bound ∧ drop x y ≤ bound :=
        fun y hy => drop_max_le_iff (hgrows y hy) hpeak hx
      rw [pass_cons, ih hmax (fun y hy => hxs y (List.mem_cons_of_mem x hy))
        (fun y hy => hgrows y (List.mem_cons_of_mem x hy))]
      simp only [see, max_le_iff, hsplit x List.mem_cons_self, List.pairwise_cons,
        List.forall_mem_cons]
      have hrest : (∀ y ∈ rest, drop (max w.peak x) y ≤ bound) ↔
          (∀ y ∈ rest, drop w.peak y ≤ bound) ∧ ∀ y ∈ rest, drop x y ≤ bound := by
        rw [← forall₂_and]
        exact forall₂_congr fun y hy => hsplit y (List.mem_cons_of_mem x hy)
      rw [hrest]
      tauto

end Watermark

/-! ## Running sums -/

section Sums

variable {M : Type*} [AddCommGroup M]

def sumsFrom (start : M) : List M → List M
  | [] => []
  | x :: rest => (start + x) :: sumsFrom (start + x) rest

/-- The running sums are those of the initial stretches. -/
theorem forall_mem_sumsFrom {P : M → Prop} {start : M} {xs : List M} :
    (∀ v ∈ sumsFrom start xs, P v) ↔
      ∀ stretch, stretch <+: xs → stretch ≠ [] → P (start + stretch.sum) := by
  induction xs generalizing start with
  | nil =>
      refine ⟨fun _ stretch hprefix hne => absurd (List.prefix_nil.mp hprefix) hne, fun _ v hv => ?_⟩
      cases hv
  | cons x rest ih =>
      rw [sumsFrom, List.forall_mem_cons, ih]
      constructor
      · rintro ⟨hfirst, hrest⟩ stretch hprefix hne
        rcases List.prefix_cons_iff.mp hprefix with rfl | ⟨tail, rfl, htail⟩
        · exact absurd rfl hne
        · by_cases hnil : tail = []
          · simpa [hnil] using hfirst
          · simpa [add_assoc] using hrest tail htail hnil
      · refine fun h => ⟨?_, fun tail htail hnil => ?_⟩
        · simpa using h [x] (List.prefix_cons_iff.mpr (.inr ⟨[], rfl, List.nil_prefix⟩)) (by simp)
        · simpa [add_assoc] using
            h (x :: tail) (List.prefix_cons_iff.mpr (.inr ⟨tail, rfl, htail⟩)) (by simp)

@[simp] theorem length_sumsFrom (start : M) (xs : List M) : (sumsFrom start xs).length = xs.length := by
  induction xs generalizing start with
  | nil => rfl
  | cons x rest ih => rw [sumsFrom, List.length_cons, List.length_cons, ih]

/-- The last running sum is the sum. -/
theorem getLast?_sumsFrom (start : M) {xs : List M} (hne : xs ≠ []) :
    (sumsFrom start xs).getLast? = some (start + xs.sum) := by
  induction xs generalizing start with
  | nil => exact absurd rfl hne
  | cons x rest ih =>
      rw [sumsFrom, List.sum_cons]
      by_cases hrest : rest = []
      · subst hrest
        simp [sumsFrom]
      · have hcurve : sumsFrom (start + x) rest ≠ [] := by
          intro hempty
          have hlength := length_sumsFrom (start + x) rest
          rw [hempty] at hlength
          exact hrest (List.length_eq_zero_iff.mp hlength.symm)
        rw [List.getLast?_cons, ih (start + x) hrest, Option.getD_some, add_assoc]

variable [LinearOrder M]

/-- The drops between the running sums are the losses of the stretches. -/
theorem pairwise_sumsFrom_iff {start bound : M} {xs : List M} :
    (start :: sumsFrom start xs).Pairwise (fun p v => p - v ≤ bound) ↔
      ∀ stretch, stretch <:+: xs → stretch ≠ [] → -stretch.sum ≤ bound := by
  induction xs generalizing start with
  | nil =>
      refine iff_of_true (List.pairwise_singleton _ _) fun stretch hinfix hne => ?_
      exact absurd (List.infix_nil.mp hinfix) hne
  | cons x rest ih =>
      rw [List.pairwise_cons, forall_mem_sumsFrom, sumsFrom, ih]
      have hdrop : ∀ stretch : List M, start - (start + stretch.sum) = -stretch.sum :=
        fun stretch => by abel
      simp only [hdrop, List.infix_cons_iff]
      exact ⟨fun h stretch hinfix hne => hinfix.elim (fun hp => h.1 stretch hp hne)
          fun hi => h.2 stretch hi hne,
        fun h => ⟨fun stretch hp hne => h stretch (.inl hp) hne,
          fun stretch hi hne => h stretch (.inr hi) hne⟩⟩

variable [IsOrderedAddMonoid M]

/-- The worst drop of the running sums is the worst loss over a stretch. -/
theorem worst_pass_sumsFrom_le_iff {start bound : M} {xs : List M} :
    ((⟨start, 0⟩ : Watermark M M).pass (· - ·) (sumsFrom start xs)).worst ≤ bound ↔
      ∀ stretch, stretch <:+: xs → -stretch.sum ≤ bound := by
  have hgrows : ∀ x ∈ sumsFrom start xs, MonotoneOn (fun p : M => p - x) Set.univ :=
    fun x _ p _ q _ hpq => sub_le_sub_right hpq x
  rw [Watermark.worst_pass_le_iff (Set.mem_univ _) (fun x _ => Set.mem_univ x) hgrows,
    pairwise_sumsFrom_iff]
  simp only [sub_self]
  constructor
  · rintro ⟨hzero, -, h⟩ stretch hinfix
    by_cases hnil : stretch = []
    · simpa [hnil] using hzero
    · exact h stretch hinfix hnil
  · intro h
    have hzero : (0 : M) ≤ bound := by simpa using h [] (List.nil_infix)
    exact ⟨hzero, fun _ _ => hzero, fun stretch hinfix _ => h stretch hinfix⟩

/-- The drop from the peak to the last of the running sums is the worst loss up to the end. -/
theorem peak_sub_last_le_iff {start bound : M} {xs : List M} :
    (sumsFrom start xs).foldl max start - (start + xs.sum) ≤ bound ↔
      ∀ stretch, stretch <:+ xs → -stretch.sum ≤ bound := by
  have hdrop : ∀ before after : List M, before ++ after = xs →
      (start + before.sum ≤ bound + (start + xs.sum) ↔ -after.sum ≤ bound) := by
    rintro before after rfl
    rw [List.sum_append, ← sub_le_iff_le_add]
    have hloss : start + before.sum - (start + (before.sum + after.sum)) = -after.sum := by abel
    rw [hloss]
  rw [sub_le_iff_le_add, foldl_max_le_iff, forall_mem_sumsFrom]
  constructor
  · rintro ⟨hstart, hsums⟩ after ⟨before, hsplit⟩
    refine (hdrop before after hsplit).mp ?_
    by_cases hnil : before = []
    · simpa [hnil] using hstart
    · exact hsums before ⟨after, hsplit⟩ hnil
  · intro h
    refine ⟨?_, fun before hprefix _ => ?_⟩
    · simpa using (hdrop [] xs rfl).mpr (h xs List.suffix_rfl)
    · obtain ⟨after, hsplit⟩ := hprefix
      exact (hdrop before after hsplit).mpr (h after ⟨before, hsplit⟩)

end Sums

/-! ## Hits in a row -/

/-- The longest run of hits so far, and the one that is going on. -/
structure Streak where
  longest : Nat := 0
  current : Nat := 0
deriving DecidableEq, Repr

namespace Streak

variable {γ : Type*} (hit : γ → Bool)

def see (s : Streak) (x : γ) : Streak :=
  if hit x then { longest := max s.longest (s.current + 1), current := s.current + 1 }
  else { s with current := 0 }

def pass (s : Streak) (xs : List γ) : Streak := xs.foldl (see hit) s

variable {hit}

/-- A run that is going on is continued by the first stretch. -/
theorem longest_pass_le_iff {s : Streak} {xs : List γ} {bound : Nat} :
    (s.pass hit xs).longest ≤ bound ↔
      s.longest ≤ bound ∧
        (∀ stretch, stretch <+: xs → stretch ≠ [] → (∀ x ∈ stretch, hit x = true) →
          s.current + stretch.length ≤ bound) ∧
        ∀ stretch, stretch <:+: xs → (∀ x ∈ stretch, hit x = true) →
          stretch.length ≤ bound := by
  induction xs generalizing s with
  | nil =>
      refine ⟨fun h => ⟨h, fun stretch hp hne => absurd (List.prefix_nil.mp hp) hne, ?_⟩, And.left⟩
      intro stretch hi _
      simp [List.infix_nil.mp hi]
  | cons x rest ih =>
      have hpass : s.pass hit (x :: rest) = (s.see hit x).pass hit rest := rfl
      rw [hpass, ih, see]
      split
      · rename_i hhit
        dsimp only
        rw [max_le_iff]
        constructor
        · rintro ⟨⟨hlongest, hone⟩, hnext, hinside⟩
          have hfirst : ∀ stretch, stretch <+: x :: rest → stretch ≠ [] →
              (∀ y ∈ stretch, hit y = true) → s.current + stretch.length ≤ bound := by
            intro stretch hp hne hall
            rcases List.prefix_cons_iff.mp hp with rfl | ⟨tail, rfl, htail⟩
            · exact absurd rfl hne
            · rw [List.length_cons]
              by_cases hnil : tail = []
              · simpa [hnil] using hone
              · have := hnext tail htail hnil fun y hy => hall y (List.mem_cons_of_mem x hy)
                omega
          refine ⟨hlongest, hfirst, fun stretch hi hall => ?_⟩
          rcases List.infix_cons_iff.mp hi with hp | hi
          · by_cases hnil : stretch = []
            · simp [hnil]
            · have := hfirst stretch hp hnil hall
              omega
          · exact hinside stretch hi hall
        · rintro ⟨hlongest, hfirst, hinside⟩
          have htail : ∀ tail, tail <+: rest → (∀ y ∈ tail, hit y = true) →
              s.current + (tail.length + 1) ≤ bound := by
            intro tail hp hall
            exact hfirst (x :: tail) (List.prefix_cons_iff.mpr (.inr ⟨tail, rfl, hp⟩)) (by simp)
              (List.forall_mem_cons.mpr ⟨hhit, hall⟩)
          refine ⟨⟨hlongest, by simpa using htail [] List.nil_prefix (by simp)⟩,
            fun tail hp _ hall => ?_, fun stretch hi hall => ?_⟩
          · have := htail tail hp hall
            omega
          · exact hinside stretch (List.infix_cons_iff.mpr (.inr hi)) hall
      · rename_i hmiss
        have hnone : ∀ stretch, stretch <+: x :: rest → (∀ y ∈ stretch, hit y = true) →
            stretch = [] := by
          intro stretch hp hall
          rcases List.prefix_cons_iff.mp hp with rfl | ⟨tail, rfl, -⟩
          · rfl
          · exact absurd (hall x List.mem_cons_self) hmiss
        constructor
        · rintro ⟨hlongest, -, hinside⟩
          refine ⟨hlongest, fun stretch hp hne hall => absurd (hnone stretch hp hall) hne, ?_⟩
          intro stretch hi hall
          rcases List.infix_cons_iff.mp hi with hp | hi
          · simp [hnone stretch hp hall]
          · exact hinside stretch hi hall
        · rintro ⟨hlongest, -, hinside⟩
          have hrest : ∀ stretch, stretch <:+: rest → (∀ y ∈ stretch, hit y = true) →
              stretch.length ≤ bound :=
            fun stretch hi hall => hinside stretch (List.infix_cons_iff.mpr (.inr hi)) hall
          exact ⟨hlongest, fun stretch hp _ hall => by simpa using hrest stretch hp.isInfix hall,
            hrest⟩

/-- A pass from nothing comes to the longest stretch of hits. -/
theorem longest_le_iff {xs : List γ} {bound : Nat} :
    (pass hit {} xs).longest ≤ bound ↔
      ∀ stretch, stretch <:+: xs → (∀ x ∈ stretch, hit x = true) → stretch.length ≤ bound := by
  rw [longest_pass_le_iff]
  refine ⟨fun h => h.2.2, fun h => ⟨Nat.zero_le bound, fun stretch hp _ hall => ?_, h⟩⟩
  simpa using h stretch hp.isInfix hall

end Streak

end AutoTrade.Library
