import Mathlib.Data.List.Basic
import Mathlib.Data.List.Induction
import Mathlib.Order.WithBot

/-! # Binary heaps in a list

The priority queue of `heapq`: a list in which every entry is at least its
parent, the entry at `(i - 1) / 2`. An entry rises towards the root from a hole
(`siftdown` in the words of that module) or the hole is sunk to a leaf first
(`siftup`). Only keys are compared, so entries of one key are not interchangeable.

Positions past the end rank above every key. This makes the order conditions
total, and a hole is a position whose conditions are suspended.
-/

namespace AutoTrade.Library.Heap

variable {α κ : Type} [LinearOrder κ] (key : α → κ)

def parent (i : Nat) : Nat := (i - 1) / 2

/-- The loop of `_siftdown`: entries above the hole move down until `x` fits. -/
def siftdown (start : Nat) (x : α) (pos : Nat) (l : List α) : List α :=
  if start < pos then
    match l[parent pos]? with
    | some p =>
        if key x < key p then siftdown start x (parent pos) (l.set pos p) else l.set pos x
    | none => l.set pos x
  else l.set pos x
termination_by pos
decreasing_by unfold parent; omega

/-- The child that `_siftup` moves up: the right one unless the left one is smaller. -/
def smallerChild (l : List α) (pos : Nat) : Nat :=
  match l[2 * pos + 1]?, l[2 * pos + 2]? with
  | some a, some b => if key a < key b then 2 * pos + 1 else 2 * pos + 2
  | _, _ => 2 * pos + 1

theorem smallerChild_cases (l : List α) (pos : Nat) :
    smallerChild key l pos = 2 * pos + 1 ∨ smallerChild key l pos = 2 * pos + 2 := by
  unfold smallerChild
  split
  · split
    · exact .inl rfl
    · exact .inr rfl
  · exact .inl rfl

/-- The loop of `_siftup`: the hole sinks to a leaf, smaller children move up. -/
def sinkHole (pos : Nat) (l : List α) : Nat × List α :=
  match _h : l[smallerChild key l pos]? with
  | some a => sinkHole (smallerChild key l pos) (l.set pos a)
  | none => (pos, l)
termination_by l.length - pos
decreasing_by
  have hlt := (List.getElem?_eq_some_iff.mp _h).1
  have hcases := smallerChild_cases key l pos
  simp only [List.length_set]
  omega

def siftup (start : Nat) (x : α) (l : List α) : List α :=
  let (pos, holed) := sinkHole key start l
  siftdown key start x pos holed

def heappush (l : List α) (x : α) : List α := siftdown key 0 x l.length (l ++ [x])

/-- The smallest entry and the heap without it; `none` where `heappop` raises. -/
def heappop (l : List α) : Option (α × List α) :=
  match l.getLast?, l.dropLast with
  | none, _ => none
  | some last, [] => some (last, [])
  | some last, first :: rest => some (first, siftup key 0 last (first :: rest))

/-- `_siftup(x, i)` takes the entry at `i` as the one to place. -/
def siftupAt (l : List α) (i : Nat) : List α :=
  match l[i]? with
  | some x => siftup key i x l
  | none => l

def heapify (l : List α) : List α := (List.range (l.length / 2)).reverse.foldl (siftupAt key) l

/-! ## Ranks -/

def rank (l : List α) (i : Nat) : WithTop κ :=
  match l[i]? with
  | some a => (key a : WithTop κ)
  | none => ⊤

/-- In order from `start` on: entries whose parent is at `start` or later. -/
def HeapFrom (start : Nat) (l : List α) : Prop :=
  ∀ i, 0 < i → start ≤ parent i → rank key l (parent i) ≤ rank key l i

def IsHeap (l : List α) : Prop := HeapFrom key 0 l

variable {key}

omit [LinearOrder κ] in
theorem rank_of_some {l : List α} {i : Nat} {a : α} (h : l[i]? = some a) :
    rank key l i = (key a : WithTop κ) := by
  rw [rank, h]

omit [LinearOrder κ] in
theorem rank_of_length_le {l : List α} {i : Nat} (h : l.length ≤ i) : rank key l i = ⊤ := by
  rw [rank, List.getElem?_eq_none h]

omit [LinearOrder κ] in
theorem rank_set {l : List α} {pos : Nat} (h : pos < l.length) (x : α) (i : Nat) :
    rank key (l.set pos x) i = if i = pos then (key x : WithTop κ) else rank key l i := by
  unfold rank
  by_cases hi : i = pos
  · subst hi
    simp [h]
  · rw [List.getElem?_set_ne (Ne.symm hi), if_neg hi]

variable (key) in
omit [LinearOrder κ] in
theorem rank_set_self {l : List α} {pos : Nat} (h : pos < l.length) (x : α) :
    rank key (l.set pos x) pos = (key x : WithTop κ) := by
  rw [rank_set h, if_pos rfl]

omit [LinearOrder κ] in
theorem rank_set_ne {l : List α} {pos i : Nat} (h : pos < l.length) (x : α) (hi : i ≠ pos) :
    rank key (l.set pos x) i = rank key l i := by
  rw [rank_set h, if_neg hi]

theorem parent_lt {i : Nat} (h : 0 < i) : parent i < i := by
  unfold parent
  omega

/-- The positions of the subtree at `start`. -/
inductive Below (start : Nat) : Nat → Prop
  | self : Below start start
  | child {i : Nat} (positive : 0 < i) (above : Below start (parent i)) : Below start i

theorem Below.le {start pos : Nat} (h : Below start pos) : start ≤ pos := by
  induction h with
  | self => exact le_refl start
  | child positive _ ih => exact ih.trans (parent_lt positive).le

theorem Below.above {start pos : Nat} (h : Below start pos) (ne : pos ≠ start) :
    0 < pos ∧ Below start (parent pos) := by
  cases h with
  | self => exact absurd rfl ne
  | child positive above => exact ⟨positive, above⟩

/-! ## Sinking the hole and filling it -/

variable (key) in
/-- The pairs away from the hole are in order, and the hole can be filled from below. -/
structure Sinkable (start pos : Nat) (l : List α) : Prop where
  below : Below start pos
  inRange : pos < l.length
  others : ∀ i, 0 < i → start ≤ parent i → i ≠ pos → parent i ≠ pos →
    rank key l (parent i) ≤ rank key l i
  grand : pos ≠ start → ∀ c, 0 < c → parent c = pos → rank key l (parent pos) ≤ rank key l c

variable (key) in
/-- The hole can be filled by `x` or by what is above it. -/
structure Risable (start pos : Nat) (x : α) (l : List α) : Prop extends Sinkable key start pos l where
  children : ∀ c, 0 < c → parent c = pos → (key x : WithTop κ) ≤ rank key l c

namespace Risable

variable {start pos : Nat} {x : α} {l : List α}

theorem finish (h : Risable key start pos x l)
    (fits : pos ≠ start → rank key l (parent pos) ≤ key x) :
    HeapFrom key start (l.set pos x) := by
  intro i hi hstart
  by_cases hpos : i = pos
  · subst hpos
    have hne : i ≠ start := by
      have := parent_lt hi
      omega
    rw [rank_set_self key h.inRange, rank_set_ne h.inRange _ (parent_lt hi).ne]
    exact fits hne
  · rw [rank_set_ne h.inRange _ hpos]
    by_cases hparent : parent i = pos
    · rw [hparent, rank_set_self key h.inRange]
      exact h.children i hi hparent
    · rw [rank_set_ne h.inRange _ hparent]
      exact h.others i hi hstart hpos hparent

theorem climb (h : Risable key start pos x l) (ne : pos ≠ start) {p : α}
    (hp : l[parent pos]? = some p) (smaller : key x < key p) :
    Risable key start (parent pos) x (l.set pos p) := by
  obtain ⟨hpositive, habove⟩ := h.below.above ne
  have hrank : rank key l (parent pos) = (key p : WithTop κ) := rank_of_some hp
  have hlt := parent_lt hpositive
  have hself := rank_set_self key h.inRange p
  -- a sibling of the hole is at least their parent
  have hsibling : ∀ c, 0 < c → parent c = parent pos → c ≠ pos →
      (key p : WithTop κ) ≤ rank key l c := by
    intro c hc hparent hne
    rw [← hrank, ← hparent]
    exact h.others c hc (hparent ▸ habove.le) hne (by omega)
  refine ⟨⟨habove, ?_, ?_, ?_⟩, ?_⟩
  · rw [List.length_set]
    exact hlt.trans h.inRange
  · intro i hi hstart hne hparent
    have hipos : i ≠ pos := fun heq => hparent (congrArg parent heq)
    rw [rank_set_ne h.inRange _ hipos]
    by_cases hchild : parent i = pos
    · rw [hchild, hself, ← hrank]
      exact h.grand ne i hi hchild
    · rw [rank_set_ne h.inRange _ hchild]
      exact h.others i hi hstart hipos hchild
  · intro hne c hc hparent
    obtain ⟨hparentPos, hgrandAbove⟩ := habove.above hne
    have hgrand : parent (parent pos) ≠ pos := by
      have := parent_lt hparentPos
      omega
    rw [rank_set_ne h.inRange _ hgrand]
    have hpair : rank key l (parent (parent pos)) ≤ rank key l (parent pos) :=
      h.others (parent pos) hparentPos hgrandAbove.le hlt.ne hgrand
    by_cases hcpos : c = pos
    · rw [hcpos, hself, ← hrank]
      exact hpair
    · rw [rank_set_ne h.inRange _ hcpos]
      exact hpair.trans (hrank ▸ hsibling c hc hparent hcpos)
  · intro c hc hparent
    have hle : (key x : WithTop κ) ≤ key p := WithTop.coe_le_coe.mpr smaller.le
    by_cases hcpos : c = pos
    · rw [hcpos, hself]
      exact hle
    · rw [rank_set_ne h.inRange _ hcpos]
      exact hle.trans (hsibling c hc hparent hcpos)

theorem heapFrom_siftdown (h : Risable key start pos x l) :
    HeapFrom key start (siftdown key start x pos l) := by
  fun_induction siftdown key start x pos l with
  | case1 pos l hlt p hp hsmaller ih => exact ih (h.climb hlt.ne' hp hsmaller)
  | case2 pos l hlt p hp hlarger =>
      apply h.finish
      intro _
      rw [rank_of_some hp]
      exact WithTop.coe_le_coe.mpr (not_lt.mp hlarger)
  | case3 pos l hlt hnone =>
      have hrange := List.getElem?_eq_none_iff.mp hnone
      have hparent := parent_lt (i := pos) (by omega)
      have := h.inRange
      omega
  | case4 pos l hge =>
      apply h.finish
      intro hne
      have := h.below.le
      omega

end Risable

variable (key) in
theorem smallerChild_min (l : List α) (pos c : Nat) (hc : 0 < c) (hparent : parent c = pos) :
    rank key l (smallerChild key l pos) ≤ rank key l c := by
  have hcases : c = 2 * pos + 1 ∨ c = 2 * pos + 2 := by
    unfold parent at hparent
    omega
  unfold smallerChild
  split
  · rename_i a b ha hb
    by_cases hlt : key a < key b
    · rw [if_pos hlt]
      cases hcases with
      | inl h => rw [h]
      | inr h =>
          rw [h, rank_of_some ha, rank_of_some hb]
          exact WithTop.coe_le_coe.mpr hlt.le
    · rw [if_neg hlt]
      cases hcases with
      | inl h =>
          rw [h, rank_of_some ha, rank_of_some hb]
          exact WithTop.coe_le_coe.mpr (not_lt.mp hlt)
      | inr h => rw [h]
  · rename_i hnot
    cases hcases with
    | inl h => rw [h]
    | inr h =>
        -- without a right child the rank there is the top
        have hright : rank key l (2 * pos + 2) = ⊤ := by
          cases hb : l[2 * pos + 2]? with
          | none => rw [rank, hb]
          | some b =>
              have hrange := (List.getElem?_eq_some_iff.mp hb).1
              exact absurd hb (hnot l[2 * pos + 1] b (List.getElem?_eq_getElem (by omega)))
        rw [h, hright]
        exact le_top

namespace Sinkable

variable {start pos : Nat} {l : List α}

theorem sink (h : Sinkable key start pos l) {a : α} (ha : l[smallerChild key l pos]? = some a) :
    Sinkable key start (smallerChild key l pos) (l.set pos a) := by
  have hcases := smallerChild_cases key l pos
  have hchild : parent (smallerChild key l pos) = pos := by
    unfold parent
    omega
  have hpositive : 0 < smallerChild key l pos := by omega
  have hlt : pos < smallerChild key l pos := by omega
  have hrank : rank key l (smallerChild key l pos) = (key a : WithTop κ) := rank_of_some ha
  have hself := rank_set_self key h.inRange a
  refine ⟨.child hpositive (by rw [hchild]; exact h.below), ?_, ?_, ?_⟩
  · rw [List.length_set]
    exact (List.getElem?_eq_some_iff.mp ha).1
  · intro i hi hstart hne hparent
    by_cases hipos : i = pos
    · subst hipos
      have hnot : i ≠ start := by
        have := parent_lt hi
        omega
      rw [hself, rank_set_ne h.inRange _ (parent_lt hi).ne, ← hrank]
      exact h.grand hnot _ hpositive hchild
    · rw [rank_set_ne h.inRange _ hipos]
      by_cases hsibling : parent i = pos
      · rw [hsibling, hself, ← hrank]
        exact smallerChild_min key l pos i hi hsibling
      · rw [rank_set_ne h.inRange _ hsibling]
        exact h.others i hi hstart hipos hsibling
  · intro _ c hc hparent
    have hcpos : c ≠ pos := by
      have := parent_lt hc
      omega
    rw [hchild, hself, rank_set_ne h.inRange _ hcpos, ← hrank, ← hparent]
    refine h.others c hc ?_ hcpos ?_
    · rw [hparent]
      exact h.below.le.trans hlt.le
    · rw [hparent]
      exact hlt.ne'

/-- At the leaf where the hole stops there is nothing below `x`. -/
theorem sinkHole (h : Sinkable key start pos l) (x : α) :
    Risable key start (sinkHole key pos l).1 x (sinkHole key pos l).2 := by
  fun_induction Heap.sinkHole key pos l with
  | case1 pos l a ha ih => exact ih (h.sink ha)
  | case2 pos l hnone =>
      refine ⟨h, ?_⟩
      intro c hc hparent
      have hmin := smallerChild_min key l pos c hc hparent
      rw [rank, hnone, top_le_iff] at hmin
      rw [hmin]
      exact le_top

theorem heapFrom_siftup (h : Sinkable key start start l) (x : α) :
    HeapFrom key start (siftup key start x l) :=
  (h.sinkHole x).heapFrom_siftdown

end Sinkable

/-! ## No entry is lost -/

theorem set_set_perm_set {l : List α} {i j : Nat} (hi : i < l.length) (hne : i ≠ j) {a : α}
    (ha : l[j]? = some a) (x : α) : ((l.set i a).set j x).Perm (l.set i x) := by
  obtain ⟨hj, haj⟩ := List.getElem?_eq_some_iff.mp ha
  have hswap : (((l.set i x).set i _).set j _).Perm (l.set i x) :=
    List.set_set_perm (by simpa using hi) (by simpa using hj)
  rw [List.getElem_set_self, List.getElem_set_ne hne, haj] at hswap
  simpa using hswap

theorem siftdown_perm {start pos : Nat} {x : α} {l : List α} (h : pos < l.length) :
    (siftdown key start x pos l).Perm (l.set pos x) := by
  fun_induction siftdown key start x pos l with
  | case1 pos l hlt p hp hsmaller ih =>
      have hparent := parent_lt (i := pos) (by omega)
      have hrise := ih (by rw [List.length_set]; omega)
      exact hrise.trans (set_set_perm_set h hparent.ne' hp x)
  | case2 pos l hlt p hp hlarger => exact .refl _
  | case3 pos l hlt hnone => exact .refl _
  | case4 pos l hge => exact .refl _

variable (key) in
theorem sinkHole_perm {pos : Nat} {l : List α} (h : pos < l.length) (x : α) :
    (sinkHole key pos l).1 < (sinkHole key pos l).2.length ∧
      ((sinkHole key pos l).2.set (sinkHole key pos l).1 x).Perm (l.set pos x) := by
  fun_induction sinkHole key pos l with
  | case1 pos l a ha ih =>
      have hrange := (List.getElem?_eq_some_iff.mp ha).1
      have hcases := smallerChild_cases key l pos
      obtain ⟨hlt, hperm⟩ := ih (by rw [List.length_set]; exact hrange)
      exact ⟨hlt, hperm.trans (set_set_perm_set h (by omega) ha x)⟩
  | case2 pos l hnone => exact ⟨h, .refl _⟩

variable (key) in
theorem siftup_perm {start : Nat} {l : List α} (h : start < l.length) (x : α) :
    (siftup key start x l).Perm (l.set start x) := by
  obtain ⟨hlt, hperm⟩ := sinkHole_perm key h x
  exact (siftdown_perm hlt).trans hperm

/-! ## Pushing, popping and building a heap -/

theorem heappush_perm (l : List α) (x : α) : (heappush key l x).Perm (x :: l) := by
  unfold heappush
  refine (siftdown_perm (by simp)).trans ?_
  rw [List.set_append_right _ _ (le_refl _)]
  simp

omit [LinearOrder κ] in
theorem rank_append_left {l : List α} {i : Nat} (h : i < l.length) (l' : List α) :
    rank key (l ++ l') i = rank key l i := by
  rw [rank, rank, List.getElem?_append_left h]

theorem IsHeap.heappush {l : List α} (h : IsHeap key l) (x : α) :
    IsHeap key (heappush key l x) := by
  have hlen : l.length < (l ++ [x]).length := by simp
  have hpast : ∀ c, l.length < c → rank key (l ++ [x]) c = ⊤ := by
    intro c hc
    apply rank_of_length_le
    simp only [List.length_append, List.length_singleton]
    omega
  have hbelow : ∀ n, Below 0 n := by
    intro n
    induction n using Nat.strongRecOn with
    | ind n ih =>
        by_cases hn : n = 0
        · exact hn ▸ .self
        · exact .child (by omega) (ih _ (parent_lt (by omega)))
  have hchild : ∀ c, 0 < c → parent c = l.length → rank key (l ++ [x]) c = ⊤ := by
    intro c hc hparent
    have := parent_lt hc
    exact hpast c (by omega)
  apply Risable.heapFrom_siftdown
  refine ⟨⟨hbelow _, hlen, ?_, ?_⟩, ?_⟩
  · intro i hi _ hne hparent
    have hlt := parent_lt hi
    by_cases hrange : i < l.length
    · rw [rank_append_left hrange, rank_append_left (hlt.trans hrange)]
      exact h i hi (Nat.zero_le _)
    · rw [hpast i (by omega)]
      exact le_top
  · intro _ c hc hparent
    rw [hchild c hc hparent]
    exact le_top
  · intro c hc hparent
    rw [hchild c hc hparent]
    exact le_top

theorem siftupAt_perm (l : List α) (i : Nat) : (siftupAt key l i).Perm l := by
  unfold siftupAt
  cases hx : l[i]? with
  | none => exact .refl _
  | some x =>
      obtain ⟨hi, hxi⟩ := List.getElem?_eq_some_iff.mp hx
      have hset : l.set i x = l := by rw [← hxi, List.set_getElem_self]
      simpa [hset] using siftup_perm key hi x

theorem HeapFrom.siftupAt {l : List α} {i : Nat} (h : HeapFrom key (i + 1) l) :
    HeapFrom key i (siftupAt key l i) := by
  unfold Heap.siftupAt
  cases hx : l[i]? with
  | none =>
      have hlen := List.getElem?_eq_none_iff.mp hx
      intro c hc hparent
      have hpast : l.length ≤ c := by
        have := parent_lt hc
        omega
      dsimp only
      rw [rank_of_length_le hpast]
      exact le_top
  | some x =>
      refine Sinkable.heapFrom_siftup ⟨.self, (List.getElem?_eq_some_iff.mp hx).1, ?_, ?_⟩ x
      · intro c hc hstart _ hparent
        exact h c hc (by omega)
      · intro hne
        exact absurd rfl hne

theorem heapify_perm (l : List α) : (heapify key l).Perm l := by
  have hfold : ∀ (is : List Nat) (l : List α), (is.foldl (siftupAt key) l).Perm l := by
    intro is
    induction is with
    | nil => intro l; exact .refl l
    | cons i rest ih => intro l; exact (ih _).trans (siftupAt_perm l i)
  exact hfold _ l

theorem isHeap_heapify (l : List α) : IsHeap key (heapify key l) := by
  -- the walk goes down from the last parent; what is behind it is in order
  have hfold : ∀ (n : Nat) (l : List α), HeapFrom key n l →
      HeapFrom key 0 ((List.range n).reverse.foldl (siftupAt key) l) := by
    intro n
    induction n with
    | zero => intro l h; exact h
    | succ n ih =>
        intro l h
        rw [List.range_succ, List.reverse_append, List.reverse_singleton, List.singleton_append,
          List.foldl_cons]
        exact ih _ h.siftupAt
  apply hfold
  intro i hi hparent
  have hlen : l.length ≤ i := by
    unfold parent at hparent
    omega
  rw [rank_of_length_le hlen]
  exact le_top

/-- The root of a heap is a smallest entry. -/
theorem IsHeap.rank_zero_le {l : List α} (h : IsHeap key l) (i : Nat) :
    rank key l 0 ≤ rank key l i := by
  induction i using Nat.strongRecOn with
  | ind i ih =>
      by_cases hi : i = 0
      · rw [hi]
      · exact (ih _ (parent_lt (by omega))).trans (h i (by omega) (Nat.zero_le _))

theorem IsHeap.head_le {first : α} {rest : List α} (h : IsHeap key (first :: rest)) {a : α}
    (ha : a ∈ first :: rest) : key first ≤ key a := by
  obtain ⟨i, hi⟩ := List.mem_iff_getElem?.mp ha
  have hroot := h.rank_zero_le i
  rw [rank_of_some hi, rank_of_some (a := first) rfl] at hroot
  exact WithTop.coe_le_coe.mp hroot

theorem IsHeap.of_append {l l' : List α} (h : IsHeap key (l ++ l')) : IsHeap key l := by
  intro i hi hstart
  by_cases hrange : i < l.length
  · rw [← rank_append_left hrange l', ← rank_append_left ((parent_lt hi).trans hrange) l']
    exact h i hi hstart
  · rw [rank_of_length_le (not_lt.mp hrange)]
    exact le_top

theorem heappop_append_singleton (init : List α) (last : α) :
    heappop key (init ++ [last]) =
      match init with
      | [] => some (last, [])
      | first :: rest => some (first, siftup key 0 last (first :: rest)) := by
  unfold heappop
  rw [List.getLast?_concat, List.dropLast_concat]
  cases init with
  | nil => rfl
  | cons first rest => rfl

theorem heappop_eq_none_iff (l : List α) : heappop key l = none ↔ l = [] := by
  cases l using List.reverseRecOn with
  | nil => exact ⟨fun _ => rfl, fun _ => rfl⟩
  | append_singleton init last =>
      rw [heappop_append_singleton]
      cases init with
      | nil => simp
      | cons first rest => simp

theorem heappop_perm {l rest : List α} {a : α} (h : heappop key l = some (a, rest)) :
    l.Perm (a :: rest) := by
  cases l using List.reverseRecOn with
  | nil => cases h
  | append_singleton init last =>
      rw [heappop_append_singleton] at h
      cases init with
      | nil =>
          cases h
          exact .refl _
      | cons first others =>
          obtain ⟨rfl, rfl⟩ : first = a ∧ siftup key 0 last (first :: others) = rest := by
            simpa using h
          have hsift := siftup_perm key (show 0 < (first :: others).length by simp) last
          refine List.Perm.trans ?_ (hsift.symm.cons first)
          simp

/-- Popping returns a smallest entry and leaves a heap. -/
theorem IsHeap.heappop {l rest : List α} {a : α} (h : IsHeap key l)
    (pop : heappop key l = some (a, rest)) :
    (∀ b ∈ l, key a ≤ key b) ∧ IsHeap key rest := by
  cases l using List.reverseRecOn with
  | nil => cases pop
  | append_singleton init last =>
      rw [heappop_append_singleton] at pop
      cases init with
      | nil =>
          cases pop
          exact ⟨fun b hb => h.head_le hb, fun i hi _ => le_refl _⟩
      | cons first others =>
          cases pop
          refine ⟨fun b hb => h.head_le hb, ?_⟩
          refine Sinkable.heapFrom_siftup ⟨.self, by simp, ?_, ?_⟩ last
          · intro c hc _ _ _
            exact h.of_append c hc (Nat.zero_le _)
          · intro hne
            exact absurd rfl hne

theorem length_of_heappop {l rest : List α} {a : α} (h : heappop key l = some (a, rest)) :
    l.length = rest.length + 1 := by
  simpa using (heappop_perm h).length_eq

/-- A sorted list is a heap. -/
theorem isHeap_of_pairwise {l : List α} (h : l.Pairwise fun a b => key a ≤ key b) :
    IsHeap key l := by
  intro i hi _
  by_cases hrange : i < l.length
  · have hlt := parent_lt hi
    rw [rank_of_some (List.getElem?_eq_getElem (hlt.trans hrange)),
      rank_of_some (List.getElem?_eq_getElem hrange)]
    exact WithTop.coe_le_coe.mpr (List.pairwise_iff_getElem.mp h _ _ (hlt.trans hrange) hrange hlt)
  · rw [rank_of_length_le (not_lt.mp hrange)]
    exact le_top

end AutoTrade.Library.Heap
