import Mathlib.Data.List.Nodup

/-! # Backlogs served in batches

A batch takes as many entries as it may from the front of a backlog. The entries
that can be served leave with it; the stuck ones keep their place. A batch reaches an
entry exactly when the stuck entries before it are fewer than a batch takes.
-/

namespace AutoTrade.Library

section Backlog

variable {α : Type} (stuck : α → Bool) (limit : Nat)

/-- The backlog after a batch. -/
def afterBatch (backlog : List α) : List α :=
  (backlog.take limit).filter stuck ++ backlog.drop limit

def afterBatches (backlog : List α) : Nat → List α
  | 0 => backlog
  | n + 1 => afterBatches (afterBatch stuck limit backlog) n

variable {stuck limit}

theorem countP_afterBatch (backlog : List α) :
    (afterBatch stuck limit backlog).countP stuck = backlog.countP stuck := by
  have hsplit := congrArg (List.countP stuck) (List.take_append_drop limit backlog)
  rw [List.countP_append] at hsplit
  unfold afterBatch
  rw [List.countP_append, List.countP_filter]
  simpa using hsplit

theorem afterBatch_sublist (backlog : List α) :
    (afterBatch stuck limit backlog).Sublist backlog := by
  have hsub : ((backlog.take limit).filter stuck ++ backlog.drop limit).Sublist
      (backlog.take limit ++ backlog.drop limit) :=
    (List.filter_sublist).append (List.Sublist.refl _)
  rw [List.take_append_drop] at hsub
  exact hsub

/-- A batch leaves what is behind its reach alone. -/
theorem afterBatch_append {front : List α} (h : limit ≤ front.length) (rest : List α) :
    afterBatch stuck limit (front ++ rest) = afterBatch stuck limit front ++ rest := by
  unfold afterBatch
  rw [List.take_append_of_le_length h, List.drop_append_of_le_length h, List.append_assoc]

/-- A full batch that is not stuck throughout shortens the backlog. -/
theorem length_afterBatch_lt {backlog : List α} (hfull : limit ≤ backlog.length)
    (hstuck : backlog.countP stuck < limit) :
    (afterBatch stuck limit backlog).length < backlog.length := by
  have hserved : ((backlog.take limit).filter stuck).length ≤ backlog.countP stuck := by
    rw [← List.countP_eq_length_filter]
    exact (List.take_sublist _ _).countP_le
  unfold afterBatch
  rw [List.length_append, List.length_drop]
  omega

/-- A batch leaves the entries it did not take and those that are stuck. -/
theorem filter_eq_afterBatch [DecidableEq α] {backlog : List α} (hnodup : backlog.Nodup) :
    (backlog.filter fun x => decide (x ∉ backlog.take limit) || stuck x) =
      afterBatch stuck limit backlog := by
  have hsplit : ∀ front rest : List α, (front ++ rest).Nodup →
      ((front ++ rest).filter fun x => decide (x ∉ front) || stuck x) =
        front.filter stuck ++ rest := by
    intro front rest hdisjoint
    rw [List.filter_append]
    refine congrArg₂ _ (List.filter_congr fun x hx => by simp [hx]) ?_
    refine List.filter_eq_self.mpr fun x hx => ?_
    have hx' : x ∉ front := fun hfront => List.disjoint_of_nodup_append hdisjoint hfront hx
    simp [hx']
  have hbatch := hsplit (backlog.take limit) (backlog.drop limit)
  rw [List.take_append_drop] at hbatch
  exact hbatch hnodup

theorem exists_reached {front : List α} (hstuck : front.countP stuck < limit) (a : α)
    (rest : List α) : ∃ i ≤ front.length,
      a ∈ (afterBatches stuck limit (front ++ a :: rest) i).take limit := by
  induction hn : front.length using Nat.strongRecOn generalizing front with
  | ind n ih =>
      by_cases hfull : limit ≤ front.length
      · have hlt := length_afterBatch_lt hfull hstuck
        obtain ⟨i, hi, hmem⟩ := ih _ (hn ▸ hlt) (by rwa [countP_afterBatch]) rfl
        refine ⟨i + 1, by omega, ?_⟩
        rw [← afterBatch_append hfull] at hmem
        exact hmem
      · refine ⟨0, Nat.zero_le _, ?_⟩
        change a ∈ (front ++ a :: rest).take limit
        rw [List.take_append, List.take_of_length_le (Nat.le_of_lt (Nat.lt_of_not_le hfull))]
        refine List.mem_append_right _ ?_
        obtain ⟨k, hk⟩ := Nat.exists_eq_add_of_lt (Nat.lt_of_not_le hfull)
        rw [hk, Nat.add_assoc, Nat.add_sub_cancel_left, List.take_succ_cons]
        exact List.mem_cons_self

/-- Stuck entries that fill a batch keep whatever is behind them from being reached. -/
theorem not_reached {front : List α} (hstuck : limit ≤ front.countP stuck) {a : α}
    {rest : List α} (hnodup : (front ++ a :: rest).Nodup) (i : Nat) :
    a ∉ (afterBatches stuck limit (front ++ a :: rest) i).take limit := by
  have hfull : limit ≤ front.length := Nat.le_trans hstuck List.countP_le_length
  induction i generalizing front with
  | zero =>
      change a ∉ (front ++ a :: rest).take limit
      rw [List.take_append_of_le_length hfull]
      intro hmem
      exact List.disjoint_of_nodup_append hnodup (List.mem_of_mem_take hmem) List.mem_cons_self
  | succ i ih =>
      change a ∉ (afterBatches stuck limit (afterBatch stuck limit (front ++ a :: rest)) i).take limit
      have hnext : afterBatch stuck limit (front ++ a :: rest) =
          afterBatch stuck limit front ++ a :: rest := afterBatch_append hfull (a :: rest)
      have hstuck' : limit ≤ (afterBatch stuck limit front).countP stuck := by
        rwa [countP_afterBatch]
      rw [hnext]
      refine ih hstuck' ?_ (Nat.le_trans hstuck' List.countP_le_length)
      rw [← hnext]
      exact hnodup.sublist (afterBatch_sublist _)

/-- The stuck entries before `a`. -/
def stuckBefore [DecidableEq α] (stuck : α → Bool) (backlog : List α) (a : α) : Nat :=
  (backlog.takeWhile fun x => decide (x ≠ a)).countP stuck

theorem takeWhile_before [DecidableEq α] {front : List α} {a : α} (h : a ∉ front)
    (rest : List α) : (front ++ a :: rest).takeWhile (fun x => decide (x ≠ a)) = front := by
  have hpass : ∀ x ∈ front, decide (x ≠ a) = true := by
    intro x hx
    refine decide_eq_true fun hxa => h ?_
    rw [← hxa]
    exact hx
  rw [List.takeWhile_append_of_pos hpass]
  simp

theorem reached_iff [DecidableEq α] {backlog : List α} (hnodup : backlog.Nodup) {a : α}
    (ha : a ∈ backlog) : (∃ i, a ∈ (afterBatches stuck limit backlog i).take limit) ↔
      stuckBefore stuck backlog a < limit := by
  obtain ⟨front, rest, rfl, hfront⟩ := List.eq_append_cons_of_mem ha
  unfold stuckBefore
  rw [takeWhile_before hfront]
  constructor
  · intro h
    obtain ⟨i, hi⟩ := h
    by_contra hstuck
    exact not_reached (Nat.le_of_not_lt hstuck) hnodup i hi
  · intro hstuck
    obtain ⟨i, -, hi⟩ := exists_reached hstuck a rest
    exact ⟨i, hi⟩

/-- An entry that is ever reached is reached within as many batches as the backlog is long. -/
theorem reached_within [DecidableEq α] {backlog : List α} {a : α} (ha : a ∈ backlog)
    (hstuck : stuckBefore stuck backlog a < limit) :
    ∃ i < backlog.length, a ∈ (afterBatches stuck limit backlog i).take limit := by
  obtain ⟨front, rest, rfl, hfront⟩ := List.eq_append_cons_of_mem ha
  unfold stuckBefore at hstuck
  rw [takeWhile_before hfront] at hstuck
  obtain ⟨i, hi, hmem⟩ := exists_reached hstuck a rest
  refine ⟨i, ?_, hmem⟩
  rw [List.length_append, List.length_cons]
  omega

end Backlog

end AutoTrade.Library
