import AutoTrade.Library.StepDown
import AutoTrade.Runtime

/-! # Multiple comparisons

The correction of the p-values of a family of comparisons, by
`core/signals/signal_score_discrimination.py`.
-/

namespace AutoTrade.Signals

open AutoTrade.Library

/-- `sorted(enumerate(p_values), key=lambda x: x[1])`. -/
def indexedPvalues (pValues : List ℚ) : List (Nat × ℚ) :=
  (pValues.zipIdx.map Prod.swap).mergeSort fun a b => decide (a.2 ≤ b.2)

def adjustPvaluesHolm (pValues : List ℚ) : List ℚ :=
  if pValues.length ≤ 1 then pValues.map (roundTo 6)
  else
    let adjusted := (stepDown pValues.length 0 0 (indexedPvalues pValues)).map fun e =>
      (e.1, roundTo 6 e.2)
    (adjusted.mergeSort fun a b => decide (a.1 ≤ b.1)).map Prod.snd

theorem map_fst_indexed_perm (pValues : List ℚ) :
    ((indexedPvalues pValues).map Prod.fst).Perm (List.range pValues.length) := by
  have hperm := (List.mergeSort_perm (pValues.zipIdx.map Prod.swap)
    fun a b => decide (a.2 ≤ b.2)).map Prod.fst
  refine hperm.trans (.of_eq ?_)
  rw [List.map_map, List.range_eq_range']
  exact List.zipIdx_map_snd 0 pValues

theorem map_snd_indexed_perm (pValues : List ℚ) :
    ((indexedPvalues pValues).map Prod.snd).Perm pValues := by
  have hperm := (List.mergeSort_perm (pValues.zipIdx.map Prod.swap)
    fun a b => decide (a.2 ≤ b.2)).map Prod.snd
  refine hperm.trans (.of_eq ?_)
  rw [List.map_map]
  exact List.zipIdx_map_fst 0 pValues

theorem sorted_indexed (pValues : List ℚ) :
    ((indexedPvalues pValues).map Prod.snd).Pairwise (· ≤ ·) := by
  rw [List.pairwise_map]
  refine (List.pairwise_mergeSort (fun a b c hab hbc => ?_) (fun a b => ?_) _).imp ?_
  · exact decide_eq_true ((of_decide_eq_true hab).trans (of_decide_eq_true hbc))
  · simpa using le_total a.2 b.2
  · exact fun h => of_decide_eq_true h

theorem mem_indexed {pValues : List ℚ} {i : Nat} {p : ℚ} :
    (i, p) ∈ indexedPvalues pValues ↔ pValues[i]? = some p := by
  unfold indexedPvalues
  rw [List.mem_mergeSort, List.mem_map]
  constructor
  · rintro ⟨⟨q, j⟩, hmem, heq⟩
    cases heq
    exact List.mem_zipIdx_iff_getElem?.mp hmem
  · intro h
    exact ⟨(p, i), List.mem_zipIdx_iff_getElem?.mpr h, rfl⟩

/-- A sort by the original places puts each value back into its own. -/
theorem getElem?_of_mem_restored {xs : List (Nat × ℚ)} {n : Nat}
    (hplaces : (xs.map Prod.fst).Perm (List.range n)) {i : Nat} {a : ℚ} (h : (i, a) ∈ xs) :
    ((xs.mergeSort fun a b => decide (a.1 ≤ b.1)).map Prod.snd)[i]? = some a := by
  set sorted := xs.mergeSort fun a b => decide (a.1 ≤ b.1) with hsorted
  have hordered : (sorted.map Prod.fst).Pairwise (· ≤ ·) := by
    rw [List.pairwise_map]
    refine (List.pairwise_mergeSort (fun a b c hab hbc => ?_) (fun a b => ?_) _).imp ?_
    · exact decide_eq_true ((of_decide_eq_true hab).trans (of_decide_eq_true hbc))
    · simpa using le_total a.1 b.1
    · exact fun h => of_decide_eq_true h
  have hrange : sorted.map Prod.fst = List.range n :=
    (((List.mergeSort_perm xs _).map Prod.fst).trans hplaces).eq_of_pairwise
      (fun _ _ _ _ => le_antisymm) hordered (List.pairwise_le_range)
  obtain ⟨j, hj⟩ := List.mem_iff_getElem?.mp (List.mem_mergeSort.mpr h : (i, a) ∈ sorted)
  have hfst : (List.range n)[j]? = some i := by
    rw [← hrange, List.getElem?_map, hj]
    rfl
  obtain ⟨_, hji⟩ := List.getElem?_eq_some_iff.mp hfst
  rw [List.getElem_range] at hji
  subst hji
  rw [List.getElem?_map, hj]
  rfl

/-- How many are as large does not depend on the order of the family. -/
theorem cutMultiple_of_perm {family pValues : List ℚ} (hperm : family.Perm pValues) (q : ℚ) :
    cutMultiple family q = cutMultiple pValues q := by
  rw [cutMultiple, cutMultiple, countFrom, countFrom, hperm.countP_eq]

theorem adjustedTo_of_perm {family pValues : List ℚ} (hperm : family.Perm pValues) {p a : ℚ}
    (h : AdjustedTo family p a) : AdjustedTo pValues p a := by
  intro bound
  rw [h bound]
  refine and_congr_right fun _ => ?_
  simp only [cutMultiple_of_perm hperm, hperm.mem_iff]

theorem map_fst_adjusted_perm (pValues : List ℚ) :
    (((stepDown pValues.length 0 0 (indexedPvalues pValues)).map fun e =>
      (e.1, roundTo 6 e.2)).map Prod.fst).Perm (List.range pValues.length) := by
  rw [List.map_map]
  exact (List.Perm.of_eq (map_fst_stepDown ..)).trans (map_fst_indexed_perm pValues)

theorem length_adjustPvaluesHolm (pValues : List ℚ) :
    (adjustPvaluesHolm pValues).length = pValues.length := by
  unfold adjustPvaluesHolm
  split
  · exact List.length_map _
  · have hlength := (map_fst_adjusted_perm pValues).length_eq
    rw [List.length_map, List.length_range] at hlength
    rw [List.length_map, List.length_mergeSort, hlength]

/-- A lone value keeps its own. -/
theorem adjustedTo_self {p : ℚ} (hp : 0 ≤ p ∧ p ≤ 1) : AdjustedTo [p] p p := by
  have hcut : cutMultiple [p] p = p := by
    simp [cutMultiple, countFrom, hp.2]
  intro bound
  rw [List.forall_mem_singleton, hcut]
  exact ⟨fun h => ⟨hp.1.trans h, fun _ => h⟩, fun h => h.2 le_rfl⟩

theorem exists_adjusted {pValues : List ℚ} (hrange : ∀ p ∈ pValues, 0 ≤ p ∧ p ≤ 1) {i : Nat} {p : ℚ}
    (hi : pValues[i]? = some p) :
    ∃ a, (adjustPvaluesHolm pValues)[i]? = some (roundTo 6 a) ∧ AdjustedTo pValues p a := by
  unfold adjustPvaluesHolm
  split
  case isTrue hshort =>
    refine ⟨p, by rw [List.getElem?_map, hi]; rfl, ?_⟩
    have hmem := List.mem_of_getElem? hi
    obtain ⟨q, rfl⟩ := List.length_eq_one_iff.mp
      (le_antisymm hshort (List.length_pos_of_mem hmem))
    rw [List.mem_singleton.mp hmem]
    exact adjustedTo_self (hrange q List.mem_cons_self)
  case isFalse =>
    have hplace := (map_fst_indexed_perm pValues).mem_iff.mpr
      (List.mem_range.mpr (List.getElem?_eq_some_iff.mp hi).1)
    rw [← map_fst_stepDown pValues.length 0 0] at hplace
    obtain ⟨⟨j, a⟩, hmem, rfl⟩ := List.mem_map.mp hplace
    have hfamily := map_snd_indexed_perm pValues
    have hpos : ∀ x ∈ indexedPvalues pValues, 0 ≤ x.2 := fun x hx =>
      (hrange x.2 (hfamily.mem_iff.mp (List.mem_map_of_mem hx))).1
    have hlength := hfamily.length_eq
    have hstep := hmem
    rw [← hlength] at hstep
    obtain ⟨q, hq, hto⟩ := @adjustedTo_of_mem_stepDown ℚ Nat _ _ _ [] _ 0
      (sorted_indexed pValues) hpos (fun bound => by simp) j a hstep
    have hqp : q = p := Option.some.inj ((mem_indexed.mp hq).symm.trans hi)
    subst hqp
    refine ⟨a, getElem?_of_mem_restored (map_fst_adjusted_perm pValues) ?_,
      adjustedTo_of_perm hfamily hto⟩
    exact List.mem_map.mpr ⟨(j, a), hmem, rfl⟩

/-- What a value is adjusted to is fixed by the family and the value. -/
theorem adjustedTo_unique {pValues : List ℚ} {p a b : ℚ} (ha : AdjustedTo pValues p a)
    (hb : AdjustedTo pValues p b) : a = b :=
  le_antisymm ((ha b).mpr ((hb b).mp le_rfl)) ((hb a).mpr ((ha a).mp le_rfl))

theorem adjustedTo_mono {pValues : List ℚ} {p q a b : ℚ} (hpq : p ≤ q) (ha : AdjustedTo pValues p a)
    (hb : AdjustedTo pValues q b) : a ≤ b := by
  obtain ⟨hpos, hup⟩ := (hb b).mp le_rfl
  exact (ha b).mpr ⟨hpos, fun r hr hrp => hup r hr (hrp.trans hpq)⟩

theorem adjustedTo_bounds {pValues : List ℚ} {p a : ℚ} (hmem : p ∈ pValues) (hp : 0 ≤ p ∧ p ≤ 1)
    (ha : AdjustedTo pValues p a) : p ≤ a ∧ a ≤ 1 := by
  constructor
  · have hcount : 0 < countFrom pValues p := List.countP_pos_iff.mpr ⟨p, hmem, by simp⟩
    have hmultiple : p ≤ cutMultiple pValues p :=
      le_min hp.2 (le_mul_of_one_le_left hp.1 (Nat.one_le_cast.mpr hcount))
    exact hmultiple.trans (((ha a).mp le_rfl).2 p hmem le_rfl)
  · exact (ha 1).mpr ⟨zero_le_one, fun q _ _ => min_le_left _ _⟩

/-- The correction keeps every value in its own place. A value is adjusted, up to the
rounding, to the largest cut multiple of the family's values up to it: never below the
value and never above one, in the order of the values, equal for equal values, and the
same in whatever order the family comes. -/
theorem holm_adjusted (pValues : List ℚ) (hrange : ∀ p ∈ pValues, 0 ≤ p ∧ p ≤ 1) :
    (adjustPvaluesHolm pValues).length = pValues.length ∧
    (∀ (i : Nat) (p : ℚ), pValues[i]? = some p →
      ∃ a, (adjustPvaluesHolm pValues)[i]? = some (roundTo 6 a) ∧ p ≤ a ∧ a ≤ 1 ∧
        AdjustedTo pValues p a) ∧
    ∀ family : List ℚ, pValues.Perm family → ∀ (i j : Nat) (p q : ℚ),
      pValues[i]? = some p → family[j]? = some q → p ≤ q →
        ∃ a b, (adjustPvaluesHolm pValues)[i]? = some a ∧ (adjustPvaluesHolm family)[j]? = some b ∧
          a ≤ b ∧ (p = q → a = b) := by
  refine ⟨length_adjustPvaluesHolm pValues, fun i p hi => ?_, ?_⟩
  · obtain ⟨a, hget, hto⟩ := exists_adjusted hrange hi
    have hmem := List.mem_of_getElem? hi
    obtain ⟨hle, hone⟩ := adjustedTo_bounds hmem (hrange p hmem) hto
    exact ⟨a, hget, hle, hone, hto⟩
  · intro family hperm i j p q hi hj hpq
    obtain ⟨a, hget, hto⟩ := exists_adjusted hrange hi
    obtain ⟨b, hget', hto'⟩ :=
      exists_adjusted (fun x hx => hrange x (hperm.mem_iff.mpr hx)) hj
    have hsame := adjustedTo_of_perm hperm.symm hto'
    refine ⟨_, _, hget, hget', roundTo_mono 6 (adjustedTo_mono hpq hto hsame), ?_⟩
    rintro rfl
    rw [adjustedTo_unique hto hsame]

/-- Of three comparisons the largest is adjusted with the two below it. -/
theorem holm_adjusted_three :
    ∃ a, (adjustPvaluesHolm [3 / 100, 1 / 100, 1 / 25])[2]? = some (roundTo 6 a) ∧
      1 / 25 ≤ a ∧ a ≤ 1 ∧ AdjustedTo [3 / 100, 1 / 100, 1 / 25] (1 / 25) a :=
  (holm_adjusted [3 / 100, 1 / 100, 1 / 25] (by norm_num)).2.1 2 (1 / 25) rfl

end AutoTrade.Signals
