import AutoTrade.Runtime

/-! # The levels of a signal

`calculate_directional_levels` and `validate_signal_geometry` of
`core/signal_utils.py`. Each level is taken over when it lies on its side of one
other price, and set to a percentage of the entry otherwise; all are rounded to
two decimals afterwards. `str.strip().upper()` is a parameter: the results hold
for every way of normalising a direction.
-/

namespace AutoTrade.Signals

/-! ## Calculating and validating -/

/-- A price handed in: left out, or what `float` makes of it, if it makes anything of it. -/
abbrev SuppliedPrice := Option (Option ℚ)

/-- `float(price or 0.0)`, and 0 where that raises. -/
def entryValue (entryPrice : SuppliedPrice) : ℚ := entryPrice.join.getD 0

section Normalize

variable (normalize : String → String)

/-- The direction is a long one; every text that is not is a short one. -/
def isLong (direction : Option String) : Bool :=
  decide (normalize (orElse direction "CALL") ∈ ["CALL", "BUY", "LONG"])

/-- One price lies before the other in the direction of the trade. -/
def before (long : Bool) (a b : ℚ) : Bool := if long then decide (a < b) else decide (b < a)

/-- A level: the supplied one if it is positive and on its side, else the default. -/
def levelOf (entry : ℚ) (supplied : SuppliedPrice) (onSide : ℚ → Bool) (default : ℚ) : ℚ :=
  match supplied with
  | some (some v) =>
      if 0 < v ∧ onSide v then roundTo 2 v else if 0 < entry then roundTo 2 default else 0
  | _ => if 0 < entry then roundTo 2 default else 0

def calculateDirectionalLevels (entryPrice : SuppliedPrice) (direction : Option String)
    (stopLoss target1 target2 : SuppliedPrice) : ℚ × ℚ × ℚ :=
  let entry := entryValue entryPrice
  let long := isLong normalize direction
  let sl := levelOf entry stopLoss (fun v => before long v entry)
    (if long then entry * (97 / 100) else entry * (103 / 100))
  let t1 := levelOf entry target1 (fun v => before long entry v)
    (if long then entry * (104 / 100) else entry * (96 / 100))
  let t2 := levelOf entry target2 (fun v => before long t1 v)
    (if long then entry * (108 / 100) else entry * (92 / 100))
  (sl, t1, t2)

def validateSignalGeometry (entryPrice : SuppliedPrice) (direction : Option String)
    (stopLoss target1 target2 : SuppliedPrice) : Bool :=
  match entryPrice, stopLoss, target1, target2 with
  | some (some e), some (some sl), some (some t1), some (some t2) =>
      if min (min e sl) (min t1 t2) ≤ 0 then false
      else
        let long := isLong normalize direction
        before long sl e && before long e t1 && before long t1 t2
  | _, _, _, _ => false

/-! ## Prices in the direction of the trade -/

theorem before_iff {long : Bool} {a b : ℚ} :
    before long a b = true ↔ if long then a < b else b < a := by
  unfold before
  cases long <;> simp

/-- A price that does not lie behind one with two decimals does not do so when it is rounded. -/
theorem before_of_before_roundTo {long : Bool} {a v : ℚ}
    (h : before long (roundTo 2 a) (roundTo 2 v) = true) : before long (roundTo 2 a) v = true := by
  rw [before_iff] at h ⊢
  cases long with
  | true =>
      simp only [if_true] at h ⊢
      by_contra hle
      have hround := roundTo_mono 2 (not_lt.mp hle)
      rw [roundTo_roundTo] at hround
      exact absurd h (not_lt.mpr hround)
  | false =>
      simp only [Bool.false_eq_true, if_false] at h ⊢
      by_contra hle
      have hround := roundTo_mono 2 (not_lt.mp hle)
      rw [roundTo_roundTo] at hround
      exact absurd h (not_lt.mpr hround)

/-! ## What is asked for -/

/-- The price a level starts from: the supplied one if it is taken, else the default. -/
def asked (supplied : SuppliedPrice) (onSide : ℚ → Bool) (default : ℚ) : ℚ :=
  (supplied.join.filter fun v => decide (0 < v) && onSide v).getD default

theorem levelOf_eq {entry : ℚ} (hentry : 0 < entry) (supplied : SuppliedPrice)
    (onSide : ℚ → Bool) (default : ℚ) :
    levelOf entry supplied onSide default = roundTo 2 (asked supplied onSide default) := by
  unfold levelOf asked
  match supplied with
  | none => simp [hentry]
  | some none => simp [hentry]
  | some (some v) =>
      by_cases htaken : 0 < v ∧ onSide v = true
      · simp only [if_pos htaken, Option.join_some, Option.filter_some]
        rw [if_pos (by simpa using htaken), Option.getD_some]
      · simp only [if_neg htaken, if_pos hentry, Option.join_some, Option.filter_some]
        rw [if_neg (by simpa using htaken), Option.getD_none]

theorem asked_of_taken {supplied : SuppliedPrice} {v : ℚ} (given : supplied.join = some v)
    {onSide : ℚ → Bool} (hpos : 0 < v) (hside : onSide v = true) (default : ℚ) :
    asked supplied onSide default = v := by
  unfold asked
  rw [given, Option.filter_some, if_pos (by simp [hpos, hside]), Option.getD_some]

section Levels

variable (long : Bool) (entry : ℚ) (stopLoss target1 target2 : SuppliedPrice)

def askedStop : ℚ :=
  asked stopLoss (fun v => before long v entry)
    (if long then entry * (97 / 100) else entry * (103 / 100))

def askedFirst : ℚ :=
  asked target1 (fun v => before long entry v)
    (if long then entry * (104 / 100) else entry * (96 / 100))

/-- The second target is measured against the first one as it was rounded. -/
def askedSecond : ℚ :=
  asked target2 (fun v => before long (roundTo 2 (askedFirst long entry target1)) v)
    (if long then entry * (108 / 100) else entry * (92 / 100))

/-- The supplied levels are positive and in the order of the trade among themselves and with the
entry. -/
structure Consistent : Prop where
  stop : ∀ v ∈ stopLoss.join, 0 < v ∧ before long v entry = true
  first : ∀ v ∈ target1.join, 0 < v ∧ before long entry v = true
  second : ∀ v ∈ target2.join, 0 < v ∧ before long entry v = true ∧
    ∀ u ∈ target1.join, before long u v = true

/-- Two decimals keep the prices asked for apart, the lowest of them from 0, and leave a consistent
second target behind the first. -/
structure LevelsApart : Prop where
  lowest : 0 < roundTo 2
    (if long then askedStop long entry stopLoss else askedSecond long entry target1 target2)
  stop : before long (roundTo 2 (askedStop long entry stopLoss)) entry = true
  first : before long entry (roundTo 2 (askedFirst long entry target1)) = true
  second : before long (roundTo 2 (askedFirst long entry target1))
    (roundTo 2 (askedSecond long entry target1 target2)) = true
  taken : Consistent long entry stopLoss target1 target2 → ∀ v ∈ target2.join,
    before long (roundTo 2 (askedFirst long entry target1)) v = true

end Levels

/-- The supplied levels are the ones returned, rounded. -/
structure Preserved (levels : ℚ × ℚ × ℚ) (stopLoss target1 target2 : SuppliedPrice) : Prop where
  stop : ∀ v ∈ stopLoss.join, levels.1 = roundTo 2 v
  first : ∀ v ∈ target1.join, levels.2.1 = roundTo 2 v
  second : ∀ v ∈ target2.join, levels.2.2 = roundTo 2 v

/-- The levels returned are valid and preserve the supplied ones where these are consistent. -/
def WellPlaced (entry : ℚ) (direction : Option String)
    (stopLoss target1 target2 : SuppliedPrice) : Prop :=
  let levels := calculateDirectionalLevels normalize (some (some entry)) direction stopLoss target1
    target2
  validateSignalGeometry normalize (some (some entry)) direction (some (some levels.1))
      (some (some levels.2.1)) (some (some levels.2.2)) = true ∧
    (Consistent (isLong normalize direction) entry stopLoss target1 target2 →
      Preserved levels stopLoss target1 target2)

theorem calculateDirectionalLevels_eq {entry : ℚ} (hentry : 0 < entry) (direction : Option String)
    (stopLoss target1 target2 : SuppliedPrice) :
    calculateDirectionalLevels normalize (some (some entry)) direction stopLoss target1 target2 =
      (roundTo 2 (askedStop (isLong normalize direction) entry stopLoss),
        roundTo 2 (askedFirst (isLong normalize direction) entry target1),
        roundTo 2 (askedSecond (isLong normalize direction) entry target1 target2)) := by
  unfold calculateDirectionalLevels askedStop askedFirst askedSecond
  dsimp only
  rw [show entryValue (some (some entry)) = entry from rfl, levelOf_eq hentry, levelOf_eq hentry,
    levelOf_eq hentry]
  rfl

theorem validateSignalGeometry_iff (direction : Option String) (e sl t1 t2 : ℚ) :
    validateSignalGeometry normalize (some (some e)) direction (some (some sl)) (some (some t1))
        (some (some t2)) = true ↔
      (0 < e ∧ 0 < sl ∧ 0 < t1 ∧ 0 < t2) ∧ before (isLong normalize direction) sl e = true ∧
        before (isLong normalize direction) e t1 = true ∧
          before (isLong normalize direction) t1 t2 = true := by
  unfold validateSignalGeometry
  dsimp only
  by_cases hlow : min (min e sl) (min t1 t2) ≤ 0
  · rw [if_pos hlow]
    refine iff_of_false Bool.false_ne_true fun h => ?_
    obtain ⟨⟨he, hsl, ht1, ht2⟩, -⟩ := h
    exact absurd hlow (not_le.mpr (lt_min (lt_min he hsl) (lt_min ht1 ht2)))
  · rw [if_neg hlow]
    rw [not_le, lt_min_iff, lt_min_iff, lt_min_iff] at hlow
    simp only [Bool.and_eq_true, hlow.1, hlow.2, true_and, and_true, and_assoc]

/-- The lowest of four prices in order is positive exactly when all are. -/
theorem positive_iff_lowest {long : Bool} {e sl t1 t2 : ℚ} (hstop : before long sl e = true)
    (hfirst : before long e t1 = true) (hsecond : before long t1 t2 = true) :
    (0 < e ∧ 0 < sl ∧ 0 < t1 ∧ 0 < t2) ↔ 0 < if long then sl else t2 := by
  rw [before_iff] at hstop hfirst hsecond
  cases long with
  | true =>
      simp only [if_true] at hstop hfirst hsecond ⊢
      refine ⟨fun h => h.2.1, fun hsl => ?_⟩
      have he := hsl.trans hstop
      exact ⟨he, hsl, he.trans hfirst, (he.trans hfirst).trans hsecond⟩
  | false =>
      simp only [Bool.false_eq_true, if_false] at hstop hfirst hsecond ⊢
      refine ⟨fun h => h.2.2.2, fun ht2 => ?_⟩
      have ht1 := ht2.trans hsecond
      exact ⟨ht1.trans hfirst, (ht1.trans hfirst).trans hstop, ht1, ht2⟩

/-- For a positive entry the levels are well placed exactly when rounding keeps apart what is asked
for. -/
theorem wellPlaced_iff {entry : ℚ} (hentry : 0 < entry) (direction : Option String)
    (stopLoss target1 target2 : SuppliedPrice) :
    WellPlaced normalize entry direction stopLoss target1 target2 ↔
      LevelsApart (isLong normalize direction) entry stopLoss target1 target2 := by
  unfold WellPlaced
  rw [calculateDirectionalLevels_eq normalize hentry]
  dsimp only
  rw [validateSignalGeometry_iff]
  generalize isLong normalize direction = long
  constructor
  · rintro ⟨⟨hpos, hstop, hfirst, hsecond⟩, hpreserved⟩
    have hlowest := (positive_iff_lowest hstop hfirst hsecond).mp hpos
    refine ⟨?_, hstop, hfirst, hsecond, fun hconsistent v hv => ?_⟩
    · rwa [apply_ite (roundTo 2)]
    · have hlevel := (hpreserved hconsistent).second v hv
      dsimp only at hlevel
      exact before_of_before_roundTo (hlevel ▸ hsecond)
  · intro apart
    have hlowest := apart.lowest
    rw [apply_ite (roundTo 2)] at hlowest
    refine ⟨⟨(positive_iff_lowest apart.stop apart.first apart.second).mpr hlowest, apart.stop,
      apart.first, apart.second⟩, fun hconsistent => ?_⟩
    constructor
    · intro v hv
      obtain ⟨hpos, hside⟩ := hconsistent.stop v hv
      exact congrArg (roundTo 2) (asked_of_taken hv hpos hside _)
    · intro v hv
      obtain ⟨hpos, hside⟩ := hconsistent.first v hv
      exact congrArg (roundTo 2) (asked_of_taken hv hpos hside _)
    · intro v hv
      exact congrArg (roundTo 2)
        (asked_of_taken hv (hconsistent.second v hv).1 (apart.taken hconsistent v hv) _)

end Normalize

/-- Nothing supplied at 100: 97, 104 and 108. -/
theorem wellPlaced_of_defaults :
    WellPlaced (fun text => text) 100 (some "CALL") none none none := by
  refine (wellPlaced_iff _ (by decide +kernel) _ none none none).mpr ?_
  exact ⟨by decide +kernel, by decide +kernel, by decide +kernel, by decide +kernel,
    fun _ v hv => by cases hv⟩

/-- A first target of 110 lies beyond the default second target of 108. -/
theorem first_target_beyond_default_second :
    calculateDirectionalLevels (fun text => text) (some (some 100)) (some "CALL") none
        (some (some 110)) none = (97, 110, 108) ∧
      ¬ WellPlaced (fun text => text) 100 (some "CALL") none (some (some 110)) none := by
  refine ⟨by decide +kernel, fun h => absurd h.1 ?_⟩
  decide +kernel

end AutoTrade.Signals
