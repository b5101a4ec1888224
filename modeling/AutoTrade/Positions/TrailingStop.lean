import AutoTrade.Positions.TrackedQuantity
import Mathlib.Tactic.Linarith

/-! # Trailing stops

What the trailing stop of a position does along the prices observed for it. The
stored peak is the highest price since the first tick, whatever the direction.
A call is stopped out below it, as it should be; the stop of a put is set above
the highest price too, where no price of its path can reach it.
-/

namespace AutoTrade.Positions

open AutoTrade.Library AutoTrade.Execution

/-- One name in the loop of a call of `monitor_positions`. -/
structure Visit (σ : Type) where
  venue : Venue σ
  quotes : PositionService.Quotes
  now : ℚ
  name : String

/-- One call of `monitor_positions`. -/
structure MonitorCall (σ : Type) where
  venue : Venue σ
  quotes : PositionService.Quotes
  now : ℚ

/-- The service, and the prices observed for one name so far. -/
structure TrailHistory (σ : Type) where
  service : PositionService σ
  prices : List ℚ := []

namespace PositionService

variable {σ : Type}

/-! ## Calls and visits -/

def visit (settings : Settings) (s : PositionService σ) (v : Visit σ) : PositionService σ :=
  (monitorName settings v.venue v.quotes v.now s v.name).1

def monitor (settings : Settings) (s : PositionService σ) (c : MonitorCall σ) :
    PositionService σ :=
  (monitorPositions settings c.venue c.quotes c.now s).1

/-- The names the loop of a call comes to. -/
def visitsOf (settings : Settings) (s : PositionService σ) (c : MonitorCall σ) : List (Visit σ) :=
  (visited (monitorName settings c.venue c.quotes c.now) s (s.positions.rows.map Prod.fst)).map
    fun name => ⟨c.venue, c.quotes, c.now, name⟩

/-- The names successive calls come to. -/
def visitsOfCalls (settings : Settings) :
    PositionService σ → List (MonitorCall σ) → List (Visit σ)
  | _, [] => []
  | s, c :: rest => visitsOf settings s c ++
      visitsOfCalls settings (monitor settings s c) rest

theorem monitor_eq_run (settings : Settings) (s : PositionService σ) (c : MonitorCall σ) :
    monitor settings s c = run (visit settings) s (visitsOf settings s c) := by
  unfold monitor monitorPositions visitsOf
  rw [loop_eq_run]
  unfold run
  rw [List.foldl_map]
  rfl

/-! ## Ticks of one name -/

/-- The price a visit observes for the name, with the position it is held against. -/
def tick (name : String) (s : PositionService σ) (v : Visit σ) : Option (Position × ℚ) :=
  if v.name = name then
    match s.positions.get? name, v.quotes.observed name with
    | some pos, some ltp => if pos.underlyingEntryPrice ≤ 0 then none else some (pos, ltp)
    | _, _ => none
  else none

def watch (settings : Settings) (name : String) (h : TrailHistory σ) (v : Visit σ) :
    TrailHistory σ where
  service := visit settings h.service v
  prices := h.prices ++ ((tick name h.service v).map Prod.snd).toList

/-- The favourable move has reached `TRAIL_ACTIVATE`; every direction but `CALL` is a put. -/
def Activates (settings : Settings) (pos : Position) (price : ℚ) : Prop :=
  if pos.direction = "CALL" then settings.trailActivate - 1 ≤ movePct price pos
  else movePct price pos ≤ -(settings.trailActivate - 1)

/-- The last of the observed prices, `ltp`, is beyond the trailing stop: below the highest price for
a call, above the lowest one for a put. -/
def StopDue (settings : Settings) (pos : Position) (prices : List ℚ) (ltp : ℚ) : Prop :=
  (∃ p ∈ prices, Activates settings pos p) ∧
    if pos.direction = "CALL" then
      ∃ highest ∈ prices, (∀ p ∈ prices, p ≤ highest) ∧ ltp ≤ highest * settings.trailPct
    else
      ∃ lowest ∈ prices, (∀ p ∈ prices, lowest ≤ p) ∧ lowest * (2 - settings.trailPct) ≤ ltp

/-- The price is positive, and no stop, target or age exit is made at it. -/
def Undisturbed (settings : Settings) (name : String) (h : TrailHistory σ) (v : Visit σ) : Prop :=
  ∀ t ∈ tick name h.service v, 0 < t.2 ∧
    ((verdict settings v.now t.2 t.1).2 = none ∨
      (verdict settings v.now t.2 t.1).2 = some "TRAIL_HIT")

/-- The position is exited with `TRAIL_HIT` just where its trailing stop is due. -/
def TrailsRight (settings : Settings) (name : String) (h : TrailHistory σ) (v : Visit σ) : Prop :=
  ∀ t ∈ tick name h.service v,
    (verdict settings v.now t.2 t.1).2 = some "TRAIL_HIT" ↔
      StopDue settings t.1 (h.prices ++ [t.2]) t.2

/-- The position is a call, or the price has not come back to where a put is stopped out. -/
def CallOrNotDue (settings : Settings) (name : String) (h : TrailHistory σ) (v : Visit σ) : Prop :=
  ∀ t ∈ tick name h.service v,
    t.1.direction = "CALL" ∨ ¬ StopDue settings t.1 (h.prices ++ [t.2]) t.2

instance (settings : Settings) (pos : Position) (price : ℚ) :
    Decidable (Activates settings pos price) :=
  inferInstanceAs (Decidable (if pos.direction = "CALL" then _ ≤ _ else _ ≤ _))

instance (settings : Settings) (pos : Position) (prices : List ℚ) (ltp : ℚ) :
    Decidable (StopDue settings pos prices ltp) :=
  inferInstanceAs (Decidable ((∃ p ∈ prices, Activates settings pos p) ∧
    if pos.direction = "CALL" then ∃ highest ∈ prices, (∀ p ∈ prices, p ≤ highest) ∧ _ ≤ _
    else ∃ lowest ∈ prices, (∀ p ∈ prices, lowest ≤ p) ∧ _ ≤ _))

instance (settings : Settings) (name : String) (h : TrailHistory σ) (v : Visit σ) :
    Decidable (Undisturbed settings name h v) :=
  inferInstanceAs (Decidable (∀ t ∈ tick name h.service v, 0 < t.2 ∧ (_ = _ ∨ _ = _)))

instance (settings : Settings) (name : String) (h : TrailHistory σ) (v : Visit σ) :
    Decidable (TrailsRight settings name h v) :=
  inferInstanceAs (Decidable (∀ t ∈ tick name h.service v,
    _ = _ ↔ StopDue settings t.1 (h.prices ++ [t.2]) t.2))

instance (settings : Settings) (name : String) (h : TrailHistory σ) (v : Visit σ) :
    Decidable (CallOrNotDue settings name h v) :=
  inferInstanceAs (Decidable (∀ t ∈ tick name h.service v,
    _ = _ ∨ ¬ StopDue settings t.1 (h.prices ++ [t.2]) t.2))

/-! ## One tick -/

/-- The test against the stored peak. -/
def crossed (settings : Settings) (pos : Position) (ltp peak : ℚ) : Prop :=
  if pos.direction = "CALL" then ltp ≤ peak * settings.trailPct
  else peak * (2 - settings.trailPct) ≤ ltp

theorem trail_spec (settings : Settings) (now : ℚ) (pos : Position) (activates : Bool)
    (test : ℚ → Bool) :
    (trail settings now pos activates test).1 =
        { pos with trailActivated := pos.trailActivated || activates } ∧
      ((trail settings now pos activates test).2 = some "TRAIL_HIT" ↔
        (pos.trailActivated || activates) = true ∧ pos.peakUnderlying.any test = true) := by
  unfold trail
  dsimp only
  split
  · rename_i hhit
    exact ⟨rfl, iff_of_true rfl (by simpa using hhit)⟩
  · rename_i hmiss
    refine ⟨rfl, iff_of_false ?_ (by simpa using hmiss)⟩
    unfold ageReason
    split <;> simp

/-- Without a stop, target or age exit a tick brings the peak up to the price, sets the latch and
tests the price against the peak. -/
structure TrailTested (settings : Settings) (ltp : ℚ) (pos : Position)
    (after : Position × Option String) : Prop where
  peak : after.1.peakUnderlying = some (max (pos.peakUnderlying.getD ltp) ltp)
  latch : after.1.trailActivated = true ↔
    (pos.peakUnderlying.isSome = true ∧ pos.trailActivated = true) ∨ Activates settings pos ltp
  hit : after.2 = some "TRAIL_HIT" ↔ after.1.trailActivated = true ∧
    crossed settings pos ltp (max (pos.peakUnderlying.getD ltp) ltp)

theorem trailTested_trail {settings : Settings} {now ltp : ℚ} {pos : Position} {activates : Bool}
    {test : ℚ → Bool} (hactivates : activates = true ↔ Activates settings pos ltp)
    (htest : ∀ peak, test peak = true ↔ crossed settings pos ltp peak) :
    TrailTested settings ltp pos (trail settings now (withPeak ltp pos) activates test) := by
  obtain ⟨hpos, hhit⟩ := trail_spec settings now (withPeak ltp pos) activates test
  have hlatch : ((withPeak ltp pos).trailActivated || activates) = true ↔
      (pos.peakUnderlying.isSome = true ∧ pos.trailActivated = true) ∨
        Activates settings pos ltp := by
    rw [Bool.or_eq_true, hactivates, withPeak, Bool.and_eq_true]
  refine ⟨by rw [hpos]; rfl, by rw [hpos]; exact hlatch, ?_⟩
  rw [hhit, hpos, withPeak]
  simp only [Option.any_some, htest]

theorem verdict_spec {settings : Settings} {now ltp : ℚ} {pos : Position}
    (quiet : (verdict settings now ltp pos).2 = none ∨
      (verdict settings now ltp pos).2 = some "TRAIL_HIT") :
    TrailTested settings ltp pos (verdict settings now ltp pos) := by
  rcases verdict_cases settings now ltp pos with ⟨hstop, -⟩ | ⟨htarget, -⟩ |
    ⟨activates, test, htrail, hactivates, htest⟩
  · rw [hstop] at quiet
    simp at quiet
  · rw [htarget] at quiet
    simp at quiet
  · rw [htrail]
    exact trailTested_trail hactivates htest

/-- The stored peak and latch say what the observed prices do. -/
structure Watched (settings : Settings) (pos : Position) (prices : List ℚ) : Prop where
  first : prices = [] → pos.peakUnderlying = none
  peak : prices ≠ [] → ∃ peak ∈ prices, pos.peakUnderlying = some peak ∧ ∀ p ∈ prices, p ≤ peak
  latch : prices ≠ [] → (pos.trailActivated = true ↔ ∃ p ∈ prices, Activates settings pos p)

/-- The peak after a tick is the highest price, and the latch is set if one of them has set it. -/
structure Ticked (settings : Settings) (pos : Position) (prices : List ℚ) (ltp : ℚ)
    (after : Position × Option String) (peak : ℚ) : Prop where
  mem : peak ∈ prices
  stored : after.1.peakUnderlying = some peak
  highest : ∀ p ∈ prices, p ≤ peak
  latch : after.1.trailActivated = true ↔ ∃ p ∈ prices, Activates settings pos p
  hit : after.2 = some "TRAIL_HIT" ↔
    (∃ p ∈ prices, Activates settings pos p) ∧ crossed settings pos ltp peak

theorem Watched.tick {settings : Settings} {pos : Position} {prices : List ℚ}
    (watched : Watched settings pos prices) {ltp : ℚ} {after : Position × Option String}
    (tested : TrailTested settings ltp pos after) :
    ∃ peak, Ticked settings pos (prices ++ [ltp]) ltp after peak := by
  cases prices with
  | nil =>
      have hpeak := tested.peak
      have hlatch := tested.latch
      have hhit := tested.hit
      rw [watched.first rfl, Option.getD_none, max_self] at hpeak hhit
      rw [watched.first rfl] at hlatch
      have hactive : after.1.trailActivated = true ↔
          ∃ p ∈ [ltp], Activates settings pos p := by simpa using hlatch
      exact ⟨ltp, List.mem_singleton_self ltp, hpeak, by simp, hactive, hhit.trans
        (and_congr_left' hactive)⟩
  | cons first rest =>
      obtain ⟨old, hmem, hold, hhighest⟩ := watched.peak (List.cons_ne_nil first rest)
      have hpeak := tested.peak
      have hlatch := tested.latch
      have hhit := tested.hit
      rw [hold, Option.getD_some] at hpeak hhit
      rw [hold, watched.latch (List.cons_ne_nil first rest)] at hlatch
      have hactive : after.1.trailActivated = true ↔
          ∃ p ∈ (first :: rest) ++ [ltp], Activates settings pos p := by
        simp only [hlatch, Option.isSome_some, true_and, List.mem_append, List.mem_singleton,
          or_and_right, exists_or, exists_eq_left]
      refine ⟨max old ltp, ?_, hpeak, fun p hp => ?_, hactive, hhit.trans (and_congr_left' hactive)⟩
      · rcases max_choice old ltp with h | h
        · rw [h]
          exact List.mem_append_left _ hmem
        · rw [h]
          exact List.mem_append_right _ (List.mem_singleton_self ltp)
      · rcases List.mem_append.mp hp with hp | hp
        · exact (hhighest p hp).trans (le_max_left _ _)
        · rw [List.mem_singleton.mp hp]
          exact le_max_right _ _

/-- A call is stopped out where the stop is due. -/
theorem Ticked.hit_iff_due {settings : Settings} {pos : Position} {prices : List ℚ} {ltp peak : ℚ}
    {after : Position × Option String} (ticked : Ticked settings pos prices ltp after peak)
    (call : pos.direction = "CALL") :
    after.2 = some "TRAIL_HIT" ↔ StopDue settings pos prices ltp := by
  rw [ticked.hit]
  unfold StopDue crossed
  rw [if_pos call, if_pos call]
  refine and_congr_right fun _ => ⟨fun h => ⟨peak, ticked.mem, ticked.highest, h⟩, ?_⟩
  intro h
  obtain ⟨highest, hmem, hhighest, hbelow⟩ := h
  have hsame : highest = peak := le_antisymm (ticked.highest _ hmem) (hhighest _ ticked.mem)
  rwa [hsame] at hbelow

/-- No price of a put comes up to the stop above the highest price. -/
theorem Ticked.not_hit {settings : Settings} {pos : Position} {prices : List ℚ} {ltp peak : ℚ}
    {after : Position × Option String} (ticked : Ticked settings pos prices ltp after peak)
    (share : settings.trailPct < 1) (last : ltp ∈ prices) (positive : 0 < ltp)
    (put : pos.direction ≠ "CALL") : after.2 ≠ some "TRAIL_HIT" := by
  intro h
  have hcrossed := (ticked.hit.mp h).2
  unfold crossed at hcrossed
  rw [if_neg put] at hcrossed
  have hpeak := ticked.highest ltp last
  have habove : peak < peak * (2 - settings.trailPct) :=
    lt_mul_of_one_lt_right (positive.trans_le hpeak) (by linarith)
  linarith

/-! ## Along the visits -/

/-- The position of the name, if it is there, is watched. -/
structure Follows (settings : Settings) (name : String) (h : TrailHistory σ) : Prop where
  watched : ∀ pos ∈ h.service.positions.get? name, Watched settings pos h.prices

/-- What the trailing stop reads of a position. -/
def SameTrail (pos pos' : Position) : Prop :=
  pos'.direction = pos.direction ∧ pos'.underlyingEntryPrice = pos.underlyingEntryPrice ∧
    pos'.peakUnderlying = pos.peakUnderlying ∧ pos'.trailActivated = pos.trailActivated

theorem activates_congr {settings : Settings} {pos pos' : Position}
    (direction : pos'.direction = pos.direction)
    (entry : pos'.underlyingEntryPrice = pos.underlyingEntryPrice) (price : ℚ) :
    Activates settings pos' price ↔ Activates settings pos price := by
  unfold Activates movePct
  rw [direction, entry]

/-- An exit leaves no position, or one with the same trailing stop. -/
theorem sameTrail_exitPosition {settings : Settings} {venue : Venue σ} {name reason : String}
    {ltp : Option ℚ} {s : PositionService σ} {pos : Position}
    (held : s.positions.get? name = some pos) :
    ∀ pos' ∈ (exitPosition settings venue name reason ltp s).1.positions.get? name,
      SameTrail pos pos' := by
  have hsent := sendExit_positions venue name reason ltp pos s
  unfold exitPosition
  rw [held]
  dsimp only
  split
  · intro pos' h
    rw [Option.mem_def, hsent, held] at h
    cases h
    exact ⟨rfl, rfl, rfl, rfl⟩
  · dsimp only
    split
    · unfold keepOrGiveUp
      dsimp only
      split
      · intro pos' h
        rw [Option.mem_def, Dict.get?_erase, if_pos rfl] at h
        cases h
      · intro pos' h
        rw [Option.mem_def, Dict.get?_set_self] at h
        cases h
        exact ⟨rfl, rfl, rfl, rfl⟩
    · intro pos' h
      unfold close at h
      rw [Option.mem_def, Dict.get?_erase, if_pos rfl] at h
      cases h

theorem tick_eq_some {name : String} {s : PositionService σ} {v : Visit σ} {pos : Position}
    {ltp : ℚ} (h : tick name s v = some (pos, ltp)) :
    v.name = name ∧ s.positions.get? name = some pos ∧ v.quotes.observed name = some ltp ∧
      0 < pos.underlyingEntryPrice := by
  unfold tick at h
  split at h
  · rename_i hname
    split at h
    · rename_i pos' ltp' hpos hltp
      split at h
      · cases h
      · rename_i hentry
        cases h
        exact ⟨hname, hpos, hltp, not_le.mp hentry⟩
    · cases h
  · cases h

theorem tick_of_watched {name : String} {s : PositionService σ} {v : Visit σ} {pos : Position}
    {ltp : ℚ} (hname : v.name = name) (held : s.positions.get? name = some pos)
    (observed : v.quotes.observed name = some ltp) (entry : 0 < pos.underlyingEntryPrice) :
    tick name s v = some (pos, ltp) := by
  unfold tick
  rw [if_pos hname, held, observed]
  exact if_neg (not_le.mpr entry)

/-- A visit that observes nothing for the name leaves its position alone. -/
theorem visit_without_tick {settings : Settings} {name : String} {s : PositionService σ}
    {v : Visit σ} (h : tick name s v = none) :
    (visit settings s v).positions.get? name = s.positions.get? name := by
  unfold visit
  by_cases hname : v.name = name
  · obtain ⟨-, hskip⟩ | ⟨pos, ltp, held, observed, entry, -⟩ :=
      monitorName_cases settings v.venue v.quotes v.now s v.name
    · rw [hskip]
    · rw [hname] at held observed
      rw [tick_of_watched hname held observed entry] at h
      cases h
  · exact (sameAt_monitorName (Ne.symm hname) settings v.venue v.quotes v.now s).position

/-- What a tick leaves is the position as the tests left it, if anything. -/
theorem visit_with_tick {settings : Settings} {name : String} {s : PositionService σ}
    {v : Visit σ} {pos : Position} {ltp : ℚ} (h : tick name s v = some (pos, ltp)) :
    ∀ pos' ∈ (visit settings s v).positions.get? name,
      SameTrail (verdict settings v.now ltp pos).1 pos' := by
  obtain ⟨hname, held, observed, entry⟩ := tick_eq_some h
  unfold visit
  rw [hname]
  obtain ⟨hskip, -⟩ | ⟨pos', ltp', held', observed', -, hwatched⟩ :=
    monitorName_cases settings v.venue v.quotes v.now s name
  · exact absurd (hskip pos ltp held observed) (not_le.mpr entry)
  · cases held.symm.trans held'
    cases observed.symm.trans observed'
    obtain ⟨-, hstays⟩ | ⟨reason, -, hexits⟩ := hwatched
    · rw [hstays]
      intro pos' hpos'
      rw [Option.mem_def, storePosition, Dict.get?_set_self] at hpos'
      cases hpos'
      exact ⟨rfl, rfl, rfl, rfl⟩
    · rw [hexits]
      exact sameTrail_exitPosition (Dict.get?_set_self _ _ _)

/-- What a tick decides and leaves, told by the observed prices. -/
theorem Follows.ticked {settings : Settings} {name : String} {h : TrailHistory σ}
    (follows : Follows settings name h) {v : Visit σ} (quiet : Undisturbed settings name h v)
    {pos : Position} {ltp : ℚ} (htick : tick name h.service v = some (pos, ltp)) :
    ∃ peak, Ticked settings pos (h.prices ++ [ltp]) ltp (verdict settings v.now ltp pos) peak :=
  (follows.watched pos (tick_eq_some htick).2.1).tick
    (verdict_spec (quiet (pos, ltp) htick).2)

theorem Follows.watch {settings : Settings} {name : String} {h : TrailHistory σ}
    (follows : Follows settings name h) {v : Visit σ} (quiet : Undisturbed settings name h v) :
    Follows settings name (watch settings name h v) where
  watched := by
    intro pos' hpos'
    unfold PositionService.watch at hpos' ⊢
    cases htick : tick name h.service v with
    | none =>
        have hsame := @visit_without_tick _ settings _ _ _ htick
        simp only [Option.map_none, Option.toList_none, List.append_nil]
        exact follows.watched pos' (hsame ▸ hpos')
    | some t =>
        obtain ⟨pos, ltp⟩ := t
        obtain ⟨peak, hticked⟩ := follows.ticked quiet htick
        obtain ⟨hdirection, hentry, hpeak, hlatch⟩ := visit_with_tick htick pos' hpos'
        obtain ⟨storedPeak, armed, hverdict⟩ := verdict_position settings v.now ltp pos
        have hactivates : ∀ price, Activates settings pos' price ↔ Activates settings pos price :=
          activates_congr (hdirection.trans (by rw [hverdict])) (hentry.trans (by rw [hverdict]))
        simp only [Option.map_some, Option.toList_some]
        refine ⟨fun hnil => by simp at hnil, fun _ => ?_, fun _ => ?_⟩
        · exact ⟨peak, hticked.mem, hpeak.trans hticked.stored, hticked.highest⟩
        · rw [hlatch, hticked.latch]
          simp only [hactivates]

/-- A tick exits the position just where its trailing stop is due if and only if the position is a
call or its stop is not due. -/
theorem trailsRight_iff {settings : Settings} (share : settings.trailPct < 1) {name : String}
    {h : TrailHistory σ} (follows : Follows settings name h) {v : Visit σ}
    (quiet : Undisturbed settings name h v) :
    TrailsRight settings name h v ↔ CallOrNotDue settings name h v := by
  unfold TrailsRight CallOrNotDue
  refine forall₂_congr fun t ht => ?_
  obtain ⟨pos, ltp⟩ := t
  obtain ⟨peak, hticked⟩ := follows.ticked quiet ht
  by_cases hcall : pos.direction = "CALL"
  · exact iff_of_true (hticked.hit_iff_due hcall) (.inl hcall)
  · have hmiss := hticked.not_hit share (by simp) (quiet _ ht).1 hcall
    constructor
    · intro hright
      exact .inr fun hdue => hmiss (hright.mpr hdue)
    · intro hcond
      exact iff_of_false hmiss (hcond.resolve_left hcall)

theorem trailsRight_along_visits {settings : Settings} (share : settings.trailPct < 1)
    {name : String} {h : TrailHistory σ} (follows : Follows settings name h)
    {visits : List (Visit σ)}
    (quiet : StepsMeet (PositionService.watch settings name) (Undisturbed settings name) h visits) :
    StepsMeet (PositionService.watch settings name) (TrailsRight settings name) h visits ↔
      StepsMeet (PositionService.watch settings name) (CallOrNotDue settings name) h visits := by
  induction visits generalizing h with
  | nil => exact Iff.rfl
  | cons v rest ih =>
      exact and_congr (trailsRight_iff share follows quiet.1) (ih (follows.watch quiet.1) quiet.2)

/-! ## Along the calls -/

theorem watch_service (settings : Settings) (name : String) (h : TrailHistory σ)
    (visits : List (Visit σ)) :
    (run (watch settings name) h visits).service = run (visit settings) h.service visits := by
  induction visits generalizing h with
  | nil => rfl
  | cons v rest ih => exact ih (watch settings name h v)

theorem run_monitor (settings : Settings) (s : PositionService σ) (calls : List (MonitorCall σ)) :
    run (monitor settings) s calls = run (visit settings) s (visitsOfCalls settings s calls) := by
  induction calls generalizing s with
  | nil => rfl
  | cons c rest ih =>
      have hrest := ih (monitor settings s c)
      rw [monitor_eq_run] at hrest
      unfold run at hrest ⊢
      rw [visitsOfCalls, List.foldl_append, List.foldl_cons]
      rw [monitor_eq_run]
      exact hrest

/-- A position without a peak, watched by successive calls at positive prices and without a stop,
target or age exit: at every price observed it is exited with `TRAIL_HIT` just where its trailing
stop is due, if and only if it is a call or its stop never falls due. -/
theorem trailing_stop_follows_calls_only {settings : Settings} (share : settings.trailPct < 1)
    {name : String} {s : PositionService σ} {pos : Position}
    (held : s.positions.get? name = some pos) (fresh : pos.peakUnderlying = none)
    (calls : List (MonitorCall σ))
    (quiet : StepsMeet (watch settings name) (Undisturbed settings name) { service := s }
      (visitsOfCalls settings s calls)) :
    (run (watch settings name) { service := s } (visitsOfCalls settings s calls)).service =
        run (monitor settings) s calls ∧
      (StepsMeet (watch settings name) (TrailsRight settings name) { service := s }
          (visitsOfCalls settings s calls) ↔
        StepsMeet (watch settings name) (CallOrNotDue settings name) { service := s }
          (visitsOfCalls settings s calls)) := by
  have hinitial : Follows settings name { service := s } := by
    refine ⟨fun pos' hpos' => ?_⟩
    cases held.symm.trans hpos'
    exact ⟨fun _ => fresh, fun h => absurd rfl h, fun h => absurd rfl h⟩
  refine ⟨?_, trailsRight_along_visits share hinitial quiet⟩
  rw [watch_service, run_monitor]

/-- A position of this direction entered at 100. -/
def trailedService (direction : String) : PositionService Unit :=
  (enterTrade (answering (sampleFill .filled 75 100)) (sampleEntry direction 75 "t0")
    { execution := () }).1

/-- A call that observes this price; exits are filled at it. -/
def observing (price : ℚ) : MonitorCall Unit where
  venue := answering (sampleFill .filled 75 price)
  quotes := { observed := fun _ => some price, atExit := fun _ => some price }
  now := 2

def callPath : List (MonitorCall Unit) := [observing 100, observing 115, observing 106]

/-- A call activated at 115 is stopped out at 106. -/
theorem trailing_stop_follows_call :
    StepsMeet (watch {} "NIFTY") (TrailsRight {} "NIFTY") { service := trailedService "CALL" }
      (visitsOfCalls {} (trailedService "CALL") callPath) := by
  have hheld : (trailedService "CALL").positions.get? "NIFTY" =
      some (enteredPosition (sampleEntry "CALL" 75 "t0") 75 0 (sampleFill .filled 75 100)) := rfl
  refine (trailing_stop_follows_calls_only (by decide +kernel) hheld rfl callPath ?_).2.mpr ?_
  · decide +kernel
  · decide +kernel

/-- A put activated at 80 is due at 86 and held on. -/
theorem trailing_stop_misses_put :
    StepsMeet (watch {} "NIFTY") (Undisturbed {} "NIFTY") { service := trailedService "PUT" }
        (visitsOfCalls {} (trailedService "PUT") [observing 80, observing 86]) ∧
      ¬ StepsMeet (watch {} "NIFTY") (TrailsRight {} "NIFTY") { service := trailedService "PUT" }
        (visitsOfCalls {} (trailedService "PUT") [observing 80, observing 86]) := by
  decide +kernel

end PositionService

end AutoTrade.Positions
