import AutoTrade.Runtime
import AutoTrade.Library.Table

/-! # Re-entry after a stop loss

`core/reentry_evaluator.py`: one tracker for each symbol. It holds the last stop loss of the day and
says whether an entry may follow it.
-/

namespace AutoTrade.Trading

open AutoTrade.Library

/-- The keys `evaluate_reentry` reads, with their defaults. -/
structure ReentryConfig where
  reentryEnabled : Bool := false
  reentryCooldownMins : ℚ := 15
  reentryScoreBoost : Int := 5
  maxReentriesPerDay : Int := 1
  reentrySameDirectionOnly : Bool := true
deriving DecidableEq

structure ReentryDecision where
  allowed : Bool
  reason : String
  cooldownRemainingSecs : Int
  scoreRequired : Int
  originalScore : Int
  currentScore : Int
  directionIntact : Bool
deriving DecidableEq, Repr

structure ReentryTracker where
  indexName : String
  lastSlTs : Option Time := none
  lastSlDirection : Option String := none
  lastSlScore : Int := 0
  reentriesToday : Int := 0
  wins : Nat := 0
  losses : Nat := 0
deriving DecidableEq, Repr

namespace ReentryTracker

def recordOutcome (t : ReentryTracker) (wasProfit : Bool) : ReentryTracker :=
  if wasProfit then { t with wins := t.wins + 1 } else { t with losses := t.losses + 1 }

def recordStopLoss (t : ReentryTracker) (now : Time) (direction : String) (score : Int) :
    ReentryTracker :=
  { t with lastSlTs := some now, lastSlDirection := some direction.toUpper, lastSlScore := score }

def recordReentry (t : ReentryTracker) : ReentryTracker :=
  { t with reentriesToday := t.reentriesToday + 1 }

def resetDaily (t : ReentryTracker) : ReentryTracker :=
  { t with lastSlTs := none, lastSlDirection := none, lastSlScore := 0, reentriesToday := 0 }

/-- A refusal; `cooldown` is what is left of the cooldown. -/
def refuse (t : ReentryTracker) (c : ReentryConfig) (score : Int) (direction reason : String)
    (cooldown : Int) : ReentryDecision where
  allowed := false
  reason := reason
  cooldownRemainingSecs := cooldown
  scoreRequired := t.lastSlScore + c.reentryScoreBoost
  originalScore := t.lastSlScore
  currentScore := score
  directionIntact := decide (some direction = t.lastSlDirection)

def evaluateReentry (t : ReentryTracker) (c : ReentryConfig) (now : Time) (currentScore : Int)
    (currentDirection : String) : ReentryDecision :=
  let direction := currentDirection.toUpper
  let cooldownSecs := truncate (c.reentryCooldownMins * 60)
  if !c.reentryEnabled then
    ⟨true, "reentry_enabled=false (pass-through)", 0, 0, 0, currentScore, true⟩
  else
    match t.lastSlTs with
    | none => ⟨true, "First entry (no prior SL today)", 0, 0, 0, currentScore, true⟩
    | some stopped =>
        let elapsed := totalSeconds now stopped
        let required := t.lastSlScore + c.reentryScoreBoost
        if elapsed < cooldownSecs then
          let remaining := truncate (cooldownSecs - elapsed)
          t.refuse c currentScore direction ("Cooldown: " ++ toString remaining ++ "s remaining")
            remaining
        else if c.reentrySameDirectionOnly && decide (some direction ≠ t.lastSlDirection) then
          t.refuse c currentScore direction
            ("Direction changed: original=" ++ t.lastSlDirection.getD "None" ++ " current=" ++
              direction) 0
        else if currentScore < required then
          t.refuse c currentScore direction
            ("Score " ++ toString currentScore ++ " < required " ++ toString required ++
              " (original " ++ toString t.lastSlScore ++ " + boost " ++
              toString c.reentryScoreBoost ++ ")") 0
        else if c.maxReentriesPerDay ≤ t.reentriesToday then
          t.refuse c currentScore direction
            ("Max re-entries reached (" ++ toString t.reentriesToday ++ "/" ++
              toString c.maxReentriesPerDay ++ ")") 0
        else
          ⟨true, "Re-entry allowed: score=" ++ toString currentScore ++ " dir=" ++ direction ++
              " cooldown_elapsed=" ++ toString (truncate elapsed) ++ "s",
            0, required, t.lastSlScore, currentScore, true⟩

@[simp] theorem lastSlTs_recordOutcome (t : ReentryTracker) (wasProfit : Bool) :
    (t.recordOutcome wasProfit).lastSlTs = t.lastSlTs := by
  cases wasProfit <;> rfl

@[simp] theorem lastSlTs_resetDaily (t : ReentryTracker) : t.resetDaily.lastSlTs = none := rfl

/-- A refusal needs a stop loss that was recorded. -/
theorem allowed_of_lastSlTs {t : ReentryTracker} (h : t.lastSlTs = none) (c : ReentryConfig)
    (now : Time) (score : Int) (direction : String) :
    (t.evaluateReentry c now score direction).allowed = true := by
  unfold evaluateReentry
  rw [h]
  cases c.reentryEnabled <;> rfl

end ReentryTracker

def buildReentryTrackers (indexNames : List String) : Dict String ReentryTracker :=
  indexNames.foldl (fun trackers name => trackers.set name { indexName := name }) Table.empty

theorem lastSlTs_buildReentryTrackers {indexNames : List String} {name : String}
    {t : ReentryTracker} (h : (buildReentryTrackers indexNames).get? name = some t) :
    t.lastSlTs = none := by
  unfold buildReentryTrackers at h
  induction indexNames using List.reverseRecOn with
  | nil => cases h
  | append_singleton names last ih =>
      rw [List.foldl_append, List.foldl_cons, List.foldl_nil, Dict.get?_set] at h
      split at h
      · cases h
        rfl
      · exact ih h

end AutoTrade.Trading
