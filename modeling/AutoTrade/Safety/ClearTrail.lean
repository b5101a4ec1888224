import AutoTrade.Safety.HaltInterleavings
import AutoTrade.Library.KeepLast

/-! # The clears of the halt and their history

`clear_hard_halt` runs under a lock, so the clears exclude one another: the cooldown between two of
them and the history they leave hold in every order of turns.
-/

namespace AutoTrade.Safety

open AutoTrade.Library

namespace World

/-- The clear a turn completes, with the instant it tested the cooldown at. -/
def accepted? (w : World) (t : Turn) : Option (Time × ClearRecord) :=
  match w.positions t.thread with
  | .recording now source reason previous => some (now, ⟨t.around.wall, source, reason, previous⟩)
  | _ => none

/-- The clears a run completes, in their order. -/
def acceptedClears : World → List Turn → List (Time × ClearRecord)
  | _, [] => []
  | w, t :: rest => (w.accepted? t).toList ++ acceptedClears (w.turn t) rest

/-- How often a run executes `_HARD_HALT.clear()`. -/
def lowerings : World → List Turn → Nat
  | _, [] => 0
  | w, t :: rest => (if w.Lowers t then 1 else 0) + lowerings (w.turn t) rest

theorem acceptedClears_append (w : World) (turns later : List Turn) :
    w.acceptedClears (turns ++ later) =
      w.acceptedClears turns ++ (run turn w turns).acceptedClears later := by
  induction turns generalizing w with
  | nil => rfl
  | cons t rest ih =>
      rw [List.cons_append, acceptedClears, ih (w.turn t), ← List.append_assoc]
      rfl

theorem lowerings_append (w : World) (turns later : List Turn) :
    w.lowerings (turns ++ later) = w.lowerings turns + (run turn w turns).lowerings later := by
  induction turns generalizing w with
  | nil => simp [lowerings, run]
  | cons t rest ih =>
      rw [List.cons_append, lowerings, ih (w.turn t), lowerings, ← Nat.add_assoc]
      rfl

/-- The variables of `clear_hard_halt` are as before. -/
structure SameClears (before after : SafetyState) : Prop where
  lock : after.clearLock = before.clearLock
  last : after.lastClearTime = before.lastClearTime
  history : after.clearHaltHistory = before.clearHaltHistory

/-- What a turn can do to the clears: nothing, or the next access of the one under way. -/
inductive ClearStep (w : World) (t : Turn) (after : Access) : Prop
  | elsewhere (before : (w.positions t.thread).clearTime? = none)
      (stays : after.position.clearTime? = none) (same : SameClears w.shared after.shared)
  | enters (before : (w.positions t.thread).clearTime? = none) (free : w.shared.clearLock = none)
      {now : Time} {source reason : String} (cooled : w.shared.lastClearTime + haltClearCooldown ≤ now)
      (enters : after = ⟨.readingReason now source reason,
        { w.shared with clearLock := some t.thread }, none⟩)
  | reads {now : Time} {source reason previous : String}
      (before : w.positions t.thread = .readingReason now source reason)
      (reads : after = ⟨.lowering now source reason previous, w.shared, none⟩)
  | lowers {now : Time} {source reason previous : String}
      (before : w.positions t.thread = .lowering now source reason previous)
      (lowered : after = ⟨.recording now source reason previous,
        { w.shared with hardHalt := false }, none⟩)
  | records {now : Time} {source reason previous : String}
      (before : w.positions t.thread = .recording now source reason previous)
      (released : after.position = .idle ∧ after.shared.clearLock = none)
      (last : after.shared.lastClearTime = now)
      (history : after.shared.clearHaltHistory = SafetyState.appendClear w.shared.clearHaltHistory
        ⟨t.around.wall, source, reason, previous⟩)

theorem sameClears_resume (s : SafetyState) (after : AfterTrip) :
    (after.resume s).position.clearTime? = none ∧ SameClears s (after.resume s).shared := by
  cases after <;> exact ⟨rfl, rfl, rfl, rfl⟩

theorem clearStep_begin {w : World} {t : Turn} (hidle : w.positions t.thread = .idle) :
    ClearStep w t (begin t.thread w.shared t.around t.call) := by
  have hbefore : (w.positions t.thread).clearTime? = none := by rw [hidle]; rfl
  cases t.call with
  | clearHardHalt source reason =>
      rw [begin]
      split
      · exact .elsewhere hbefore rfl ⟨rfl, rfl, rfl⟩
      · rename_i hfree
        split
        · exact .elsewhere hbefore rfl ⟨rfl, rfl, rfl⟩
        · rename_i hearly
          have hcooled : w.shared.lastClearTime + haltClearCooldown ≤ t.around.monotonic :=
            le_sub_iff_add_le'.mp (not_lt.mp hearly)
          exact .enters hbefore (by simpa using hfree) hcooled rfl
  | _ =>
      simp only [begin]
      (try split) <;> exact .elsewhere hbefore rfl ⟨rfl, rfl, rfl⟩

theorem clearStep_advance {w : World} {t : Turn} (hbusy : w.positions t.thread ≠ .idle) :
    ClearStep w t (advance w.shared t.around (w.positions t.thread)) := by
  cases hp : w.positions t.thread with
  | idle => exact absurd hp hbusy
  | testing text after =>
      obtain ⟨hposition, hsame⟩ := sameClears_resume w.shared after
      simp only [advance]
      split
      · exact .elsewhere (by rw [hp]; rfl) hposition hsame
      · exact .elsewhere (by rw [hp]; rfl) rfl ⟨rfl, rfl, rfl⟩
  | setting after =>
      obtain ⟨hposition, hsame⟩ := sameClears_resume { w.shared with hardHalt := true } after
      exact .elsewhere (by rw [hp]; rfl) hposition ⟨hsame.lock, hsame.last, hsame.history⟩
  | readingLimit source =>
      simp only [advance]
      split <;> exact .elsewhere (by rw [hp]; rfl) rfl ⟨rfl, rfl, rfl⟩
  | comparing source limit =>
      simp only [advance]
      split <;> exact .elsewhere (by rw [hp]; rfl) rfl ⟨rfl, rfl, rfl⟩
  | readingReason now source reason => exact .reads hp rfl
  | lowering now source reason previous => exact .lowers hp rfl
  | recording now source reason previous => exact .records hp ⟨rfl, rfl⟩ rfl rfl
  | _ => exact .elsewhere (by rw [hp]; rfl) rfl ⟨rfl, rfl, rfl⟩

theorem clearStep (w : World) (t : Turn) : ClearStep w t (w.access t) := by
  by_cases hidle : w.positions t.thread = .idle
  · rw [access_idle hidle]
    exact clearStep_begin hidle
  · rw [access_busy rfl hidle]
    exact clearStep_advance hidle

/-- Only the holder of the lock is inside `clear_hard_halt`, and since its test of the cooldown no
other clear has moved `_LAST_CLEAR_TIME`. -/
def ClearsHoldLock (w : World) : Prop :=
  ∀ i now, (w.positions i).clearTime? = some now →
    w.shared.clearLock = some i ∧ w.shared.lastClearTime + haltClearCooldown ≤ now

theorem ClearsHoldLock.turn {w : World} (h : w.ClearsHoldLock) (t : Turn) :
    (w.turn t).ClearsHoldLock := by
  -- a thread other than the one whose turn it is stands where it stood
  have hother : ∀ i now, i ≠ t.thread → ((w.turn t).positions i).clearTime? = some now →
      w.shared.clearLock = some i ∧ w.shared.lastClearTime + haltClearCooldown ≤ now := by
    intro i now hi htime
    rw [turn_positions_other w hi] at htime
    exact h i now htime
  intro i now htime
  rw [turn_shared]
  by_cases hi : i = t.thread
  · subst hi
    rw [turn_positions_self] at htime
    cases clearStep w t with
    | elsewhere before stays same =>
        rw [stays] at htime
        cases htime
    | enters before free cooled enters =>
        rw [enters] at htime ⊢
        cases htime
        exact ⟨rfl, cooled⟩
    | reads before reads =>
        rw [reads] at htime ⊢
        cases htime
        exact h t.thread _ (by rw [before]; rfl)
    | lowers before lowered =>
        rw [lowered] at htime ⊢
        cases htime
        exact h t.thread _ (by rw [before]; rfl)
    | records before released last history =>
        rw [released.1] at htime
        cases htime
  · obtain ⟨hlock, hcooled⟩ := hother i now hi htime
    have hholder : ∀ p, w.positions t.thread = p → p.clearTime? = none := by
      intro p hp
      cases hclear : p.clearTime? with
      | none => rfl
      | some earlier =>
          have hheld := (h t.thread earlier (by rw [hp, hclear])).1
          rw [hlock, Option.some_inj] at hheld
          exact absurd hheld hi
    cases clearStep w t with
    | elsewhere before stays same =>
        rw [same.lock, same.last]
        exact ⟨hlock, hcooled⟩
    | enters before free cooled enters =>
        rw [hlock] at free
        cases free
    | reads before reads => exact absurd (hholder _ before) (by simp [Position.clearTime?])
    | lowers before lowered => exact absurd (hholder _ before) (by simp [Position.clearTime?])
    | records before released last history =>
        exact absurd (hholder _ before) (by simp [Position.clearTime?])

/-- The flag was lowered by a clear that is not recorded yet. -/
def pendingRecord (w : World) : Nat :=
  match w.shared.clearLock with
  | none => 0
  | some i => if (w.positions i).isRecording then 1 else 0

/-- How the variables of `clear_hard_halt` follow from the clears completed so far. -/
structure TrailOf (clears : List (Time × ClearRecord)) (lowered : Nat) (w : World) : Prop where
  locks : w.ClearsHoldLock
  last : ((0 : Time) :: clears.map Prod.fst).getLast? = some w.shared.lastClearTime
  chain : ((0 : Time) :: clears.map Prod.fst).IsChain fun a b => a + haltClearCooldown ≤ b
  history : w.shared.clearHaltHistory = keepLast clearHistoryLimit (clears.map Prod.snd)
  count : lowered = clears.length + w.pendingRecord

theorem appendClear_keepLast (records : List ClearRecord) (entry : ClearRecord) :
    SafetyState.appendClear (keepLast clearHistoryLimit records) entry =
      keepLast clearHistoryLimit (records ++ [entry]) := by
  rw [← keepLast_push, SafetyState.appendClear]
  have hlength : (keepLast clearHistoryLimit records ++ [entry]).length ≤ clearHistoryLimit + 1 := by
    rw [List.length_append, length_keepLast, List.length_singleton]
    omega
  generalize keepLast clearHistoryLimit records ++ [entry] = extended at hlength ⊢
  split
  · rename_i hlong
    have hone : extended.length - clearHistoryLimit = 1 := by omega
    rw [keepLast, hone]
  · rename_i hshort
    rw [keepLast_of_length_le (not_lt.mp hshort)]

theorem accepted?_eq_none {w : World} {t : Turn}
    (h : (w.positions t.thread).isRecording = false) : w.accepted? t = none := by
  unfold accepted?
  cases hp : w.positions t.thread with
  | recording now source reason previous => simp [hp, Position.isRecording] at h
  | _ => rfl

theorem isRecording_of_clearTime? {p : Position} (h : p.clearTime? = none) :
    p.isRecording = false := by
  cases p with
  | recording now source reason previous => cases h
  | _ => rfl

theorem isLowering_of_clearTime? {p : Position} (h : p.clearTime? = none) :
    p.isLowering = false := by
  cases p with
  | lowering now source reason previous => cases h
  | _ => rfl

theorem pendingRecord_of_holder {w : World} {i : Nat} (h : w.shared.clearLock = some i) :
    w.pendingRecord = if (w.positions i).isRecording then 1 else 0 := by
  simp [pendingRecord, h]

theorem TrailOf.turn {clears : List (Time × ClearRecord)} {lowered : Nat} {w : World}
    (h : TrailOf clears lowered w) (t : Turn) :
    TrailOf (clears ++ (w.accepted? t).toList) (lowered + if w.Lowers t then 1 else 0)
      (w.turn t) := by
  have hlocks := h.locks.turn t
  cases clearStep w t with
  | elsewhere before stays same =>
      rw [accepted?_eq_none (isRecording_of_clearTime? before), Option.toList_none, List.append_nil,
        if_neg (by simp [Lowers, isLowering_of_clearTime? before])]
      refine ⟨hlocks, same.last ▸ h.last, h.chain, same.history ▸ h.history, ?_⟩
      rw [Nat.add_zero, h.count]
      congr 1
      unfold pendingRecord
      rw [turn_shared, same.lock]
      cases w.shared.clearLock with
      | none => rfl
      | some i =>
          by_cases hi : i = t.thread
          · subst hi
            simp only [turn_positions_self, isRecording_of_clearTime? before,
              isRecording_of_clearTime? stays]
          · simp only [turn_positions_other w hi]
  | enters before free cooled enters =>
      rw [accepted?_eq_none (isRecording_of_clearTime? before), Option.toList_none, List.append_nil,
        if_neg (by simp [Lowers, isLowering_of_clearTime? before])]
      refine ⟨hlocks, ?_, h.chain, ?_, ?_⟩
      · rw [turn_shared, enters]
        exact h.last
      · rw [turn_shared, enters]
        exact h.history
      · have hafter : (w.turn t).pendingRecord = 0 := by
          rw [pendingRecord_of_holder (i := t.thread) (by rw [turn_shared, enters]),
            turn_positions_self, enters]
          rfl
        have hbefore : w.pendingRecord = 0 := by simp [pendingRecord, free]
        rw [hafter, h.count, hbefore]
  | reads before reads =>
      have hholder := (h.locks t.thread _ (by rw [before]; rfl)).1
      rw [accepted?_eq_none (by rw [before]; rfl), Option.toList_none, List.append_nil,
        if_neg (by simp [Lowers, before, Position.isLowering])]
      refine ⟨hlocks, ?_, h.chain, ?_, ?_⟩
      · rw [turn_shared, reads]
        exact h.last
      · rw [turn_shared, reads]
        exact h.history
      · rw [pendingRecord_of_holder (i := t.thread) (by rw [turn_shared, reads]; exact hholder),
          turn_positions_self, reads, h.count, pendingRecord_of_holder hholder, before]
        rfl
  | lowers before lowered =>
      have hholder := (h.locks t.thread _ (by rw [before]; rfl)).1
      rw [accepted?_eq_none (by rw [before]; rfl), Option.toList_none, List.append_nil,
        if_pos (by rw [Lowers, before]; rfl)]
      refine ⟨hlocks, ?_, h.chain, ?_, ?_⟩
      · rw [turn_shared, lowered]
        exact h.last
      · rw [turn_shared, lowered]
        exact h.history
      · rw [pendingRecord_of_holder (i := t.thread) (by rw [turn_shared, lowered]; exact hholder),
          turn_positions_self, lowered, h.count, pendingRecord_of_holder hholder, before]
        rfl
  | @records now source reason previous before released last history =>
      have hheld := h.locks t.thread now (by rw [before]; rfl)
      have haccepted : w.accepted? t = some (now, ⟨t.around.wall, source, reason, previous⟩) := by
        simp [accepted?, before]
      rw [haccepted, Option.toList_some, if_neg (by simp [Lowers, before, Position.isLowering])]
      refine ⟨hlocks, ?_, ?_, ?_, ?_⟩
      · rw [turn_shared, last, List.map_append, ← List.cons_append]
        exact List.getLast?_concat
      · rw [List.map_append, ← List.cons_append, List.isChain_append]
        refine ⟨h.chain, by simp, ?_⟩
        intro a ha b hb
        rw [h.last, Option.mem_some_iff] at ha
        simp only [List.map_cons, List.map_nil, List.head?_cons, Option.mem_some_iff] at hb
        subst ha hb
        exact hheld.2
      · rw [turn_shared, history, h.history, appendClear_keepLast, List.map_append]
        rfl
      · have hafter : (w.turn t).pendingRecord = 0 := by
          simp [pendingRecord, released.2]
        rw [hafter, h.count, pendingRecord_of_holder hheld.1, before, List.length_append]
        rfl

theorem trailOf_run (turns : List Turn) :
    TrailOf (acceptedClears {} turns) (lowerings {} turns) (run turn {} turns) := by
  induction turns using List.reverseRecOn with
  | nil => exact ⟨fun i now h => (by cases h), rfl, by simp [acceptedClears], rfl, rfl⟩
  | append_singleton turns t ih =>
      have hrun : run turn {} (turns ++ [t]) = (run turn {} turns).turn t := by
        simp [run, List.foldl_append]
      rw [acceptedClears_append, lowerings_append, hrun]
      simpa [acceptedClears, lowerings] using ih.turn t

/-- In every order of turns: the clears that went through are at least the cooldown apart, the first
one from the start of the clock; the history is the latest hundred of them; and the flag was lowered
once for each, a last time perhaps for a clear still under way. -/
theorem clear_trail (turns : List Turn) :
    let clears := acceptedClears {} turns
    let after := run turn {} turns
    ((0 : Time) :: clears.map Prod.fst).IsChain (fun a b => a + haltClearCooldown ≤ b) ∧
      after.shared.clearHaltHistory = keepLast clearHistoryLimit (clears.map Prod.snd) ∧
      clears.length ≤ lowerings {} turns ∧ lowerings {} turns ≤ clears.length + 1 ∧
      (after.shared.clearLock = none → lowerings {} turns = clears.length) := by
  intro clears after
  have h := trailOf_run turns
  refine ⟨h.chain, h.history, ?_, ?_, ?_⟩
  · rw [h.count]
    exact Nat.le_add_right ..
  · rw [h.count]
    unfold pendingRecord
    split
    · exact Nat.le_succ _
    · split
      · exact le_refl _
      · exact Nat.le_succ _
  · intro hfree
    rw [h.count, pendingRecord, hfree]
    rfl

end World

end AutoTrade.Safety
