import AutoTrade.Auth.DeliveryQuotas

/-! # Quotas are renewed

A user held back by a quota alone is returned again in its next period. A label
that was set before and has become current again would hold the user back once
more; only the two ends of a year share a label, and no period is long enough
for that.
-/

namespace AutoTrade.Auth

open AutoTrade.Library

namespace DeliveryRun

variable {host : PermissionHost} {username : String} {quotas : ByTimeframe Int} {r : DeliveryRun}

/-- A call at an instant finds the user subscribed, with this quota reached and no other. -/
def BlockedOnlyBy (host : PermissionHost) (r : DeliveryRun) (username category tier : String)
    (now : Time) (tf : Timeframe) (perm : UserSignalPermission) : Prop :=
  (r.manager.load host now).permissions.find? username = some perm ∧
    perm.Subscribed host (host.upper category) (host.upper tier) ∧
    ∀ other, (perm.checkAndResetQuotas now).1.quotaReached other = true ↔ other = tf

/-- The user is in what a call returns. -/
def Returns (host : PermissionHost) (username : String) (r : DeliveryRun) (c : PermissionCall) : Prop :=
  username ∈ (r.manager.handle host c.request (r.clock + c.after)).2.map (·.username)

/-- A user blocked only by a quota is returned by a call in the next period, whatever calls there were
in between that did not return the user, if the user is still subscribed with the same quotas. -/
def EligibleAgain (host : PermissionHost) (username : String) (r : DeliveryRun) : Prop :=
  ∀ category tier tf perm (blocked : PermissionCall) (between : List PermissionCall)
      (again : PermissionCall),
    blocked.request = .getEligibleRecipients category tier → again.request = blocked.request →
    r.BlockedOnlyBy host username category tier (r.clock + blocked.after) tf perm →
    StepsMeet (step host) (fun r c => ¬ r.Returns host username c) (r.step host blocked) between →
    let r' := run (step host) (r.step host blocked) between
    (∀ perm' ∈ (r'.manager.load host (r'.clock + again.after)).permissions.find? username,
      perm'.Subscribed host (host.upper category) (host.upper tier) ∧
        perm'.maxSignals = perm.maxSignals) →
    tf.period (r'.clock + again.after) = tf.period (r.clock + blocked.after) + 1 →
    r'.Returns host username again

/-- Each count of an entry is that of another, under the same label, or 0. -/
def CountsFrom (perm : UserSignalPermission) : Option UserSignalPermission → Prop
  | none => False
  | some perm' => ∀ tf, perm'.signalsUsed.get tf = 0 ∨
      perm'.signalsUsed.get tf = perm.signalsUsed.get tf ∧
        perm'.lastReset.get tf = perm.lastReset.get tf

theorem CountsFrom.reset {perm perm' : UserSignalPermission} (h : CountsFrom perm (some perm'))
    (now : Time) : CountsFrom perm (some (perm'.checkAndResetQuotas now).1) := by
  intro tf
  rw [UserSignalPermission.used_checkAndResetQuotas]
  split
  · exact .inl rfl
  · rename_i hlabel
    have hsame : perm'.lastReset.get tf = (labels now).get tf := not_not.mp hlabel
    refine (h tf).imp_right fun hkept => ⟨hkept.1, ?_⟩
    exact hsame.symm.trans hkept.2

theorem CountsFrom.change {perm : UserSignalPermission} {new : UserSignalPermission → Prop}
    {now : Time} {e e' : Option UserSignalPermission} (h : CountsFrom perm e)
    (hchange : EntryChange new now e e') : CountsFrom perm e' := by
  cases hchange with
  | kept e => exact h
  | reset perm' => exact h.reset now
  | settings hused hlabels =>
      intro tf
      rw [hused, hlabels]
      exact h tf
  | created hnew => exact h.elim

/-- Every entry of the user waits with such counts. -/
structure Waits (username : String) (perm : UserSignalPermission) (r : DeliveryRun) : Prop where
  stored : r.manager.file.rows ≠ []
  entries : ∀ e, r.manager.Entry username e → CountsFrom perm e

/-- What a call for recipients that does not return the user leaves of the entry. -/
theorem countsFrom_getEligibleRecipients {m : UserPermissionManager} {category tier : String}
    {now : Time} {perm : UserSignalPermission} {e : Option UserSignalPermission}
    (hfile : m.file.rows ≠ []) (hcounts : CountsFrom perm (m.file.find? username))
    (hreturns : m.returns host username category tier now = false)
    (he : (m.getEligibleRecipients host category tier now).1.Entry username e) :
    CountsFrom perm e := by
  rcases UserPermissionManager.entry_getEligibleRecipients hfile he with hvisit | ⟨hkept, -⟩
  · subst hvisit
    unfold UserPermissionManager.returns at hreturns
    rw [UserPermissionManager.find?_load hfile] at hreturns
    cases hfind : m.file.find? username with
    | none =>
        rw [hfind] at hcounts
        exact hcounts.elim
    | some perm' =>
        rw [hfind] at hcounts hreturns
        rcases perm'.visit_cases host (host.upper category) (host.upper tier) now with hcase | hcase
        · rw [Option.map_some, hcase]
          exact hcounts.reset now
        · rw [Option.any_some, hcase] at hreturns
          cases hreturns
  · exact hkept ▸ hcounts

theorem Waits.step {perm : UserSignalPermission} (h : r.Waits username perm) {c : PermissionCall}
    (hnot : ¬ r.Returns host username c) : (r.step host c).Waits username perm := by
  obtain ⟨after, request⟩ := c
  refine ⟨UserPermissionManager.rows_handle_ne_nil h.stored, fun e' he' => ?_⟩
  by_cases hget : ∃ category tier, request = .getEligibleRecipients category tier
  · obtain ⟨category, tier, rfl⟩ := hget
    refine countsFrom_getEligibleRecipients h.stored (h.entries _ (.inr rfl)) ?_ he'
    exact Bool.eq_false_iff.mpr fun hreturns =>
      hnot ((UserPermissionManager.mem_recipients host _ username category tier _).mpr hreturns)
  · obtain ⟨e, he, hchange⟩ := UserPermissionManager.entriesFrom_handle h.stored
      (fun category tier heq => hget ⟨category, tier, heq⟩) e' he'
    exact (h.entries e he).change hchange

theorem clock_le_run (host : PermissionHost) (r : DeliveryRun) (ops : List PermissionCall) :
    r.clock ≤ (run (step host) r ops).clock :=
  run_invariant (I := fun s => r.clock ≤ s.clock)
    (fun s c hle => hle.trans (clock_le_step host s c)) (le_refl _) ops

theorem BlockedOnlyBy.waits {category tier : String} {after : Nat} {tf : Timeframe}
    {perm : UserSignalPermission} (hfile : r.manager.file.rows ≠ [])
    (h : r.BlockedOnlyBy host username category tier (r.clock + after) tf perm) :
    (r.step host ⟨after, .getEligibleRecipients category tier⟩).Waits username perm := by
  obtain ⟨hfind, -, hreached⟩ := h
  have hreturns : r.manager.returns host username category tier (r.clock + after) = false := by
    unfold UserPermissionManager.returns
    rw [hfind, Option.any_some]
    refine Bool.eq_false_iff.mpr fun hvisit => ?_
    have hnone := ((perm.visit_appends_iff host _ _ _).mp hvisit).2 tf
    rw [(hreached tf).mpr rfl] at hnone
    cases hnone
  rw [UserPermissionManager.find?_load hfile] at hfind
  refine ⟨?_, fun e he => countsFrom_getEligibleRecipients hfile ?_ hreturns he⟩
  · show (r.manager.handle host (.getEligibleRecipients category tier)
      (r.clock + after)).1.file.rows ≠ []
    exact UserPermissionManager.rows_handle_ne_nil hfile
  · rw [hfind]
    exact fun tf => .inr ⟨rfl, rfl⟩

/-- A count that blocks in the next period would have blocked before. -/
theorem CountsFrom.not_reached {perm perm' : UserSignalPermission} {now later : Time}
    {tf : Timeframe} (hcounts : CountsFrom perm (some perm')) (hrecorded : perm.Recorded r.clock)
    (hnow : r.clock ≤ now) (hlater : now ≤ later)
    (hreached : ∀ other, (perm.checkAndResetQuotas now).1.quotaReached other = true ↔ other = tf)
    (hquotas : perm'.maxSignals = perm.maxSignals) (hnext : tf.period later = tf.period now + 1)
    (other : Timeframe) : (perm'.checkAndResetQuotas later).1.quotaReached other = false := by
  refine Bool.eq_false_iff.mpr fun hblocks => ?_
  obtain ⟨hpos, hle, hlabel⟩ := (perm'.quotaReached_reset_iff later other).mp hblocks
  rw [hquotas] at hpos hle
  rcases hcounts other with hzero | ⟨hused, hkept⟩
  · omega
  · obtain ⟨t, ht, hlabels⟩ := hrecorded.labelled
    have hcurrent := ((perm.quotaReached_reset_iff now tf).mp ((hreached tf).mpr rfl)).2.2
    rw [hkept, hlabels] at hlabel
    rw [hlabels] at hcurrent
    obtain ⟨hbefore, hne⟩ := Timeframe.label_of_next (ht.trans hnow) hlater hcurrent hnext hlabel
    refine hne ((hreached other).mp ((perm.quotaReached_reset_iff now other).mpr ⟨hpos, ?_, ?_⟩))
    · rw [← hused]
      exact hle
    · rw [hlabels]
      exact hbefore

theorem Sound.eligibleAgain (h : r.Sound username quotas) : r.EligibleAgain host username := by
  intro category tier tf perm blocked between again hblocked hagain honly hnobody r' hsettings hnext
  obtain ⟨after, request⟩ := blocked
  subst hblocked
  have hwaits : r'.Waits username perm :=
    (always_of_stepsMeet (fun s c _ hs hnot => hs.step hnot) (honly.waits h.stored) hnobody).final
  have hlater : r.clock + after ≤ r'.clock + again.after :=
    (clock_le_run host (r.step host _) between).trans (clock_le_step host r' again)
  obtain ⟨hfind, -, hreached⟩ := honly
  have hrecorded : perm.Recorded r.clock := by
    rw [UserPermissionManager.find?_load h.stored] at hfind
    exact (h.entries (some perm) (.inr hfind.symm)).toRecorded
  show username ∈ (r'.manager.handle host again.request (r'.clock + again.after)).2.map (·.username)
  rw [hagain]
  refine (UserPermissionManager.mem_recipients host r'.manager username category tier _).mpr ?_
  unfold UserPermissionManager.returns
  rw [UserPermissionManager.find?_load hwaits.stored] at hsettings ⊢
  have hcounts := hwaits.entries _ (.inr rfl)
  cases hentry : r'.manager.file.find? username with
  | none =>
      rw [hentry] at hcounts
      exact hcounts.elim
  | some perm' =>
      rw [hentry] at hcounts hsettings
      obtain ⟨hsubscribed, hquotas⟩ := hsettings perm' rfl
      rw [Option.any_some]
      exact (perm'.visit_appends_iff host _ _ _).mpr ⟨hsubscribed, hcounts.not_reached hrecorded
        (Int.le_add_of_nonneg_right (Int.natCast_nonneg after)) hlater hreached hquotas hnext⟩

/-! ## Over whole runs -/

theorem sound_start {file : Permissions} {now : Time}
    (hfile : ∀ perm ∈ file.find? username, perm.Recorded now) :
    (start host file now).Sound username quotas := by
  have hnobody : ∀ e, (∀ perm ∈ e, perm.Recorded now) →
      Accounted ([] : List Delivery) username now e := by
    intro e he
    cases e with
    | none => exact fun d hd => by cases hd
    | some perm => exact accounts_of_none (he perm rfl) fun d hd => by cases hd
  have hcapped : (start host file now).Capped username quotas := fun tf htf t => htf.le
  have hpast : ∀ d ∈ (start host file now).deliveries, d.time ≤ now := fun d hd => by cases hd
  by_cases hrows : file.rows ≠ []
  · have hmake : UserPermissionManager.make host file now = ⟨file, file⟩ :=
      UserPermissionManager.load_of_file host (m := { file }) hrows now
    refine ⟨?_, fun e he => hnobody e ?_, hpast, hcapped⟩
    · show (UserPermissionManager.make host file now).file.rows ≠ []
      rw [hmake]
      exact hrows
    · change (UserPermissionManager.make host file now).Entry username e at he
      rw [hmake] at he
      rw [he.elim id id]
      exact hfile
  · have hmake : UserPermissionManager.make host file now =
        UserPermissionManager.saveUnlocked
          ⟨Table.empty.upsert (UserPermissionManager.defaultAdmin host now), file⟩ := by
      unfold UserPermissionManager.make UserPermissionManager.load
      rw [if_neg hrows]
      rfl
    refine ⟨?_, fun e he => hnobody e ?_, hpast, hcapped⟩
    · show (UserPermissionManager.make host file now).file.rows ≠ []
      rw [hmake]
      exact UserPermissionManager.rows_saveUnlocked_ne_nil (Table.rows_upsert_ne_nil _ _)
    · change (UserPermissionManager.make host file now).Entry username e at he
      rw [hmake] at he
      rw [UserPermissionManager.entry_saveUnlocked he]
      dsimp only
      rw [Table.find?_upsert]
      split
      · intro perm hperm
        obtain rfl := Option.some.inj hperm
        exact ⟨fun tf => by cases tf <;> exact le_refl 0, now, le_refl now, rfl⟩
      · intro perm hperm
        cases hperm

/-- Midnight at the beginning of the last day of 2025, a Wednesday. -/
def newYearsEve : Time := 1767139200000000

def plainPermissionHost : PermissionHost where
  upper := id
  strip := id
  isDigit := fun s => s.toList.all Char.isDigit
  adminChat := ""
  adminEmail := ""

def bob (weekly : Int) : UserSignalPermission where
  username := "bob"
  maxSignals := ⟨15, weekly, 300, 3600⟩
  lastReset := labels newYearsEve

def bobFile (weekly : Int) : Permissions := Table.empty.upsert (bob weekly)

/-- A signal on the last day of the year and one on the first. -/
def newYearSignals : List PermissionCall :=
  [⟨0, .getEligibleRecipients "FUTURES" "STRONG"⟩,
    ⟨86400000000, .getEligibleRecipients "FUTURES" "STRONG"⟩]

instance (username : String) (quotas : ByTimeframe Int) :
    DecidablePred (QuotasAre username quotas) := fun _ =>
  inferInstanceAs (Decidable (∀ perm ∈ _, _))

theorem recorded_bob (weekly : Int) : (bob weekly).Recorded newYearsEve :=
  ⟨fun tf => by cases tf <;> exact le_refl 0, newYearsEve, le_refl _, rfl⟩

end DeliveryRun

end AutoTrade.Auth
