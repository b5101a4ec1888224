import Mathlib.Tactic.Linarith
import AutoTrade.Auth.PermissionEntries
import AutoTrade.Auth.QuotaPeriods
import AutoTrade.Library.Run

/-! # Delivery quotas

Runs of the calls of the permission manager, at times that do not go back. An
entry's counts cover the deliveries made in the stretch of the period that the
entry is in when it is next reset. A week of two calendar years has two
stretches, whose counts are not added up.
-/

namespace AutoTrade.Auth

open AutoTrade.Library

/-- A user returned as a recipient. -/
structure Delivery where
  username : String
  time : Time
deriving DecidableEq, Repr

/-- `after` is the time since the call before. -/
structure PermissionCall where
  after : Nat
  request : PermissionRequest
deriving DecidableEq, Repr

structure DeliveryRun where
  manager : UserPermissionManager
  clock : Time
  deliveries : List Delivery := []

def deliveredTo (log : List Delivery) (username : String) (Q : Time → Prop) [DecidablePred Q] : Nat :=
  log.countP fun d => decide (d.username = username ∧ Q d.time)

/-- The ISO week of an instant, as far as it lies in the other calendar year. -/
def OtherYearOfWeek (now s : Time) : Prop :=
  Timeframe.weekly.period s = Timeframe.weekly.period now ∧ yearOf (date s) ≠ yearOf (date now)

instance (now : Time) : DecidablePred (OtherYearOfWeek now) := fun _ =>
  inferInstanceAs (Decidable (_ ∧ _))

/-- An entry as the program writes it: its counts are not negative and its labels are those of one
instant. -/
structure UserSignalPermission.Recorded (perm : UserSignalPermission) (now : Time) : Prop where
  nonneg : ∀ tf, 0 ≤ perm.signalsUsed.get tf
  labelled : ∃ t ≤ now, perm.lastReset = labels t

/-- The counts and labels given to a new entry make one. -/
structure PermissionData.Recorded (data : PermissionData) (now : Time) : Prop where
  nonneg : ∀ tf, ∀ n ∈ data.signalsUsed.get tf, 0 ≤ n
  labelled : ∃ t ≤ now, ∀ tf,
    (data.lastReset.get tf).getD ((labels now).get tf) = (labels t).get tf

namespace DeliveryRun

def step (host : PermissionHost) (r : DeliveryRun) (c : PermissionCall) : DeliveryRun :=
  let now := r.clock + c.after
  let (manager, recipients) := r.manager.handle host c.request now
  { manager, clock := now,
    deliveries := r.deliveries ++ recipients.map fun perm => ⟨perm.username, now⟩ }

def start (host : PermissionHost) (file : Permissions) (now : Time) : DeliveryRun where
  manager := .make host file now
  clock := now

def QuotasAre (username : String) (quotas : ByTimeframe Int) (r : DeliveryRun) : Prop :=
  ∀ perm ∈ r.manager.permissions.find? username, perm.maxSignals = quotas

/-- No day, ISO week, month or year has more deliveries to the user than its quota, where there is
one. -/
def Capped (username : String) (quotas : ByTimeframe Int) (r : DeliveryRun) : Prop :=
  ∀ tf, 0 < quotas.get tf → ∀ t,
    (deliveredTo r.deliveries username (fun s => tf.period s = tf.period t) : Int) ≤ quotas.get tf

/-- A call that returns the user in a week of two years finds the weekly count and the deliveries of
the week in the other year together below the quota, and an entry is made with counts and labels as
the program writes them. -/
def WeeksAddUp (host : PermissionHost) (username : String) (r : DeliveryRun) (c : PermissionCall) :
    Prop :=
  let now := r.clock + c.after
  match c.request with
  | .getEligibleRecipients category tier =>
      r.manager.returns host username category tier now = true →
        ∀ perm ∈ (r.manager.load host now).permissions.find? username, 0 < perm.maxSignals.weekly →
          (deliveredTo r.deliveries username (OtherYearOfWeek now) : Int) +
            (perm.checkAndResetQuotas now).1.signalsUsed.weekly < perm.maxSignals.weekly
  | .updateUserPermissions name data =>
      name = username → r.manager.permissions.find? name = none → data.Recorded now
  | _ => True

end DeliveryRun

/-! ## Counts cover deliveries -/

section Counts

variable {log : List Delivery} {username : String} {now : Time} {perm : UserSignalPermission}

theorem deliveredTo_append (log added : List Delivery) (username : String) (Q : Time → Prop)
    [DecidablePred Q] :
    deliveredTo (log ++ added) username Q = deliveredTo log username Q + deliveredTo added username Q :=
  List.countP_append

/-- What a call returns is delivered at its instant. -/
theorem deliveredTo_recipients (recipients : List UserSignalPermission) (username : String)
    (now : Time) (Q : Time → Prop) [DecidablePred Q] :
    deliveredTo (recipients.map fun perm => ⟨perm.username, now⟩) username Q =
      if Q now then (recipients.map (·.username)).count username else 0 := by
  unfold deliveredTo
  rw [List.countP_map]
  split
  · rename_i hQ
    rw [List.count_eq_countP, List.countP_map]
    refine List.countP_congr fun perm _ => ?_
    simp [hQ]
  · rename_i hQ
    refine List.countP_eq_zero.mpr fun perm _ => ?_
    simp [hQ]

theorem deliveredTo_eq_zero {Q : Time → Prop} [DecidablePred Q]
    (h : ∀ d ∈ log, d.username = username → ¬ Q d.time) : deliveredTo log username Q = 0 := by
  refine List.countP_eq_zero.mpr fun d hd hin => ?_
  obtain ⟨hname, hQ⟩ := of_decide_eq_true hin
  exact h d hd hname hQ

/-- The deliveries of a period are those of its stretch and those of the other year. -/
theorem deliveredTo_period (log : List Delivery) (username : String) (tf : Timeframe) (t : Time) :
    deliveredTo log username (fun s => tf.period s = tf.period t) =
      deliveredTo log username (fun s => tf.SameStretch s t) +
        deliveredTo log username
          (fun s => tf.period s = tf.period t ∧ yearOf (date s) ≠ yearOf (date t)) := by
  induction log with
  | nil => rfl
  | cons d rest ih =>
      unfold deliveredTo at ih ⊢
      rw [List.countP_cons, List.countP_cons, List.countP_cons, ih]
      unfold Timeframe.SameStretch
      by_cases hname : d.username = username <;>
        by_cases hperiod : tf.period d.time = tf.period t <;>
          by_cases hyear : yearOf (date d.time) = yearOf (date t) <;>
            simp [hname, hperiod, hyear] <;> omega

/-- An entry's counts, once the entry is reset, are no fewer than the deliveries of the stretch. -/
structure Accounts (log : List Delivery) (username : String) (now : Time)
    (perm : UserSignalPermission) : Prop extends perm.Recorded now where
  covers : ∀ tf t, now ≤ t → (deliveredTo log username (fun s => tf.SameStretch s t) : Int) ≤
    (perm.checkAndResetQuotas t).1.signalsUsed.get tf

/-- A user without an entry has been returned by no call. -/
def Accounted (log : List Delivery) (username : String) (now : Time) :
    Option UserSignalPermission → Prop
  | none => ∀ d ∈ log, d.username ≠ username
  | some perm => Accounts log username now perm

theorem UserSignalPermission.used_checkAndResetQuotas (perm : UserSignalPermission) (now : Time)
    (tf : Timeframe) : (perm.checkAndResetQuotas now).1.signalsUsed.get tf =
      if perm.lastReset.get tf ≠ (labels now).get tf then 0 else perm.signalsUsed.get tf :=
  ByTimeframe.get_ofFun _ tf

/-- After a reset a quota is reached where its label was current already. -/
theorem UserSignalPermission.quotaReached_reset_iff (perm : UserSignalPermission) (now : Time)
    (tf : Timeframe) : (perm.checkAndResetQuotas now).1.quotaReached tf = true ↔
      0 < perm.maxSignals.get tf ∧ perm.maxSignals.get tf ≤ perm.signalsUsed.get tf ∧
        perm.lastReset.get tf = (labels now).get tf := by
  unfold quotaReached
  rw [decide_eq_true_eq, used_checkAndResetQuotas]
  show 0 < perm.maxSignals.get tf ∧ perm.maxSignals.get tf ≤ _ ↔ _
  split
  · rename_i hlabel
    constructor
    · rintro ⟨hpos, hle⟩
      omega
    · rintro ⟨-, -, hsame⟩
      exact absurd hsame hlabel
  · rename_i hlabel
    constructor
    · rintro ⟨hpos, hle⟩
      exact ⟨hpos, hle, not_not.mp hlabel⟩
    · rintro ⟨hpos, hle, -⟩
      exact ⟨hpos, hle⟩

/-- No delivery made so far lies in a stretch that begins later. -/
theorem deliveredTo_later (hpast : ∀ d ∈ log, d.time ≤ now) {tf : Timeframe} {t : Time}
    (hle : now ≤ t) (h : ¬ tf.SameStretch now t) :
    deliveredTo log username (fun s => tf.SameStretch s t) = 0 := by
  refine deliveredTo_eq_zero fun d hd _ hsame => h ?_
  have hbetween := hsame.between (hpast d hd) hle
  exact ⟨hbetween.1.symm.trans hsame.1, hbetween.2.symm.trans hsame.2⟩

theorem Recorded.later (h : perm.Recorded now) {later : Time} (hle : now ≤ later) :
    perm.Recorded later := by
  obtain ⟨t, ht, hlabels⟩ := h.labelled
  exact ⟨h.nonneg, t, ht.trans hle, hlabels⟩

theorem nonneg_checkAndResetQuotas (h : ∀ tf, 0 ≤ perm.signalsUsed.get tf) (t : Time)
    (tf : Timeframe) : 0 ≤ (perm.checkAndResetQuotas t).1.signalsUsed.get tf := by
  rw [UserSignalPermission.used_checkAndResetQuotas]
  split
  · exact le_refl 0
  · exact h tf

theorem accounts_of_none (h : perm.Recorded now) (hnone : ∀ d ∈ log, d.username ≠ username) :
    Accounts log username now perm := by
  refine ⟨h, fun tf t _ => ?_⟩
  rw [deliveredTo_eq_zero fun d hd hname => absurd hname (hnone d hd)]
  exact nonneg_checkAndResetQuotas h.nonneg t tf

theorem Accounts.later (h : Accounts log username now perm) {later : Time} (hle : now ≤ later) :
    Accounts log username later perm :=
  ⟨Recorded.later h.toRecorded hle, fun tf t ht => h.covers tf t (hle.trans ht)⟩

/-- Only the counts and the labels matter. -/
theorem Accounts.settings (h : Accounts log username now perm) {perm' : UserSignalPermission}
    (hused : perm'.signalsUsed = perm.signalsUsed) (hlabels : perm'.lastReset = perm.lastReset) :
    Accounts log username now perm' := by
  refine ⟨⟨?_, ?_⟩, fun tf t ht => ?_⟩
  · rw [hused]
    exact h.nonneg
  · rw [hlabels]
    exact h.labelled
  · have hcovers := h.covers tf t ht
    rw [UserSignalPermission.used_checkAndResetQuotas] at hcovers ⊢
    rwa [hused, hlabels]

/-- A count that a reset clears had only deliveries of earlier stretches. -/
theorem Accounts.reset (h : Accounts log username now perm) (hpast : ∀ d ∈ log, d.time ≤ now)
    {later : Time} (hle : now ≤ later) :
    Accounts log username later (perm.checkAndResetQuotas later).1 := by
  refine ⟨⟨nonneg_checkAndResetQuotas h.nonneg later, later, le_refl later, rfl⟩, fun tf t ht => ?_⟩
  rw [UserSignalPermission.used_checkAndResetQuotas]
  split
  · rename_i hlabel
    rw [deliveredTo_later (fun d hd => (hpast d hd).trans hle) ht
      fun hsame => hlabel (Timeframe.label_of_sameStretch hsame)]
    exact le_refl 0
  · rename_i hlabel
    have hcovers := h.covers tf t (hle.trans ht)
    have hsame : (labels later).get tf = (labels t).get tf := not_not.mp hlabel
    rw [UserSignalPermission.used_checkAndResetQuotas] at hcovers ⊢
    rwa [hsame]

theorem Accounts.append (h : Accounts log username now perm) {added : List Delivery}
    (hadded : ∀ d ∈ added, d.username ≠ username) :
    Accounts (log ++ added) username now perm := by
  refine ⟨h.toRecorded, fun tf t ht => ?_⟩
  have hnone : deliveredTo added username (fun s => tf.SameStretch s t) = 0 :=
    deliveredTo_eq_zero fun d hd hname => absurd hname (hadded d hd)
  rw [deliveredTo_append, hnone]
  exact h.covers tf t ht

/-- A delivery is counted in the stretch it is made in. -/
theorem Accounts.increment (h : Accounts log username now perm) (hpast : ∀ d ∈ log, d.time ≤ now)
    {later : Time} (hle : now ≤ later) {added : List Delivery}
    (hadded : ∀ (tf : Timeframe) (t : Time), deliveredTo added username (fun s => tf.SameStretch s t) =
      if tf.SameStretch later t then 1 else 0) :
    Accounts (log ++ added) username later (perm.checkAndResetQuotas later).1.increment := by
  have hreset := h.reset hpast hle
  refine ⟨⟨fun tf => ?_, hreset.labelled⟩, fun tf t ht => ?_⟩
  · have hnonneg := hreset.nonneg tf
    unfold UserSignalPermission.increment
    rw [ByTimeframe.get_ofFun]
    omega
  · have hcovers := hreset.covers tf t ht
    rw [deliveredTo_append, hadded]
    rw [UserSignalPermission.used_checkAndResetQuotas] at hcovers ⊢
    unfold UserSignalPermission.increment
    rw [ByTimeframe.get_ofFun]
    by_cases hstretch : tf.SameStretch later t
    · have hlabel : ¬ (perm.checkAndResetQuotas later).1.lastReset.get tf ≠ (labels t).get tf :=
        not_not.mpr (Timeframe.label_of_sameStretch hstretch)
      rw [if_pos hstretch]
      rw [if_neg hlabel] at hcovers ⊢
      omega
    · rw [if_neg hstretch]
      split
      · rename_i hlabel
        rw [if_pos hlabel] at hcovers
        omega
      · rename_i hlabel
        rw [if_neg hlabel] at hcovers
        omega

theorem recorded_ofData {data : PermissionData} (h : data.Recorded now) (username : String)
    (chatId : Option String) :
    (UserSignalPermission.ofData username data chatId now).Recorded now := by
  obtain ⟨t, ht, hlabels⟩ := h.labelled
  refine ⟨fun tf => ?_, t, ht, ByTimeframe.ext_get fun tf => ?_⟩
  · unfold UserSignalPermission.ofData
    dsimp only
    rw [ByTimeframe.get_ofFun]
    cases hused : data.signalsUsed.get tf with
    | none => cases tf <;> exact le_refl 0
    | some n => exact h.nonneg tf n hused
  · unfold UserSignalPermission.ofData
    dsimp only
    rw [ByTimeframe.get_ofFun]
    exact hlabels tf

theorem Accounted.change {e e' : Option UserSignalPermission} {later : Time}
    {new : UserSignalPermission → Prop} (h : Accounted log username now e)
    (hpast : ∀ d ∈ log, d.time ≤ now) (hle : now ≤ later) (hnew : ∀ perm, new perm → perm.Recorded later)
    (hchange : EntryChange new later e e') : Accounted log username later e' := by
  cases hchange with
  | kept e =>
      cases e with
      | none => exact h
      | some perm => exact Accounts.later h hle
  | reset perm => exact Accounts.reset h hpast hle
  | settings hused hlabels => exact Accounts.later (Accounts.settings h hused hlabels) hle
  | created hnew' => exact accounts_of_none (hnew _ hnew') h

end Counts

namespace UserPermissionManager

variable {host : PermissionHost} {m : UserPermissionManager} {username category tier : String}
  {request : PermissionRequest} {now : Time}

theorem handle_returns_nobody (hother : ∀ category tier, request ≠ .getEligibleRecipients category tier) :
    (m.handle host request now).2 = [] := by
  cases request with
  | getEligibleRecipients category tier => exact absurd rfl (hother category tier)
  | _ => rfl

/-- The deliveries of a call. -/
def delivered (host : PermissionHost) (m : UserPermissionManager) (category tier : String)
    (now : Time) : List Delivery :=
  (m.getEligibleRecipients host category tier now).2.map fun perm => ⟨perm.username, now⟩

theorem not_mem_delivered (hreturns : m.returns host username category tier now = false) :
    ∀ d ∈ m.delivered host category tier now, d.username ≠ username := by
  intro d hd hname
  obtain ⟨perm, hperm, rfl⟩ := List.mem_map.mp hd
  have hmem := (mem_recipients host m username category tier now).mp
    (List.mem_map.mpr ⟨perm, hperm, hname⟩)
  rw [hreturns] at hmem
  cases hmem

theorem deliveredTo_delivered (Q : Time → Prop) [DecidablePred Q] :
    deliveredTo (m.delivered host category tier now) username Q =
      if Q now ∧ m.returns host username category tier now = true then 1 else 0 := by
  unfold delivered
  rw [deliveredTo_recipients, count_recipients]
  by_cases hQ : Q now
  · simp [hQ]
  · simp [hQ]

theorem find?_getEligibleRecipients :
    (m.getEligibleRecipients host category tier now).1.permissions.find? username =
      ((m.load host now).permissions.find? username).map fun perm =>
        (perm.visit host (host.upper category) (host.upper tier) now).1 := by
  unfold getEligibleRecipients
  dsimp only
  split
  · exact Table.find?_mapRows _ _ (fun perm => perm.username_visit host _ _ now) username
  · exact Table.find?_mapRows _ _ (fun perm => perm.username_visit host _ _ now) username

/-- The call counts a delivery in the entry of each user that it returns. -/
theorem accounted_getEligibleRecipients {log : List Delivery} {clock : Time}
    (hfile : m.file.rows ≠ []) (hlog : Accounted log username clock (m.file.find? username))
    (hpast : ∀ d ∈ log, d.time ≤ clock) (hle : clock ≤ now) {e : Option UserSignalPermission}
    (he : (m.getEligibleRecipients host category tier now).1.Entry username e) :
    Accounted (log ++ m.delivered host category tier now) username now e := by
  have hreturns : m.returns host username category tier now =
      (m.file.find? username).any fun perm =>
        (perm.visit host (host.upper category) (host.upper tier) now).2 := by
    unfold returns
    rw [find?_load hfile]
  have hnone : m.returns host username category tier now = false →
      ∀ {perm : UserSignalPermission}, Accounts log username now perm →
        Accounted (log ++ m.delivered host category tier now) username now (some perm) :=
    fun hreturns _ h => h.append (not_mem_delivered hreturns)
  rcases entry_getEligibleRecipients hfile he with hvisit | ⟨hkept, hreturned⟩
  · subst hvisit
    cases hfind : m.file.find? username with
    | none =>
        rw [hfind] at hlog hreturns
        intro d hd
        rcases List.mem_append.mp hd with hold | hadded
        · exact hlog d hold
        · exact not_mem_delivered hreturns d hadded
    | some perm =>
        rw [hfind] at hlog hreturns
        rcases perm.visit_cases host (host.upper category) (host.upper tier) now with hcase | hcase
        · have hreturned : m.returns host username category tier now = false := by
            rw [hreturns, Option.any_some, hcase]
          rw [Option.map_some, hcase]
          exact hnone hreturned (Accounts.reset hlog hpast hle)
        · have hreturned : m.returns host username category tier now = true := by
            rw [hreturns, Option.any_some, hcase]
          rw [Option.map_some, hcase]
          refine Accounts.increment hlog hpast hle fun tf t => ?_
          rw [deliveredTo_delivered]
          exact if_congr (and_iff_left hreturned) rfl rfl
  · subst hkept
    cases hfind : m.file.find? username with
    | none =>
        rw [hfind] at hlog
        intro d hd
        rcases List.mem_append.mp hd with hold | hadded
        · exact hlog d hold
        · exact not_mem_delivered hreturned d hadded
    | some perm =>
        rw [hfind] at hlog
        exact hnone hreturned (Accounts.later hlog hle)

end UserPermissionManager

/-! ## Runs -/

namespace DeliveryRun

structure Sound (username : String) (quotas : ByTimeframe Int) (r : DeliveryRun) : Prop where
  stored : r.manager.file.rows ≠ []
  entries : ∀ e, r.manager.Entry username e → Accounted r.deliveries username r.clock e
  past : ∀ d ∈ r.deliveries, d.time ≤ r.clock
  capped : r.Capped username quotas

variable {host : PermissionHost} {username : String} {quotas : ByTimeframe Int} {r : DeliveryRun}

theorem clock_le_step (host : PermissionHost) (r : DeliveryRun) (c : PermissionCall) :
    r.clock ≤ (r.step host c).clock :=
  Int.le_add_of_nonneg_right (Int.natCast_nonneg c.after)

theorem Sound.step_other (h : r.Sound username quotas) {c : PermissionCall}
    (hother : ∀ category tier, c.request ≠ .getEligibleRecipients category tier)
    (hmeet : r.WeeksAddUp host username c) : (r.step host c).Sound username quotas := by
  have hdeliveries : (r.step host c).deliveries = r.deliveries := by
    show r.deliveries ++ (r.manager.handle host c.request (r.clock + c.after)).2.map _ = r.deliveries
    rw [UserPermissionManager.handle_returns_nobody hother, List.map_nil, List.append_nil]
  have hclock := clock_le_step host r c
  refine ⟨UserPermissionManager.rows_handle_ne_nil h.stored, fun e' he' => ?_, fun d hd => ?_, ?_⟩
  · obtain ⟨e, he, hchange⟩ := UserPermissionManager.entriesFrom_handle h.stored hother e' he'
    rw [hdeliveries]
    refine (h.entries e he).change h.past hclock (fun perm hnew => ?_) hchange
    obtain ⟨hnone, data, chatId, hrequest, rfl⟩ := hnew
    unfold WeeksAddUp at hmeet
    rw [hrequest] at hmeet
    exact recorded_ofData (hmeet rfl hnone) username chatId
  · rw [hdeliveries] at hd
    exact (h.past d hd).trans hclock
  · unfold Capped
    rw [hdeliveries]
    exact h.capped

/-- The entry of a user that is returned. -/
theorem exists_of_returns {m : UserPermissionManager} {category tier : String} {now : Time}
    (h : m.returns host username category tier now = true) :
    ∃ perm, (m.load host now).permissions.find? username = some perm ∧
      perm.Subscribed host (host.upper category) (host.upper tier) ∧
      ∀ tf, (perm.checkAndResetQuotas now).1.quotaReached tf = false := by
  obtain ⟨perm, hfind, hvisit⟩ := Option.any_eq_true _ _ |>.mp h
  exact ⟨perm, hfind, (perm.visit_appends_iff host _ _ now).mp hvisit⟩

/-- A user is returned while the period has fewer deliveries than the quota. -/
theorem Sound.fewer_of_returns (h : r.Sound username quotas) {after : Nat} {category tier : String}
    (hmeet : r.WeeksAddUp host username ⟨after, .getEligibleRecipients category tier⟩)
    (hfixed : (r.step host ⟨after, .getEligibleRecipients category tier⟩).QuotasAre username quotas)
    (hreturned : r.manager.returns host username category tier (r.clock + after) = true)
    {tf : Timeframe} (htf : 0 < quotas.get tf) :
    (deliveredTo r.deliveries username
      (fun s => tf.period s = tf.period (r.clock + after)) : Int) < quotas.get tf := by
  obtain ⟨perm, hfind, -, hreached⟩ := exists_of_returns hreturned
  have hquotas : perm.maxSignals = quotas := by
    have hnext := hfixed (perm.visit host (host.upper category) (host.upper tier) (r.clock + after)).1
      (UserPermissionManager.find?_getEligibleRecipients.trans (by rw [hfind]; rfl))
    rcases perm.visit_cases host (host.upper category) (host.upper tier) (r.clock + after) with
      hcase | hcase
    · rw [hcase] at hnext
      exact hnext
    · rw [hcase] at hnext
      exact hnext
  have hused : (perm.checkAndResetQuotas (r.clock + after)).1.signalsUsed.get tf < quotas.get tf := by
    have hnot := of_decide_eq_false (hreached tf)
    rw [← hquotas] at htf ⊢
    exact not_le.mp fun hle => hnot ⟨htf, hle⟩
  have haccounts : Accounts r.deliveries username r.clock perm := by
    rw [UserPermissionManager.find?_load h.stored] at hfind
    exact h.entries (some perm) (.inr hfind.symm)
  have hcovers := haccounts.covers tf (r.clock + after) (clock_le_step host r ⟨after, .restart⟩)
  have hother : (deliveredTo r.deliveries username (fun s => tf.period s =
        tf.period (r.clock + after) ∧ yearOf (date s) ≠ yearOf (date (r.clock + after))) : Int) +
      (perm.checkAndResetQuotas (r.clock + after)).1.signalsUsed.get tf < quotas.get tf := by
    by_cases hweekly : tf = .weekly
    · subst hweekly
      have hboth := hmeet hreturned perm hfind (hquotas ▸ htf)
      rw [hquotas] at hboth
      exact hboth
    · rw [deliveredTo_eq_zero fun d _ _ hother =>
        hother.2 (Timeframe.sameStretch_of_period hweekly hother.1).2, Int.natCast_zero, zero_add]
      exact hused
  rw [deliveredTo_period]
  push_cast
  linarith

theorem Sound.step_recipients (h : r.Sound username quotas) {after : Nat} {category tier : String}
    (hmeet : r.WeeksAddUp host username ⟨after, .getEligibleRecipients category tier⟩)
    (hfixed : (r.step host ⟨after, .getEligibleRecipients category tier⟩).QuotasAre username quotas) :
    (r.step host ⟨after, .getEligibleRecipients category tier⟩).Sound username quotas := by
  have hclock := clock_le_step host r ⟨after, .getEligibleRecipients category tier⟩
  refine ⟨?_, fun e he => ?_, fun d hd => ?_, fun tf htf t => ?_⟩
  · show (r.manager.handle host (.getEligibleRecipients category tier)
      (r.clock + after)).1.file.rows ≠ []
    exact UserPermissionManager.rows_handle_ne_nil h.stored
  · exact UserPermissionManager.accounted_getEligibleRecipients h.stored
      (h.entries _ (.inr rfl)) h.past hclock he
  · rcases List.mem_append.mp hd with hold | hadded
    · exact (h.past d hold).trans hclock
    · obtain ⟨perm, -, rfl⟩ := List.mem_map.mp hadded
      exact le_refl _
  · show (deliveredTo (r.deliveries ++ r.manager.delivered host category tier (r.clock + after)) username
      (fun s => tf.period s = tf.period t) : Int) ≤ quotas.get tf
    rw [deliveredTo_append, UserPermissionManager.deliveredTo_delivered]
    split
    · rename_i hin
      have hfewer := h.fewer_of_returns hmeet hfixed hin.2 htf
      rw [hin.1] at hfewer
      omega
    · exact h.capped tf htf t

theorem Sound.step (h : r.Sound username quotas) {c : PermissionCall}
    (hmeet : r.WeeksAddUp host username c) (hfixed : (r.step host c).QuotasAre username quotas) :
    (r.step host c).Sound username quotas := by
  obtain ⟨after, request⟩ := c
  by_cases hget : ∃ category tier, request = .getEligibleRecipients category tier
  · obtain ⟨category, tier, rfl⟩ := hget
    exact h.step_recipients hmeet hfixed
  · exact h.step_other (fun category tier heq => hget ⟨category, tier, heq⟩) hmeet

end DeliveryRun

end AutoTrade.Auth
