import Mathlib.Data.String.Basic
import AutoTrade.Library.Calendar
import AutoTrade.Library.Table
import AutoTrade.Runtime

/-! # Signal permissions and their quotas

`core/auth/user_signal_permissions.py`. The permissions are in memory and in a
file; both are tables keyed by the user name, and a file that is absent or holds
no entry is an empty table. Reads and writes of the file succeed. Of an entry
the display name, the role, the overrides of the role and who updated it when
are left out. The functions that differ by the timeframe only take it as an
argument.
-/

namespace AutoTrade.Auth

open AutoTrade.Library

inductive Timeframe
  | daily
  | weekly
  | monthly
  | yearly
deriving DecidableEq, Repr

def Timeframe.name : Timeframe → String
  | .daily => "DAILY"
  | .weekly => "WEEKLY"
  | .monthly => "MONTHLY"
  | .yearly => "YEARLY"

theorem Timeframe.forall_iff {P : Timeframe → Prop} :
    (∀ tf, P tf) ↔ P .daily ∧ P .weekly ∧ P .monthly ∧ P .yearly := by
  constructor
  · intro h
    exact ⟨h .daily, h .weekly, h .monthly, h .yearly⟩
  · rintro ⟨hdaily, hweekly, hmonthly, hyearly⟩ tf
    cases tf
    · exact hdaily
    · exact hweekly
    · exact hmonthly
    · exact hyearly

/-- Four fields, as `max_signals_daily` to `max_signals_yearly`. -/
structure ByTimeframe (α : Type) where
  daily : α
  weekly : α
  monthly : α
  yearly : α
deriving DecidableEq, Repr

namespace ByTimeframe

variable {α : Type}

def get (x : ByTimeframe α) : Timeframe → α
  | .daily => x.daily
  | .weekly => x.weekly
  | .monthly => x.monthly
  | .yearly => x.yearly

def ofFun (f : Timeframe → α) : ByTimeframe α :=
  ⟨f .daily, f .weekly, f .monthly, f .yearly⟩

@[simp] theorem get_ofFun (f : Timeframe → α) (tf : Timeframe) : (ofFun f).get tf = f tf := by
  cases tf <;> rfl

theorem ext_get {x y : ByTimeframe α} (h : ∀ tf, x.get tf = y.get tf) : x = y := by
  cases x
  cases y
  rw [mk.injEq]
  exact Timeframe.forall_iff.mp h

end ByTimeframe

/-! ## Labels of the periods -/

/-- `now.date()`; the epoch's day has 719162 days before it. -/
def date (now : Time) : Int := now / (24 * hour) + 719162

/-- `f"{x:0{width}d}"`, which for a date's fields has no sign. -/
def formatInt (width : Nat) (x : Int) : String :=
  (if x < 0 then "-" else "") ++ zeroPadded width x.natAbs

/-- `date.isoformat()`. -/
def isoformat (day : Int) : String :=
  formatInt 4 (yearOf day) ++ "-" ++ formatInt 2 (monthOf day) ++ "-" ++ formatInt 2 (dayOfMonth day)

/-- `f"{now.year}-W{now.isocalendar()[1]}"`: the calendar year and the number of the ISO week. -/
def weekLabel (day : Int) : String :=
  formatInt 0 (yearOf day) ++ "-W" ++ formatInt 0 (isoWeek (weekIndex day))

/-- `f"{now.year}-{now.month:02d}"`. -/
def monthLabel (day : Int) : String := formatInt 0 (yearOf day) ++ "-" ++ formatInt 2 (monthOf day)

/-- `str(now.year)`. -/
def yearLabel (day : Int) : String := formatInt 0 (yearOf day)

def labels (now : Time) : ByTimeframe String where
  daily := isoformat (date now)
  weekly := weekLabel (date now)
  monthly := monthLabel (date now)
  yearly := yearLabel (date now)

/-- On the last day of 2025 and the first of 2026, both in the first ISO week of 2026. -/
example : labels 1767139200000000 = ⟨"2025-12-31", "2025-W1", "2025-12", "2025"⟩ ∧
    labels 1767225600000000 = ⟨"2026-01-01", "2026-W1", "2026-01", "2026"⟩ := by
  decide +kernel

/-! ## A user's permissions -/

def allCategories : List String :=
  ["INDEX_OPTIONS", "STOCK_OPTIONS", "EQUITY_SWING_DELIVERY", "LARGE_CAP_EQUITY", "MID_SMALL_CAP",
    "PENNY_SME", "COMMODITIES", "CURRENCIES", "FUTURES", "ETFS_REITS"]

/-- A quota of 0 is unlimited. -/
structure UserSignalPermission where
  username : String
  isActive : Bool := true
  signalsEnabled : Bool := true
  allowedCategories : List String := allCategories
  minSignalTier : String := "MODERATE_AND_STRONG"
  telegramEnabled : Bool := true
  telegramChatId : String := ""
  emailEnabled : Bool := true
  email : String := ""
  maxSignals : ByTimeframe Int := ⟨15, 75, 300, 3600⟩
  signalsUsed : ByTimeframe Int := ⟨0, 0, 0, 0⟩
  lastReset : ByTimeframe String
deriving DecidableEq, Repr

/-- `str.upper`, `str.strip` and `str.isdigit`, and the administrator's chat and address as the seeding
finds them in the auth database, the environment or the configuration. -/
structure PermissionHost where
  upper : String → String
  strip : String → String
  isDigit : String → Bool
  adminChat : String
  adminEmail : String

namespace UserSignalPermission

/-- The returned flag is whether a label changed. -/
def checkAndResetQuotas (perm : UserSignalPermission) (now : Time) : UserSignalPermission × Bool :=
  let current := labels now
  ({ perm with
      signalsUsed := .ofFun fun tf =>
        if perm.lastReset.get tf ≠ current.get tf then 0 else perm.signalsUsed.get tf,
      lastReset := current },
    decide (perm.lastReset ≠ current))

def quotaReached (perm : UserSignalPermission) (tf : Timeframe) : Bool :=
  decide (0 < perm.maxSignals.get tf ∧ perm.maxSignals.get tf ≤ perm.signalsUsed.get tf)

def increment (perm : UserSignalPermission) : UserSignalPermission :=
  { perm with signalsUsed := .ofFun fun tf => perm.signalsUsed.get tf + 1 }

/-- The loop of `get_eligible_recipients` at one user, and whether the user is appended. -/
def visit (host : PermissionHost) (catUpper tierUpper : String) (now : Time)
    (perm : UserSignalPermission) : UserSignalPermission × Bool :=
  let perm := (perm.checkAndResetQuotas now).1
  if !perm.isActive then (perm, false)
  else if !perm.signalsEnabled then (perm, false)
  else if catUpper ∉ perm.allowedCategories.map host.upper then (perm, false)
  else if perm.minSignalTier = "STRONG_ONLY" ∧ tierUpper ≠ "STRONG" then (perm, false)
  else if perm.minSignalTier = "MODERATE_AND_STRONG" ∧ tierUpper ∉ ["STRONG", "MODERATE"] then
    (perm, false)
  else if perm.quotaReached .daily then (perm, false)
  else if perm.quotaReached .weekly then (perm, false)
  else if perm.quotaReached .monthly then (perm, false)
  else if perm.quotaReached .yearly then (perm, false)
  else (perm.increment, true)

/-- `f"DAILY_QUOTA_EXHAUSTED_{used}/{max}"` for the timeframe, where the quota is reached. -/
def exhaustedReason (perm : UserSignalPermission) (tf : Timeframe) : List String :=
  if 0 < perm.maxSignals.get tf ∧ perm.maxSignals.get tf ≤ perm.signalsUsed.get tf then
    [tf.name ++ "_QUOTA_EXHAUSTED_" ++ toString (perm.signalsUsed.get tf) ++ "/" ++
      toString (perm.maxSignals.get tf)]
  else []

def rejectionReasons (host : PermissionHost) (perm : UserSignalPermission)
    (catUpper tierUpper : String) : List String :=
  (if perm.isActive then [] else ["USER_INACTIVE_PENDING_APPROVAL"]) ++
  (if perm.signalsEnabled then [] else ["SIGNALS_DISABLED_BLOCKED"]) ++
  (if catUpper ∈ perm.allowedCategories.map host.upper then []
    else ["CATEGORY_UNSUBSCRIBED_" ++ catUpper]) ++
  (if perm.minSignalTier = "STRONG_ONLY" ∧ tierUpper ≠ "STRONG" then
      ["TIER_BELOW_MINIMUM_STRONG_ONLY"]
    else if perm.minSignalTier = "MODERATE_AND_STRONG" ∧ tierUpper ∉ ["STRONG", "MODERATE"] then
      ["TIER_BELOW_MINIMUM_MODERATE"]
    else []) ++
  perm.exhaustedReason .daily ++ perm.exhaustedReason .weekly ++ perm.exhaustedReason .monthly ++
  perm.exhaustedReason .yearly

/-- `f"{used}/{max if max > 0 else '∞'}"`. -/
def quotaText (perm : UserSignalPermission) (tf : Timeframe) : String :=
  toString (perm.signalsUsed.get tf) ++ "/" ++
    if 0 < perm.maxSignals.get tf then toString (perm.maxSignals.get tf) else "∞"

@[simp] theorem username_checkAndResetQuotas (perm : UserSignalPermission) (now : Time) :
    (perm.checkAndResetQuotas now).1.username = perm.username := rfl

@[simp] theorem username_increment (perm : UserSignalPermission) :
    perm.increment.username = perm.username := rfl

theorem skip_cases {c : Prop} [Decidable c] {skipped sent x : UserSignalPermission × Bool}
    (h : x = skipped ∨ x = sent) :
    (if c then skipped else x) = skipped ∨ (if c then skipped else x) = sent := by
  split
  · exact .inl rfl
  · exact h

theorem skip_appends_iff {c : Prop} [Decidable c] {perm : UserSignalPermission}
    {x : UserSignalPermission × Bool} :
    (if c then (perm, false) else x).2 = true ↔ ¬ c ∧ x.2 = true := by
  split
  · rename_i h
    simp [h]
  · rename_i h
    simp [h]

/-- A visit resets, and appends where nothing stands against it. -/
theorem visit_cases (host : PermissionHost) (catUpper tierUpper : String) (now : Time)
    (perm : UserSignalPermission) :
    visit host catUpper tierUpper now perm = ((perm.checkAndResetQuotas now).1, false) ∨
      visit host catUpper tierUpper now perm = ((perm.checkAndResetQuotas now).1.increment, true) := by
  unfold visit
  dsimp only
  repeat apply skip_cases
  exact .inr rfl

/-- What a signal asks of a user besides the quotas. -/
structure Subscribed (host : PermissionHost) (perm : UserSignalPermission)
    (catUpper tierUpper : String) : Prop where
  active : perm.isActive = true
  enabled : perm.signalsEnabled = true
  category : catUpper ∈ perm.allowedCategories.map host.upper
  strong : ¬ (perm.minSignalTier = "STRONG_ONLY" ∧ tierUpper ≠ "STRONG")
  moderate : ¬ (perm.minSignalTier = "MODERATE_AND_STRONG" ∧ tierUpper ∉ ["STRONG", "MODERATE"])

theorem subscribed_checkAndResetQuotas (host : PermissionHost) (perm : UserSignalPermission)
    (catUpper tierUpper : String) (now : Time) :
    (perm.checkAndResetQuotas now).1.Subscribed host catUpper tierUpper ↔
      perm.Subscribed host catUpper tierUpper := by
  constructor
  · intro h
    exact ⟨h.active, h.enabled, h.category, h.strong, h.moderate⟩
  · intro h
    exact ⟨h.active, h.enabled, h.category, h.strong, h.moderate⟩

theorem visit_appends_iff (host : PermissionHost) (catUpper tierUpper : String) (now : Time)
    (perm : UserSignalPermission) :
    (visit host catUpper tierUpper now perm).2 = true ↔
      perm.Subscribed host catUpper tierUpper ∧
        ∀ tf, (perm.checkAndResetQuotas now).1.quotaReached tf = false := by
  rw [← subscribed_checkAndResetQuotas host perm catUpper tierUpper now]
  unfold visit
  generalize (perm.checkAndResetQuotas now).1 = perm
  dsimp only
  simp only [skip_appends_iff, Bool.not_eq_true, and_true]
  rw [Timeframe.forall_iff]
  constructor
  · rintro ⟨hactive, henabled, hcategory, hstrong, hmoderate, hdaily, hweekly, hmonthly, hyearly⟩
    exact ⟨⟨by simpa using hactive, by simpa using henabled, not_not.mp hcategory, hstrong,
      hmoderate⟩, hdaily, hweekly, hmonthly, hyearly⟩
  · rintro ⟨⟨hactive, henabled, hcategory, hstrong, hmoderate⟩, hdaily, hweekly, hmonthly, hyearly⟩
    exact ⟨by simpa using hactive, by simpa using henabled, not_not.mpr hcategory, hstrong,
      hmoderate, hdaily, hweekly, hmonthly, hyearly⟩

theorem exhaustedReason_eq_nil_iff (perm : UserSignalPermission) (tf : Timeframe) :
    perm.exhaustedReason tf = [] ↔ perm.quotaReached tf = false := by
  unfold exhaustedReason quotaReached
  rw [decide_eq_false_iff_not]
  split
  · rename_i h
    simp [h]
  · rename_i h
    simp [h]

theorem rejectionReasons_eq_nil_iff (host : PermissionHost) (perm : UserSignalPermission)
    (catUpper tierUpper : String) :
    perm.rejectionReasons host catUpper tierUpper = [] ↔
      perm.Subscribed host catUpper tierUpper ∧ ∀ tf, perm.quotaReached tf = false := by
  unfold rejectionReasons
  simp only [List.append_eq_nil_iff, exhaustedReason_eq_nil_iff]
  rw [Timeframe.forall_iff]
  constructor
  · rintro ⟨⟨⟨⟨⟨⟨⟨hactive, henabled⟩, hcategory⟩, htier⟩, hdaily⟩, hweekly⟩, hmonthly⟩, hyearly⟩
    have hstrong : ¬ (perm.minSignalTier = "STRONG_ONLY" ∧ tierUpper ≠ "STRONG") := by
      intro h
      rw [if_pos h] at htier
      cases htier
    rw [if_neg hstrong] at htier
    exact ⟨⟨by simpa using hactive, by simpa using henabled, by simpa using hcategory, hstrong,
      by simpa using htier⟩, hdaily, hweekly, hmonthly, hyearly⟩
  · rintro ⟨⟨hactive, henabled, hcategory, hstrong, hmoderate⟩, hdaily, hweekly, hmonthly, hyearly⟩
    rw [if_pos hactive, if_pos henabled, if_pos hcategory, if_neg hstrong, if_neg hmoderate]
    exact ⟨⟨⟨⟨⟨⟨⟨rfl, rfl⟩, rfl⟩, rfl⟩, hdaily⟩, hweekly⟩, hmonthly⟩, hyearly⟩

@[simp] theorem username_visit (host : PermissionHost) (catUpper tierUpper : String) (now : Time)
    (perm : UserSignalPermission) :
    (visit host catUpper tierUpper now perm).1.username = perm.username := by
  rcases visit_cases host catUpper tierUpper now perm with h | h
  · rw [h]
    rfl
  · rw [h]
    rfl

end UserSignalPermission

/-- `validate_telegram_chat_id`; a number is given as its text. The error is the message. -/
def validateTelegramChatId (host : PermissionHost) (chatId : Option String) : Except String String :=
  let s := host.strip (chatId.getD "")
  let parts := ((s.toList.splitOn ',').map fun part => host.strip (String.ofList part)).filter (· ≠ "")
  let bare := fun p : String =>
    if p.toList.head? = some '-' then String.ofList p.toList.tail else p
  if parts.all fun p => host.isDigit (bare p) && decide (bare p ≠ "") then
    .ok (",".intercalate parts)
  else
    .error ("Invalid Telegram Chat ID: '" ++ s ++ "'. Chat ID must contain only digits " ++
      "(optional leading '-' for channels/supergroups).")

/-- The dictionary `data` of an update, with the fields that are there. -/
structure PermissionData where
  isActive : Option Bool := none
  signalsEnabled : Option Bool := none
  allowedCategories : Option (List String) := none
  minSignalTier : Option String := none
  telegramEnabled : Option Bool := none
  telegramChatId : Option (Option String) := none
  emailEnabled : Option Bool := none
  email : Option String := none
  maxSignals : ByTimeframe (Option Int) := ⟨none, none, none, none⟩
  signalsUsed : ByTimeframe (Option Int) := ⟨none, none, none, none⟩
  lastReset : ByTimeframe (Option String) := ⟨none, none, none, none⟩
deriving DecidableEq, Repr

namespace UserSignalPermission

/-- The update of an existing entry; `chatId` is the validated one, where one is given. -/
def assign (perm : UserSignalPermission) (data : PermissionData) (chatId : Option String) :
    UserSignalPermission :=
  { perm with
    isActive := data.isActive.getD perm.isActive
    signalsEnabled := data.signalsEnabled.getD perm.signalsEnabled
    allowedCategories := data.allowedCategories.getD perm.allowedCategories
    minSignalTier := data.minSignalTier.getD perm.minSignalTier
    telegramEnabled := data.telegramEnabled.getD perm.telegramEnabled
    telegramChatId := chatId.getD perm.telegramChatId
    emailEnabled := data.emailEnabled.getD perm.emailEnabled
    email := data.email.getD perm.email
    maxSignals := .ofFun fun tf => (data.maxSignals.get tf).getD (perm.maxSignals.get tf) }

/-- `UserSignalPermission(**filtered)`: a new entry may be given its counts and labels too. -/
def ofData (username : String) (data : PermissionData) (chatId : Option String) (now : Time) :
    UserSignalPermission :=
  let new : UserSignalPermission := { username, lastReset := labels now }
  { new.assign data chatId with
    signalsUsed := .ofFun fun tf => (data.signalsUsed.get tf).getD (new.signalsUsed.get tf)
    lastReset := .ofFun fun tf => (data.lastReset.get tf).getD (new.lastReset.get tf) }

end UserSignalPermission

abbrev Permissions := Table UserSignalPermission UserSignalPermission.username

/-- `permissions` is in memory. -/
structure UserPermissionManager where
  permissions : Permissions := Table.empty
  file : Permissions := Table.empty
deriving DecidableEq

structure EligibilityDetails where
  isActive : Bool
  signalsEnabled : Bool
  allowedCategories : List String
  minSignalTier : String
  quotas : ByTimeframe String
  telegramEnabled : Bool
  emailEnabled : Bool
deriving DecidableEq, Repr

/-- `details` is there where `exists` is true. -/
structure EligibilityReport where
  username : String
  details : Option EligibilityDetails
  effectiveEligible : Bool
  rejectionReasons : List String
deriving DecidableEq, Repr

namespace UserPermissionManager

/-- `_save_unlocked`, with `sort_keys`. -/
def saveUnlocked (m : UserPermissionManager) : UserPermissionManager :=
  { m with file := m.permissions.sortRows fun a b => a.username ≤ b.username }

def defaultAdmin (host : PermissionHost) (now : Time) : UserSignalPermission where
  username := "admin"
  telegramEnabled := decide (host.adminChat ≠ "")
  telegramChatId := host.adminChat
  emailEnabled := decide (host.adminEmail ≠ "")
  email := host.adminEmail
  maxSignals := ⟨0, 0, 0, 0⟩
  lastReset := labels now

def seedDefaultUsers (host : PermissionHost) (m : UserPermissionManager) (now : Time) :
    UserPermissionManager :=
  if ((m.permissions.find? "admin").any fun admin => admin.telegramChatId ≠ "") then m
  else saveUnlocked { m with permissions := m.permissions.upsert (defaultAdmin host now) }

/-- `_load`. -/
def load (host : PermissionHost) (m : UserPermissionManager) (now : Time) : UserPermissionManager :=
  if m.file.rows ≠ [] then { m with permissions := m.file }
  else if m.permissions.rows = [] then m.seedDefaultUsers host now
  else m

/-- A manager is made on a file. -/
def make (host : PermissionHost) (file : Permissions) (now : Time) : UserPermissionManager :=
  load host { file } now

def getUserPermissions (host : PermissionHost) (m : UserPermissionManager) (username : String)
    (now : Time) : UserPermissionManager × Option UserSignalPermission :=
  let m := m.load host now
  match m.permissions.find? username with
  | none => (m, none)
  | some perm =>
      let (perm, modified) := perm.checkAndResetQuotas now
      let m := { m with permissions := m.permissions.upsert perm }
      (if modified then m.saveUnlocked else m, some perm)

def listAllPermissions (host : PermissionHost) (m : UserPermissionManager) (now : Time) :
    UserPermissionManager × List UserSignalPermission :=
  let m := m.load host now
  let modified := m.permissions.rows.any fun perm => (perm.checkAndResetQuotas now).2
  let m := { m with
    permissions := m.permissions.mapRows (fun perm => (perm.checkAndResetQuotas now).1) fun _ => rfl }
  (if modified then m.saveUnlocked else m, m.permissions.rows)

def updateUserPermissions (host : PermissionHost) (m : UserPermissionManager) (username : String)
    (data : PermissionData) (now : Time) :
    UserPermissionManager × Bool × String × Option UserSignalPermission :=
  match data.telegramChatId.mapM (validateTelegramChatId host) with
  | .error message => (m, false, message, none)
  | .ok chatId =>
      match m.permissions.find? username with
      | none =>
          let new := UserSignalPermission.ofData username data chatId now
          (saveUnlocked { m with permissions := m.permissions.upsert new }, true,
            "Permissions created for user " ++ username, some new)
      | some existing =>
          let updated := existing.assign data chatId
          (saveUnlocked { m with permissions := m.permissions.upsert updated }, true,
            "Permissions updated for user " ++ username, some updated)

/-- The three switches change an entry that is there and save. -/
def switch (m : UserPermissionManager) (username : String)
    (change : UserSignalPermission → UserSignalPermission) :
    UserPermissionManager × Option UserSignalPermission :=
  match m.permissions.find? username with
  | none => (m, none)
  | some perm =>
      (saveUnlocked { m with permissions := m.permissions.upsert (change perm) }, some (change perm))

def toggleUserSignals (m : UserPermissionManager) (username : String) :
    UserPermissionManager × Bool × String × Bool :=
  match m.switch username fun perm => { perm with signalsEnabled := !perm.signalsEnabled } with
  | (m, none) => (m, false, "User " ++ username ++ " not found", false)
  | (m, some perm) =>
      (m, true, "Signals " ++ (if perm.signalsEnabled then "ENABLED" else "BLOCKED") ++ " for " ++
        username, perm.signalsEnabled)

def activateUser (m : UserPermissionManager) (username : String) :
    UserPermissionManager × Bool × String × Option UserSignalPermission :=
  match m.switch username fun perm => { perm with isActive := true, signalsEnabled := true } with
  | (m, none) => (m, false, "User " ++ username ++ " not found in permissions registry", none)
  | (m, some perm) =>
      (m, true, "User " ++ username ++ " successfully approved and activated", some perm)

def deactivateUser (m : UserPermissionManager) (username : String) :
    UserPermissionManager × Bool × String × Option UserSignalPermission :=
  if username = "admin" then (m, false, "Cannot deactivate Super Admin account", none)
  else
    match m.switch username fun perm => { perm with isActive := false, signalsEnabled := false } with
    | (m, none) => (m, false, "User " ++ username ++ " not found in permissions registry", none)
    | (m, some perm) =>
        (m, true, "User " ++ username ++ " deactivated from trading signals", some perm)

def getUserEligibilityReport (host : PermissionHost) (m : UserPermissionManager)
    (username category tier : String) (now : Time) : UserPermissionManager × EligibilityReport :=
  match m.getUserPermissions host username now with
  | (m, none) => (m, ⟨username, none, false, ["USER_NOT_FOUND"]⟩)
  | (m, some perm) =>
      let reasons := perm.rejectionReasons host (host.upper category) (host.upper tier)
      (m,
        { username,
          details := some
            { isActive := perm.isActive
              signalsEnabled := perm.signalsEnabled
              allowedCategories := perm.allowedCategories
              minSignalTier := perm.minSignalTier
              quotas := .ofFun perm.quotaText
              telegramEnabled := perm.telegramEnabled && decide (perm.telegramChatId ≠ "")
              emailEnabled := perm.emailEnabled && decide (perm.email ≠ "") }
          effectiveEligible := decide (reasons.length = 0)
          rejectionReasons := reasons })

def getEligibleRecipients (host : PermissionHost) (m : UserPermissionManager)
    (category tier : String) (now : Time) : UserPermissionManager × List UserSignalPermission :=
  let tierUpper := host.upper tier
  let catUpper := host.upper category
  let m := m.load host now
  let eligible := ((m.permissions.rows.map (·.visit host catUpper tierUpper now)).filter (·.2)).map (·.1)
  let m := { m with
    permissions := m.permissions.mapRows (fun perm => (perm.visit host catUpper tierUpper now).1)
      fun perm => perm.username_visit host catUpper tierUpper now }
  (if eligible ≠ [] then m.saveUnlocked else m, eligible)

/-! ## Who is returned -/

/-- Whether `get_eligible_recipients` returns the user. -/
def returns (host : PermissionHost) (m : UserPermissionManager) (username category tier : String)
    (now : Time) : Bool :=
  ((m.load host now).permissions.find? username).any fun perm =>
    (perm.visit host (host.upper category) (host.upper tier) now).2

theorem usernames_recipients (host : PermissionHost) (m : UserPermissionManager)
    (category tier : String) (now : Time) :
    (m.getEligibleRecipients host category tier now).2.map (·.username) =
      ((m.load host now).permissions.rows.filter fun perm =>
        (perm.visit host (host.upper category) (host.upper tier) now).2).map (·.username) := by
  unfold getEligibleRecipients
  dsimp only
  rw [List.filter_map, List.map_map, List.map_map]
  exact List.map_congr_left fun perm _ => perm.username_visit host _ _ now

theorem mem_recipients (host : PermissionHost) (m : UserPermissionManager)
    (username category tier : String) (now : Time) :
    username ∈ (m.getEligibleRecipients host category tier now).2.map (·.username) ↔
      m.returns host username category tier now = true := by
  rw [usernames_recipients]
  unfold returns
  simp only [List.mem_map, List.mem_filter, Option.any_eq_true, Table.find?_eq_some_iff]
  constructor
  · rintro ⟨perm, ⟨hmem, hvisit⟩, hname⟩
    exact ⟨perm, ⟨hmem, hname⟩, hvisit⟩
  · rintro ⟨perm, ⟨hmem, hname⟩, hvisit⟩
    exact ⟨perm, ⟨hmem, hvisit⟩, hname⟩

/-- A call returns a user at most once. -/
theorem count_recipients (host : PermissionHost) (m : UserPermissionManager)
    (username category tier : String) (now : Time) :
    ((m.getEligibleRecipients host category tier now).2.map (·.username)).count username =
      if m.returns host username category tier now then 1 else 0 := by
  have hnodup : ((m.getEligibleRecipients host category tier now).2.map (·.username)).Nodup := by
    rw [usernames_recipients]
    exact (m.load host now).permissions.nodup.sublist (List.filter_sublist.map _)
  rw [hnodup.count]
  exact if_congr (mem_recipients host m username category tier now) rfl rfl

/-! ## Loading what was saved -/

theorem rows_saveUnlocked_ne_nil {m : UserPermissionManager} (h : m.permissions.rows ≠ []) :
    m.saveUnlocked.file.rows ≠ [] := by
  intro hnil
  have hperm : (m.saveUnlocked.file.rows).Perm m.permissions.rows := List.perm_insertionSort _ _
  rw [hnil] at hperm
  exact h hperm.nil_eq.symm

theorem load_of_file (host : PermissionHost) {m : UserPermissionManager} (h : m.file.rows ≠ [])
    (now : Time) : m.load host now = { m with permissions := m.file } := if_pos h

theorem load_of_memory (host : PermissionHost) {m : UserPermissionManager} (hfile : ¬ m.file.rows ≠ [])
    (h : m.permissions.rows ≠ []) (now : Time) : m.load host now = m := by
  unfold load
  rw [if_neg hfile, if_neg h]

/-- What is loaded after a save is what was saved. -/
theorem find?_load_saveUnlocked (host : PermissionHost) {m : UserPermissionManager}
    (h : m.permissions.rows ≠ []) (username : String) (now : Time) :
    (m.saveUnlocked.load host now).permissions.find? username = m.permissions.find? username := by
  rw [load_of_file host (rows_saveUnlocked_ne_nil h)]
  exact Table.find?_sortRows m.permissions _ username

/-- A load leaves nothing to load but what it loaded. -/
theorem find?_load_load (host : PermissionHost) (m : UserPermissionManager) (username : String)
    (now later : Time) :
    ((m.load host now).load host later).permissions.find? username =
      (m.load host now).permissions.find? username := by
  by_cases hfile : m.file.rows ≠ []
  · rw [load_of_file host hfile]
    exact congrArg (fun m => Table.find? m.permissions username)
      (load_of_file host (m := { m with permissions := m.file }) hfile later)
  · by_cases hmemory : m.permissions.rows = []
    · have hnone : m.permissions.find? "admin" = none := by
        simp [Table.find?, hmemory]
      have hload : m.load host now =
          saveUnlocked { m with permissions := m.permissions.upsert (defaultAdmin host now) } := by
        unfold load seedDefaultUsers
        rw [if_neg hfile, if_pos hmemory, hnone]
        rfl
      rw [hload]
      exact find?_load_saveUnlocked host (Table.rows_upsert_ne_nil _ _) username later
    · rw [load_of_memory host hfile hmemory, load_of_memory host hfile hmemory]

end UserPermissionManager

end AutoTrade.Auth
