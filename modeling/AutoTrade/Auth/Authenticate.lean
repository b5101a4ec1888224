import AutoTrade.Auth.Users

/-! # Authentication and its two limiters

`authenticate` of `core/auth/handler/handler.py`. Failures from an address are
kept in memory; failures of an account are counted in the audit log, and a
lockout is kept in memory and in `account_lockouts`. A call reads the clock many
times; each function takes the readings it makes.
-/

namespace AutoTrade.Auth

open AutoTrade.Library

def maxLoginAttempts : Nat := 5

def lockoutDuration : Time := 900 * second

def bruteForceWindow : Time := 60 * second

def bruteForceMaxAttempts : Nat := 10

def localAddresses : List String := ["127.0.0.1", "::1", "localhost"]

structure AuditEntry where
  timestamp : Time
  eventType : String
  username : String
  ipAddress : String := ""
deriving DecidableEq, Repr

structure LockoutRow where
  username : String
  unlockTs : Time
  createdTs : Time
deriving DecidableEq, Repr

/-- `loginAttempts` and `accountLockouts` are in memory; the rest is the database. -/
structure LoginState where
  users : Users := Table.empty
  auditLog : List AuditEntry := []
  lockouts : Table LockoutRow LockoutRow.username := Table.empty
  loginAttempts : Dict String (List Time) := Table.empty
  accountLockouts : Dict String Time := Table.empty
deriving DecidableEq

/-- The moments of a call, in their order; the clock is read at all but `verified` and `finished`. -/
inductive Moment
  | started
  | addressChecked
  | accountChecked
  | verified
  | recorded
  | audited
  | counted
  | locked
  | stored
  | logged
  | finished
deriving DecidableEq, Repr

def Moment.order (m : Moment) : Nat := m.ctorIdx

/-- What a call's readings of the clock are ahead of its start: they do not go back. -/
structure Delays where
  after : Nat → Nat
  mono : Monotone after

/-- How a call of `authenticate` ends; only the last returns a user. -/
inductive Outcome
  | rateLimited
  | accountLocked
  | userNotFound
  | disabled
  | wrongPassword
  | success (user : AuthUser)
deriving DecidableEq, Repr

def Outcome.result : Outcome → Option AuthUser
  | .success user => some user
  | _ => none

namespace LoginState

/-- `_audit_log`. -/
def audit (s : LoginState) (eventType username ipAddress : String) (now : Time) : LoginState :=
  { s with auditLog := s.auditLog ++ [⟨now, eventType, username, ipAddress⟩] }

def isRateLimited (s : LoginState) (ipAddress : String) (now : Time) : LoginState × Bool :=
  if ipAddress = "" ∨ ipAddress ∈ localAddresses then (s, false)
  else
    let attempts := ((s.loginAttempts.get? ipAddress).getD []).filter fun t =>
      decide (now - t < bruteForceWindow)
    ({ s with loginAttempts := s.loginAttempts.set ipAddress attempts },
      decide (bruteForceMaxAttempts ≤ attempts.length))

def recordAttempt (s : LoginState) (ipAddress : String) (success : Bool) (now : Time) : LoginState :=
  if ipAddress = "" then s
  else if success then s
  else
    let attempts := (s.loginAttempts.get? ipAddress).getD []
    { s with loginAttempts := s.loginAttempts.set ipAddress (attempts ++ [now]) }

/-- `SELECT COUNT(*) FROM audit_log WHERE event_type = 'login_failed' AND ...`. -/
def failuresSince (s : LoginState) (username : String) (since : Time) : Nat :=
  s.auditLog.countP fun e =>
    decide (e.eventType = "login_failed" ∧ e.username = username ∧ since < e.timestamp)

def checkLockout (s : LoginState) (username : String) (counted locked stored logged : Time) :
    LoginState :=
  if maxLoginAttempts ≤ s.failuresSince username (counted - lockoutDuration) then
    let unlockTs := locked + lockoutDuration
    audit
      { s with
        accountLockouts := s.accountLockouts.set username unlockTs,
        lockouts := s.lockouts.replace ⟨username, unlockTs, stored⟩ }
      "account_locked" username "" logged
  else s

def clearLockout (s : LoginState) (username : String) : LoginState :=
  { s with accountLockouts := s.accountLockouts.erase username, lockouts := s.lockouts.erase username }

/-- The clock is read once, for memory or for the row. -/
def isAccountLocked (s : LoginState) (username : String) (now : Time) : LoginState × Bool :=
  match s.accountLockouts.get? username with
  | some unlockTs =>
      if unlockTs ≤ now then ({ s with accountLockouts := s.accountLockouts.erase username }, false)
      else (s, true)
  | none =>
      match s.lockouts.find? username with
      | none => (s, false)
      | some row =>
          if row.unlockTs ≤ now then ({ s with lockouts := s.lockouts.erase username }, false)
          else ({ s with accountLockouts := s.accountLockouts.set username row.unlockTs }, true)

/-- What follows the two checks, for the name of the account. -/
def verify (host : AuthHost) (s : LoginState) (username password ipAddress : String)
    (clock : Moment → Time) : LoginState × Outcome :=
  match s.users.find? username with
  | none =>
      ((s.recordAttempt ipAddress false (clock .recorded)).audit "login_failed" username ipAddress
        (clock .audited), .userNotFound)
  | some row =>
      if row.disabled then
        (s.audit "login_disabled" username ipAddress (clock .audited), .disabled)
      else if !host.verifyPassword password row.passwordHash then
        let failed := (s.recordAttempt ipAddress false (clock .recorded)).audit "login_failed" username
          ipAddress (clock .audited)
        (failed.checkLockout username (clock .counted) (clock .locked) (clock .stored) (clock .logged),
          .wrongPassword)
      else
        let cleared := (s.recordAttempt ipAddress true (clock .recorded)).clearLockout username
        let login := { cleared with users := cleared.users.setLastLogin row.userId (clock .started) }
        (login.audit "login_success" username ipAddress (clock .audited),
          .success { row.toAuthUser with lastLoginTs := some (clock .started) })

def authenticate (host : AuthHost) (s : LoginState) (username password ipAddress : String)
    (clock : Moment → Time) : LoginState × Outcome :=
  let username := host.account username
  let (s, limited) := s.isRateLimited ipAddress (clock .addressChecked)
  if limited then
    (s.audit "login_rate_limited" username ipAddress (clock .audited), .rateLimited)
  else
    let (s, locked) := s.isAccountLocked username (clock .accountChecked)
    if locked then (s.audit "login_locked" username ipAddress (clock .audited), .accountLocked)
    else s.verify host username password ipAddress clock

@[simp] theorem lockouts_recordAttempt (s : LoginState) (ipAddress : String) (success : Bool)
    (now : Time) : (s.recordAttempt ipAddress success now).lockouts = s.lockouts := by
  unfold recordAttempt
  split
  · rfl
  · split <;> rfl

@[simp] theorem auditLog_recordAttempt (s : LoginState) (ipAddress : String) (success : Bool)
    (now : Time) : (s.recordAttempt ipAddress success now).auditLog = s.auditLog := by
  unfold recordAttempt
  split
  · rfl
  · split <;> rfl

@[simp] theorem accountLockouts_recordAttempt (s : LoginState) (ipAddress : String)
    (success : Bool) (now : Time) :
    (s.recordAttempt ipAddress success now).accountLockouts = s.accountLockouts := by
  unfold recordAttempt
  split
  · rfl
  · split <;> rfl

theorem recordAttempt_success (s : LoginState) (ipAddress : String) (now : Time) :
    s.recordAttempt ipAddress true now = s := by
  unfold recordAttempt
  split <;> rfl

@[simp] theorem lockouts_audit (s : LoginState) (eventType username ipAddress : String)
    (now : Time) : (s.audit eventType username ipAddress now).lockouts = s.lockouts := rfl

/-- A restart keeps the database. -/
def restart (s : LoginState) : LoginState :=
  { s with loginAttempts := Table.empty, accountLockouts := Table.empty }

end LoginState

end AutoTrade.Auth
