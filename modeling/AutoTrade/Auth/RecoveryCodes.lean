import AutoTrade.Auth.Authenticate
import AutoTrade.Library.Run

/-! # Recovery codes

`use_recovery_code` of `core/auth/handler/mfa_handler.py` and the recovery codes
of `core/auth/mfa.py`. The handler imports a function that the module does not
define, and gives the list of a user's hashes where one hash is compared; either
way a code that matches is not taken.
-/

namespace AutoTrade.Auth

open AutoTrade.Library

/-- The functions and classes that `core/auth/mfa.py` defines. -/
def mfaNames : List String :=
  ["MFAConfig", "MFAEngine", "MFASessionState", "get_mfa_session_state", "_get_engine",
    "generate_mfa_secret", "verify_mfa_token", "get_mfa_provisioning_uri",
    "generate_recovery_codes", "hash_recovery_code", "verify_recovery_code"]

/-- `from core.auth.mfa import ...`: an `ImportError` names the first that is missing. -/
def importFrom (names wanted : List String) : Except PyExc Unit :=
  match wanted.find? fun name => decide (name ∉ names) with
  | some name => .error ⟨.other, "cannot import name '" ++ name ++ "' from 'core.auth.mfa'"⟩
  | none => .ok ()

example : importFrom mfaNames ["consume_recovery_code", "verify_recovery_code"] =
    .error ⟨.other, "cannot import name 'consume_recovery_code' from 'core.auth.mfa'"⟩ := by
  decide +kernel

/-- What a call may pass for the hash of a code. -/
inductive HashArgument
  | text (hash : String)
  | list (hashes : List String)
deriving DecidableEq, Repr

/-- `hmac.compare_digest`. -/
def compareDigest (hash : String) : HashArgument → Except PyExc Bool
  | .text other => .ok (decide (hash = other))
  | .list _ =>
      .error ⟨.typeError, "unsupported operand types(s) or combination of types: 'str' and 'list'"⟩

section Hashing

variable (sha256 : String → String)

def hashRecoveryCode (code : String) : String :=
  let salt := String.ofList ((sha256 code).toList.take 16)
  sha256 (salt ++ ":" ++ code)

def verifyRecoveryCode (code : String) (hashedCode : HashArgument) : Except PyExc Bool :=
  compareDigest (hashRecoveryCode sha256 code) hashedCode

end Hashing

/-- The column `mfa_recovery_codes` of each user, read as the list it is the text of. -/
structure MfaState where
  recoveryCodes : Dict String (List String) := Table.empty
  auditLog : List AuditEntry := []
deriving DecidableEq

/-- `consume` stands for `consume_recovery_code`, which is not there, and `names` for what
`core.auth.mfa` defines. -/
structure MfaHost extends AuthHost where
  sha256 : String → String
  names : List String
  consume : String → List String → List String

structure RecoveryCall where
  username : String
  code : String
  now : Time
deriving DecidableEq, Repr

namespace MfaState

variable (host : MfaHost)

def getMfaRecoveryCodes (s : MfaState) (username : String) : List String :=
  (s.recoveryCodes.get? (host.account username)).getD []

def updateMfaRecoveryCodes (s : MfaState) (username : String) (recoveryCodes : List String) :
    MfaState :=
  if s.recoveryCodes.contains (host.account username) then
    { s with recoveryCodes := s.recoveryCodes.set (host.account username) recoveryCodes }
  else s

def useRecoveryCode (s : MfaState) (call : RecoveryCall) : MfaState × Except PyExc Bool :=
  match importFrom host.names ["consume_recovery_code", "verify_recovery_code"] with
  | .error e => (s, .error e)
  | .ok () =>
      let codes := s.getMfaRecoveryCodes host call.username
      if codes = [] then (s, .ok false)
      else
        match verifyRecoveryCode host.sha256 call.code (.list codes) with
        | .error e => (s, .error e)
        | .ok false => (s, .ok false)
        | .ok true =>
            let updated := host.consume call.code codes
            let stored := s.updateMfaRecoveryCodes host call.username updated
            ({ stored with
                auditLog := stored.auditLog ++
                  [⟨call.now, "mfa_recovery_code_used", call.username, ""⟩] }, .ok true)

/-- The setup stores the hashes of the codes it shows each user. -/
def setup (codes : Dict String (List String)) : MfaState where
  recoveryCodes := codes.mapValues fun shown => shown.map (hashRecoveryCode host.sha256)

def step (s : MfaState) (call : RecoveryCall) : MfaState := (s.useRecoveryCode host call).1

/-- The code is one of those stored for the user. -/
def Matches (s : MfaState) (call : RecoveryCall) : Prop :=
  hashRecoveryCode host.sha256 call.code ∈ s.getMfaRecoveryCodes host call.username

instance (s : MfaState) (call : RecoveryCall) : Decidable (s.Matches host call) :=
  inferInstanceAs (Decidable (_ ∈ _))

/-- A call returns true exactly when its code matches; then that code is removed and everything else
kept, and otherwise nothing changes. -/
def UsesOnce (s : MfaState) (call : RecoveryCall) : Prop :=
  ((s.useRecoveryCode host call).2 = .ok true ↔ s.Matches host call) ∧
    (s.Matches host call →
      ∀ account, (s.step host call).recoveryCodes.get? account =
        (s.recoveryCodes.get? account).map fun stored =>
          if account = host.account call.username then
            stored.filter fun hash => decide (hash ≠ hashRecoveryCode host.sha256 call.code)
          else stored) ∧
    (¬ s.Matches host call → s.step host call = s)

/-- Whatever the module defines, no call takes a code. -/
theorem useRecoveryCode_refuses (s : MfaState) (call : RecoveryCall) :
    (s.useRecoveryCode host call).1 = s ∧ (s.useRecoveryCode host call).2 ≠ .ok true := by
  unfold useRecoveryCode
  split
  · rename_i e _
    exact ⟨rfl, fun h => by cases h⟩
  · dsimp only [verifyRecoveryCode, compareDigest]
    split
    · exact ⟨rfl, fun h => by cases h⟩
    · exact ⟨rfl, fun h => by cases h⟩

variable {host}

theorem usesOnce_iff (s : MfaState) (call : RecoveryCall) :
    s.UsesOnce host call ↔ ¬ s.Matches host call := by
  obtain ⟨hsame, hrefused⟩ := useRecoveryCode_refuses host s call
  constructor
  · rintro ⟨hreturns, -⟩ hmatches
    exact hrefused (hreturns.mpr hmatches)
  · intro hother
    exact ⟨⟨fun h => absurd h hrefused, fun h => absurd h hother⟩, fun h => absurd h hother,
      fun _ => hsame⟩

theorem matches_setup (codes : Dict String (List String)) (call : RecoveryCall) :
    (setup host codes).Matches host call ↔
      ∃ shown ∈ (codes.get? (host.account call.username)).getD [],
        hashRecoveryCode host.sha256 shown = hashRecoveryCode host.sha256 call.code := by
  unfold Matches getMfaRecoveryCodes setup
  dsimp only
  rw [Dict.get?_mapValues]
  cases codes.get? (host.account call.username) with
  | none => simp
  | some shown => exact List.mem_map

/-- Recovery codes work once throughout a run exactly when no call of it gives a code that was shown to
its user. -/
theorem recovery_codes_once_iff (codes : Dict String (List String)) (calls : List RecoveryCall) :
    StepsMeet (step host) (UsesOnce host) (setup host codes) calls ↔
      ∀ call ∈ calls, ∀ shown ∈ (codes.get? (host.account call.username)).getD [],
        hashRecoveryCode host.sha256 shown ≠ hashRecoveryCode host.sha256 call.code := by
  have hother : ∀ call, (setup host codes).UsesOnce host call ↔
      ∀ shown ∈ (codes.get? (host.account call.username)).getD [],
        hashRecoveryCode host.sha256 shown ≠ hashRecoveryCode host.sha256 call.code := by
    intro call
    rw [usesOnce_iff, matches_setup]
    push Not
    exact Iff.rfl
  induction calls with
  | nil => simp [StepsMeet]
  | cons call rest ih =>
      have hsame : step host (setup host codes) call = setup host codes :=
        (useRecoveryCode_refuses host (setup host codes) call).1
      rw [StepsMeet, hsame, List.forall_mem_cons]
      exact and_congr (hother call) ih

/-- The texts are their own hashes. -/
def plainMfaHost : MfaHost where
  strip := id
  lower := id
  isDecimal := Char.isDigit
  hashPassword := fun salt password => salt ++ password
  verifyPassword := fun password hash => decide (hash = password)
  sha256 := id
  names := mfaNames
  consume := fun code codes => codes.erase code

/-- A user gives one of the two codes that were shown, and it is not taken. -/
theorem shown_code_is_refused :
    ¬ StepsMeet (step plainMfaHost) (UsesOnce plainMfaHost)
      (setup plainMfaHost (Dict.set Table.empty "alice" ["A1B2C3D4E5F6", "0A1B2C3D4E5F"]))
      [⟨"alice", "A1B2C3D4E5F6", 0⟩] := by
  rintro ⟨honce, -⟩
  exact (usesOnce_iff _ _).mp honce (by decide +kernel)

end MfaState

end AutoTrade.Auth
