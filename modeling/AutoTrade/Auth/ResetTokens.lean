import AutoTrade.Auth.Users
import AutoTrade.Library.Run

/-! # Password reset tokens

`create_password_reset_token`, `verify_password_reset_token` and
`reset_password_with_token` of `core/auth/handler/handler.py`, by any number of
callers at once. Each database statement is one step. The two statements of an
issue are one transaction, between which no other connection sees or writes
anything, so they are one step. The audit entry and the revocation of sessions
that follow a password change do not touch the tokens and are left out.
-/

namespace AutoTrade.Auth

open AutoTrade.Library

structure ResetRow (Digest : Type) where
  tokenHash : Digest
  username : String
  expiresTs : Time
  used : Bool := false
  createdTs : Time
deriving DecidableEq

structure ResetHost (Digest : Type) extends TokenHost Digest, AuthHost

structure ResetStore (Digest : Type) where
  users : Users := Table.empty
  rows : List (ResetRow Digest) := []
  generated : Nat := 0

/-- What `verify_password_reset_token` makes of the row it selects. -/
inductive ResetRead
  | refused
  | stale
  | live (username : String)
deriving DecidableEq

/-- The step a caller takes next. `change` is the new password and its salt, where the token is verified
in order to change the password. -/
inductive PendingReset
  | issue (username : String)
  | discard (token : String)
  | mark (token username : String) (change : Option (String × String))
  | findUser (token username newPassword salt : String)
  | setPassword (token username newPassword salt : String)
deriving DecidableEq

/-- `superseded`: a newer token had been issued for the account. -/
structure Acceptance where
  token : String
  superseded : Bool
deriving DecidableEq, Repr

/-- `issued` are the tokens with the accounts they were issued for, in their order; `accepted` are the
verifications that returned a name, `taken` the tokens they marked and `changes` those that changed a
password. -/
structure ResetWorld (Digest : Type) where
  store : ResetStore Digest := {}
  pending : Dict Nat PendingReset := Table.empty
  issued : List (String × String) := []
  accepted : List Acceptance := []
  taken : List String := []
  changes : List String := []

/-- The clock is read at `now` and, where a step reads it twice, again at `later`. -/
inductive ResetStep
  | create (caller : Nat) (username : String)
  | verify (caller : Nat) (token : String) (markUsed : Bool) (now later : Time)
  | reset (caller : Nat) (token newPassword salt : String) (now later : Time)
  | resume (caller : Nat) (now later : Time)
  | restart

namespace ResetStore

variable {Digest : Type} [DecidableEq Digest] (host : TokenHost Digest)

/-- A hash that is there already violates the primary key, and the transaction is rolled back. -/
def issue (s : ResetStore Digest) (username : String) (now later : Time) :
    ResetStore Digest × Option String :=
  let token := host.generateToken s.generated
  let hash := host.sha256 token
  let invalidated := s.rows.map fun r =>
    if r.username = username ∧ r.used = false then { r with used := true } else r
  if invalidated.any fun r => decide (r.tokenHash = hash) then
    ({ s with generated := s.generated + 1 }, none)
  else
    ({ s with
        rows := invalidated ++
          [{ tokenHash := hash, username, expiresTs := now + hour, createdTs := later }],
        generated := s.generated + 1 },
      some token)

def readRow (s : ResetStore Digest) (token : String) (now later : Time) : ResetRead :=
  match s.rows.find? fun r => decide (r.tokenHash = host.sha256 token) with
  | none => .refused
  | some row =>
      if row.used = true ∨ row.expiresTs ≤ now then
        if row.expiresTs ≤ later then .stale else .refused
      else .live row.username

def markUsed (s : ResetStore Digest) (token : String) : ResetStore Digest :=
  { s with
    rows := s.rows.map fun r =>
      if r.tokenHash = host.sha256 token then { r with used := true } else r }

def discard (s : ResetStore Digest) (token : String) : ResetStore Digest :=
  { s with rows := s.rows.filter fun r => decide (r.tokenHash ≠ host.sha256 token) }

end ResetStore

namespace ResetWorld

variable {Digest : Type}

def wait (w : ResetWorld Digest) (caller : Nat) (p : PendingReset) : ResetWorld Digest :=
  { w with pending := w.pending.set caller p }

def finish (w : ResetWorld Digest) (caller : Nat) : ResetWorld Digest :=
  { w with pending := w.pending.erase caller }

/-- The token that was issued last for the account. -/
def newest (issued : List (String × String)) (account : String) : Option String :=
  ((issued.filter fun e => decide (e.2 = account)).getLast?).map Prod.fst

def superseded (w : ResetWorld Digest) (token : String) : Bool :=
  w.issued.any fun e => decide (e.1 = token ∧ newest w.issued e.2 ≠ some token)

def accept (w : ResetWorld Digest) (token : String) : ResetWorld Digest :=
  { w with accepted := w.accepted ++ [⟨token, w.superseded token⟩] }

variable [DecidableEq Digest] (host : ResetHost Digest)

def startVerify (w : ResetWorld Digest) (caller : Nat) (token : String) (markUsed : Bool)
    (change : Option (String × String)) (now later : Time) : ResetWorld Digest :=
  if token = "" then w
  else
    match w.store.readRow host.toTokenHost token now later with
    | .refused => w
    | .stale => w.wait caller (.discard token)
    | .live username => if markUsed then w.wait caller (.mark token username change) else w.accept token

def proceed (w : ResetWorld Digest) (caller : Nat) (now later : Time) :
    PendingReset → ResetWorld Digest
  | .issue username =>
      match w.store.issue host.toTokenHost username now later with
      | (store, none) => finish { w with store } caller
      | (store, some token) =>
          finish { w with store, issued := w.issued ++ [(token, host.account username)] } caller
  | .discard token => finish { w with store := w.store.discard host.toTokenHost token } caller
  | .mark token username change =>
      let marked := accept
        { w with store := w.store.markUsed host.toTokenHost token, taken := w.taken ++ [token] } token
      match change with
      | none => marked.finish caller
      | some (newPassword, salt) =>
          if username = "" ∨ (validatePasswordStrength host.toAuthHost newPassword).1 = false then
            marked.finish caller
          else marked.wait caller (.findUser token username newPassword salt)
  | .findUser token username newPassword salt =>
      match w.store.users.find? (host.account username) with
      | none => w.finish caller
      | some _ => w.wait caller (.setPassword token username newPassword salt)
  | .setPassword token username newPassword salt =>
      let users := w.store.users.resetPassword (host.account username)
        (host.hashPassword salt newPassword)
      finish { w with store := { w.store with users }, changes := w.changes ++ [token] } caller

def free (w : ResetWorld Digest) (caller : Nat) : Bool := (w.pending.get? caller).isNone

def step (w : ResetWorld Digest) : ResetStep → ResetWorld Digest
  | .create caller username =>
      if w.free caller then
        match w.store.users.getUser host.toAuthHost username with
        | none => w
        | some _ => w.wait caller (.issue username)
      else w
  | .verify caller token markUsed now later =>
      if w.free caller then w.startVerify host caller token markUsed none now later else w
  | .reset caller token newPassword salt now later =>
      if w.free caller then w.startVerify host caller token true (some (newPassword, salt)) now later
      else w
  | .resume caller now later =>
      match w.pending.get? caller with
      | none => w
      | some p => w.proceed host caller now later p
  | .restart => { w with pending := Table.empty }

omit [DecidableEq Digest] in
/-- No token has changed a password twice, and none was accepted after a newer one had been issued for
its account. -/
def Exclusive (w : ResetWorld Digest) : Prop :=
  w.changes.Nodup ∧ ∀ a ∈ w.accepted, a.superseded = false

/-- A token that is marked is still unused, and all unused tokens of an account are under the spelling
for which the next is issued. -/
def Orderly (w : ResetWorld Digest) : ResetStep → Prop
  | .resume caller _ _ =>
      match w.pending.get? caller with
      | some (.mark token _ _) => ∃ r ∈ w.store.rows, r.tokenHash = host.sha256 token ∧ r.used = false
      | some (.issue username) => ∀ r ∈ w.store.rows, r.used = false →
          host.account r.username = host.account username → r.username = username
      | _ => True
  | _ => True

instance (w : ResetWorld Digest) (op : ResetStep) : Decidable (w.Orderly host op) := by
  unfold Orderly
  split
  · split <;> infer_instance
  · infer_instance

end ResetWorld

end AutoTrade.Auth
