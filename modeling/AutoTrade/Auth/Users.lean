import AutoTrade.Library.Table
import AutoTrade.Runtime

/-! # Users

The `users` table of `core/auth/handler/handler.py` and the password rules of
`password.py`. The text functions of Python's strings, the hash of a password
and its verification are parameters. A user's metadata is left out.
-/

namespace AutoTrade.Auth

open AutoTrade.Library

structure AuthUser where
  userId : String
  username : String
  role : String
  displayName : String := ""
  mustChangePassword : Bool := false
  disabled : Bool := false
  createdTs : Time
  lastLoginTs : Option Time := none
deriving DecidableEq, Repr

structure UserRow where
  userId : String
  username : String
  passwordHash : String
  role : String := "viewer"
  displayName : String := ""
  mustChangePassword : Bool := false
  disabled : Bool := false
  createdTs : Time
  lastLoginTs : Option Time := none
deriving DecidableEq, Repr

def UserRow.toAuthUser (row : UserRow) : AuthUser where
  userId := row.userId
  username := row.username
  role := row.role
  displayName := if row.displayName = "" then row.username else row.displayName
  mustChangePassword := row.mustChangePassword
  disabled := row.disabled
  createdTs := row.createdTs
  lastLoginTs := row.lastLoginTs

/-- `str.strip`, `str.lower`, the digits of `\d`, `hash_password` with its salt, and
`verify_password`. -/
structure AuthHost where
  strip : String → String
  lower : String → String
  isDecimal : Char → Bool
  hashPassword : String → String → String
  verifyPassword : String → String → Bool

/-- A source of random tokens, whose `n`-th is `generateToken n` and which never repeats one, and the
hash that tokens are stored under, which has no collisions. -/
structure TokenHost (Digest : Type) where
  sha256 : String → Digest
  sha256_injective : Function.Injective sha256
  generateToken : Nat → String
  generateToken_injective : Function.Injective generateToken
  generateToken_ne_empty : ∀ n, generateToken n ≠ ""

theorem replicate_text_injective (c : Char) :
    Function.Injective fun n => String.ofList (List.replicate (n + 1) c) := by
  intro m n h
  have hlength := congrArg List.length (String.ofList_injective h)
  simp only [List.length_replicate] at hlength
  omega

/-- The text is its own hash, and the tokens are longer and longer. -/
def plainTokens : TokenHost String where
  sha256 := id
  sha256_injective := Function.injective_id
  generateToken := fun n => String.ofList (List.replicate (n + 1) 't')
  generateToken_injective := replicate_text_injective 't'
  generateToken_ne_empty := fun n => by simp [String.ofList_eq_empty_iff]

/-- `username.strip().lower()`. -/
def AuthHost.account (host : AuthHost) (username : String) : String :=
  host.lower (host.strip username)

abbrev Users := Table UserRow UserRow.username

namespace Users

/-- `UPDATE users SET last_login_ts = ? WHERE user_id = ?`. -/
def setLastLogin (users : Users) (userId : String) (now : Time) : Users :=
  users.updateWhere (fun r => decide (r.userId = userId)) (fun r => { r with lastLoginTs := some now })
    fun _ => rfl

/-- `UPDATE users SET password_hash = ?, must_change_password = 1 WHERE username = ?`. -/
def resetPassword (users : Users) (username passwordHash : String) : Users :=
  users.update username (fun r => { r with passwordHash, mustChangePassword := true }) fun _ => rfl

def getUser (host : AuthHost) (users : Users) (username : String) : Option AuthUser :=
  (users.find? (host.account username)).map UserRow.toAuthUser

end Users

def minPasswordLength : Nat := 8

def specialCharacters : String := "!@#$%^&*(),.?\":\x7b\x7d|<>_-"

def commonWords : List String := ["password", "admin", "123456", "qwerty", "letmein"]

def validatePasswordStrength (host : AuthHost) (password : String) : Bool × String :=
  let characters := password.toList
  if characters.length < minPasswordLength then
    (false, "Password must be at least " ++ toString minPasswordLength ++ " characters")
  else if !characters.any fun c => decide ('A' ≤ c ∧ c ≤ 'Z') then
    (false, "Password must contain an uppercase letter")
  else if !characters.any fun c => decide ('a' ≤ c ∧ c ≤ 'z') then
    (false, "Password must contain a lowercase letter")
  else if !characters.any host.isDecimal then (false, "Password must contain a digit")
  else if !characters.any fun c => decide (c ∈ specialCharacters.toList) then
    (false, "Password must contain a special character")
  else if commonWords.any fun word => inText word (host.lower password) then
    (false, "Password contains a common word")
  else (true, "")

end AutoTrade.Auth
