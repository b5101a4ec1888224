import AutoTrade.Auth.Users
import Mathlib.Data.List.MinMax

/-! # Session tokens

`core/auth/handler/session_manager.py`. A session is held in memory under its
token and in the `sessions` table under the hash of the token; the JSON text of
`token_data` is kept as the record it is written from. Each database statement
and each section under the lock is a definition of its own, and the four calls
are put together from them. A section that purges a row while it holds the lock
is one step with that statement, since what others do to the table meanwhile
does not touch memory.
-/

namespace AutoTrade.Auth

open AutoTrade.Library

def maxConcurrentSessions : Nat := 10

/-- What of a token is written to the database. -/
structure TokenData where
  userId : String
  username : String
  role : String
  createdTs : Time
  expiresTs : Time
  csrfToken : String
deriving DecidableEq, Repr

structure AuthToken extends TokenData where
  token : String
deriving DecidableEq, Repr

def AuthToken.isExpired (t : AuthToken) (now : Time) : Bool := decide (t.expiresTs ≤ now)

structure SessionRow (Digest : Type) where
  userId : String
  tokenHash : Digest
  createdTs : Time
  expiresTs : Time
  ipAddress : String := ""
  userAgent : String := ""
  revoked : Bool := false
  tokenData : TokenData
deriving DecidableEq

def SessionRow.live {Digest : Type} (r : SessionRow Digest) (now : Time) : Bool :=
  !r.revoked && decide (now < r.expiresTs)

/-- What the session code calls besides: `get_user`. -/
structure SessionHost (Digest : Type) extends TokenHost Digest where
  getUser : String → Option AuthUser
  tokenTtl : Time

/-- A user, on a host whose first token is `"t"`. -/
def asha : AuthUser := { userId := "u1", username := "asha", role := "viewer", createdTs := 0 }

def ashaHost : SessionHost String :=
  { plainTokens with getUser := fun name => if name = "asha" then some asha else none, tokenTtl := hour }

/-- `generated` counts the tokens drawn so far. -/
structure Sessions (Digest : Type) where
  tokens : Dict String AuthToken := Table.empty
  rows : List (SessionRow Digest) := []
  generated : Nat := 0
deriving DecidableEq

/-- What `verify_session` makes of the row it selects. -/
inductive RowRead (Digest : Type)
  | refused
  | expired
  | live (row : SessionRow Digest)
deriving DecidableEq

namespace Sessions

variable {Digest : Type}

/-- `UPDATE sessions SET revoked = 1 WHERE ...`. -/
def revokeWhere (s : Sessions Digest) (p : SessionRow Digest → Bool) : Sessions Digest :=
  { s with rows := s.rows.map fun r => if p r then { r with revoked := true } else r }

@[simp] theorem tokens_revokeWhere (s : Sessions Digest) (p : SessionRow Digest → Bool) :
    (s.revokeWhere p).tokens = s.tokens := rfl

@[simp] theorem generated_revokeWhere (s : Sessions Digest) (p : SessionRow Digest → Bool) :
    (s.revokeWhere p).generated = s.generated := rfl

theorem mem_revokeWhere {s : Sessions Digest} {p : SessionRow Digest → Bool} {r : SessionRow Digest}
    (hr : r ∈ (s.revokeWhere p).rows) :
    ∃ r₀ ∈ s.rows, r = if p r₀ then { r₀ with revoked := true } else r₀ := by
  obtain ⟨r₀, hr₀, rfl⟩ := List.mem_map.mp hr
  exact ⟨r₀, hr₀, rfl⟩

variable [DecidableEq Digest] (host : SessionHost Digest)

def revokeRow (s : Sessions Digest) (token : String) : Sessions Digest :=
  s.revokeWhere fun r => decide (r.tokenHash = host.sha256 token)

/-- `_purge_db_session`. -/
def purge (s : Sessions Digest) (token : String) : Sessions Digest :=
  if token = "" then s else s.revokeRow host token

def pop (s : Sessions Digest) (token : String) : Sessions Digest :=
  { s with tokens := s.tokens.erase token }

/-! ## Verification -/

/-- The look into memory; without an answer the database is asked. -/
def lookUp (s : Sessions Digest) (token : String) (now : Time) :
    Sessions Digest × Option (Option AuthToken) :=
  match s.tokens.get? token with
  | none => (s, none)
  | some t => if t.isExpired now then ((s.pop token).purge host token, some none) else (s, some (some t))

def readRow (s : Sessions Digest) (token : String) (now : Time) : RowRead Digest :=
  match s.rows.find? fun r => decide (r.tokenHash = host.sha256 token ∧ r.revoked = false) with
  | none => .refused
  | some row =>
      if row.revoked then .refused else if row.expiresTs ≤ now then .expired else .live row

def recovered (token : String) (row : SessionRow Digest) : AuthToken :=
  { toTokenData := row.tokenData, token }

def restore (s : Sessions Digest) (token : String) (row : SessionRow Digest) : Sessions Digest :=
  { s with tokens := s.tokens.set token (recovered token row) }

/-- The clock is read once, after the look into memory or after the row was selected. -/
def verifySession (s : Sessions Digest) (token : String) (now : Time) :
    Sessions Digest × Option AuthToken :=
  if token = "" then (s, none)
  else
    match s.lookUp host token now with
    | (s, some answer) => (s, answer)
    | (s, none) =>
        match s.readRow host token now with
        | .refused => (s, none)
        | .expired => (s.revokeRow host token, none)
        | .live row => (s.restore token row, some (recovered token row))

/-! ## Creation -/

/-- The sessions of the user that are in memory. -/
def userSessions (s : Sessions Digest) (userId : String) : List (String × AuthToken) :=
  s.tokens.rows.filter fun e => decide (e.2.userId = userId)

/-- Of sessions created at one instant `min` takes the first. -/
def oldest? (s : Sessions Digest) (userId : String) : Option (String × AuthToken) :=
  @List.argmin _ Time Int.instLinearOrder.toPreorder _ (fun e => e.2.createdTs) (s.userSessions userId)

def evictOldest (s : Sessions Digest) (userId : String) : Sessions Digest :=
  if (s.userSessions userId).length < maxConcurrentSessions then s
  else
    match s.oldest? userId with
    | none => s
    | some (oldestKey, _) => (s.pop oldestKey).purge host oldestKey

def newToken (s : Sessions Digest) (user : AuthUser) (csrfToken : String) (now : Time) : AuthToken where
  token := host.generateToken s.generated
  userId := user.userId
  username := user.username
  role := user.role
  createdTs := now
  expiresTs := now + host.tokenTtl
  csrfToken := csrfToken

def storeToken (s : Sessions Digest) (token : AuthToken) : Sessions Digest :=
  let evicted := s.evictOldest host token.userId
  { evicted with tokens := evicted.tokens.set token.token token, generated := evicted.generated + 1 }

def insertRow (s : Sessions Digest) (token : AuthToken) (ipAddress userAgent : String) :
    Sessions Digest :=
  let row : SessionRow Digest :=
    { userId := token.userId, tokenHash := host.sha256 token.token, createdTs := token.createdTs,
      expiresTs := token.expiresTs, ipAddress, userAgent, tokenData := token.toTokenData }
  { s with rows := s.rows ++ [row] }

def createSession (s : Sessions Digest) (user : AuthUser) (ipAddress userAgent csrfToken : String)
    (now : Time) : Sessions Digest × AuthToken :=
  let token := s.newToken host user csrfToken now
  ((s.storeToken host token).insertRow host token ipAddress userAgent, token)

/-! ## Revocation -/

def revokeSession (s : Sessions Digest) (token : String) : Sessions Digest × Bool :=
  ((s.pop token).purge host token, (s.tokens.get? token).isSome)

def popAll (s : Sessions Digest) (userId : String) : Sessions Digest :=
  { s with tokens := s.tokens.filter fun e => decide (e.2.userId ≠ userId) }

def revokeRowsOf (s : Sessions Digest) (userId : String) : Sessions Digest :=
  s.revokeWhere fun r => decide (r.userId = userId)

def revokeAllUserSessions (s : Sessions Digest) (username : String) : Sessions Digest × Nat :=
  match host.getUser username with
  | none => (s, 0)
  | some user =>
      ((s.popAll user.userId).revokeRowsOf user.userId, (s.userSessions user.userId).length)

omit [DecidableEq Digest] in
/-- The count adds the tokens taken out of memory to the rows revoked. -/
def purgeExpiredSessions (s : Sessions Digest) (now : Time) : Sessions Digest × Nat :=
  let expired : SessionRow Digest → Bool := fun r => decide (r.expiresTs < now ∧ r.revoked = false)
  let kept := s.tokens.filter fun e => !e.2.isExpired now
  (revokeWhere { s with tokens := kept } expired, s.tokens.size - kept.size + s.rows.countP expired)

/-! ## What the parts leave in memory and in the table -/

/-- Tokens may have gone from memory and rows may have been revoked; nothing else has changed. -/
structure Shrinks (s s' : Sessions Digest) : Prop where
  tokens : ∀ e ∈ s'.tokens.rows, e ∈ s.tokens.rows
  rows : ∀ r' ∈ s'.rows, ∃ r ∈ s.rows, r'.tokenHash = r.tokenHash ∧ r'.userId = r.userId ∧
    r'.tokenData = r.tokenData ∧ (r.revoked = true → r'.revoked = true)
  generated : s'.generated = s.generated

omit [DecidableEq Digest] in
theorem Shrinks.refl (s : Sessions Digest) : s.Shrinks s :=
  ⟨fun _ he => he, fun r hr => ⟨r, hr, rfl, rfl, rfl, id⟩, rfl⟩

omit [DecidableEq Digest] in
theorem Shrinks.trans {s s' s'' : Sessions Digest} (h : s.Shrinks s') (h' : s'.Shrinks s'') :
    s.Shrinks s'' := by
  refine ⟨fun e he => h.tokens e (h'.tokens e he), ?_, h'.generated.trans h.generated⟩
  intro r'' hr''
  obtain ⟨r', hr', hhash', huser', hdata', hrevoked'⟩ := h'.rows r'' hr''
  obtain ⟨r, hr, hhash, huser, hdata, hrevoked⟩ := h.rows r' hr'
  exact ⟨r, hr, hhash'.trans hhash, huser'.trans huser, hdata'.trans hdata, hrevoked' ∘ hrevoked⟩

omit [DecidableEq Digest] in
theorem Shrinks.get?_none {s s' : Sessions Digest} (h : s.Shrinks s') {token : String}
    (hnone : s.tokens.get? token = none) : s'.tokens.get? token = none :=
  (Dict.get?_eq_none_iff _ _).mpr fun e he =>
    (Dict.get?_eq_none_iff _ _).mp hnone e (h.tokens e he)

omit [DecidableEq Digest] in
theorem shrinks_revokeWhere (s : Sessions Digest) (p : SessionRow Digest → Bool) :
    s.Shrinks (s.revokeWhere p) := by
  refine ⟨fun _ he => he, ?_, rfl⟩
  intro r' hr'
  obtain ⟨r, hr, rfl⟩ := mem_revokeWhere hr'
  refine ⟨r, hr, ?_⟩
  split
  · exact ⟨rfl, rfl, rfl, fun _ => rfl⟩
  · exact ⟨rfl, rfl, rfl, id⟩

theorem shrinks_purge (s : Sessions Digest) (token : String) : s.Shrinks (s.purge host token) := by
  unfold purge
  split
  · exact Shrinks.refl s
  · exact shrinks_revokeWhere s _

omit [DecidableEq Digest] in
theorem shrinks_pop (s : Sessions Digest) (token : String) : s.Shrinks (s.pop token) :=
  ⟨fun _ he => (List.mem_filter.mp he).1, fun r hr => ⟨r, hr, rfl, rfl, rfl, id⟩, rfl⟩

omit [DecidableEq Digest] in
theorem shrinks_popAll (s : Sessions Digest) (userId : String) : s.Shrinks (s.popAll userId) :=
  ⟨fun _ he => (List.mem_filter.mp he).1, fun r hr => ⟨r, hr, rfl, rfl, rfl, id⟩, rfl⟩

theorem shrinks_evictOldest (s : Sessions Digest) (userId : String) :
    s.Shrinks (s.evictOldest host userId) := by
  unfold evictOldest
  split
  · exact Shrinks.refl s
  · split
    · exact Shrinks.refl s
    · exact (shrinks_pop s _).trans (shrinks_purge host _ _)

theorem shrinks_lookUp (s : Sessions Digest) (token : String) (now : Time) :
    s.Shrinks (s.lookUp host token now).1 := by
  unfold lookUp
  split
  · exact Shrinks.refl s
  · split
    · exact (shrinks_pop s token).trans (shrinks_purge host _ token)
    · exact Shrinks.refl s

omit [DecidableEq Digest] in
theorem get?_pop (s : Sessions Digest) (token : String) : (s.pop token).tokens.get? token = none := by
  unfold pop
  rw [Dict.get?_erase, if_pos rfl]

omit [DecidableEq Digest] in
theorem get?_popAll {s : Sessions Digest} {userId token : String}
    (htoken : token ∈ (s.userSessions userId).map Prod.fst) :
    (s.popAll userId).tokens.get? token = none := by
  obtain ⟨e, he, rfl⟩ := List.mem_map.mp htoken
  obtain ⟨hmem, huser⟩ := List.mem_filter.mp he
  refine (Dict.get?_eq_none_iff _ _).mpr fun e' he' hkey => ?_
  obtain ⟨hmem', huser'⟩ := List.mem_filter.mp he'
  have hsame : e' = e := List.inj_on_of_nodup_map s.tokens.nodup hmem' hmem hkey
  subst hsame
  exact absurd (of_decide_eq_true huser) (of_decide_eq_true huser')

/-- A purge leaves no row of the token unrevoked. -/
theorem revoked_purge {s : Sessions Digest} {token : String} (hne : token ≠ "")
    {r : SessionRow Digest} (hr : r ∈ (s.purge host token).rows)
    (hhash : r.tokenHash = host.sha256 token) : r.revoked = true := by
  unfold purge at hr
  rw [if_neg hne] at hr
  obtain ⟨r₀, -, rfl⟩ := mem_revokeWhere hr
  split at hhash
  · rename_i hp
    rw [if_pos hp]
  · rename_i hp
    exact absurd (decide_eq_true hhash) hp

omit [DecidableEq Digest] in
theorem revoked_revokeRowsOf {s : Sessions Digest} {userId : String} {r : SessionRow Digest}
    (hr : r ∈ (s.revokeRowsOf userId).rows) (huser : r.userId = userId) : r.revoked = true := by
  obtain ⟨r₀, -, rfl⟩ := mem_revokeWhere hr
  split at huser
  · rename_i hp
    rw [if_pos hp]
  · rename_i hp
    exact absurd (decide_eq_true huser) hp

/-- A token all of whose rows are revoked is refused. -/
theorem readRow_of_revoked {s : Sessions Digest} {token : String}
    (hrevoked : ∀ r ∈ s.rows, r.tokenHash = host.sha256 token → r.revoked = true) (now : Time) :
    s.readRow host token now = .refused := by
  unfold readRow
  split
  · rfl
  · rename_i row hfind
    have hhash : row.tokenHash = host.sha256 token := by
      have hrow := List.find?_some hfind
      simp only [decide_eq_true_eq] at hrow
      exact hrow.1
    rw [if_pos (hrevoked row (List.mem_of_find?_eq_some hfind) hhash)]

theorem readRow_live {s : Sessions Digest} {token : String} {now : Time} {row : SessionRow Digest}
    (hlive : s.readRow host token now = .live row) :
    row ∈ s.rows ∧ row.tokenHash = host.sha256 token ∧ row.revoked = false := by
  unfold readRow at hlive
  split at hlive
  · cases hlive
  · rename_i row' hfind
    have hrow := List.find?_some hfind
    simp only [decide_eq_true_eq] at hrow
    split at hlive
    · cases hlive
    · split at hlive
      · cases hlive
      · cases hlive
        exact ⟨List.mem_of_find?_eq_some hfind, hrow⟩

end Sessions

end AutoTrade.Auth
