import AutoTrade.Auth.Sessions
import AutoTrade.Library.Run

/-! # Revocation against verification

Any number of callers are in the middle of a call. A caller that is free starts
one, and a caller that waits takes its next step: a database statement or a
section under the lock. A verification that found nothing in memory reads the
row in one step and puts the session back in a later one; a creation writes the
row after the token is in memory; and a revocation of all of a user's sessions
marks the rows after it emptied memory. In each gap a revocation can be undone.
-/

namespace AutoTrade.Auth

open AutoTrade.Library

/-- Where a caller stands: the step it takes next. `late` records that the verification started after
a revocation of its token had returned. -/
inductive Pending (Digest : Type)
  | insert (token : AuthToken) (ipAddress userAgent : String)
  | select (token : String) (late : Bool)
  | expire (token : String) (late : Bool)
  | restore (token : String) (row : SessionRow Digest) (late : Bool)
  | purge (token : String)
  | popAll (userId : String)
  | markAll (userId : String) (popped : List String)
deriving DecidableEq

/-- What `verify_session` returned. -/
structure Answer where
  token : String
  late : Bool
  session : Option AuthToken
deriving DecidableEq

/-- `issued` are the tokens created so far, `begun` those whose revocation has taken its first step
and `revoked` those of which a revocation has returned. -/
structure World (Digest : Type) where
  sessions : Sessions Digest := {}
  pending : Dict Nat (Pending Digest) := Table.empty
  issued : List AuthToken := []
  begun : List String := []
  revoked : List String := []
  answers : List Answer := []

inductive SessionStep
  | create (caller : Nat) (user : AuthUser) (ipAddress userAgent csrfToken : String) (now : Time)
  | verify (caller : Nat) (token : String) (now : Time)
  | revoke (caller : Nat) (token : String)
  | revokeAll (caller : Nat) (username : String)
  | resume (caller : Nat) (now : Time)
  | restart

namespace World

variable {Digest : Type}

def wait (w : World Digest) (caller : Nat) (p : Pending Digest) : World Digest :=
  { w with pending := w.pending.set caller p }

def finish (w : World Digest) (caller : Nat) : World Digest :=
  { w with pending := w.pending.erase caller }

def answer (w : World Digest) (caller : Nat) (a : Answer) : World Digest :=
  { w.finish caller with answers := w.answers ++ [a] }

section Steps

variable [DecidableEq Digest] (host : SessionHost Digest)

def startCreate (w : World Digest) (caller : Nat) (user : AuthUser)
    (ipAddress userAgent csrfToken : String) (now : Time) : World Digest :=
  let token := w.sessions.newToken host user csrfToken now
  wait { w with sessions := w.sessions.storeToken host token, issued := w.issued ++ [token] } caller
    (.insert token ipAddress userAgent)

def startVerify (w : World Digest) (caller : Nat) (token : String) (now : Time) : World Digest :=
  let late := decide (token ∈ w.revoked)
  if token = "" then w.answer caller ⟨token, late, none⟩
  else
    match w.sessions.lookUp host token now with
    | (sessions, some session) => answer { w with sessions } caller ⟨token, late, session⟩
    | (sessions, none) => wait { w with sessions } caller (.select token late)

def startRevoke (w : World Digest) (caller : Nat) (token : String) : World Digest :=
  wait { w with sessions := w.sessions.pop token, begun := w.begun ++ [token] } caller (.purge token)

def startRevokeAll (w : World Digest) (caller : Nat) (username : String) : World Digest :=
  match host.getUser username with
  | none => w
  | some user => w.wait caller (.popAll user.userId)

/-- The tokens of the rows of the user. -/
def tokensOfRows (w : World Digest) (userId : String) : List String :=
  (w.issued.filter fun t => w.sessions.rows.any fun r =>
    decide (r.tokenHash = host.sha256 t.token ∧ r.userId = userId)).map AuthToken.token

def proceed (w : World Digest) (caller : Nat) (now : Time) : Pending Digest → World Digest
  | .insert token ipAddress userAgent =>
      finish { w with sessions := w.sessions.insertRow host token ipAddress userAgent } caller
  | .select token late =>
      match w.sessions.readRow host token now with
      | .refused => w.answer caller ⟨token, late, none⟩
      | .expired => w.wait caller (.expire token late)
      | .live row => w.wait caller (.restore token row late)
  | .expire token late =>
      answer { w with sessions := w.sessions.revokeRow host token } caller ⟨token, late, none⟩
  | .restore token row late =>
      answer { w with sessions := w.sessions.restore token row } caller
        ⟨token, late, some (Sessions.recovered token row)⟩
  | .purge token =>
      finish { w with sessions := w.sessions.purge host token, revoked := w.revoked ++ [token] } caller
  | .popAll userId =>
      let popped := (w.sessions.userSessions userId).map Prod.fst
      wait { w with sessions := w.sessions.popAll userId, begun := w.begun ++ popped } caller
        (.markAll userId popped)
  | .markAll userId popped =>
      let gone := popped ++ w.tokensOfRows host userId
      finish { w with sessions := w.sessions.revokeRowsOf userId, begun := w.begun ++ gone,
                      revoked := w.revoked ++ gone } caller

/-- The process dies with its memory and its calls; a revocation that was under way is given up. -/
def restart (w : World Digest) : World Digest :=
  { w with sessions := { w.sessions with tokens := Table.empty }, pending := Table.empty,
           begun := w.revoked }

def free (w : World Digest) (caller : Nat) : Bool := (w.pending.get? caller).isNone

def step (w : World Digest) : SessionStep → World Digest
  | .create caller user ipAddress userAgent csrfToken now =>
      if w.free caller then w.startCreate host caller user ipAddress userAgent csrfToken now else w
  | .verify caller token now => if w.free caller then w.startVerify host caller token now else w
  | .revoke caller token => if w.free caller then w.startRevoke caller token else w
  | .revokeAll caller username => if w.free caller then w.startRevokeAll host caller username else w
  | .resume caller now =>
      match w.pending.get? caller with
      | none => w
      | some p => w.proceed host caller now p
  | .restart => w.restart

/-- No verification that started after a revocation of its token had returned has returned a session. -/
def RevocationIsFinal (w : World Digest) : Prop :=
  ∀ a ∈ w.answers, a.late = true → a.session = none

/-- What is not to happen in the gaps: no token whose revocation has begun is drawn, gets its row or
is put back, and the rows of a user are marked while none of the user's sessions is in memory. -/
def Undisturbed (w : World Digest) : SessionStep → Prop
  | .create _ _ _ _ _ _ => host.generateToken w.sessions.generated ∉ w.begun
  | .resume caller _ =>
      match w.pending.get? caller with
      | some (.insert token _ _) => token.token ∉ w.begun
      | some (.restore token _ _) => token ∉ w.begun
      | some (.markAll userId _) => w.sessions.userSessions userId = []
      | _ => True
  | _ => True

instance (w : World Digest) (op : SessionStep) : Decidable (w.Undisturbed host op) := by
  unfold Undisturbed
  split
  · infer_instance
  · split <;> infer_instance
  · infer_instance

end Steps

/-! ## The invariant -/

variable {host : SessionHost Digest}

/-- What is known of a caller's next step. -/
def Waits (w : World Digest) : Pending Digest → Prop
  | .insert token _ _ => token ∈ w.issued
  | .select token late => late = true → token ∈ w.revoked ∧ token ≠ ""
  | .expire _ late => late = false
  | .restore token row late => late = false ∧ Sessions.recovered token row ∈ w.issued
  | .purge token => token ∈ w.begun
  | .popAll _ => True
  | .markAll userId popped =>
      ∀ token ∈ popped, token ∈ w.begun ∧ ∃ t ∈ w.issued, t.token = token ∧ t.userId = userId

variable (host) in
/-- Every session in memory and every row is of an issued token, and a token whose revocation has begun
is not in memory; if one has returned, its rows are revoked as well. -/
structure Sound (w : World Digest) : Prop where
  counted : w.issued.length = w.sessions.generated
  drawn : ∀ i t, w.issued[i]? = some t → t.token = host.generateToken i
  held : ∀ e ∈ w.sessions.tokens.rows, e.2 ∈ w.issued ∧ e.1 = e.2.token
  rows : ∀ r ∈ w.sessions.rows, ∃ t ∈ w.issued, r.tokenHash = host.sha256 t.token ∧
    r.userId = t.userId ∧ r.tokenData = t.toTokenData
  begun : ∀ token ∈ w.begun, w.sessions.tokens.get? token = none
  revoked : ∀ token ∈ w.revoked, token ∈ w.begun ∧ (token ≠ "" →
    ∀ r ∈ w.sessions.rows, r.tokenHash = host.sha256 token → r.revoked = true)
  waits : ∀ caller p, w.pending.get? caller = some p → w.Waits p
  final : w.RevocationIsFinal

/-- Two issued tokens with the same text are the same. -/
theorem Sound.issued_unique {w : World Digest} (hw : w.Sound host) {t t' : AuthToken}
    (ht : t ∈ w.issued) (ht' : t' ∈ w.issued) (heq : t.token = t'.token) : t = t' := by
  obtain ⟨i, hi⟩ := List.mem_iff_getElem?.mp ht
  obtain ⟨j, hj⟩ := List.mem_iff_getElem?.mp ht'
  have hij : i = j := by
    apply host.generateToken_injective
    rw [← hw.drawn i t hi, ← hw.drawn j t' hj, heq]
  subst hij
  exact Option.some.inj (hi.symm.trans hj)

theorem Waits.mono {w w' : World Digest} (hissued : ∀ t ∈ w.issued, t ∈ w'.issued)
    (hbegun : ∀ t ∈ w.begun, t ∈ w'.begun) (hrevoked : ∀ t ∈ w.revoked, t ∈ w'.revoked)
    {p : Pending Digest} (hp : w.Waits p) : w'.Waits p := by
  cases p with
  | insert token ipAddress userAgent => exact hissued token hp
  | select token late => exact fun hlate => ⟨hrevoked token (hp hlate).1, (hp hlate).2⟩
  | expire token late => exact hp
  | restore token row late => exact ⟨hp.1, hissued _ hp.2⟩
  | purge token => exact hbegun token hp
  | popAll userId => exact hp
  | markAll userId popped =>
      intro token htoken
      obtain ⟨hb, t, ht, hsame⟩ := hp token htoken
      exact ⟨hbegun token hb, t, hissued t ht, hsame⟩

/-! ## What each kind of change keeps -/

theorem Sound.shrink {w : World Digest} (hw : w.Sound host) {sessions : Sessions Digest}
    (hshrinks : w.sessions.Shrinks sessions) : Sound host { w with sessions } where
  counted := hw.counted.trans hshrinks.generated.symm
  drawn := hw.drawn
  held := fun e he => hw.held e (hshrinks.tokens e he)
  rows := fun r' hr' => by
    obtain ⟨r, hr, hhash, huser, hdata, -⟩ := hshrinks.rows r' hr'
    obtain ⟨t, ht, hhash', huser', hdata'⟩ := hw.rows r hr
    exact ⟨t, ht, hhash.trans hhash', huser.trans huser', hdata.trans hdata'⟩
  begun := fun token htoken => hshrinks.get?_none (hw.begun token htoken)
  revoked := fun token htoken => by
    refine ⟨(hw.revoked token htoken).1, fun hne r' hr' hhash' => ?_⟩
    obtain ⟨r, hr, hhash, -, -, hrevoked⟩ := hshrinks.rows r' hr'
    exact hrevoked ((hw.revoked token htoken).2 hne r hr (hhash.symm.trans hhash'))
  waits := hw.waits
  final := hw.final

theorem Sound.wait {w : World Digest} (hw : w.Sound host) (caller : Nat) {p : Pending Digest}
    (hp : w.Waits p) : (w.wait caller p).Sound host :=
  { hw with
    waits := fun other q hq => by
      unfold World.wait at hq
      rw [Dict.get?_set] at hq
      split at hq
      · cases hq
        exact hp
      · exact hw.waits other q hq }

theorem Sound.finish {w : World Digest} (hw : w.Sound host) (caller : Nat) :
    (w.finish caller).Sound host :=
  { hw with
    waits := fun other q hq => by
      unfold World.finish at hq
      rw [Dict.get?_erase] at hq
      split at hq
      · cases hq
      · exact hw.waits other q hq }

theorem Sound.answer {w : World Digest} (hw : w.Sound host) (caller : Nat) {a : Answer}
    (ha : a.late = true → a.session = none) : (w.answer caller a).Sound host :=
  { hw.finish caller with
    final := fun a' ha' => by
      rcases List.mem_append.mp ha' with hold | hnew
      · exact hw.final a' hold
      · rw [List.mem_singleton.mp hnew]
        exact ha }

/-- Revocations begin of tokens that are not in memory. -/
theorem Sound.begin {w : World Digest} (hw : w.Sound host) (tokens : List String)
    (hgone : ∀ token ∈ tokens, w.sessions.tokens.get? token = none) :
    Sound host { w with begun := w.begun ++ tokens } :=
  { hw with
    begun := fun token htoken => (List.mem_append.mp htoken).elim (hw.begun token) (hgone token)
    revoked := fun token htoken =>
      ⟨List.mem_append_left _ (hw.revoked token htoken).1, (hw.revoked token htoken).2⟩
    waits := fun caller p hp => by
      refine (hw.waits caller p hp).mono ?_ ?_ ?_
      · exact fun _ h => h
      · exact fun _ h => List.mem_append_left _ h
      · exact fun _ h => h }

/-- Revocations return of tokens whose rows are revoked. -/
theorem Sound.revoke {w : World Digest} (hw : w.Sound host) (tokens : List String)
    (hbegun : ∀ token ∈ tokens, token ∈ w.begun)
    (hrows : ∀ token ∈ tokens, token ≠ "" →
      ∀ r ∈ w.sessions.rows, r.tokenHash = host.sha256 token → r.revoked = true) :
    Sound host { w with revoked := w.revoked ++ tokens } :=
  { hw with
    revoked := fun token htoken => (List.mem_append.mp htoken).elim (hw.revoked token)
      fun hnew => ⟨hbegun token hnew, hrows token hnew⟩
    waits := fun caller p hp => by
      refine (hw.waits caller p hp).mono ?_ ?_ ?_
      · exact fun _ h => h
      · exact fun _ h => h
      · exact fun _ h => List.mem_append_left _ h }

/-- An issued token is put into memory while no revocation of it has begun. -/
theorem Sound.put {w : World Digest} (hw : w.Sound host) {t : AuthToken} (ht : t ∈ w.issued)
    (hfresh : t.token ∉ w.begun) :
    Sound host { w with
      sessions := { w.sessions with tokens := w.sessions.tokens.set t.token t } } :=
  { hw with
    held := fun e he => by
      rcases Dict.mem_rows_set he with rfl | hold
      · exact ⟨ht, rfl⟩
      · exact hw.held e hold
    begun := fun token htoken => by
      have hne : token ≠ t.token := fun h => hfresh (h ▸ htoken)
      exact (Dict.get?_set_of_ne _ t hne).trans (hw.begun token htoken) }

theorem Sound.issue {w : World Digest} (hw : w.Sound host) {t : AuthToken}
    (ht : t.token = host.generateToken w.sessions.generated) :
    Sound host { w with
      sessions := { w.sessions with generated := w.sessions.generated + 1 },
      issued := w.issued ++ [t] } :=
  { hw with
    counted := by rw [List.length_append, hw.counted, List.length_singleton]
    drawn := fun i t' hi => by
      rcases lt_or_ge i w.issued.length with hlt | hge
      · exact hw.drawn i t' ((List.getElem?_append_left hlt).symm.trans hi)
      · rw [List.getElem?_append_right hge] at hi
        have hi' : i = w.issued.length := by
          have := (List.getElem?_eq_some_iff.mp hi).1
          simp only [List.length_singleton] at this
          omega
        subst hi'
        simp only [Nat.sub_self, List.getElem?_cons_zero, Option.some.injEq] at hi
        rw [← hi, ht, hw.counted]
    held := fun e he => ⟨List.mem_append_left _ (hw.held e he).1, (hw.held e he).2⟩
    rows := fun r hr => by
      obtain ⟨t', ht', hrow⟩ := hw.rows r hr
      exact ⟨t', List.mem_append_left _ ht', hrow⟩
    waits := fun caller p hp => by
      refine (hw.waits caller p hp).mono ?_ ?_ ?_
      · exact fun _ h => List.mem_append_left _ h
      · exact fun _ h => h
      · exact fun _ h => h }

theorem Sound.insert {w : World Digest} (hw : w.Sound host) {t : AuthToken} (ht : t ∈ w.issued)
    (hfresh : t.token ∉ w.begun) (ipAddress userAgent : String) :
    Sound host { w with sessions := w.sessions.insertRow host t ipAddress userAgent } :=
  { hw with
    rows := fun r hr => by
      rcases List.mem_append.mp hr with hold | hnew
      · exact hw.rows r hold
      · rw [List.mem_singleton.mp hnew]
        exact ⟨t, ht, rfl, rfl, rfl⟩
    revoked := fun token htoken => by
      refine ⟨(hw.revoked token htoken).1, fun hne r hr hhash => ?_⟩
      rcases List.mem_append.mp hr with hold | hnew
      · exact (hw.revoked token htoken).2 hne r hold hhash
      · rw [List.mem_singleton.mp hnew] at hhash
        exact absurd (host.sha256_injective hhash ▸ (hw.revoked token htoken).1) hfresh }

/-! ## One step -/

theorem sound_fresh : ({} : World Digest).Sound host where
  counted := rfl
  drawn := fun i t hi => by cases hi
  held := fun e he => by cases he
  rows := fun r hr => by cases hr
  begun := fun token htoken => by cases htoken
  revoked := fun token htoken => by cases htoken
  waits := fun caller p hp => by cases hp
  final := fun a ha => by cases ha

theorem Sound.startRevoke {w : World Digest} (hw : w.Sound host) (caller : Nat) (token : String) :
    (w.startRevoke caller token).Sound host := by
  have hpopped := (hw.shrink (Sessions.shrinks_pop w.sessions token)).begin [token]
    fun t ht => by rw [List.mem_singleton.mp ht]; exact Sessions.get?_pop w.sessions token
  exact hpopped.wait caller (List.mem_append_right _ (List.mem_singleton_self token))

theorem Sound.startRevokeAll {w : World Digest} (hw : w.Sound host) (caller : Nat)
    (username : String) : (w.startRevokeAll host caller username).Sound host := by
  unfold World.startRevokeAll
  split
  · exact hw
  · exact hw.wait caller trivial

variable [DecidableEq Digest]

theorem Sound.startCreate {w : World Digest} (hw : w.Sound host)
    (hfresh : host.generateToken w.sessions.generated ∉ w.begun) (caller : Nat) (user : AuthUser)
    (ipAddress userAgent csrfToken : String) (now : Time) :
    (w.startCreate host caller user ipAddress userAgent csrfToken now).Sound host := by
  let token := w.sessions.newToken host user csrfToken now
  have hshrinks := Sessions.shrinks_evictOldest host w.sessions token.userId
  have hissued := (hw.shrink hshrinks).issue (t := token) (by rw [hshrinks.generated]; rfl)
  have hmem : token ∈ w.issued ++ [token] := List.mem_append_right _ (List.mem_singleton_self token)
  exact (hissued.put hmem hfresh).wait caller hmem

theorem Sound.startVerify {w : World Digest} (hw : w.Sound host) (caller : Nat) (token : String)
    (now : Time) : (w.startVerify host caller token now).Sound host := by
  unfold World.startVerify
  dsimp only
  split
  · exact hw.answer caller fun _ => rfl
  · rename_i hne
    have hshrinks := Sessions.shrinks_lookUp host w.sessions token now
    split
    · rename_i sessions session hlook
      rw [hlook] at hshrinks
      refine (hw.shrink hshrinks).answer caller fun hlate => ?_
      -- a revoked token is not in memory, so memory has no answer for it
      have hgone := hw.begun token (hw.revoked token (of_decide_eq_true hlate)).1
      unfold Sessions.lookUp at hlook
      rw [hgone] at hlook
      cases hlook
    · rename_i sessions hlook
      rw [hlook] at hshrinks
      exact (hw.shrink hshrinks).wait caller fun hlate => ⟨of_decide_eq_true hlate, hne⟩

/-- The token of a row that was read is one that was issued. -/
theorem Sound.recovered_issued {w : World Digest} (hw : w.Sound host) {token : String} {now : Time}
    {row : SessionRow Digest} (hlive : w.sessions.readRow host token now = .live row) :
    Sessions.recovered token row ∈ w.issued := by
  obtain ⟨hrow, hhash, -⟩ := Sessions.readRow_live host hlive
  obtain ⟨t, ht, hhash', -, hdata⟩ := hw.rows row hrow
  have htoken : t.token = token := host.sha256_injective (hhash'.symm.trans hhash)
  have hsame : Sessions.recovered token row = t := by
    rw [← htoken]
    unfold Sessions.recovered
    rw [hdata]
  rw [hsame]
  exact ht

theorem Sound.select {w : World Digest} (hw : w.Sound host) {caller : Nat} {token : String}
    {late : Bool} (hwaits : w.Waits (.select token late)) (now : Time) :
    (w.proceed host caller now (.select token late)).Sound host := by
  have hrefused : late = true → w.sessions.readRow host token now = .refused := by
    intro hlate
    obtain ⟨hrevoked, hne⟩ := hwaits hlate
    exact Sessions.readRow_of_revoked host ((hw.revoked token hrevoked).2 hne) now
  have hearly : w.sessions.readRow host token now ≠ .refused → late = false := by
    intro hread
    cases late with
    | false => rfl
    | true => exact absurd (hrefused rfl) hread
  unfold proceed
  dsimp only
  cases hread : w.sessions.readRow host token now with
  | refused => exact hw.answer caller fun _ => rfl
  | expired => exact hw.wait caller (p := .expire token late) (hearly (by simp [hread]))
  | live row =>
      exact hw.wait caller (p := .restore token row late)
        ⟨hearly (by simp [hread]), hw.recovered_issued hread⟩

/-- The tokens whose rows a revocation of all sessions marks are those of the user. -/
theorem mem_tokensOfRows {w : World Digest} (hw : w.Sound host) {userId token : String}
    (htoken : token ∈ w.tokensOfRows host userId) :
    ∃ t ∈ w.issued, t.token = token ∧ t.userId = userId := by
  obtain ⟨t, ht, rfl⟩ := List.mem_map.mp htoken
  obtain ⟨hissued, hany⟩ := List.mem_filter.mp ht
  obtain ⟨r, hr, hrow⟩ := List.any_eq_true.mp hany
  obtain ⟨hhash, huser⟩ := of_decide_eq_true hrow
  obtain ⟨t', ht', hhash', huser', -⟩ := hw.rows r hr
  have hsame : t = t' := hw.issued_unique hissued ht' (host.sha256_injective (hhash.symm.trans hhash'))
  exact ⟨t, hissued, rfl, hsame ▸ huser'.symm.trans huser⟩

theorem Sound.markAll {w : World Digest} (hw : w.Sound host) {caller : Nat} {userId : String}
    {popped : List String} (hwaits : w.Waits (.markAll userId popped))
    (hnone : w.sessions.userSessions userId = []) (now : Time) :
    (w.proceed host caller now (.markAll userId popped)).Sound host := by
  let gone := popped ++ w.tokensOfRows host userId
  have hissued : ∀ token ∈ gone, ∃ t ∈ w.issued, t.token = token ∧ t.userId = userId := by
    intro token htoken
    rcases List.mem_append.mp htoken with hpopped | hrows
    · exact (hwaits token hpopped).2
    · exact mem_tokensOfRows hw hrows
  have hmarked := hw.shrink (Sessions.shrinks_revokeWhere w.sessions fun r => decide (r.userId = userId))
  have hbegun := hmarked.begin gone fun token htoken => by
    obtain ⟨t, ht, rfl, huser⟩ := hissued token htoken
    refine (Dict.get?_eq_none_iff _ _).mpr fun e he hkey => ?_
    obtain ⟨heissued, hetoken⟩ := hw.held e he
    have hsame : e.2 = t := hw.issued_unique heissued ht (hetoken.symm.trans hkey)
    have hmem : e ∈ w.sessions.userSessions userId :=
      List.mem_filter.mpr ⟨he, decide_eq_true (hsame ▸ huser)⟩
    rw [hnone] at hmem
    cases hmem
  refine (hbegun.revoke gone (fun _ h => List.mem_append_right _ h) ?_).finish caller
  intro token htoken _ r hr hhash
  obtain ⟨t, ht, rfl, huser⟩ := hissued token htoken
  obtain ⟨t', ht', hhash', huser', -⟩ := hmarked.rows r hr
  have hsame : t' = t := hw.issued_unique ht' ht (host.sha256_injective (hhash'.symm.trans hhash))
  exact Sessions.revoked_revokeRowsOf hr (huser'.trans (hsame ▸ huser))

/-- A step that meets the condition keeps the invariant. -/
theorem Sound.step {w : World Digest} (hw : w.Sound host) {op : SessionStep}
    (hop : w.Undisturbed host op) : (w.step host op).Sound host := by
  cases op with
  | create caller user ipAddress userAgent csrfToken now =>
      unfold World.step
      dsimp only
      split
      · exact hw.startCreate hop caller user ipAddress userAgent csrfToken now
      · exact hw
  | verify caller token now =>
      unfold World.step
      dsimp only
      split
      · exact hw.startVerify caller token now
      · exact hw
  | revoke caller token =>
      unfold World.step
      dsimp only
      split
      · exact hw.startRevoke caller token
      · exact hw
  | revokeAll caller username =>
      unfold World.step
      dsimp only
      split
      · exact hw.startRevokeAll caller username
      · exact hw
  | restart =>
      exact { hw with
        held := fun e he => by cases he
        begun := fun token _ => rfl
        revoked := fun token htoken => ⟨htoken, (hw.revoked token htoken).2⟩
        waits := fun caller p hp => by cases hp }
  | resume caller now =>
      unfold Undisturbed at hop
      unfold World.step
      dsimp only at hop ⊢
      cases hget : w.pending.get? caller with
      | none => exact hw
      | some p =>
          rw [hget] at hop
          have hwaits := hw.waits caller p hget
          cases p with
          | insert token ipAddress userAgent =>
              exact (hw.insert hwaits hop ipAddress userAgent).finish caller
          | select token late => exact hw.select hwaits now
          | expire token late =>
              exact (hw.shrink (Sessions.shrinks_revokeWhere w.sessions _)).answer caller fun _ => rfl
          | restore token row late =>
              exact (hw.put hwaits.2 hop).answer caller fun hlate => by
                rw [hwaits.1] at hlate
                cases hlate
          | purge token =>
              have hpurged := hw.shrink (Sessions.shrinks_purge host w.sessions token)
              refine (hpurged.revoke [token] ?_ ?_).finish caller
              · intro t ht
                rw [List.mem_singleton.mp ht]
                exact hwaits
              · intro t ht hne r hr hhash
                rw [List.mem_singleton.mp ht] at hne hhash
                exact Sessions.revoked_purge host hne hr hhash
          | popAll userId =>
              have hpopped := (hw.shrink (Sessions.shrinks_popAll w.sessions userId)).begin _
                fun token htoken => Sessions.get?_popAll htoken
              refine hpopped.wait caller fun token htoken => ⟨List.mem_append_right _ htoken, ?_⟩
              obtain ⟨e, he, rfl⟩ := List.mem_map.mp htoken
              obtain ⟨hmem, huser⟩ := List.mem_filter.mp he
              obtain ⟨hissued, htoken'⟩ := hw.held e hmem
              exact ⟨e.2, hissued, htoken'.symm, of_decide_eq_true huser⟩
          | markAll userId popped => exact hw.markAll hwaits hop now

/-- While no step disturbs a revocation that has begun, revocation is final. -/
theorem revocation_final {ops : List SessionStep}
    (meet : StepsMeet (step host) (Undisturbed host) {} ops) :
    Always (step host) RevocationIsFinal {} ops := by
  have halways := always_of_stepsMeet (I := Sound host) (fun w op _ hw hop => hw.step hop)
    sound_fresh meet
  exact halways.mono fun _ hw => hw.final

/-- A session is created and revoked, and a verification is refused it. -/
theorem revocation_final_in_turn :
    Always (step ashaHost) RevocationIsFinal {}
      [.create 0 asha "" "" "" 0, .resume 0 0, .revoke 1 "t", .resume 1 1, .verify 2 "t" 2,
        .resume 2 2] :=
  revocation_final (by decide +kernel)

/-- The verification of caller 2 reads the row before caller 1 marks it and puts the session back
afterwards; the verification of caller 3 finds it in memory. -/
theorem revoked_session_is_put_back :
    ¬ Always (step ashaHost) RevocationIsFinal {}
      [.create 0 asha "" "" "" 0, .resume 0 0, .revoke 1 "t", .verify 2 "t" 1, .resume 2 1,
        .resume 1 1, .resume 2 1, .verify 3 "t" 2] := by
  intro halways
  have hfinal := halways.final
  unfold RevocationIsFinal at hfinal
  revert hfinal
  decide +kernel

end World

end AutoTrade.Auth
