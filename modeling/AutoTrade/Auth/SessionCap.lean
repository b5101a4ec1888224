import AutoTrade.Auth.Sessions
import AutoTrade.Library.Run
import Mathlib.Data.List.Perm.Subperm

/-! # The session cap

The calls are made one after another, over restarts of the process. A session
that `verify_session` accepts is exactly an unrevoked and unexpired row: what is
in memory has such a row until it expires, and a row whose session is not in
memory is put back. The cap counts what is in memory.
-/

namespace AutoTrade.Auth

open AutoTrade.Library

structure SessionRun (Digest : Type) where
  sessions : Sessions Digest := {}
  now : Time := 0

inductive SessionCall
  | create (user : AuthUser) (ipAddress userAgent csrfToken : String)
  | verify (token : String)
  | revoke (token : String)
  | revokeAll (username : String)
  | purgeExpired
  | pass (duration : Nat)
  | restart

theorem countP_lt_of_mem {α : Type} {p q : α → Bool} {l : List α} {a : α} (ha : a ∈ l)
    (hmono : ∀ x ∈ l, p x = true → q x = true) (hp : p a = false) (hq : q a = true) :
    l.countP p < l.countP q := by
  obtain ⟨before, after, rfl⟩ := List.append_of_mem ha
  have hbefore : before.countP p ≤ before.countP q :=
    List.countP_mono_left fun x hx => hmono x (List.mem_append_left _ hx)
  have hafter : after.countP p ≤ after.countP q :=
    List.countP_mono_left fun x hx => hmono x (List.mem_append_right _ (List.mem_cons_of_mem a hx))
  rw [List.countP_append, List.countP_append, List.countP_cons_of_neg (by simp [hp]),
    List.countP_cons_of_pos hq]
  omega

namespace Sessions

variable {Digest : Type} (host : SessionHost Digest)

def liveCount (s : Sessions Digest) (userId : String) (now : Time) : Nat :=
  s.rows.countP fun r => r.live now && decide (r.userId = userId)

/-- Every row is of a token that was drawn, no two of one token, and every session in memory has an
unrevoked row with its data. -/
structure Tracked (s : Sessions Digest) : Prop where
  drawn : ∀ r ∈ s.rows, ∃ n < s.generated, r.tokenHash = host.sha256 (host.generateToken n)
  data : ∀ r ∈ s.rows, r.userId = r.tokenData.userId ∧ r.expiresTs = r.tokenData.expiresTs
  nodup : (s.rows.map SessionRow.tokenHash).Nodup
  held : ∀ e ∈ s.tokens.rows, e.2.token = e.1 ∧ ∃ r ∈ s.rows, r.revoked = false ∧
    r.tokenHash = host.sha256 e.1 ∧ r.tokenData = e.2.toTokenData

variable {host}

/-! ## What is accepted -/

theorem Tracked.row_unique {s : Sessions Digest} (hs : s.Tracked host) {r r' : SessionRow Digest}
    (hr : r ∈ s.rows) (hr' : r' ∈ s.rows) (hhash : r.tokenHash = r'.tokenHash) : r = r' :=
  List.inj_on_of_nodup_map hs.nodup hr hr' hhash

theorem Tracked.ne_empty {s : Sessions Digest} (hs : s.Tracked host) {r : SessionRow Digest}
    (hr : r ∈ s.rows) {token : String} (hhash : r.tokenHash = host.sha256 token) : token ≠ "" := by
  obtain ⟨n, -, hn⟩ := hs.drawn r hr
  rw [← host.sha256_injective (hn.symm.trans hhash)]
  exact host.generateToken_ne_empty n

theorem live_iff (r : SessionRow Digest) (now : Time) :
    r.live now = true ↔ r.revoked = false ∧ now < r.expiresTs := by
  simp [SessionRow.live]

variable [DecidableEq Digest]

/-- `verify_session` accepts a token exactly when it has an unrevoked and unexpired row. -/
theorem Tracked.accepts_iff {s : Sessions Digest} (hs : s.Tracked host) (token : String)
    (now : Time) (t : AuthToken) : (s.verifySession host token now).2 = some t ↔
      ∃ r ∈ s.rows, r.live now = true ∧ r.tokenHash = host.sha256 token ∧ t = recovered token r := by
  by_cases hempty : token = ""
  · subst hempty
    constructor
    · intro h
      cases h
    · rintro ⟨r, hr, -, hhash, -⟩
      exact absurd rfl (hs.ne_empty hr hhash)
  unfold verifySession lookUp
  rw [if_neg hempty]
  cases hget : s.tokens.get? token with
  | some held =>
      obtain ⟨htoken, r, hr, hrevoked, hhash, hdata⟩ := hs.held _ ((Dict.get?_eq_some_iff _ _ _).mp hget)
      have hexpires : r.expiresTs = held.expiresTs := by rw [(hs.data r hr).2, hdata]
      have hrecovered : recovered token r = held := by
        have heq : ({ toTokenData := held.toTokenData, token := held.token } : AuthToken) = held := rfl
        unfold recovered
        rw [hdata, ← heq, htoken]
      have hexpired : held.isExpired now = !r.live now := by
        unfold AuthToken.isExpired SessionRow.live
        rw [hrevoked, hexpires, Bool.not_false, Bool.true_and, ← decide_not, decide_eq_decide, not_lt]
      dsimp only
      rw [hexpired]
      cases hlive : r.live now with
      | false =>
          simp only [Bool.not_false, if_true]
          constructor
          · intro h
            cases h
          · rintro ⟨r', hr', hlive', hhash', -⟩
            rw [hs.row_unique hr' hr (hhash'.trans hhash.symm), hlive] at hlive'
            cases hlive'
      | true =>
          simp only [Bool.not_true, Bool.false_eq_true, if_false, Option.some.injEq]
          constructor
          · rintro rfl
            exact ⟨r, hr, hlive, hhash, hrecovered.symm⟩
          · rintro ⟨r', hr', -, hhash', rfl⟩
            rw [hs.row_unique hr' hr (hhash'.trans hhash.symm), hrecovered]
  | none =>
      dsimp only
      unfold readRow
      cases hfind : s.rows.find? fun r => decide (r.tokenHash = host.sha256 token ∧ r.revoked = false) with
      | none =>
          constructor
          · intro h
            cases h
          · rintro ⟨r, hr, hlive, hhash, -⟩
            have hnone := List.find?_eq_none.mp hfind r hr
            simp [hhash, ((live_iff r now).mp hlive).1] at hnone
      | some row =>
          have hrow := List.mem_of_find?_eq_some hfind
          obtain ⟨hhash, hrevoked⟩ : row.tokenHash = host.sha256 token ∧ row.revoked = false := by
            simpa using List.find?_some hfind
          dsimp only
          rw [hrevoked, if_neg Bool.false_ne_true]
          by_cases hexpired : row.expiresTs ≤ now
          · rw [if_pos hexpired]
            constructor
            · intro h
              cases h
            · rintro ⟨r', hr', hlive', hhash', -⟩
              rw [hs.row_unique hr' hrow (hhash'.trans hhash.symm)] at hlive'
              exact absurd ((live_iff row now).mp hlive').2 (not_lt.mpr hexpired)
          · rw [if_neg hexpired]
            simp only [Option.some.injEq]
            constructor
            · rintro rfl
              exact ⟨row, hrow, (live_iff row now).mpr ⟨hrevoked, not_le.mp hexpired⟩, hhash, rfl⟩
            · rintro ⟨r', hr', -, hhash', rfl⟩
              rw [hs.row_unique hr' hrow (hhash'.trans hhash.symm)]

omit [DecidableEq Digest] in
theorem exists_tokens (host : SessionHost Digest) (rows : List (SessionRow Digest))
    (hdrawn : ∀ r ∈ rows, ∃ token, r.tokenHash = host.sha256 token) :
    ∃ tokens : List String, tokens.map host.sha256 = rows.map SessionRow.tokenHash := by
  induction rows with
  | nil => exact ⟨[], rfl⟩
  | cons r rest ih =>
      obtain ⟨token, htoken⟩ := hdrawn r List.mem_cons_self
      obtain ⟨tokens, htokens⟩ := ih fun r' hr' => hdrawn r' (List.mem_cons_of_mem r hr')
      exact ⟨token :: tokens, by rw [List.map_cons, List.map_cons, htoken, htokens]⟩

variable (host) in
/-- No more than the cap of a user's tokens are accepted. -/
def Capped (s : Sessions Digest) (now : Time) : Prop :=
  ∀ userId, ∀ tokens : List String, tokens.Nodup →
    (∀ token ∈ tokens, ∃ t, (s.verifySession host token now).2 = some t ∧ t.userId = userId) →
    tokens.length ≤ maxConcurrentSessions

theorem Tracked.capped_iff {s : Sessions Digest} (hs : s.Tracked host) (now : Time) :
    s.Capped host now ↔ ∀ userId, s.liveCount userId now ≤ maxConcurrentSessions := by
  constructor
  · intro hcapped userId
    let live := s.rows.filter fun r => r.live now && decide (r.userId = userId)
    have hmem : ∀ r ∈ live, r ∈ s.rows ∧ r.live now = true ∧ r.userId = userId := by
      intro r hr
      obtain ⟨hrow, hlive⟩ := List.mem_filter.mp hr
      obtain ⟨hlive, huser⟩ := Bool.and_eq_true_iff.mp hlive
      exact ⟨hrow, hlive, of_decide_eq_true huser⟩
    obtain ⟨tokens, htokens⟩ := exists_tokens host live fun r hr => by
      obtain ⟨n, -, hn⟩ := hs.drawn r (hmem r hr).1
      exact ⟨_, hn⟩
    have hlength : tokens.length = s.liveCount userId now := by
      have h := congrArg List.length htokens
      rw [List.length_map, List.length_map, ← List.countP_eq_length_filter] at h
      exact h
    rw [← hlength]
    refine hcapped userId tokens ?_ fun token htoken => ?_
    · refine List.Nodup.of_map host.sha256 ?_
      rw [htokens]
      exact hs.nodup.sublist (List.filter_sublist.map _)
    · have hhash : host.sha256 token ∈ live.map SessionRow.tokenHash := by
        rw [← htokens]
        exact List.mem_map_of_mem htoken
      obtain ⟨r, hr, hhash⟩ := List.mem_map.mp hhash
      obtain ⟨hrow, hlive, huser⟩ := hmem r hr
      refine ⟨recovered token r, (hs.accepts_iff token now _).mpr ⟨r, hrow, hlive, hhash, rfl⟩, ?_⟩
      exact (hs.data r hrow).1.symm.trans huser
  · intro hcount userId tokens hnodup haccepted
    have hsub : tokens.map host.sha256 ⊆
        (s.rows.filter fun r => r.live now && decide (r.userId = userId)).map
          SessionRow.tokenHash := by
      intro hash hhash
      obtain ⟨token, htoken, rfl⟩ := List.mem_map.mp hhash
      obtain ⟨t, ht, huser⟩ := haccepted token htoken
      obtain ⟨r, hr, hlive, hhash, rfl⟩ := (hs.accepts_iff token now t).mp ht
      refine List.mem_map.mpr ⟨r, List.mem_filter.mpr ⟨hr, ?_⟩, hhash⟩
      rw [hlive, decide_eq_true ((hs.data r hr).1.trans huser)]
      rfl
    have hle := (List.subperm_of_subset (hnodup.map host.sha256_injective) hsub).length_le
    rw [List.length_map, List.length_map, ← List.countP_eq_length_filter] at hle
    exact hle.trans (hcount userId)

/-! ## What the parts keep -/

omit [DecidableEq Digest] in
theorem liveCount_revokeWhere_le (s : Sessions Digest) (p : SessionRow Digest → Bool)
    (userId : String) (now : Time) : (s.revokeWhere p).liveCount userId now ≤ s.liveCount userId now := by
  unfold liveCount revokeWhere
  rw [List.countP_map]
  refine List.countP_mono_left fun r _ h => ?_
  dsimp only [Function.comp_apply] at h
  split at h
  · cases h
  · exact h

theorem liveCount_purge_le (s : Sessions Digest) (token userId : String) (now : Time) :
    (s.purge host token).liveCount userId now ≤ s.liveCount userId now := by
  unfold purge
  split
  · exact le_rfl
  · exact liveCount_revokeWhere_le s _ userId now

omit [DecidableEq Digest] in
theorem liveCount_le_of_later (s : Sessions Digest) (userId : String) {now later : Time}
    (hle : now ≤ later) : s.liveCount userId later ≤ s.liveCount userId now := by
  unfold liveCount
  refine List.countP_mono_left fun r _ h => ?_
  obtain ⟨hlive, huser⟩ := Bool.and_eq_true_iff.mp h
  obtain ⟨hrevoked, hexpires⟩ := (live_iff r later).mp hlive
  rw [(live_iff r now).mpr ⟨hrevoked, lt_of_le_of_lt hle hexpires⟩, huser]
  rfl

omit [DecidableEq Digest] in
/-- Sessions leave memory. -/
theorem Tracked.drop {s : Sessions Digest} (hs : s.Tracked host) {tokens : Dict String AuthToken}
    (hsub : ∀ e ∈ tokens.rows, e ∈ s.tokens.rows) : Tracked host { s with tokens } :=
  { hs with held := fun e he => hs.held e (hsub e he) }

omit [DecidableEq Digest] in
/-- Rows are revoked of which no session is in memory. -/
theorem Tracked.revokeWhere {s : Sessions Digest} (hs : s.Tracked host)
    {p : SessionRow Digest → Bool} (hkept : ∀ e ∈ s.tokens.rows, ∀ r ∈ s.rows,
      r.tokenHash = host.sha256 e.1 → r.tokenData = e.2.toTokenData → p r = false) :
    (s.revokeWhere p).Tracked host where
  drawn := fun r hr => by
    obtain ⟨r₀, hr₀, rfl⟩ := mem_revokeWhere hr
    split <;> exact hs.drawn r₀ hr₀
  data := fun r hr => by
    obtain ⟨r₀, hr₀, rfl⟩ := mem_revokeWhere hr
    split <;> exact hs.data r₀ hr₀
  nodup := by
    have hsame : (s.revokeWhere p).rows.map SessionRow.tokenHash = s.rows.map SessionRow.tokenHash := by
      unfold Sessions.revokeWhere
      rw [List.map_map]
      refine List.map_congr_left fun r _ => ?_
      dsimp only [Function.comp_apply]
      split <;> rfl
    rw [hsame]
    exact hs.nodup
  held := fun e he => by
    obtain ⟨htoken, r, hr, hrevoked, hhash, hdata⟩ := hs.held e he
    refine ⟨htoken, r, List.mem_map.mpr ⟨r, hr, ?_⟩, hrevoked, hhash, hdata⟩
    rw [hkept e he r hr hhash hdata]
    rfl

theorem Tracked.revokeRow {s : Sessions Digest} (hs : s.Tracked host) {token : String}
    (hnone : s.tokens.get? token = none) : (s.revokeRow host token).Tracked host :=
  hs.revokeWhere fun e he r _ hhash _ => by
    refine decide_eq_false fun hrow => ?_
    exact (Dict.get?_eq_none_iff _ _).mp hnone e he (host.sha256_injective (hhash.symm.trans hrow))

theorem Tracked.popPurge {s : Sessions Digest} (hs : s.Tracked host) (token : String) :
    ((s.pop token).purge host token).Tracked host := by
  have hpopped : (s.pop token).Tracked host := hs.drop (shrinks_pop s token).tokens
  unfold purge
  split
  · exact hpopped
  · exact hpopped.revokeRow (get?_pop s token)

theorem Tracked.evictOldest {s : Sessions Digest} (hs : s.Tracked host) (userId : String) :
    (s.evictOldest host userId).Tracked host := by
  unfold Sessions.evictOldest
  split
  · exact hs
  · split
    · exact hs
    · exact hs.popPurge _

theorem Tracked.restore {s : Sessions Digest} (hs : s.Tracked host) {token : String} {now : Time}
    {row : SessionRow Digest} (hlive : s.readRow host token now = .live row) :
    (s.restore token row).Tracked host :=
  { hs with
    held := fun e he => by
      rcases Dict.mem_rows_set he with rfl | hold
      · obtain ⟨hrow, hhash, hrevoked⟩ := readRow_live host hlive
        exact ⟨rfl, row, hrow, hrevoked, hhash, rfl⟩
      · exact hs.held e hold }

theorem Tracked.verifySession {s : Sessions Digest} (hs : s.Tracked host) (token : String)
    (now : Time) : (s.verifySession host token now).1.Tracked host ∧
      ∀ userId later, (s.verifySession host token now).1.liveCount userId later ≤
        s.liveCount userId later := by
  unfold Sessions.verifySession lookUp
  split
  · exact ⟨hs, fun _ _ => le_rfl⟩
  · cases hget : s.tokens.get? token with
    | some t =>
        dsimp only
        cases t.isExpired now with
        | true => exact ⟨hs.popPurge token, fun userId later => liveCount_purge_le _ token userId later⟩
        | false => exact ⟨hs, fun _ _ => le_rfl⟩
    | none =>
        dsimp only
        cases hread : s.readRow host token now with
        | refused => exact ⟨hs, fun _ _ => le_rfl⟩
        | expired =>
            exact ⟨hs.revokeRow hget, fun userId later => liveCount_revokeWhere_le s _ userId later⟩
        | live row => exact ⟨hs.restore hread, fun _ _ => le_rfl⟩

omit [DecidableEq Digest] in
theorem Tracked.revokeAllUserSessions {s : Sessions Digest} (hs : s.Tracked host)
    (username : String) : (s.revokeAllUserSessions host username).1.Tracked host ∧
      ∀ userId now, (s.revokeAllUserSessions host username).1.liveCount userId now ≤
        s.liveCount userId now := by
  unfold Sessions.revokeAllUserSessions
  split
  · exact ⟨hs, fun _ _ => le_rfl⟩
  · rename_i user _
    refine ⟨?_, fun userId now => liveCount_revokeWhere_le _ _ userId now⟩
    refine (hs.drop (shrinks_popAll s user.userId).tokens).revokeWhere fun e he r hr _ hdata => ?_
    refine decide_eq_false fun huser => ?_
    have hother := of_decide_eq_true (List.mem_filter.mp he).2
    rw [(hs.data r hr).1, hdata] at huser
    exact hother huser

omit [DecidableEq Digest] in
theorem Tracked.purgeExpired {s : Sessions Digest} (hs : s.Tracked host) (now : Time) :
    (s.purgeExpiredSessions now).1.Tracked host := by
  unfold Sessions.purgeExpiredSessions
  refine Tracked.revokeWhere (hs.drop fun e he => (List.mem_filter.mp he).1) fun e he r hr _ hdata => ?_
  refine decide_eq_false fun hexpired => ?_
  have hkept := (List.mem_filter.mp he).2
  rw [(hs.data r hr).2, hdata] at hexpired
  unfold AuthToken.isExpired at hkept
  rw [Bool.not_eq_true', decide_eq_false_iff_not] at hkept
  exact hkept hexpired.1.le

/-! ## Creation -/

omit [DecidableEq Digest] in
/-- A creation has room for one more session: at least ten of the user's are in memory and the oldest
of them, which is evicted, is unexpired. -/
def Evicts (s : Sessions Digest) (userId : String) (now : Time) : Prop :=
  maxConcurrentSessions ≤ (s.userSessions userId).length ∧
    ∃ e ∈ s.oldest? userId, e.2.isExpired now = false

instance (s : Sessions Digest) (userId : String) (now : Time) : Decidable (s.Evicts userId now) :=
  inferInstanceAs (Decidable (_ ∧ _))

omit [DecidableEq Digest] in
theorem mem_of_oldest? {s : Sessions Digest} {userId : String} {e : String × AuthToken}
    (h : e ∈ s.oldest? userId) : e ∈ s.tokens.rows ∧ e.2.userId = userId := by
  obtain ⟨hmem, huser⟩ := List.mem_filter.mp (List.argmin_mem h)
  exact ⟨hmem, of_decide_eq_true huser⟩

theorem Tracked.liveCount_of_evicts {s : Sessions Digest} (hs : s.Tracked host) {userId : String}
    {now : Time} (hevicts : s.Evicts userId now) :
    (s.evictOldest host userId).liveCount userId now < s.liveCount userId now := by
  obtain ⟨hfull, e, he, hunexpired⟩ := hevicts
  obtain ⟨hmem, huser⟩ := mem_of_oldest? he
  obtain ⟨-, r, hr, hrevoked, hhash, hdata⟩ := hs.held e hmem
  have hne : e.1 ≠ "" := hs.ne_empty hr hhash
  have hlive : r.live now = true := by
    refine (live_iff r now).mpr ⟨hrevoked, ?_⟩
    rw [(hs.data r hr).2, hdata]
    exact not_le.mp (of_decide_eq_false hunexpired)
  unfold Sessions.evictOldest
  rw [if_neg (not_lt.mpr hfull), Option.mem_def.mp he]
  dsimp only
  unfold purge
  rw [if_neg hne]
  unfold liveCount Sessions.revokeRow Sessions.revokeWhere
  rw [List.countP_map]
  refine countP_lt_of_mem hr (fun r' _ h => ?_) ?_ ?_
  · dsimp only [Function.comp_apply] at h
    split at h
    · cases h
    · exact h
  · dsimp only [Function.comp_apply]
    rw [if_pos (decide_eq_true hhash)]
    rfl
  · rw [hlive, decide_eq_true ((hs.data r hr).1.trans (hdata ▸ huser))]
    rfl

theorem Tracked.liveCount_of_not_evicts {s : Sessions Digest} (hs : s.Tracked host)
    {userId : String} {now : Time} (hkeeps : ¬ s.Evicts userId now) :
    (s.evictOldest host userId).liveCount userId now = s.liveCount userId now := by
  unfold Sessions.evictOldest
  split
  · rfl
  · rename_i hfull
    split
    · rfl
    · rename_i key t holdest
      have hexpired : t.isExpired now = true := by
        refine Bool.not_eq_false _ |>.mp fun hunexpired => hkeeps ⟨not_lt.mp hfull, _, holdest, hunexpired⟩
      obtain ⟨-, r, hr, hrevoked, hhash, hdata⟩ := hs.held _ (mem_of_oldest? holdest).1
      unfold purge
      rw [if_neg (hs.ne_empty hr hhash)]
      unfold liveCount Sessions.revokeRow Sessions.revokeWhere
      rw [List.countP_map]
      refine List.countP_congr fun r' hr' => ?_
      dsimp only [Function.comp_apply]
      split
      · rename_i hrow
        obtain rfl : r' = r := hs.row_unique hr' hr ((of_decide_eq_true hrow).trans hhash.symm)
        have hdead : r'.live now = false := by
          have hle : r'.expiresTs ≤ now := by
            rw [(hs.data r' hr').2, hdata]
            exact of_decide_eq_true hexpired
          rw [← Bool.not_eq_true, live_iff]
          exact fun h => absurd h.2 (not_lt.mpr hle)
        rw [hdead]
        simp [SessionRow.live]
      · rfl

variable (host) in
/-- What a creation adds to the live rows of a user, after the eviction. -/
theorem liveCount_createSession (s : Sessions Digest) (user : AuthUser)
    (ipAddress userAgent csrfToken : String) (now : Time) (userId : String) :
    (s.createSession host user ipAddress userAgent csrfToken now).1.liveCount userId now =
      (s.evictOldest host user.userId).liveCount userId now +
        (if 0 < host.tokenTtl ∧ userId = user.userId then 1 else 0) := by
  have hnew : (!false && decide (now < now + host.tokenTtl) && decide (user.userId = userId)) = true ↔
      0 < host.tokenTtl ∧ userId = user.userId := by
    rw [Bool.not_false, Bool.true_and, Bool.and_eq_true_iff, decide_eq_true_iff, decide_eq_true_iff,
      eq_comm (a := user.userId)]
    exact and_congr_left fun _ => lt_add_iff_pos_right now
  unfold createSession storeToken insertRow newToken liveCount SessionRow.live
  dsimp only
  rw [List.countP_append, List.countP_singleton]
  simp only [hnew]

theorem Tracked.createSession {s : Sessions Digest} (hs : s.Tracked host) (user : AuthUser)
    (ipAddress userAgent csrfToken : String) (now : Time) :
    (s.createSession host user ipAddress userAgent csrfToken now).1.Tracked host := by
  have hevicted := hs.evictOldest user.userId
  have hgenerated := (shrinks_evictOldest host s user.userId).generated
  have hfresh : ∀ r ∈ (s.evictOldest host user.userId).rows,
      r.tokenHash ≠ host.sha256 (host.generateToken s.generated) := by
    intro r hr heq
    obtain ⟨n, hlt, hn⟩ := hevicted.drawn r hr
    have hsame := host.generateToken_injective (host.sha256_injective (hn.symm.trans heq))
    rw [hgenerated] at hlt
    exact absurd hsame hlt.ne
  refine ⟨?_, ?_, ?_, ?_⟩
  · intro r hr
    rcases List.mem_append.mp hr with hold | hnew
    · obtain ⟨n, hlt, hn⟩ := hevicted.drawn r hold
      exact ⟨n, Nat.lt_succ_of_lt hlt, hn⟩
    · rw [List.mem_singleton.mp hnew]
      exact ⟨s.generated, Nat.lt_succ_of_le hgenerated.ge, rfl⟩
  · intro r hr
    rcases List.mem_append.mp hr with hold | hnew
    · exact hevicted.data r hold
    · rw [List.mem_singleton.mp hnew]
      exact ⟨rfl, rfl⟩
  · exact Table.nodup_append_row hevicted.nodup hfresh
  · intro e he
    rcases Dict.mem_rows_set he with rfl | hold
    · exact ⟨rfl, _, List.mem_append_right _ (List.mem_singleton_self _), rfl, rfl, rfl⟩
    · obtain ⟨htoken, r, hr, hrow⟩ := hevicted.held e hold
      exact ⟨htoken, r, List.mem_append_left _ hr, hrow⟩

end Sessions

/-! ## Runs -/

namespace SessionRun

variable {Digest : Type} [DecidableEq Digest] (host : SessionHost Digest)

def step (r : SessionRun Digest) : SessionCall → SessionRun Digest
  | .create user ipAddress userAgent csrfToken =>
      { r with
        sessions := (r.sessions.createSession host user ipAddress userAgent csrfToken r.now).1 }
  | .verify token => { r with sessions := (r.sessions.verifySession host token r.now).1 }
  | .revoke token => { r with sessions := (r.sessions.revokeSession host token).1 }
  | .revokeAll username => { r with sessions := (r.sessions.revokeAllUserSessions host username).1 }
  | .purgeExpired => { r with sessions := (r.sessions.purgeExpiredSessions r.now).1 }
  | .pass duration => { r with now := r.now + duration }
  | .restart => { r with sessions := { r.sessions with tokens := Table.empty } }

def Capped (r : SessionRun Digest) : Prop := r.sessions.Capped host r.now

/-- A session is created where the user has fewer unrevoked and unexpired rows than the cap, or where
one of them is evicted. -/
def WithinCap (r : SessionRun Digest) : SessionCall → Prop
  | .create user _ _ _ =>
      host.tokenTtl ≤ 0 ∨ r.sessions.liveCount user.userId r.now < maxConcurrentSessions ∨
        r.sessions.Evicts user.userId r.now
  | _ => True

variable {host}

theorem tracked_step {r : SessionRun Digest} (hr : r.sessions.Tracked host) (call : SessionCall) :
    (r.step host call).sessions.Tracked host := by
  cases call with
  | create user ipAddress userAgent csrfToken =>
      exact hr.createSession user ipAddress userAgent csrfToken r.now
  | verify token => exact (hr.verifySession token r.now).1
  | revoke token => exact hr.popPurge token
  | revokeAll username => exact (hr.revokeAllUserSessions username).1
  | purgeExpired => exact hr.purgeExpired r.now
  | pass duration => exact hr
  | restart => exact hr.drop fun e he => by cases he

/-- Only a creation adds to what is accepted. -/
theorem liveCount_step_le {r : SessionRun Digest} (hr : r.sessions.Tracked host) {call : SessionCall}
    (hcall : ∀ user ipAddress userAgent csrfToken,
      call ≠ .create user ipAddress userAgent csrfToken) (userId : String) :
    (r.step host call).sessions.liveCount userId (r.step host call).now ≤
      r.sessions.liveCount userId r.now := by
  cases call with
  | create user ipAddress userAgent csrfToken => exact absurd rfl (hcall _ _ _ _)
  | verify token => exact (hr.verifySession token r.now).2 userId r.now
  | revoke token => exact Sessions.liveCount_purge_le _ token userId r.now
  | revokeAll username => exact (hr.revokeAllUserSessions username).2 userId r.now
  | purgeExpired => exact Sessions.liveCount_revokeWhere_le _ _ userId r.now
  | pass duration =>
      exact Sessions.liveCount_le_of_later _ userId (le_add_of_nonneg_right (Int.natCast_nonneg duration))
  | restart => exact le_rfl

theorem liveCount_create_le_iff {r : SessionRun Digest} (hr : r.sessions.Tracked host)
    (hcapped : ∀ userId, r.sessions.liveCount userId r.now ≤ maxConcurrentSessions) (user : AuthUser)
    (ipAddress userAgent csrfToken : String) :
    (∀ userId, (r.step host (.create user ipAddress userAgent csrfToken)).sessions.liveCount userId
        r.now ≤ maxConcurrentSessions) ↔
      r.WithinCap host (.create user ipAddress userAgent csrfToken) := by
  have hadded := fun userId => r.sessions.liveCount_createSession host user ipAddress userAgent
    csrfToken r.now userId
  have hrest : ∀ userId, (r.sessions.evictOldest host user.userId).liveCount userId r.now ≤
      r.sessions.liveCount userId r.now := by
    intro userId
    unfold Sessions.evictOldest
    split
    · exact le_rfl
    · split
      · exact le_rfl
      · exact Sessions.liveCount_purge_le _ _ userId r.now
  have hbound : (r.sessions.evictOldest host user.userId).liveCount user.userId r.now + 1 ≤
      maxConcurrentSessions ↔ r.sessions.liveCount user.userId r.now < maxConcurrentSessions ∨
        r.sessions.Evicts user.userId r.now := by
    by_cases hevicts : r.sessions.Evicts user.userId r.now
    · have hless := hr.liveCount_of_evicts hevicts
      exact ⟨fun _ => .inr hevicts, fun _ => hless.trans_le (hcapped user.userId)⟩
    · rw [hr.liveCount_of_not_evicts hevicts]
      exact ⟨.inl, fun h => h.resolve_right hevicts⟩
  unfold WithinCap
  dsimp only
  by_cases hpositive : 0 < host.tokenTtl
  · rw [← hbound]
    constructor
    · intro h
      have huser := h user.userId
      unfold step at huser
      rw [hadded, if_pos ⟨hpositive, rfl⟩] at huser
      exact .inr huser
    · intro h userId
      have hone := h.resolve_left (not_le.mpr hpositive)
      unfold step
      rw [hadded]
      by_cases hsame : userId = user.userId
      · subst hsame
        rw [if_pos ⟨hpositive, rfl⟩]
        exact hone
      · rw [if_neg fun h => hsame h.2]
        exact (hrest userId).trans (hcapped userId)
  · refine ⟨fun _ => .inl (not_lt.mp hpositive), fun _ userId => ?_⟩
    unfold step
    rw [hadded, if_neg fun h => hpositive h.1]
    exact (hrest userId).trans (hcapped userId)

/-- The cap holds throughout a run exactly when every creation stays within it. -/
theorem capped_throughout_iff (start : Time) (calls : List SessionCall) :
    Always (step host) (Capped host) { now := start } calls ↔
      StepsMeet (step host) (WithinCap host) { now := start } calls := by
  refine always_iff_stepsMeet_of_stronger
    (J := fun r => r.sessions.Tracked host ∧
      ∀ userId, r.sessions.liveCount userId r.now ≤ maxConcurrentSessions) ?_ ?_ ?_ ?_
  · rintro r ⟨hr, hcount⟩
    exact (hr.capped_iff r.now).mpr hcount
  · rintro r call - ⟨hr, hcount⟩ hwithin
    refine ⟨tracked_step hr call, ?_⟩
    cases call with
    | create user ipAddress userAgent csrfToken =>
        exact (liveCount_create_le_iff hr hcount user ipAddress userAgent csrfToken).mpr hwithin
    | verify | revoke | revokeAll | purgeExpired | pass | restart =>
        exact fun userId => (liveCount_step_le hr (by simp) userId).trans (hcount userId)
  · rintro r call - ⟨hr, hcount⟩ hcapped
    cases call with
    | create user ipAddress userAgent csrfToken =>
        have hafter := ((tracked_step hr _).capped_iff _).mp hcapped
        exact (liveCount_create_le_iff hr hcount user ipAddress userAgent csrfToken).mp hafter
    | verify | revoke | revokeAll | purgeExpired | pass | restart => trivial
  · refine ⟨⟨?_, ?_, List.nodup_nil, ?_⟩, fun userId => Nat.zero_le _⟩
    · intro r hr
      cases hr
    · intro r hr
      cases hr
    · intro e he
      cases he

/-- Ten sessions are created, the process restarts and an eleventh is created: all are accepted. -/
theorem eleven_after_restart :
    ¬ Always (step ashaHost) (Capped ashaHost) {}
      (List.replicate 10 (.create asha "" "" "") ++ [.restart, .create asha "" "" ""]) := by
  intro halways
  have hcapped := halways.final
  let tokens := (List.range 11).map ashaHost.generateToken
  let final := run (step ashaHost) ({} : SessionRun String)
    (List.replicate 10 (.create asha "" "" "") ++ [.restart, .create asha "" "" ""])
  have haccepted : ∀ token ∈ tokens,
      ((final.sessions.verifySession ashaHost token final.now).2.map fun t => t.userId) = some "u1" := by
    decide +kernel
  have hlength := hcapped "u1" tokens (by decide +kernel) fun token htoken =>
    Option.map_eq_some_iff.mp (haccepted token htoken)
  exact absurd hlength (by decide)

end SessionRun

end AutoTrade.Auth
