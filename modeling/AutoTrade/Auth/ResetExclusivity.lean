import AutoTrade.Auth.ResetTokens

/-! # Reset tokens are exclusive while their use is orderly

An unused row is of the newest token of its account, and the rows of a token
that was taken are used. A caller that is changing a password has taken its
token, and no other caller is changing one with the same token.
-/

namespace AutoTrade.Auth

open AutoTrade.Library

namespace ResetStore

variable {Digest : Type}

/-- Rows may have been deleted or marked as used; nothing else about tokens has changed. -/
structure Settles (s s' : ResetStore Digest) : Prop where
  rows : ∀ r' ∈ s'.rows, ∃ r ∈ s.rows, r'.tokenHash = r.tokenHash ∧ r'.username = r.username ∧
    (r.used = true → r'.used = true)
  generated : s'.generated = s.generated

variable [DecidableEq Digest] (host : TokenHost Digest)

theorem settles_markUsed (s : ResetStore Digest) (token : String) :
    s.Settles (s.markUsed host token) := by
  refine ⟨fun r' hr' => ?_, rfl⟩
  obtain ⟨r, hr, rfl⟩ := List.mem_map.mp hr'
  refine ⟨r, hr, ?_⟩
  split
  · exact ⟨rfl, rfl, fun _ => rfl⟩
  · exact ⟨rfl, rfl, id⟩

theorem settles_discard (s : ResetStore Digest) (token : String) :
    s.Settles (s.discard host token) :=
  ⟨fun r hr => ⟨r, (List.mem_filter.mp hr).1, rfl, rfl, id⟩, rfl⟩

theorem used_markUsed {s : ResetStore Digest} {token : String} {r : ResetRow Digest}
    (hr : r ∈ (s.markUsed host token).rows) (hhash : r.tokenHash = host.sha256 token) :
    r.used = true := by
  obtain ⟨r₀, -, rfl⟩ := List.mem_map.mp hr
  split at hhash
  · rename_i hsame
    rw [if_pos hsame]
  · rename_i hother
    exact absurd hhash hother

theorem readRow_live {s : ResetStore Digest} {token username : String} {now later : Time}
    (hlive : s.readRow host token now later = .live username) :
    ∃ r ∈ s.rows, r.tokenHash = host.sha256 token ∧ r.used = false := by
  unfold readRow at hlive
  split at hlive
  · cases hlive
  · rename_i row hfind
    have hhash := List.find?_some hfind
    simp only [decide_eq_true_eq] at hhash
    split at hlive
    · split at hlive <;> cases hlive
    · rename_i hfresh
      exact ⟨row, List.mem_of_find?_eq_some hfind, hhash,
        Bool.eq_false_iff.mpr fun hused => hfresh (.inl hused)⟩

end ResetStore

/-- The token of a password change that is under way. -/
def PendingReset.resets : PendingReset → Option String
  | .findUser token _ _ _ | .setPassword token _ _ _ => some token
  | _ => none

namespace ResetWorld

variable {Digest : Type}

theorem newest_append_self (issued : List (String × String)) (token account : String) :
    newest (issued ++ [(token, account)]) account = some token := by
  unfold newest
  rw [List.filter_append, List.filter_cons_of_pos (by simp), List.filter_nil,
    List.getLast?_append_of_ne_nil _ (List.cons_ne_nil _ _)]
  rfl

theorem newest_append_of_ne (issued : List (String × String)) (token : String)
    {account other : String} (hne : other ≠ account) :
    newest (issued ++ [(token, account)]) other = newest issued other := by
  unfold newest
  rw [List.filter_append, List.filter_cons_of_neg (by simpa using hne.symm), List.filter_nil,
    List.append_nil]

variable (host : ResetHost Digest)

structure Sound (w : ResetWorld Digest) : Prop where
  drawn : ∀ e ∈ w.issued, ∃ n < w.store.generated, e.1 = host.generateToken n
  once : (w.issued.map Prod.fst).Nodup
  rows : ∀ r ∈ w.store.rows, ∃ e ∈ w.issued, r.tokenHash = host.sha256 e.1 ∧
    e.2 = host.account r.username
  current : ∀ r ∈ w.store.rows, r.used = false →
    ∀ e ∈ w.issued, r.tokenHash = host.sha256 e.1 → newest w.issued e.2 = some e.1
  taken : ∀ token ∈ w.taken, (∃ e ∈ w.issued, e.1 = token) ∧
    ∀ r ∈ w.store.rows, r.tokenHash = host.sha256 token → r.used = true
  resets : ∀ caller p token, w.pending.get? caller = some p → p.resets = some token →
    token ∈ w.taken ∧ token ∉ w.changes
  apart : ∀ caller other p q token, w.pending.get? caller = some p →
    w.pending.get? other = some q → p.resets = some token → q.resets = some token → caller = other
  changed : ∀ token ∈ w.changes, token ∈ w.taken
  exclusive : w.Exclusive

variable {host}

theorem Sound.not_superseded {w : ResetWorld Digest} (hw : w.Sound host) {token : String}
    (hunused : ∃ r ∈ w.store.rows, r.tokenHash = host.sha256 token ∧ r.used = false) :
    w.superseded token = false := by
  obtain ⟨r, hr, hhash, hunused⟩ := hunused
  refine List.any_eq_false.mpr fun e he => ?_
  simp only [decide_eq_true_eq, not_and, not_not]
  rintro rfl
  exact hw.current r hr hunused e he hhash

/-! ## What each kind of change keeps -/

theorem Sound.settle {w : ResetWorld Digest} (hw : w.Sound host) {store : ResetStore Digest}
    (hsettles : w.store.Settles store) : Sound host { w with store } :=
  { hw with
    drawn := fun e he => by
      obtain ⟨n, hlt, hn⟩ := hw.drawn e he
      exact ⟨n, hsettles.generated.symm ▸ hlt, hn⟩
    rows := fun r' hr' => by
      obtain ⟨r, hr, hhash, huser, -⟩ := hsettles.rows r' hr'
      obtain ⟨e, he, hhash', haccount⟩ := hw.rows r hr
      exact ⟨e, he, hhash.trans hhash', huser ▸ haccount⟩
    current := fun r' hr' hunused e he hhash' => by
      obtain ⟨r, hr, hhash, -, hused⟩ := hsettles.rows r' hr'
      have hunused₀ : r.used = false := by
        rw [← Bool.not_eq_true]
        exact fun h => Bool.false_ne_true (hunused.symm.trans (hused h))
      exact hw.current r hr hunused₀ e he (hhash.symm.trans hhash')
    taken := fun token htoken => by
      refine ⟨(hw.taken token htoken).1, fun r' hr' hhash' => ?_⟩
      obtain ⟨r, hr, hhash, -, hused⟩ := hsettles.rows r' hr'
      exact hused ((hw.taken token htoken).2 r hr (hhash.symm.trans hhash')) }

/-- A caller goes on to a step at which no other caller is with the same token. -/
theorem Sound.wait {w : ResetWorld Digest} (hw : w.Sound host) (caller : Nat) {p : PendingReset}
    (hp : ∀ token, p.resets = some token → token ∈ w.taken ∧ token ∉ w.changes ∧
      ∀ other q, w.pending.get? other = some q → q.resets = some token → other = caller) :
    (w.wait caller p).Sound host := by
  have hpending : ∀ other q, (w.wait caller p).pending.get? other = some q →
      other = caller ∧ q = p ∨ other ≠ caller ∧ w.pending.get? other = some q := by
    intro other q hq
    unfold ResetWorld.wait at hq
    rw [Dict.get?_set] at hq
    split at hq
    · rename_i hsame
      cases hq
      exact .inl ⟨hsame, rfl⟩
    · rename_i hother
      exact .inr ⟨hother, hq⟩
  refine { hw with resets := ?_, apart := ?_ }
  · intro other q token hq htoken
    rcases hpending other q hq with ⟨-, rfl⟩ | ⟨-, hold⟩
    · exact ⟨(hp token htoken).1, (hp token htoken).2.1⟩
    · exact hw.resets other q token hold htoken
  · intro other other' q q' token hq hq' htoken htoken'
    rcases hpending other q hq with ⟨hsame, rfl⟩ | ⟨-, hold⟩ <;>
      rcases hpending other' q' hq' with ⟨hsame', rfl⟩ | ⟨-, hold'⟩
    · rw [hsame, hsame']
    · rw [hsame, (hp token htoken).2.2 other' q' hold' htoken']
    · rw [hsame', (hp token htoken').2.2 other q hold htoken]
    · exact hw.apart other other' q q' token hold hold' htoken htoken'

theorem Sound.finish {w : ResetWorld Digest} (hw : w.Sound host) (caller : Nat) :
    (w.finish caller).Sound host := by
  have hpending : ∀ other q, (w.finish caller).pending.get? other = some q →
      w.pending.get? other = some q := by
    intro other q hq
    unfold ResetWorld.finish at hq
    rw [Dict.get?_erase] at hq
    split at hq
    · cases hq
    · exact hq
  exact { hw with
    resets := fun other q token hq => hw.resets other q token (hpending other q hq)
    apart := fun other other' q q' token hq hq' =>
      hw.apart other other' q q' token (hpending other q hq) (hpending other' q' hq') }

theorem Sound.accept {w : ResetWorld Digest} (hw : w.Sound host) {token : String}
    (hnewest : w.superseded token = false) : (w.accept token).Sound host :=
  { hw with
    exclusive := ⟨hw.exclusive.1, fun a ha => by
      rcases List.mem_append.mp ha with hold | hnew
      · exact hw.exclusive.2 a hold
      · rw [List.mem_singleton.mp hnew]
        exact hnewest⟩ }

/-- A token is taken whose rows are used. -/
theorem Sound.take {w : ResetWorld Digest} (hw : w.Sound host) {token : String}
    (hissued : ∃ e ∈ w.issued, e.1 = token)
    (hused : ∀ r ∈ w.store.rows, r.tokenHash = host.sha256 token → r.used = true) :
    Sound host { w with taken := w.taken ++ [token] } :=
  { hw with
    taken := fun t ht => by
      rcases List.mem_append.mp ht with hold | hnew
      · exact hw.taken t hold
      · rw [List.mem_singleton.mp hnew]
        exact ⟨hissued, hused⟩
    resets := fun caller p t hp ht =>
      ⟨List.mem_append_left _ (hw.resets caller p t hp ht).1, (hw.resets caller p t hp ht).2⟩
    changed := fun t ht => List.mem_append_left _ (hw.changed t ht) }

/-- A caller that is changing a password with its token does so and is done. -/
theorem Sound.change {w : ResetWorld Digest} (hw : w.Sound host) {caller : Nat} {p : PendingReset}
    {token : String} (hp : w.pending.get? caller = some p) (htoken : p.resets = some token)
    (users : Users) :
    Sound host (ResetWorld.finish
      { w with store := { w.store with users }, changes := w.changes ++ [token] } caller) := by
  obtain ⟨htaken, hnew⟩ := hw.resets caller p token hp htoken
  have hpending : ∀ other q, Dict.get? (w.pending.erase caller) other = some q →
      other ≠ caller ∧ w.pending.get? other = some q := by
    intro other q hq
    rw [Dict.get?_erase] at hq
    split at hq
    · cases hq
    · rename_i hother
      exact ⟨hother, hq⟩
  exact { hw with
    resets := fun other q t hq ht => by
      obtain ⟨hother, hold⟩ := hpending other q hq
      refine ⟨(hw.resets other q t hold ht).1, fun hmem => ?_⟩
      rcases List.mem_append.mp hmem with hchanged | hlast
      · exact (hw.resets other q t hold ht).2 hchanged
      · rw [List.mem_singleton.mp hlast] at ht
        exact hother (hw.apart other caller q p token hold hp ht htoken)
    apart := fun other other' q q' t hq hq' =>
      hw.apart other other' q q' t (hpending other q hq).2 (hpending other' q' hq').2
    changed := fun t ht => by
      rcases List.mem_append.mp ht with hold | hlast
      · exact hw.changed t hold
      · rw [List.mem_singleton.mp hlast]
        exact htaken
    exclusive := ⟨List.nodup_append.mpr ⟨hw.exclusive.1, List.nodup_singleton token, fun a ha b hb => by
      rw [List.mem_singleton.mp hb]
      rintro rfl
      exact hnew ha⟩, hw.exclusive.2⟩ }

/-! ## One step -/

variable [DecidableEq Digest]

theorem issue_eq (s : ResetStore Digest) (host : TokenHost Digest) (username : String)
    (now later : Time) :
    (s.issue host username now later).2 = none ∧
        (s.issue host username now later).1 = { s with generated := s.generated + 1 } ∨
      (s.issue host username now later).2 = some (host.generateToken s.generated) ∧
        (s.issue host username now later).1.generated = s.generated + 1 ∧
        ∀ r' ∈ (s.issue host username now later).1.rows,
          (∃ r ∈ s.rows, r'.tokenHash = r.tokenHash ∧ r'.username = r.username ∧
            (r'.used = false → r.used = false ∧ r.username ≠ username) ∧
            (r.used = true → r'.used = true)) ∨
          r'.tokenHash = host.sha256 (host.generateToken s.generated) ∧ r'.username = username := by
  unfold ResetStore.issue
  dsimp only
  split
  · exact .inl ⟨rfl, rfl⟩
  · refine .inr ⟨rfl, rfl, fun r' hr' => ?_⟩
    rcases List.mem_append.mp hr' with hold | hnew
    · obtain ⟨r, hr, rfl⟩ := List.mem_map.mp hold
      refine .inl ⟨r, hr, ?_⟩
      split
      · exact ⟨rfl, rfl, fun hunused => absurd hunused.symm Bool.false_ne_true, fun _ => rfl⟩
      · rename_i hkept
        exact ⟨rfl, rfl, fun hunused => ⟨hunused, fun hsame => hkept ⟨hsame, hunused⟩⟩, id⟩
    · rw [List.mem_singleton.mp hnew]
      exact .inr ⟨rfl, rfl⟩

/-- A new token is issued where all unused tokens of the account are under the spelling given. -/
theorem Sound.issue {w : ResetWorld Digest} (hw : w.Sound host) {username : String}
    (hspelling : ∀ r ∈ w.store.rows, r.used = false →
      host.account r.username = host.account username → r.username = username)
    {store : ResetStore Digest} {token : String} {now later : Time}
    (hissue : w.store.issue host.toTokenHost username now later = (store, some token)) :
    Sound host { w with store, issued := w.issued ++ [(token, host.account username)] } := by
  rcases issue_eq w.store host.toTokenHost username now later with ⟨hnone, -⟩ | ⟨hsome, hgenerated, hrows⟩
  · rw [hissue] at hnone
    cases hnone
  rw [hissue] at hsome hgenerated hrows
  cases hsome
  have hfresh : ∀ e ∈ w.issued, e.1 ≠ host.generateToken w.store.generated := by
    intro e he heq
    obtain ⟨n, hlt, hn⟩ := hw.drawn e he
    exact absurd (host.generateToken_injective (hn.symm.trans heq)) hlt.ne
  refine { hw with
    drawn := ?_, once := ?_, rows := ?_, current := ?_, taken := ?_ }
  · intro e he
    rcases List.mem_append.mp he with hold | hnew
    · obtain ⟨n, hlt, hn⟩ := hw.drawn e hold
      exact ⟨n, hgenerated.symm ▸ Nat.lt_succ_of_lt hlt, hn⟩
    · rw [List.mem_singleton.mp hnew]
      exact ⟨w.store.generated, hgenerated.symm ▸ Nat.lt_succ_self _, rfl⟩
  · rw [List.map_append, List.nodup_append]
    refine ⟨hw.once, List.nodup_singleton _, ?_⟩
    intro a ha b hb
    obtain ⟨e, he, rfl⟩ := List.mem_map.mp ha
    obtain rfl : b = host.generateToken w.store.generated := by simpa using hb
    exact hfresh e he
  · intro r' hr'
    rcases hrows r' hr' with ⟨r, hr, hhash, huser, -⟩ | ⟨hhash, huser⟩
    · obtain ⟨e, he, hhash', haccount⟩ := hw.rows r hr
      exact ⟨e, List.mem_append_left _ he, hhash.trans hhash', huser ▸ haccount⟩
    · exact ⟨_, List.mem_append_right _ (List.mem_singleton_self _), hhash, by rw [huser]⟩
  · intro r' hr' hunused e he hhash'
    rcases hrows r' hr' with ⟨r, hr, hhash, -, hkept, -⟩ | ⟨hhash, -⟩
    · obtain ⟨e₀, he₀, hhash₀, haccount⟩ := hw.rows r hr
      have htoken : e₀.1 = e.1 := host.sha256_injective (hhash₀.symm.trans (hhash.symm.trans hhash'))
      rcases List.mem_append.mp he with hold | hnew
      · obtain ⟨hunused₀, hother⟩ := hkept hunused
        have hsame : e₀ = e := List.inj_on_of_nodup_map hw.once he₀ hold htoken
        subst hsame
        have hne : e₀.2 ≠ host.account username := fun h =>
          hother (hspelling r hr hunused₀ (haccount.symm.trans h))
        rw [newest_append_of_ne w.issued _ hne]
        exact hw.current r hr hunused₀ e₀ he₀ hhash₀
      · rw [List.mem_singleton.mp hnew] at htoken
        exact absurd htoken (hfresh e₀ he₀)
    · have htoken : e.1 = host.generateToken w.store.generated :=
        host.sha256_injective (hhash'.symm.trans hhash)
      rcases List.mem_append.mp he with hold | hnew
      · exact absurd htoken (hfresh e hold)
      · rw [List.mem_singleton.mp hnew]
        exact newest_append_self w.issued _ _
  · intro t ht
    obtain ⟨⟨e, he, rfl⟩, hused⟩ := hw.taken t ht
    refine ⟨⟨e, List.mem_append_left _ he, rfl⟩, fun r' hr' hhash' => ?_⟩
    rcases hrows r' hr' with ⟨r, hr, hhash, -, -, hkept⟩ | ⟨hhash, -⟩
    · exact hkept (hused r hr (hhash.symm.trans hhash'))
    · exact absurd (host.sha256_injective (hhash'.symm.trans hhash)) (hfresh e he)

theorem Sound.startVerify {w : ResetWorld Digest} (hw : w.Sound host) (caller : Nat) (token : String)
    (markUsed : Bool) (change : Option (String × String)) (now later : Time) :
    (w.startVerify host caller token markUsed change now later).Sound host := by
  unfold ResetWorld.startVerify
  split
  · exact hw
  · cases hread : w.store.readRow host.toTokenHost token now later with
    | refused => exact hw
    | stale => exact hw.wait caller fun t ht => by cases ht
    | live username =>
        dsimp only
        split
        · exact hw.wait caller fun t ht => by cases ht
        · exact hw.accept (hw.not_superseded (ResetStore.readRow_live host.toTokenHost hread))

/-- The mark of a token that is still unused. -/
theorem Sound.mark {w : ResetWorld Digest} (hw : w.Sound host) {caller : Nat}
    {token username : String} {change : Option (String × String)}
    (hunused : ∃ r ∈ w.store.rows, r.tokenHash = host.sha256 token ∧ r.used = false)
    (now later : Time) : (w.proceed host caller now later (.mark token username change)).Sound host := by
  obtain ⟨r, hr, hhash, hfree⟩ := hunused
  have hissued : ∃ e ∈ w.issued, e.1 = token := by
    obtain ⟨e, he, hhash', -⟩ := hw.rows r hr
    exact ⟨e, he, host.sha256_injective (hhash'.symm.trans hhash)⟩
  have hnot_taken : token ∉ w.taken := fun h =>
    Bool.false_ne_true (hfree.symm.trans ((hw.taken token h).2 r hr hhash))
  have hmarked := (hw.settle (ResetStore.settles_markUsed host.toTokenHost w.store token)).take hissued
    fun r' hr' hhash' => ResetStore.used_markUsed host.toTokenHost hr' hhash'
  have haccepted := hmarked.accept (hw.not_superseded ⟨r, hr, hhash, hfree⟩)
  unfold proceed
  dsimp only
  cases change with
  | none => exact haccepted.finish caller
  | some change =>
      dsimp only
      split
      · exact haccepted.finish caller
      · refine haccepted.wait caller fun t ht => ?_
        cases ht
        refine ⟨List.mem_append_right _ (List.mem_singleton_self token), fun h => ?_, ?_⟩
        · exact hnot_taken (hw.changed token h)
        · intro other q hq htoken
          exact absurd (hw.resets other q token hq htoken).1 hnot_taken

theorem Sound.step {w : ResetWorld Digest} (hw : w.Sound host) {op : ResetStep}
    (hop : w.Orderly host op) : (w.step host op).Sound host := by
  cases op with
  | create caller username =>
      unfold ResetWorld.step
      dsimp only
      split
      · split
        · exact hw
        · exact hw.wait caller fun t ht => by cases ht
      · exact hw
  | verify caller token markUsed now later =>
      unfold ResetWorld.step
      dsimp only
      split
      · exact hw.startVerify caller token markUsed none now later
      · exact hw
  | reset caller token newPassword salt now later =>
      unfold ResetWorld.step
      dsimp only
      split
      · exact hw.startVerify caller token true _ now later
      · exact hw
  | restart =>
      exact { hw with
        resets := fun caller p t hp => by cases hp
        apart := fun caller other p q t hp => by cases hp }
  | resume caller now later =>
      unfold Orderly at hop
      unfold ResetWorld.step
      dsimp only at hop ⊢
      cases hget : w.pending.get? caller with
      | none => exact hw
      | some p =>
          rw [hget] at hop
          cases p with
          | issue username =>
              dsimp only at hop ⊢
              unfold proceed
              dsimp only
              cases hissue : w.store.issue host.toTokenHost username now later with
              | mk store issued =>
                  cases issued with
                  | some token => exact (hw.issue hop hissue).finish caller
                  | none =>
                      rcases issue_eq w.store host.toTokenHost username now later with
                        ⟨-, hstore⟩ | ⟨hsome, -⟩
                      · rw [hissue] at hstore
                        dsimp only at hstore ⊢
                        refine Sound.finish ?_ caller
                        rw [hstore]
                        exact { hw with
                          drawn := fun e he => by
                            obtain ⟨n, hlt, hn⟩ := hw.drawn e he
                            exact ⟨n, Nat.lt_succ_of_lt hlt, hn⟩ }
                      · rw [hissue] at hsome
                        cases hsome
          | discard token =>
              exact (hw.settle (ResetStore.settles_discard host.toTokenHost w.store token)).finish caller
          | mark token username change => exact hw.mark hop now later
          | findUser token username newPassword salt =>
              dsimp only
              unfold proceed
              dsimp only
              split
              · exact hw.finish caller
              · refine hw.wait caller fun t ht => ?_
                cases ht
                obtain ⟨htaken, hnew⟩ := hw.resets caller _ token hget rfl
                exact ⟨htaken, hnew, fun other q hq htoken =>
                  hw.apart other caller q _ token hq hget htoken rfl⟩
          | setPassword token username newPassword salt => exact hw.change hget rfl _

omit [DecidableEq Digest] in
theorem sound_of_no_tokens (users : Users) :
    Sound host ({ store := { users := users } } : ResetWorld Digest) where
  drawn := fun e he => by cases he
  once := List.nodup_nil
  rows := fun r hr => by cases hr
  current := fun r hr => by cases hr
  taken := fun t ht => by cases ht
  resets := fun caller p t hp => by cases hp
  apart := fun caller other p q t hp => by cases hp
  changed := fun t ht => by cases ht
  exclusive := ⟨List.nodup_nil, fun a ha => by cases ha⟩

/-- In an orderly run reset tokens are used once, and not after a newer one has been issued. -/
theorem reset_tokens_exclusive (users : Users) {ops : List ResetStep}
    (meet : StepsMeet (step host) (Orderly host) { store := { users } } ops) :
    Always (step host) Exclusive { store := { users } } ops := by
  have halways : Always (step host) (Sound host) { store := { users } } ops :=
    always_of_stepsMeet (fun w op _ hw hop => hw.step hop) (sound_of_no_tokens users) meet
  exact halways.mono fun w hw => hw.exclusive

/-- A host with the rules of ASCII texts, and a table with one user. -/
def asciiHost : ResetHost String :=
  { plainTokens with
    strip := id,
    lower := fun text => String.ofList (text.toList.map Char.toLower),
    isDecimal := Char.isDigit,
    hashPassword := fun salt password => salt ++ password,
    verifyPassword := fun password hash => decide (hash = password) }

def oneUser : Users :=
  ⟨[{ userId := "u1", username := "alice", passwordHash := "x", createdTs := 0 }], by simp⟩

/-- A token is issued and changes the password, and a second attempt with it is refused. -/
theorem reset_in_turn :
    Always (step asciiHost) Exclusive { store := { users := oneUser } }
      [.create 0 "alice", .resume 0 0 0, .reset 1 "t" "Fresh#Start1" "s" 1 1, .resume 1 1 1,
        .resume 1 1 1, .resume 1 1 1, .reset 2 "t" "Other#Start2" "s" 2 2] :=
  reset_tokens_exclusive oneUser (by decide +kernel)

/-- Two callers read the row of a token before either marks it, and both change the password. A token
issued for "Alice" is accepted after another was issued for "alice". -/
theorem reset_token_used_twice :
    ¬ Always (step asciiHost) Exclusive { store := { users := oneUser } }
        [.create 0 "alice", .resume 0 0 0, .reset 1 "t" "Fresh#Start1" "s" 1 1,
          .reset 2 "t" "Other#Start2" "s" 1 1, .resume 1 1 1, .resume 2 1 1, .resume 1 1 1,
          .resume 1 1 1, .resume 2 1 1, .resume 2 1 1] ∧
      ¬ Always (step asciiHost) Exclusive { store := { users := oneUser } }
        [.create 0 "Alice", .resume 0 0 0, .create 0 "alice", .resume 0 1 1,
          .verify 1 "t" false 2 2] := by
  constructor
  · intro halways
    have hfinal := halways.final
    unfold Exclusive at hfinal
    revert hfinal
    decide +kernel
  · intro halways
    have hfinal := halways.final
    unfold Exclusive at hfinal
    revert hfinal
    decide +kernel

end ResetWorld

end AutoTrade.Auth
