import AutoTrade.Auth.Authenticate
import AutoTrade.Library.Admission
import AutoTrade.Library.Run

/-! # Password guessing is bounded

A wrong password goes into the audit log before the log is counted, and the
fifth within the lockout's duration locks the account for that duration, in a
table that survives a restart. A lock is lifted by time alone, since a login has
to pass it first. A failure from an address is kept in memory for as long as it
counts.
-/

namespace AutoTrade.Auth

open AutoTrade.Library

/-- A failed verification: a wrong password, or a name that no account has. -/
structure Verification where
  account : String
  ipAddress : String
  time : Time
  process : Nat
  wrongPassword : Bool
deriving DecidableEq, Repr

/-- `process` counts the restarts. -/
structure LoginRun where
  state : LoginState := {}
  clock : Time := 0
  process : Nat := 0
  verifications : List Verification := []

inductive LoginStep
  | authenticate (username password ipAddress : String) (delays : Delays)
  | restart

def Verification.isGuess (account : String) (v : Verification) : Bool :=
  v.wrongPassword && decide (v.account = account)

def Verification.isFrom (process : Nat) (ipAddress : String) (v : Verification) : Bool :=
  decide (v.process = process ∧ v.ipAddress = ipAddress)

def AuditEntry.isFailure (account : String) (e : AuditEntry) : Bool :=
  decide (e.eventType = "login_failed" ∧ e.username = account)

/-- The failed verification a call made. -/
def Outcome.verification (outcome : Outcome) (account ipAddress : String) (time : Time)
    (process : Nat) : Option Verification :=
  match outcome with
  | .userNotFound => some ⟨account, ipAddress, time, process, false⟩
  | .wrongPassword => some ⟨account, ipAddress, time, process, true⟩
  | _ => none

def Delays.clock (d : Delays) (start : Time) (m : Moment) : Time := start + d.after m.order

theorem Delays.clock_le (d : Delays) (start : Time) {m m' : Moment} (h : m.order ≤ m'.order) :
    d.clock start m ≤ d.clock start m' :=
  Int.add_le_add_left (Int.ofNat_le.mpr (d.mono h)) start

theorem Delays.le_clock (d : Delays) (start : Time) (m : Moment) : start ≤ d.clock start m :=
  le_add_of_nonneg_right (Int.natCast_nonneg _)

namespace LoginRun

def step (host : AuthHost) (r : LoginRun) : LoginStep → LoginRun
  | .authenticate username password ipAddress delays =>
      let clock := delays.clock r.clock
      let (state, outcome) := r.state.authenticate host username password ipAddress clock
      { r with
        state, clock := clock .finished,
        verifications := r.verifications ++
          (outcome.verification (host.account username) ipAddress (clock .verified)
            r.process).toList }
  | .restart => { r with state := r.state.restart, process := r.process + 1 }

/-- No window of the lockout's duration has more wrong passwords for one account than attempts are
allowed. -/
def GuessesBounded (r : LoginRun) : Prop :=
  ∀ account start, countWithin Verification.time (Verification.isGuess account) r.verifications start
    (start + lockoutDuration) ≤ maxLoginAttempts

/-- In one process no brute-force window has more failures from one address that is not local. -/
def FailuresBounded (r : LoginRun) : Prop :=
  ∀ process ipAddress start, ipAddress ≠ "" → ipAddress ∉ localAddresses →
    countWithin Verification.time (Verification.isFrom process ipAddress) r.verifications start
      (start + bruteForceWindow) ≤ bruteForceMaxAttempts

end LoginRun

namespace LoginState

def attemptsFrom (s : LoginState) (ipAddress : String) : List Time :=
  (s.loginAttempts.get? ipAddress).getD []

/-- What is remembered of the failed verifications, at an instant: the audit log has each wrong
password, and memory each failure that still counts. -/
structure Remembers (s : LoginState) (failed : List Verification) (process : Nat) (now : Time) :
    Prop where
  memory : ∀ account unlockTs, s.accountLockouts.get? account = some unlockTs →
    ∃ row, s.lockouts.find? account = some row ∧ row.unlockTs = unlockTs
  audited : ∀ account start,
    countSince Verification.time (Verification.isGuess account) failed start ≤
      countSince AuditEntry.timestamp (AuditEntry.isFailure account) s.auditLog start
  attempts : ∀ ipAddress start, ipAddress ≠ "" → now < start + bruteForceWindow →
    countSince Verification.time (Verification.isFrom process ipAddress) failed start ≤
      countSince id (fun _ => true) (s.attemptsFrom ipAddress) start

/-- After as many wrong passwords as are allowed an account is locked for as long as the first of them
could be in one window with the next. -/
structure Guards (s : LoginState) (failed : List Verification) (process : Nat) (now : Time) : Prop
    extends Remembers s failed process now where
  locked : ∀ account start, now < start + lockoutDuration →
    maxLoginAttempts ≤ countSince Verification.time (Verification.isGuess account) failed start →
    ∃ row, s.lockouts.find? account = some row ∧ start + lockoutDuration ≤ row.unlockTs

theorem Guards.later {s : LoginState} {failed : List Verification} {process : Nat} {now later : Time}
    (h : s.Guards failed process now) (hle : now ≤ later) : s.Guards failed process later :=
  { h with
    locked := fun account start hlt => h.locked account start (hle.trans_lt hlt)
    attempts := fun ipAddress start hne hlt => h.attempts ipAddress start hne (hle.trans_lt hlt) }

/-- Whatever is added to the audit log. -/
theorem Remembers.audit {s : LoginState} {failed : List Verification} {process : Nat} {now : Time}
    (h : s.Remembers failed process now) (eventType username ipAddress : String) (time : Time) :
    (s.audit eventType username ipAddress time).Remembers failed process now :=
  { h with
    audited := fun account start =>
      (h.audited account start).trans (countSince_le_append _ s.auditLog _ start) }

theorem Guards.audit {s : LoginState} {failed : List Verification} {process : Nat} {now : Time}
    (h : s.Guards failed process now) (eventType username ipAddress : String) (time : Time) :
    (s.audit eventType username ipAddress time).Guards failed process now :=
  { h.toRemembers.audit eventType username ipAddress time with locked := h.locked }

theorem attemptsFrom_set (s : LoginState) (ipAddress other : String) (attempts : List Time) :
    attemptsFrom { s with loginAttempts := s.loginAttempts.set ipAddress attempts } other =
      if other = ipAddress then attempts else s.attemptsFrom other := by
  unfold attemptsFrom
  dsimp only
  rw [Dict.get?_set]
  split <;> rfl

/-! ## The two checks -/

/-- The check of an address forgets only failures that no longer count. -/
theorem Guards.isRateLimited {s : LoginState} {failed : List Verification} {process : Nat}
    {now reading : Time} (h : s.Guards failed process now) (hle : now ≤ reading) (ipAddress : String) :
    (s.isRateLimited ipAddress reading).1.Guards failed process reading ∧
      ((s.isRateLimited ipAddress reading).2 = false → ipAddress ≠ "" → ipAddress ∉ localAddresses →
        ∀ start, reading < start + bruteForceWindow →
          countSince Verification.time (Verification.isFrom process ipAddress) failed start <
            bruteForceMaxAttempts) := by
  unfold LoginState.isRateLimited
  split
  · rename_i hlocal
    refine ⟨h.later hle, fun _ hne hremote => ?_⟩
    exact absurd hlocal (not_or.mpr ⟨hne, hremote⟩)
  · dsimp only
    have hkept : ∀ start, reading < start + bruteForceWindow →
        countSince id (fun _ => true) (s.attemptsFrom ipAddress) start ≤
          countSince id (fun _ => true) ((s.attemptsFrom ipAddress).filter fun t =>
            decide (reading - t < bruteForceWindow)) start := by
      intro start hlt
      unfold countSince
      rw [List.countP_filter]
      refine List.countP_mono_left fun t _ ht => ?_
      simp only [Bool.true_and, id_eq, decide_eq_true_eq] at ht
      have hcounts : reading - t < bruteForceWindow := by linarith
      simp [ht, hcounts]
    refine ⟨{ h.later hle with attempts := ?_ }, ?_⟩
    · intro other start hne hlt
      rw [attemptsFrom_set]
      have hbefore := h.attempts other start hne (hle.trans_lt hlt)
      split
      · rename_i hsame
        subst hsame
        exact hbefore.trans (hkept start hlt)
      · exact hbefore
    · intro hanswer hne _ start hlt
      have hfew := not_le.mp (of_decide_eq_false hanswer)
      have hbefore := h.attempts ipAddress start hne (hle.trans_lt hlt)
      exact (hbefore.trans (hkept start hlt)).trans_lt (List.countP_le_length.trans_lt hfew)

/-- The check of an account drops only locks that have run out, and passes an account only where fewer
wrong passwords than are allowed could be in one window with the next. -/
theorem Guards.isAccountLocked {s : LoginState} {failed : List Verification} {process : Nat}
    {now reading : Time} (h : s.Guards failed process now) (hle : now ≤ reading) (account : String) :
    (s.isAccountLocked account reading).1.Guards failed process reading ∧
      ((s.isAccountLocked account reading).2 = false →
        ∀ start, reading < start + lockoutDuration →
          countSince Verification.time (Verification.isGuess account) failed start <
            maxLoginAttempts) := by
  have hpasses : (∀ row, s.lockouts.find? account = some row → row.unlockTs ≤ reading) →
      ∀ start, reading < start + lockoutDuration →
        countSince Verification.time (Verification.isGuess account) failed start < maxLoginAttempts := by
    intro hout start hlt
    by_contra hmany
    obtain ⟨row, hrow, hunlock⟩ := h.locked account start (hle.trans_lt hlt) (not_lt.mp hmany)
    exact absurd (hunlock.trans (hout row hrow)) (not_le.mpr hlt)
  unfold LoginState.isAccountLocked
  cases hmemory : s.accountLockouts.get? account with
  | some unlockTs =>
      obtain ⟨row, hrow, rfl⟩ := h.memory account _ hmemory
      dsimp only
      by_cases hout : row.unlockTs ≤ reading
      · rw [if_pos hout]
        refine ⟨{ h.later hle with memory := ?_ }, fun _ => hpasses fun row' hrow' => ?_⟩
        · intro other unlockTs hget
          rw [Dict.get?_erase] at hget
          split at hget
          · cases hget
          · exact h.memory other unlockTs hget
        · rw [hrow] at hrow'
          cases hrow'
          exact hout
      · rw [if_neg hout]
        exact ⟨h.later hle, fun hanswer => by cases hanswer⟩
  | none =>
      dsimp only
      cases hrow : s.lockouts.find? account with
      | none => exact ⟨h.later hle, fun _ => hpasses fun row hrow' => by rw [hrow] at hrow'; cases hrow'⟩
      | some row =>
          dsimp only
          by_cases hout : row.unlockTs ≤ reading
          · rw [if_pos hout]
            refine ⟨{ h.later hle with memory := ?_, locked := ?_ }, fun _ => hpasses fun row' hrow' => ?_⟩
            · intro other unlockTs hget
              obtain ⟨row', hrow', hunlock⟩ := h.memory other unlockTs hget
              have hne : other ≠ account := by
                rintro rfl
                rw [hmemory] at hget
                cases hget
              exact ⟨row', by rw [Table.find?_erase, if_neg hne]; exact hrow', hunlock⟩
            · intro other start hlt hmany
              obtain ⟨row', hrow', hunlock⟩ := h.locked other start (hle.trans_lt hlt) hmany
              have hne : other ≠ account := by
                rintro rfl
                rw [hrow] at hrow'
                cases hrow'
                exact absurd (hunlock.trans hout) (not_le.mpr hlt)
              exact ⟨row', by rw [Table.find?_erase, if_neg hne]; exact hrow', hunlock⟩
            · rw [hrow] at hrow'
              cases hrow'
              exact hout
          · rw [if_neg hout]
            refine ⟨{ h.later hle with memory := ?_ }, fun hanswer => by cases hanswer⟩
            intro other unlockTs hget
            rw [Dict.get?_set] at hget
            split at hget
            · rename_i hsame
              cases hget
              exact ⟨row, hsame ▸ hrow, rfl⟩
            · exact h.memory other unlockTs hget

/-! ## A verification -/

/-- A failure goes into memory and into the audit log. -/
theorem Remembers.fail {s : LoginState} {failed : List Verification} {now recorded audited : Time}
    {v : Verification} (h : s.Remembers failed v.process now) (hrecorded : v.time ≤ recorded)
    (haudited : v.time ≤ audited) :
    ((s.recordAttempt v.ipAddress false recorded).audit "login_failed" v.account v.ipAddress
      audited).Remembers (failed ++ [v]) v.process now := by
  have hstate : ∀ other, other ≠ "" →
      attemptsFrom (s.recordAttempt v.ipAddress false recorded) other =
        if other = v.ipAddress then s.attemptsFrom other ++ [recorded] else s.attemptsFrom other := by
    intro other hne
    unfold recordAttempt
    split
    · rename_i hempty
      rw [if_neg fun hsame => hne (hsame.trans hempty)]
    · rw [if_neg Bool.false_ne_true, attemptsFrom_set]
      split
      · rename_i hsame
        rw [hsame]
        rfl
      · rfl
  refine ⟨?_, ?_, ?_⟩
  · intro account unlockTs hget
    unfold LoginState.audit at hget ⊢
    dsimp only at hget ⊢
    rw [accountLockouts_recordAttempt] at hget
    rw [lockouts_recordAttempt]
    exact h.memory account unlockTs hget
  · intro account start
    unfold LoginState.audit
    dsimp only
    rw [auditLog_recordAttempt]
    refine countSince_append_le (h.audited account start) fun hguess => ⟨?_, haudited⟩
    exact decide_eq_true ⟨rfl, of_decide_eq_true (Bool.and_eq_true_iff.mp hguess).2⟩
  · intro other start hne hlt
    have hbefore := h.attempts other start hne hlt
    change _ ≤ countSince id (fun _ => true)
      (attemptsFrom (s.recordAttempt v.ipAddress false recorded) other) start
    rw [hstate other hne]
    split
    · exact countSince_append_le hbefore fun _ => ⟨rfl, hrecorded⟩
    · rename_i hother
      rw [countSince_append_of_not]
      · exact hbefore
      · exact decide_eq_false fun hfrom => hother hfrom.2.symm

theorem failuresSince_of_guesses {s : LoginState} {failed : List Verification} {process : Nat}
    {now counted start : Time} (h : s.Remembers failed process now) (hcounted : counted ≤ now)
    (account : String) (hlt : now < start + lockoutDuration) :
    countSince Verification.time (Verification.isGuess account) failed start ≤
      s.failuresSince account (counted - lockoutDuration) := by
  refine (h.audited account start).trans (List.countP_mono_left fun e _ he => ?_)
  obtain ⟨hfailure, hsince⟩ := Bool.and_eq_true_iff.mp he
  obtain ⟨htype, huser⟩ := of_decide_eq_true hfailure
  have hstart := of_decide_eq_true hsince
  exact decide_eq_true ⟨htype, huser, by linarith⟩

/-- The lockout check after a wrong password. -/
theorem Guards.checkLockout {s : LoginState} {failed : List Verification} {v : Verification}
    {now counted locked stored logged : Time} (h : s.Remembers (failed ++ [v]) v.process now)
    (hlocks : ∀ account start, now < start + lockoutDuration →
      maxLoginAttempts ≤ countSince Verification.time (Verification.isGuess account) failed start →
      account ≠ v.account ∧
        ∃ row, s.lockouts.find? account = some row ∧ start + lockoutDuration ≤ row.unlockTs)
    (hcounted : counted ≤ now) (hlocked : v.time ≤ locked) :
    (s.checkLockout v.account counted locked stored logged).Guards (failed ++ [v]) v.process now := by
  have hold : ∀ account start, account ≠ v.account →
      maxLoginAttempts ≤
        countSince Verification.time (Verification.isGuess account) (failed ++ [v]) start →
      maxLoginAttempts ≤ countSince Verification.time (Verification.isGuess account) failed start := by
    intro account start hne hmany
    rwa [countSince_append_of_not] at hmany
    exact Bool.and_eq_false_iff.mpr (.inr (decide_eq_false hne.symm))
  -- a lock is due only where the new failure is the last of those allowed
  have hdue : ∀ start, now < start + lockoutDuration →
      maxLoginAttempts ≤
        countSince Verification.time (Verification.isGuess v.account) (failed ++ [v]) start →
      start ≤ v.time := by
    intro start hlt hmany
    rw [countSince_append] at hmany
    by_contra hbefore
    rw [if_neg fun hin => hbefore hin.2] at hmany
    exact (hlocks v.account start hlt hmany).1 rfl
  unfold LoginState.checkLockout
  split
  · apply Guards.audit
    refine ⟨⟨?_, h.audited, h.attempts⟩, ?_⟩
    · intro account unlockTs hget
      dsimp only at hget ⊢
      rw [Dict.get?_set] at hget
      rw [Table.find?_replace]
      split at hget
      · rename_i hsame
        cases hget
        exact ⟨_, if_pos hsame, rfl⟩
      · rename_i hother
        obtain ⟨row, hrow, hunlock⟩ := h.memory account unlockTs hget
        exact ⟨row, (if_neg hother).trans hrow, hunlock⟩
    · intro account start hlt hmany
      dsimp only
      rw [Table.find?_replace]
      by_cases hsame : account = v.account
      · subst hsame
        refine ⟨_, if_pos rfl, ?_⟩
        have hstart := hdue start hlt hmany
        dsimp only
        linarith
      · obtain ⟨-, row, hrow, hunlock⟩ := hlocks account start hlt (hold account start hsame hmany)
        exact ⟨row, (if_neg hsame).trans hrow, hunlock⟩
  · rename_i hfew
    refine ⟨h, fun account start hlt hmany => ?_⟩
    by_cases hsame : account = v.account
    · subst hsame
      exact absurd (hmany.trans (failuresSince_of_guesses h hcounted v.account hlt)) hfew
    · exact (hlocks account start hlt (hold account start hsame hmany)).2

theorem Guards.clearLockout {s : LoginState} {failed : List Verification} {process : Nat} {now : Time}
    (h : s.Guards failed process now) {account : String}
    (hfew : ∀ start, now < start + lockoutDuration →
      countSince Verification.time (Verification.isGuess account) failed start < maxLoginAttempts) :
    (s.clearLockout account).Guards failed process now := by
  refine { h with memory := ?_, locked := ?_ }
  · intro other unlockTs hget
    unfold LoginState.clearLockout at hget ⊢
    dsimp only at hget ⊢
    rw [Dict.get?_erase] at hget
    rw [Table.find?_erase]
    split at hget
    · cases hget
    · rename_i hother
      rw [if_neg hother]
      exact h.memory other unlockTs hget
  · intro other start hlt hmany
    unfold LoginState.clearLockout
    dsimp only
    rw [Table.find?_erase]
    by_cases hsame : other = account
    · subst hsame
      exact absurd hmany (not_le.mpr (hfew start hlt))
    · rw [if_neg hsame]
      exact h.locked other start hlt hmany

/-- What follows the checks, for a call that they let through and that ends at `now`. -/
theorem Guards.verify {host : AuthHost} {s : LoginState} {failed : List Verification}
    {process : Nat} {now : Time} (h : s.Guards failed process now) {account : String}
    (hfew : ∀ start, now < start + lockoutDuration →
      countSince Verification.time (Verification.isGuess account) failed start < maxLoginAttempts)
    (password ipAddress : String) {clock : Moment → Time} (hrecorded : clock .verified ≤ clock .recorded)
    (haudited : clock .verified ≤ clock .audited) (hcounted : clock .counted ≤ now)
    (hlocked : clock .verified ≤ clock .locked) :
    (s.verify host account password ipAddress clock).1.Guards
      (failed ++ ((s.verify host account password ipAddress clock).2.verification account ipAddress
        (clock .verified) process).toList) process now := by
  unfold LoginState.verify
  cases s.users.find? account with
  | none =>
      let v : Verification := ⟨account, ipAddress, clock .verified, process, false⟩
      refine ⟨Remembers.fail (v := v) h.toRemembers hrecorded haudited, fun other start hlt hmany => ?_⟩
      have hsame : countSince Verification.time (Verification.isGuess other) (failed ++ [v]) start =
          countSince Verification.time (Verification.isGuess other) failed start :=
        countSince_append_of_not rfl failed start
      rw [lockouts_audit, lockouts_recordAttempt]
      exact h.locked other start hlt (hsame ▸ hmany)
  | some row =>
      dsimp only
      split
      · simp only [Outcome.verification, Option.toList_none, List.append_nil]
        exact h.audit _ _ _ _
      · split
        · let v : Verification := ⟨account, ipAddress, clock .verified, process, true⟩
          refine Guards.checkLockout (v := v)
            (Remembers.fail (v := v) h.toRemembers hrecorded haudited) ?_ hcounted hlocked
          intro other start hlt hmany
          refine ⟨?_, ?_⟩
          · rintro rfl
            exact absurd hmany (not_le.mpr (hfew start hlt))
          · rw [lockouts_audit, lockouts_recordAttempt]
            exact h.locked other start hlt hmany
        · simp only [Outcome.verification, Option.toList_none, List.append_nil,
            recordAttempt_success]
          apply Guards.audit
          exact { h.clearLockout hfew with }

/-- A call that ends in a failed verification had been let through by both checks. -/
structure Admits (failed : List Verification) (process : Nat) (v : Verification) : Prop where
  guess : v.wrongPassword = true → ∀ start, v.time < start + lockoutDuration →
    countSince Verification.time (Verification.isGuess v.account) failed start < maxLoginAttempts
  failure : v.ipAddress ≠ "" → v.ipAddress ∉ localAddresses →
    ∀ start, v.time < start + bruteForceWindow →
      countSince Verification.time (Verification.isFrom process v.ipAddress) failed start <
        bruteForceMaxAttempts

theorem mem_verification {outcome : Outcome} {account ipAddress : String} {time : Time}
    {process : Nat} {v : Verification}
    (hv : v ∈ outcome.verification account ipAddress time process) :
    v.account = account ∧ v.ipAddress = ipAddress ∧ v.time = time ∧ v.process = process := by
  cases outcome with
  | userNotFound | wrongPassword =>
      cases hv
      exact ⟨rfl, rfl, rfl, rfl⟩
  | rateLimited | accountLocked | disabled | success => cases hv

/-- A whole call, at a clock that does not go back. -/
theorem Guards.authenticate {s : LoginState} {failed : List Verification} {process : Nat}
    {now : Time} (h : s.Guards failed process now) (host : AuthHost)
    (username password ipAddress : String) (delays : Delays) :
    (s.authenticate host username password ipAddress (delays.clock now)).1.Guards
        (failed ++ ((s.authenticate host username password ipAddress (delays.clock now)).2.verification
          (host.account username) ipAddress (delays.clock now .verified) process).toList) process
        (delays.clock now .finished) ∧
      ∀ v ∈ (s.authenticate host username password ipAddress (delays.clock now)).2.verification
          (host.account username) ipAddress (delays.clock now .verified) process,
        Admits failed process v := by
  obtain ⟨hchecked, haddress⟩ := h.isRateLimited (delays.le_clock now .addressChecked) ipAddress
  unfold LoginState.authenticate
  cases hlimit : s.isRateLimited ipAddress (delays.clock now .addressChecked) with
  | mk s₁ limited =>
      rw [hlimit] at hchecked haddress
      cases limited with
      | true =>
          refine ⟨?_, fun v hv => by cases hv⟩
          simp only [if_true, Outcome.verification, Option.toList_none, List.append_nil]
          exact (hchecked.audit _ _ _ _).later (delays.clock_le now (by decide))
      | false =>
          have hchecks : delays.clock now .addressChecked ≤ delays.clock now .accountChecked :=
            delays.clock_le now (by decide)
          obtain ⟨hpassed, haccount⟩ := hchecked.isAccountLocked hchecks (host.account username)
          cases hlock : s₁.isAccountLocked (host.account username)
              (delays.clock now .accountChecked) with
          | mk s₂ locked =>
              rw [hlock] at hpassed haccount
              cases locked with
              | true =>
                  simp only [Bool.false_eq_true, if_false, hlock, if_true]
                  refine ⟨?_, fun v hv => by cases hv⟩
                  simp only [Outcome.verification, Option.toList_none, List.append_nil]
                  exact (hpassed.audit _ _ _ _).later (delays.clock_le now (by decide))
              | false =>
                  simp only [Bool.false_eq_true, if_false, hlock]
                  have hfinish : delays.clock now .accountChecked ≤ delays.clock now .finished :=
                    delays.clock_le now (by decide)
                  refine ⟨(hpassed.later hfinish).verify
                    (fun start hlt => haccount rfl start (hfinish.trans_lt hlt)) password ipAddress
                    (delays.clock_le now (by decide)) (delays.clock_le now (by decide))
                    (delays.clock_le now (by decide)) (delays.clock_le now (by decide)), ?_⟩
                  intro v hv
                  obtain ⟨haccount', hip, htime, -⟩ := mem_verification hv
                  refine ⟨fun _ start hlt => ?_, fun hne hremote start hlt => ?_⟩
                  · rw [haccount']
                    refine haccount rfl start (lt_of_le_of_lt ?_ hlt)
                    rw [htime]
                    exact delays.clock_le now (by decide)
                  · rw [hip] at hne hremote ⊢
                    refine haddress rfl hne hremote start (lt_of_le_of_lt ?_ hlt)
                    rw [htime]
                    exact delays.clock_le now (by decide)

/-- A restart begins a process that has no failures yet. -/
theorem Guards.restart {s : LoginState} {failed : List Verification} {process : Nat} {now : Time}
    (h : s.Guards failed process now) (hearlier : ∀ v ∈ failed, v.process ≤ process) :
    s.restart.Guards failed (process + 1) now where
  memory := fun account unlockTs hget => by cases hget
  audited := h.audited
  attempts := fun ipAddress start _ _ => by
    have hnone : countSince Verification.time (Verification.isFrom (process + 1) ipAddress) failed
        start = 0 := by
      refine List.countP_eq_zero.mpr fun v hv hin => ?_
      have hprocess := (of_decide_eq_true (Bool.and_eq_true_iff.mp hin).1).1
      exact absurd (hearlier v hv) (by omega)
    rw [hnone]
    exact Nat.zero_le _
  locked := h.locked

end LoginState

namespace LoginRun

structure Sound (r : LoginRun) : Prop where
  guards : r.state.Guards r.verifications r.process r.clock
  processes : ∀ v ∈ r.verifications, v.process ≤ r.process
  guesses : r.GuessesBounded
  failures : r.FailuresBounded

/-- A failed verification that both checks let through keeps the bounds. -/
theorem bounded_append {failed : List Verification} {process : Nat} {v : Verification}
    (hv : LoginState.Admits failed process v) (hprocess : v.process = process) :
    ((∀ account start, countWithin Verification.time (Verification.isGuess account) failed start
        (start + lockoutDuration) ≤ maxLoginAttempts) →
      ∀ account start, countWithin Verification.time (Verification.isGuess account) (failed ++ [v])
        start (start + lockoutDuration) ≤ maxLoginAttempts) ∧
    ((∀ process ipAddress start, ipAddress ≠ "" → ipAddress ∉ localAddresses →
        countWithin Verification.time (Verification.isFrom process ipAddress) failed start
          (start + bruteForceWindow) ≤ bruteForceMaxAttempts) →
      ∀ process ipAddress start, ipAddress ≠ "" → ipAddress ∉ localAddresses →
        countWithin Verification.time (Verification.isFrom process ipAddress) (failed ++ [v]) start
          (start + bruteForceWindow) ≤ bruteForceMaxAttempts) := by
  constructor
  · intro hbefore account start
    refine countWithin_append_le (hbefore account) (fun hguess s hlt => ?_) start
    obtain ⟨hwrong, haccount⟩ := Bool.and_eq_true_iff.mp hguess
    obtain rfl := of_decide_eq_true haccount
    exact hv.guess hwrong s hlt
  · intro hbefore other ipAddress start hne hremote
    refine countWithin_append_le (fun s => hbefore other ipAddress s hne hremote)
      (fun hfrom s hlt => ?_) start
    obtain ⟨hother, rfl⟩ := of_decide_eq_true hfrom
    rw [← hother, hprocess]
    exact hv.failure hne hremote s hlt

theorem Sound.step {host : AuthHost} {r : LoginRun} (hr : r.Sound) (op : LoginStep) :
    (r.step host op).Sound := by
  cases op with
  | restart =>
      exact ⟨hr.guards.restart hr.processes, fun v hv => Nat.le_succ_of_le (hr.processes v hv),
        hr.guesses, hr.failures⟩
  | authenticate username password ipAddress delays =>
      obtain ⟨hguards, hadmits⟩ := hr.guards.authenticate host username password ipAddress delays
      unfold LoginRun.step
      dsimp only
      cases hnew : (r.state.authenticate host username password ipAddress
          (delays.clock r.clock)).2.verification (host.account username) ipAddress
          (delays.clock r.clock .verified) r.process with
      | none =>
          rw [hnew, Option.toList_none, List.append_nil] at hguards
          rw [Option.toList_none, List.append_nil]
          exact ⟨hguards, hr.processes, hr.guesses, hr.failures⟩
      | some v =>
          rw [hnew] at hguards hadmits
          have hprocess := (LoginState.mem_verification hnew).2.2.2
          obtain ⟨hguesses, hfailures⟩ := bounded_append (hadmits v rfl) hprocess
          refine ⟨hguards, fun v' hv' => ?_, hguesses hr.guesses, hfailures hr.failures⟩
          rcases List.mem_append.mp hv' with hold | hlast
          · exact hr.processes v' hold
          · rw [List.mem_singleton.mp hlast, hprocess]

/-- Over every run from any database, in a process that has just started. -/
theorem guessing_bounded (host : AuthHost) (database : LoginState) (now : Time)
    (ops : List LoginStep) :
    Always (step host) (fun r => r.GuessesBounded ∧ r.FailuresBounded)
      { state := database.restart, clock := now } ops := by
  have hstart : Sound { state := database.restart, clock := now } := by
    refine ⟨⟨⟨?_, ?_, ?_⟩, ?_⟩, ?_, ?_, ?_⟩
    · intro account unlockTs hget
      cases hget
    · intro account start
      exact Nat.zero_le _
    · intro ipAddress start _ _
      exact Nat.zero_le _
    · intro account start _ hmany
      exact absurd (Nat.le_zero.mp hmany) (by decide)
    · intro v hv
      cases hv
    · intro account start
      exact Nat.zero_le _
    · intro process ipAddress start _ _
      exact Nat.zero_le _
  have halways : Always (step host) Sound { state := database.restart, clock := now } ops :=
    always_of_stepsMeet (C := fun _ _ => True) (fun r op _ hr _ => hr.step op) hstart
      (stepsMeet_true _ ops)
  exact halways.mono fun r hr => ⟨hr.guesses, hr.failures⟩

end LoginRun

end AutoTrade.Auth
