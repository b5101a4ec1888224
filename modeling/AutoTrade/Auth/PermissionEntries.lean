import AutoTrade.Auth.SignalPermissions

/-! # What requests do to an entry

Each request of the permission manager, and what it may do to the entry of one
user, in memory and in the file. Memory is loaded from the file before it is
read, so a reset that was not saved is lost, and made again at the next call.
-/

namespace AutoTrade.Auth

open AutoTrade.Library

inductive PermissionRequest
  | getEligibleRecipients (category tier : String)
  | getUserPermissions (username : String)
  | listAllPermissions
  | updateUserPermissions (username : String) (data : PermissionData)
  | toggleUserSignals (username : String)
  | activateUser (username : String)
  | deactivateUser (username : String)
  | restart
deriving DecidableEq, Repr

/-- The manager after a request, and the recipients returned. -/
def UserPermissionManager.handle (host : PermissionHost) (m : UserPermissionManager)
    (request : PermissionRequest) (now : Time) :
    UserPermissionManager × List UserSignalPermission :=
  match request with
  | .getEligibleRecipients category tier => m.getEligibleRecipients host category tier now
  | .getUserPermissions username => ((m.getUserPermissions host username now).1, [])
  | .listAllPermissions => ((m.listAllPermissions host now).1, [])
  | .updateUserPermissions username data => ((m.updateUserPermissions host username data now).1, [])
  | .toggleUserSignals username => ((m.toggleUserSignals username).1, [])
  | .activateUser username => ((m.activateUser username).1, [])
  | .deactivateUser username => ((m.deactivateUser username).1, [])
  | .restart => (.make host m.file now, [])

/-- What a request that returns nobody may do to a user's entry; `new` are the entries it may make. -/
inductive EntryChange (new : UserSignalPermission → Prop) (now : Time) :
    Option UserSignalPermission → Option UserSignalPermission → Prop
  | kept (e : Option UserSignalPermission) : EntryChange new now e e
  | reset (perm : UserSignalPermission) :
      EntryChange new now (some perm) (some (perm.checkAndResetQuotas now).1)
  | settings {perm perm' : UserSignalPermission} (hused : perm'.signalsUsed = perm.signalsUsed)
      (hlabels : perm'.lastReset = perm.lastReset) : EntryChange new now (some perm) (some perm')
  | created {perm : UserSignalPermission} (hnew : new perm) : EntryChange new now none (some perm)

namespace UserPermissionManager

/-- An entry of the user, in memory or in the file. -/
def Entry (m : UserPermissionManager) (username : String) (e : Option UserSignalPermission) : Prop :=
  e = m.permissions.find? username ∨ e = m.file.find? username

/-- The entry that an update makes where there is none. -/
def NewEntry (m : UserPermissionManager) (username : String) (request : PermissionRequest)
    (now : Time) (perm : UserSignalPermission) : Prop :=
  m.permissions.find? username = none ∧ ∃ data chatId,
    request = .updateUserPermissions username data ∧ perm = .ofData username data chatId now

variable {host : PermissionHost} {m : UserPermissionManager} {username : String}
  {new : UserSignalPermission → Prop} {request : PermissionRequest} {now : Time}
  {e : Option UserSignalPermission}

theorem entry_saveUnlocked (h : m.saveUnlocked.Entry username e) :
    e = m.permissions.find? username := by
  rcases h with h | h
  · exact h
  · exact h.trans (Table.find?_sortRows m.permissions _ username)

theorem find?_load (hfile : m.file.rows ≠ []) (username : String) (now : Time) :
    (m.load host now).permissions.find? username = m.file.find? username := by
  rw [load_of_file host hfile]

theorem entry_load (host : PermissionHost) (hfile : m.file.rows ≠ []) (h : (m.load host now).Entry username e) :
    e = m.file.find? username := by
  rw [load_of_file host hfile] at h
  exact h.elim id id

/-- Each entry of the manager comes from one of the other by a change. -/
def EntriesFrom (username : String) (new : UserSignalPermission → Prop) (now : Time)
    (m m' : UserPermissionManager) : Prop :=
  ∀ e', m'.Entry username e' → ∃ e, m.Entry username e ∧ EntryChange new now e e'

theorem EntriesFrom.refl (m : UserPermissionManager) : EntriesFrom username new now m m :=
  fun e' he' => ⟨e', he', .kept e'⟩

theorem EntriesFrom.of_load (host : PermissionHost) {m' : UserPermissionManager} (hfile : m.file.rows ≠ [])
    (h : EntriesFrom username new now (m.load host now) m') :
    EntriesFrom username new now m m' := by
  intro e' he'
  obtain ⟨e, he, hchange⟩ := h e' he'
  exact ⟨e, .inr (entry_load host hfile he), hchange⟩

/-- An entry is replaced in memory, and what is in memory may be saved. -/
theorem EntriesFrom.upsert {m' : UserPermissionManager} (perm : UserSignalPermission)
    (hchange : username = perm.username →
      EntryChange new now (m.permissions.find? username) (some perm))
    (hentries : ∀ e', m'.Entry username e' →
      e' = (m.permissions.upsert perm).find? username ∨ m.Entry username e') :
    EntriesFrom username new now m m' := by
  intro e' he'
  rcases hentries e' he' with hupsert | hold
  · rw [Table.find?_upsert] at hupsert
    by_cases hname : username = perm.username
    · rw [if_pos hname] at hupsert
      exact ⟨_, .inl rfl, hupsert ▸ hchange hname⟩
    · rw [if_neg hname] at hupsert
      exact ⟨e', .inl hupsert, .kept e'⟩
  · exact ⟨e', hold, .kept e'⟩

theorem entriesFrom_getUserPermissions (hfile : m.file.rows ≠ []) (name : String) :
    EntriesFrom username new now m (m.getUserPermissions host name now).1 := by
  refine EntriesFrom.of_load host hfile ?_
  unfold getUserPermissions
  generalize m.load host now = loaded
  dsimp only
  cases hfind : loaded.permissions.find? name with
  | none => exact .refl loaded
  | some perm =>
      have hname : perm.username = name := Table.find?_key hfind
      refine EntriesFrom.upsert (perm.checkAndResetQuotas now).1 ?_ ?_
      · intro heq
        have hsame : username = name := heq.trans hname
        rw [hsame, hfind]
        exact .reset perm
      · intro e' he'
        dsimp only at he'
        split at he'
        · exact .inl (entry_saveUnlocked he')
        · exact he'.imp_right .inr

theorem entriesFrom_listAllPermissions (hfile : m.file.rows ≠ []) :
    EntriesFrom username new now m (m.listAllPermissions host now).1 := by
  refine EntriesFrom.of_load host hfile ?_
  unfold listAllPermissions
  generalize m.load host now = loaded
  dsimp only
  intro e' he'
  have hmap := Table.find?_mapRows loaded.permissions (fun perm => (perm.checkAndResetQuotas now).1)
    (fun _ => rfl) username
  have hreset : EntryChange new now (loaded.permissions.find? username)
      ((loaded.permissions.find? username).map fun perm => (perm.checkAndResetQuotas now).1) := by
    cases loaded.permissions.find? username with
    | none => exact .kept none
    | some perm => exact .reset perm
  split at he'
  · rw [entry_saveUnlocked he', hmap]
    exact ⟨_, .inl rfl, hreset⟩
  · rcases he' with h | h
    · rw [h, hmap]
      exact ⟨_, .inl rfl, hreset⟩
    · exact ⟨e', .inr h, .kept e'⟩

theorem entriesFrom_updateUserPermissions (name : String) (data : PermissionData) :
    EntriesFrom username (m.NewEntry username (.updateUserPermissions name data) now) now m
      (m.updateUserPermissions host name data now).1 := by
  unfold updateUserPermissions
  cases data.telegramChatId.mapM (validateTelegramChatId host) with
  | error message => exact .refl m
  | ok chatId =>
      dsimp only
      cases hfind : m.permissions.find? name with
      | none =>
          refine EntriesFrom.upsert (.ofData name data chatId now) ?_
            fun e' he' => .inl (entry_saveUnlocked he')
          intro heq
          have hsame : username = name := heq
          subst hsame
          rw [hfind]
          exact .created ⟨hfind, data, chatId, rfl, rfl⟩
      | some existing =>
          refine EntriesFrom.upsert (existing.assign data chatId) ?_
            fun e' he' => .inl (entry_saveUnlocked he')
          intro heq
          have hold : existing.username = name := Table.find?_key hfind
          have hsame : username = name := heq.trans hold
          rw [hsame, hfind]
          exact .settings rfl rfl

/-- A switch leaves counts and labels. -/
theorem entriesFrom_switch (name : String) {change : UserSignalPermission → UserSignalPermission}
    (hname : ∀ perm, (change perm).username = perm.username)
    (hused : ∀ perm, (change perm).signalsUsed = perm.signalsUsed)
    (hlabels : ∀ perm, (change perm).lastReset = perm.lastReset) :
    EntriesFrom username new now m (m.switch name change).1 := by
  unfold switch
  cases hfind : m.permissions.find? name with
  | none => exact .refl m
  | some perm =>
      refine EntriesFrom.upsert (change perm) ?_ fun e' he' => .inl (entry_saveUnlocked he')
      intro heq
      have hsame : username = name := heq.trans ((hname perm).trans (Table.find?_key hfind))
      rw [hsame, hfind]
      exact .settings (hused perm) (hlabels perm)

theorem toggleUserSignals_fst (m : UserPermissionManager) (name : String) :
    (m.toggleUserSignals name).1 =
      (m.switch name fun perm => { perm with signalsEnabled := !perm.signalsEnabled }).1 := by
  unfold toggleUserSignals
  obtain ⟨m', _ | perm⟩ := m.switch name fun perm => { perm with signalsEnabled := !perm.signalsEnabled }
  · rfl
  · rfl

theorem activateUser_fst (m : UserPermissionManager) (name : String) :
    (m.activateUser name).1 =
      (m.switch name fun perm => { perm with isActive := true, signalsEnabled := true }).1 := by
  unfold activateUser
  obtain ⟨m', _ | perm⟩ := m.switch name fun perm => { perm with isActive := true, signalsEnabled := true }
  · rfl
  · rfl

theorem deactivateUser_fst (m : UserPermissionManager) (name : String) :
    (m.deactivateUser name).1 =
      if name = "admin" then m
      else (m.switch name fun perm => { perm with isActive := false, signalsEnabled := false }).1 := by
  unfold deactivateUser
  split
  · rfl
  · obtain ⟨m', _ | perm⟩ :=
      m.switch name fun perm => { perm with isActive := false, signalsEnabled := false }
    · rfl
    · rfl

theorem entriesFrom_handle (hfile : m.file.rows ≠ [])
    (hother : ∀ category tier, request ≠ .getEligibleRecipients category tier) :
    EntriesFrom username (m.NewEntry username request now) now m (m.handle host request now).1 := by
  cases request with
  | getEligibleRecipients category tier => exact absurd rfl (hother category tier)
  | getUserPermissions name => exact entriesFrom_getUserPermissions hfile name
  | listAllPermissions => exact entriesFrom_listAllPermissions hfile
  | updateUserPermissions name data => exact entriesFrom_updateUserPermissions name data
  | toggleUserSignals name =>
      show EntriesFrom username _ now m (m.toggleUserSignals name).1
      rw [toggleUserSignals_fst]
      exact entriesFrom_switch name (fun _ => rfl) (fun _ => rfl) fun _ => rfl
  | activateUser name =>
      show EntriesFrom username _ now m (m.activateUser name).1
      rw [activateUser_fst]
      exact entriesFrom_switch name (fun _ => rfl) (fun _ => rfl) fun _ => rfl
  | deactivateUser name =>
      show EntriesFrom username _ now m (m.deactivateUser name).1
      rw [deactivateUser_fst]
      split
      · exact .refl m
      · exact entriesFrom_switch name (fun _ => rfl) (fun _ => rfl) fun _ => rfl
  | restart =>
      intro e' he'
      have hloaded : e' = m.file.find? username :=
        entry_load host (m := { file := m.file }) hfile he'
      exact ⟨e', .inr hloaded, .kept e'⟩

/-- A file that holds an entry holds one after any request. -/
theorem rows_switch_ne_nil (hfile : m.file.rows ≠ []) (name : String)
    (change : UserSignalPermission → UserSignalPermission) :
    (m.switch name change).1.file.rows ≠ [] := by
  unfold switch
  split
  · exact hfile
  · exact rows_saveUnlocked_ne_nil (Table.rows_upsert_ne_nil _ _)

theorem rows_handle_ne_nil (hfile : m.file.rows ≠ []) :
    (m.handle host request now).1.file.rows ≠ [] := by
  have hloaded : (m.load host now).file.rows ≠ [] := by
    rw [load_of_file host hfile]
    exact hfile
  have hpermissions : (m.load host now).permissions.rows ≠ [] := by
    rw [load_of_file host hfile]
    exact hfile
  cases request with
  | getEligibleRecipients category tier =>
      unfold handle getEligibleRecipients
      dsimp only
      split
      · exact rows_saveUnlocked_ne_nil (mt List.map_eq_nil_iff.mp hpermissions)
      · exact hloaded
  | getUserPermissions name =>
      unfold handle getUserPermissions
      dsimp only
      split
      · exact hloaded
      · dsimp only
        split
        · exact rows_saveUnlocked_ne_nil (Table.rows_upsert_ne_nil _ _)
        · exact hloaded
  | listAllPermissions =>
      unfold handle listAllPermissions
      dsimp only
      split
      · exact rows_saveUnlocked_ne_nil (mt List.map_eq_nil_iff.mp hpermissions)
      · exact hloaded
  | updateUserPermissions name data =>
      unfold handle updateUserPermissions
      dsimp only
      split
      · exact hfile
      · split
        · exact rows_saveUnlocked_ne_nil (Table.rows_upsert_ne_nil _ _)
        · exact rows_saveUnlocked_ne_nil (Table.rows_upsert_ne_nil _ _)
  | toggleUserSignals name =>
      show (m.toggleUserSignals name).1.file.rows ≠ []
      rw [toggleUserSignals_fst]
      exact rows_switch_ne_nil hfile name _
  | activateUser name =>
      show (m.activateUser name).1.file.rows ≠ []
      rw [activateUser_fst]
      exact rows_switch_ne_nil hfile name _
  | deactivateUser name =>
      show (m.deactivateUser name).1.file.rows ≠ []
      rw [deactivateUser_fst]
      split
      · exact hfile
      · exact rows_switch_ne_nil hfile name _
  | restart =>
      show (load host { file := m.file } now).file.rows ≠ []
      rw [load_of_file host (m := { file := m.file }) hfile]
      exact hfile

/-- A call for recipients leaves every entry visited, unless it returns nobody: then a reset need not
be saved. -/
theorem entry_getEligibleRecipients {category tier : String} (hfile : m.file.rows ≠ [])
    (h : (m.getEligibleRecipients host category tier now).1.Entry username e) :
    e = (m.file.find? username).map
        (fun perm => (perm.visit host (host.upper category) (host.upper tier) now).1) ∨
      e = m.file.find? username ∧ m.returns host username category tier now = false := by
  have hnobody : (m.getEligibleRecipients host category tier now).2 = [] →
      m.returns host username category tier now = false := by
    intro hnil
    have hmem := mem_recipients host m username category tier now
    rw [hnil] at hmem
    exact Bool.eq_false_iff.mpr fun hreturns => absurd (hmem.mpr hreturns) List.not_mem_nil
  unfold getEligibleRecipients at h hnobody
  rw [load_of_file host hfile] at h hnobody
  dsimp only at h hnobody
  split at h
  · refine .inl ((entry_saveUnlocked h).trans ?_)
    exact Table.find?_mapRows m.file _ (fun perm => perm.username_visit host _ _ now) username
  · rename_i hnil
    rcases h with h | h
    · refine .inl (h.trans ?_)
      exact Table.find?_mapRows m.file _ (fun perm => perm.username_visit host _ _ now) username
    · exact .inr ⟨h, hnobody (not_not.mp hnil)⟩

end UserPermissionManager

end AutoTrade.Auth
