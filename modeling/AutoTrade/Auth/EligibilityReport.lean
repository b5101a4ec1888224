import AutoTrade.Auth.SignalPermissions

/-! # The eligibility report predicts delivery

The report and the sending loop write out the same conditions after the same
reset, so they agree on an entry. The report saves a reset it has made and
leaves the file alone where there was none, so the call that follows it loads
the same entry.
-/

namespace AutoTrade.Auth

open AutoTrade.Library

namespace UserSignalPermission

/-- No label changes where none has to. -/
theorem checkAndResetQuotas_eq_self {perm : UserSignalPermission} {now : Time}
    (h : (perm.checkAndResetQuotas now).2 = false) : (perm.checkAndResetQuotas now).1 = perm := by
  have hlabels : perm.lastReset = labels now := not_not.mp (of_decide_eq_false h)
  have hused : (ByTimeframe.ofFun fun tf =>
      if perm.lastReset.get tf ≠ (labels now).get tf then 0 else perm.signalsUsed.get tf) =
        perm.signalsUsed := by
    refine ByTimeframe.ext_get fun tf => ?_
    rw [ByTimeframe.get_ofFun, hlabels, if_neg (not_not.mpr rfl)]
  unfold checkAndResetQuotas
  dsimp only
  rw [hused, ← hlabels]

/-- A second reset at one instant finds the labels of that instant. -/
theorem checkAndResetQuotas_again (perm : UserSignalPermission) (now : Time) :
    ((perm.checkAndResetQuotas now).1.checkAndResetQuotas now).1 =
      (perm.checkAndResetQuotas now).1 :=
  checkAndResetQuotas_eq_self (decide_eq_false (not_not.mpr rfl))

theorem visit_checkAndResetQuotas (host : PermissionHost) (catUpper tierUpper : String) (now : Time)
    (perm : UserSignalPermission) :
    (perm.checkAndResetQuotas now).1.visit host catUpper tierUpper now =
      perm.visit host catUpper tierUpper now := by
  unfold visit
  rw [checkAndResetQuotas_again]

/-- On the entry as the report finds it after its reset, it has no reason exactly where the loop
appends. -/
theorem rejectionReasons_eq_nil_iff_visit (host : PermissionHost) (perm : UserSignalPermission)
    (catUpper tierUpper : String) (now : Time) :
    (perm.checkAndResetQuotas now).1.rejectionReasons host catUpper tierUpper = [] ↔
      (perm.visit host catUpper tierUpper now).2 = true := by
  rw [rejectionReasons_eq_nil_iff, visit_appends_iff, subscribed_checkAndResetQuotas]

end UserSignalPermission

namespace UserPermissionManager

/-- A save or an unchanged entry: either way the next call loads what is in memory. -/
theorem find?_load_getUserPermissions {host : PermissionHost} {m : UserPermissionManager}
    {username : String} {perm : UserSignalPermission} {now : Time}
    (h : (m.load host now).permissions.find? username = some perm) :
    ((m.getUserPermissions host username now).1.load host now).permissions.find? username =
      some (perm.checkAndResetQuotas now).1 := by
  have hname : perm.username = username := Table.find?_key h
  have hload := find?_load_load host m username now now
  unfold getUserPermissions
  simp only [h]
  rw [h] at hload
  generalize m.load host now = loaded at *
  have hupsert : (loaded.permissions.upsert (perm.checkAndResetQuotas now).1).find? username =
      some (perm.checkAndResetQuotas now).1 := by
    rw [Table.find?_upsert]
    exact if_pos hname.symm
  cases hmodified : (perm.checkAndResetQuotas now).2 with
  | true =>
      rw [if_pos rfl, find?_load_saveUnlocked host (Table.rows_upsert_ne_nil _ _)]
      exact hupsert
  | false =>
      rw [UserSignalPermission.checkAndResetQuotas_eq_self hmodified] at hupsert ⊢
      rw [if_neg (by decide)]
      let unsaved : UserPermissionManager :=
        { loaded with permissions := loaded.permissions.upsert perm }
      show (unsaved.load host now).permissions.find? username = some perm
      by_cases hfile : loaded.file.rows ≠ []
      · rw [load_of_file host hfile] at hload
        rw [load_of_file host (m := unsaved) hfile]
        exact hload
      · rw [load_of_memory host (m := unsaved) hfile (Table.rows_upsert_ne_nil _ _)]
        exact hupsert

/-- Asked for the same category and tier at the same instant, in the state before the report and in
the state it leaves. -/
theorem report_predicts_delivery (host : PermissionHost) (m : UserPermissionManager)
    (username category tier : String) (now : Time) :
    ((m.getUserEligibilityReport host username category tier now).2.effectiveEligible = true ↔
        username ∈ (m.getEligibleRecipients host category tier now).2.map (·.username)) ∧
      ((m.getUserEligibilityReport host username category tier now).2.effectiveEligible = true ↔
        username ∈ ((m.getUserEligibilityReport host username category tier
          now).1.getEligibleRecipients host category tier now).2.map (·.username)) := by
  rw [mem_recipients, mem_recipients]
  unfold getUserEligibilityReport returns
  cases hfind : (m.load host now).permissions.find? username with
  | none =>
      have hreport : m.getUserPermissions host username now = (m.load host now, none) := by
        unfold getUserPermissions
        simp only [hfind]
      rw [hreport]
      dsimp only
      rw [find?_load_load, hfind]
      exact ⟨Iff.rfl, Iff.rfl⟩
  | some perm =>
      have hreport : m.getUserPermissions host username now =
          ((m.getUserPermissions host username now).1, some (perm.checkAndResetQuotas now).1) := by
        unfold getUserPermissions
        simp only [hfind]
      have hreasons := perm.rejectionReasons_eq_nil_iff_visit host (host.upper category)
        (host.upper tier) now
      rw [hreport]
      dsimp only
      rw [find?_load_getUserPermissions hfind, decide_eq_true_eq,
        List.length_eq_zero_iff]
      simp only [Option.any_some, UserSignalPermission.visit_checkAndResetQuotas]
      exact ⟨hreasons, hreasons⟩

end UserPermissionManager

end AutoTrade.Auth
