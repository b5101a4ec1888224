import AutoTrade.Library.Run
import AutoTrade.SelfHealing.ApprovalWorkflow

/-! # A standing approval

`should_execute` should answer yes for a high-risk action only while the latest
decision on its pair of action and component is an operator's approval, and when
it answers no there should be a ticket that can still be approved. A yes comes
from the set of approved texts, which nothing takes a text out of, so what keeps
it honest is a ticket of the pair that is still held.
-/

namespace AutoTrade.SelfHealing

open Library (Table Always StepsMeet)
open ApprovalTicket (isFor)

namespace HealingApprovalWorkflow

variable (w : HealingApprovalWorkflow)

def held (action component : String) : List ApprovalTicket :=
  w.pending.rows.filter (isFor action component)

/-- The latest decision on the pair is an operator's approval. -/
def Standing (action component : String) : Prop :=
  ∃ t ∈ w.decided.find? (isFor action component), t.status = .approved

/-- A high-risk action would be executed only on a standing approval. -/
def ApprovalStands : Prop :=
  ∀ action component now, riskOf action = .high →
    (w.shouldExecute action component now).2.1 = true → w.Standing action component

/-- What the dictionary and the file hold. -/
structure Kept : Prop where
  statuses : ∀ t ∈ w.pending.rows, t.status = .pending ∨ t.status = .expired
  numbered : ∀ t ∈ w.pending.rows, t.id < w.nextTicket
  fileStatuses : ∀ t ∈ w.file.rows, t.status = .pending
  fileNumbered : ∀ t ∈ w.file.rows, t.id < w.nextTicket

/-- A yes for a high-risk action: no ticket of the pair is held and its text was once approved. -/
def Permits (action component : String) : Prop :=
  w.held action component = [] ∧ actionKey action component ∈ w.approvedActions

variable {w}

/-! ## What `should_execute` answers -/

theorem riskOf_ne_critical (action : String) : riskOf action ≠ .critical := by
  unfold riskOf
  cases hlookup : actionRiskMap.lookup action with
  | none => exact nofun
  | some level =>
      obtain ⟨before, after, hsplit, -⟩ := List.lookup_eq_some_iff.mp hlookup
      have hmem : (action, level) ∈ actionRiskMap := hsplit ▸ by simp
      have hlevels : ∀ entry ∈ actionRiskMap, entry.2 ≠ .critical := by decide
      exact hlevels _ hmem

section Answers

variable {action component : String} (now : Time)

theorem find?_eq_none_of_held (h : w.held action component = []) :
    w.pending.rows.find? (isFor action component) = none :=
  List.find?_eq_none.mpr fun t ht => by
    simpa using List.filter_eq_nil_iff.mp h t ht

theorem shouldExecute_of_held (kept : w.Kept) (hrisk : riskOf action = .high)
    (hheld : w.held action component ≠ []) :
    (w.shouldExecute action component now).1 = w ∧
      (w.shouldExecute action component now).2.1 = false := by
  cases hfind : w.pending.rows.find? (isFor action component) with
  | none =>
      refine absurd (List.filter_eq_nil_iff.mpr fun t ht => ?_) hheld
      simpa using List.find?_eq_none.mp hfind t ht
  | some t =>
      have hstatus := kept.statuses t (List.mem_of_find?_eq_some hfind)
      have hopen : t.isApproved = false := by
        rcases hstatus with h | h <;> simp [ApprovalTicket.isApproved, h]
      have hnot : t.status ≠ .rejected := by
        rcases hstatus with h | h <;> simp [h]
      unfold shouldExecute
      simp only [hrisk, hfind, hopen, hnot, if_false, Bool.false_eq_true]
      by_cases hexp : t.isExpired now = true <;> simp [hexp]

theorem shouldExecute_of_cached (hrisk : riskOf action = .high)
    (hpermits : w.Permits action component) :
    (w.shouldExecute action component now).1 = w ∧
      (w.shouldExecute action component now).2.1 = true := by
  unfold shouldExecute
  simp [hrisk, find?_eq_none_of_held hpermits.1, hpermits.2]

theorem shouldExecute_of_new (hrisk : riskOf action = .high)
    (hheld : w.held action component = [])
    (hkey : actionKey action component ∉ w.approvedActions) :
    (w.shouldExecute action component now).1 = (w.requestApproval action component
        "Auto-requested during healing cycle" (.level .high) none now).1 ∧
      (w.shouldExecute action component now).2.1 = false := by
  have hticket : (w.requestApproval action component "Auto-requested during healing cycle"
      (.level .high) none now).2.isApproved = false := by
    unfold requestApproval
    simp only [RiskArgument.resolve, autoApproves]
    split <;> rfl
  unfold shouldExecute
  simp [hrisk, find?_eq_none_of_held hheld, hkey, hticket]

/-- A question changes nothing, or requests a ticket for a pair whose text was never approved. -/
theorem shouldExecute_fst (kept : w.Kept) (action component : String) :
    (w.shouldExecute action component now).1 = w ∨
      actionKey action component ∉ w.approvedActions ∧
        (w.shouldExecute action component now).1 = (w.requestApproval action component
          "Auto-requested during healing cycle" (.level .high) none now).1 := by
  by_cases hrisk : riskOf action = .high
  · by_cases hheld : w.held action component = []
    · by_cases hkey : actionKey action component ∈ w.approvedActions
      · exact Or.inl (shouldExecute_of_cached now hrisk ⟨hheld, hkey⟩).1
      · exact Or.inr ⟨hkey, (shouldExecute_of_new now hrisk hheld hkey).1⟩
    · exact Or.inl (shouldExecute_of_held now kept hrisk hheld).1
  · left
    have hcritical := riskOf_ne_critical action
    unfold shouldExecute
    cases hlevel : riskOf action <;> simp_all

theorem shouldExecute_iff (kept : w.Kept) (hrisk : riskOf action = .high) :
    (w.shouldExecute action component now).2.1 = true ↔ w.Permits action component := by
  by_cases hheld : w.held action component = []
  · by_cases hkey : actionKey action component ∈ w.approvedActions
    · simp [(shouldExecute_of_cached now hrisk ⟨hheld, hkey⟩).2, Permits, hheld, hkey]
    · simp [(shouldExecute_of_new now hrisk hheld hkey).2, Permits, hkey]
  · simp [(shouldExecute_of_held now kept hrisk hheld).2, Permits, hheld]

end Answers

theorem approvalStands_iff (kept : w.Kept) :
    w.ApprovalStands ↔ ∀ action component, riskOf action = .high →
      w.Permits action component → w.Standing action component := by
  constructor
  · intro h action component hrisk hpermits
    exact h action component 0 hrisk ((shouldExecute_iff 0 kept hrisk).mpr hpermits)
  · intro h action component now hrisk hyes
    exact h action component hrisk ((shouldExecute_iff now kept hrisk).mp hyes)

/-! ## What is held and what stands after each step -/

section Effects

theorem Kept.record (kept : w.Kept) (t : ApprovalTicket) : (w.record t).Kept :=
  ⟨kept.statuses, kept.numbered, kept.fileStatuses, kept.fileNumbered⟩

/-- A saved file holds pending tickets of the dictionary. -/
theorem kept_saveTickets
    (statuses : ∀ t ∈ w.pending.rows, t.status = .pending ∨ t.status = .expired)
    (numbered : ∀ t ∈ w.pending.rows, t.id < w.nextTicket) : w.saveTickets.Kept where
  statuses := statuses
  numbered := numbered
  fileStatuses t ht := by simpa using (List.mem_filter.mp ht).2
  fileNumbered t ht := numbered t (List.mem_filter.mp ht).1

theorem Kept.removeTicket (kept : w.Kept) (id : Nat) : (w.removeTicket id).Kept :=
  kept_saveTickets (fun t ht => kept.statuses t (List.mem_filter.mp ht).1)
    (fun t ht => kept.numbered t (List.mem_filter.mp ht).1)

theorem Kept.numberNext (kept : w.Kept) :
    Kept { w with nextTicket := w.nextTicket + 1 } where
  statuses := kept.statuses
  numbered t ht := Nat.lt_succ_of_lt (kept.numbered t ht)
  fileStatuses := kept.fileStatuses
  fileNumbered t ht := Nat.lt_succ_of_lt (kept.fileNumbered t ht)

theorem standing_record_of_for {t : ApprovalTicket} {action component : String}
    (h : isFor action component t = true) :
    (w.record t).Standing action component ↔ t.status = .approved := by
  simp [Standing, record, h]

theorem standing_record_of_not_for {t : ApprovalTicket} {action component : String}
    (h : isFor action component t ≠ true) :
    (w.record t).Standing action component ↔ w.Standing action component := by
  simp [Standing, record, h]

theorem isFor_iff {action component : String} {t : ApprovalTicket} :
    isFor action component t = true ↔ t.actionType = action ∧ t.component = component := by
  simp [isFor]

theorem mem_held {action component : String} {t : ApprovalTicket} :
    t ∈ w.held action component ↔ t ∈ w.pending.rows ∧ isFor action component t = true :=
  List.mem_filter

theorem held_eq_nil_iff {action component : String} :
    w.held action component = [] ↔ ∀ t ∈ w.pending.rows, isFor action component t ≠ true := by
  rw [held, List.filter_eq_nil_iff]

theorem mem_removeTicket {id : Nat} {t : ApprovalTicket} :
    t ∈ (w.removeTicket id).pending.rows ↔ t ∈ w.pending.rows ∧ t.id ≠ id := by
  simp [removeTicket, saveTickets, Table.erase, Table.filter]

/-- Removing a ticket of one pair leaves what is held of another. -/
theorem held_removeTicket_of_not_for {id : Nat} {t : ApprovalTicket}
    (hfind : w.pending.find? id = some t) {action component : String}
    (hnot : isFor action component t ≠ true) :
    (w.removeTicket id).held action component = [] ↔ w.held action component = [] := by
  rw [held_eq_nil_iff, held_eq_nil_iff]
  constructor
  · intro h u hu hfor
    refine h u (mem_removeTicket.mpr ⟨hu, ?_⟩) hfor
    rintro rfl
    rw [Table.find?_of_mem hu] at hfind
    exact hnot (Option.some.inj hfind ▸ hfor)
  · intro h u hu
    exact h u (mem_removeTicket.mp hu).1

theorem held_removeTicket {id : Nat} {action component : String} :
    (w.removeTicket id).held action component = [] ↔
      ∀ t ∈ w.held action component, t.id = id := by
  rw [held_eq_nil_iff]
  constructor
  · intro h t ht
    obtain ⟨hmem, hfor⟩ := mem_held.mp ht
    by_contra hid
    exact h t (mem_removeTicket.mpr ⟨hmem, hid⟩) hfor
  · intro h t ht hfor
    obtain ⟨hmem, hid⟩ := mem_removeTicket.mp ht
    exact hid (h t (mem_held.mpr ⟨hmem, hfor⟩))

/-- A request at the limit is rejected at once; below it the action is approved by its level, or its
ticket waits. -/
theorem request_cases (w : HealingApprovalWorkflow) (action component reason : String)
    (risk : RiskArgument) (timeout : Option Time) (now : Time) :
    let after := (w.requestApproval action component reason risk timeout now).1
    let numbered := { w with nextTicket := w.nextTicket + 1 }
    (w.config.maxPendingTickets ≤ w.pendingCount ∧ ∃ t : ApprovalTicket,
        isFor action component t = true ∧ t.status = .rejected ∧ after = numbered.record t) ∨
      (w.pendingCount < w.config.maxPendingTickets ∧
        w.autoApproves (risk.resolve action) = true ∧ after = numbered) ∨
      (w.pendingCount < w.config.maxPendingTickets ∧
        w.autoApproves (risk.resolve action) = false ∧ ∃ t : ApprovalTicket,
          isFor action component t = true ∧ t.id = w.nextTicket ∧ t.status = .pending ∧
          t.requestedAt = now ∧ t.timeoutSeconds = w.timeoutFor timeout ∧
          after = { numbered with pending := w.pending.upsert t }.saveTickets) := by
  intro after numbered
  unfold after requestApproval
  by_cases hlimit : w.config.maxPendingTickets ≤ w.pendingCount
  · left
    simp only [hlimit, if_true]
    exact ⟨trivial, _, by simp [isFor], rfl, rfl⟩
  · have hbelow := Int.not_le.mp hlimit
    right
    cases hauto : w.autoApproves (risk.resolve action) with
    | true =>
        left
        simp only [hlimit, if_false, hauto, if_true]
        exact ⟨hbelow, trivial, rfl⟩
    | false =>
        right
        simp only [hlimit, if_false, hauto, Bool.false_eq_true]
        exact ⟨hbelow, trivial, _, by simp [isFor], rfl, rfl, rfl, rfl, rfl⟩

theorem rows_upsert_next (kept : w.Kept) {t : ApprovalTicket} (hid : t.id = w.nextTicket) :
    (w.pending.upsert t).rows = w.pending.rows ++ [t] := by
  refine Table.rows_upsert_of_fresh fun u hu => ?_
  have hlt := kept.numbered u hu
  omega

theorem Kept.request (kept : w.Kept) (action component reason : String) (risk : RiskArgument)
    (timeout : Option Time) (now : Time) :
    (w.requestApproval action component reason risk timeout now).1.Kept := by
  rcases w.request_cases action component reason risk timeout now with
    ⟨-, t, -, -, hafter⟩ | ⟨-, -, hafter⟩ | ⟨-, -, t, -, hid, hstatus, -, -, hafter⟩
  · rw [hafter]
    exact kept.numberNext.record t
  · rw [hafter]
    exact kept.numberNext
  · rw [hafter]
    refine kept_saveTickets ?_ ?_
    · intro u hu
      rw [rows_upsert_next kept hid, List.mem_append, List.mem_singleton] at hu
      rcases hu with hu | rfl
      · exact kept.statuses u hu
      · exact Or.inl hstatus
    · intro u hu
      rw [rows_upsert_next kept hid, List.mem_append, List.mem_singleton] at hu
      rcases hu with hu | rfl
      · exact Nat.lt_succ_of_lt (kept.numbered u hu)
      · exact hid ▸ Nat.lt_succ_self _

end Effects

/-! ## When a step keeps a pair sound -/

section Sound

/-- A yes for the pair would rest on a standing approval. -/
def PairSound (w : HealingApprovalWorkflow) (action component : String) : Prop :=
  w.Permits action component → w.Standing action component

theorem isFor_congr {action component action' component' : String} {t : ApprovalTicket}
    (h : isFor action component t = true) :
    isFor action' component' t = true ↔ action' = action ∧ component' = component := by
  obtain ⟨rfl, rfl⟩ := isFor_iff.mp h
  rw [isFor_iff, eq_comm, @eq_comm _ t.component]

variable {action component : String}

theorem request_sound_iff (kept : w.Kept) (sound : w.PairSound action component)
    (action' component' reason : String) (risk : RiskArgument) (timeout : Option Time)
    (now : Time) :
    (w.requestApproval action' component' reason risk timeout now).1.PairSound action component ↔
      (action = action' ∧ component = component' →
        w.config.maxPendingTickets ≤ w.pendingCount → ¬ w.Permits action component) := by
  rcases w.request_cases action' component' reason risk timeout now with
    ⟨hlimit, t, hfor, hstatus, hafter⟩ | ⟨hbelow, -, hafter⟩ |
      ⟨hbelow, -, t, hfor, hid, -, -, -, hafter⟩
  · rw [hafter]
    unfold PairSound
    by_cases hpair : action = action' ∧ component = component'
    · rw [standing_record_of_for ((isFor_congr hfor).mpr hpair), hstatus]
      simp only [hpair, and_self, reduceCtorEq, hlimit, forall_const]
      exact Iff.rfl
    · rw [standing_record_of_not_for fun h => hpair ((isFor_congr hfor).mp h)]
      simp only [hpair, false_implies, iff_true]
      exact sound
  · rw [hafter]
    exact ⟨fun _ _ hlimit => absurd hlimit (Int.not_le.mpr hbelow), fun _ => sound⟩
  · rw [hafter]
    refine ⟨fun _ _ hlimit => absurd hlimit (Int.not_le.mpr hbelow), fun _ => ?_⟩
    rintro ⟨hheld, hkey⟩
    rw [held_eq_nil_iff] at hheld
    have hrows := rows_upsert_next kept hid
    refine sound ⟨held_eq_nil_iff.mpr fun u hu => hheld u ?_, hkey⟩
    exact hrows ▸ List.mem_append_left [t] hu

theorem not_permits_restart (w : HealingApprovalWorkflow) (config : ApprovalConfig) :
    ¬ (w.restart config).Permits action component :=
  fun h => nomatch h.2

/-- An approval finds no pending ticket, one that has run out, or one it approves. -/
theorem approve_cases (w : HealingApprovalWorkflow) (id : Nat) (approvedBy : String) (now : Time) :
    (w.approve id approvedBy now).1 = w ∧
        (∀ t ∈ w.pending.find? id, t.status ≠ .pending) ∨
      (∃ t ∈ w.pending.find? id, t.status = .pending ∧ t.isExpired now = true ∧
        ∃ d : ApprovalTicket, (∀ action component, isFor action component d =
            isFor action component t) ∧ d.status = .expired ∧
          (w.approve id approvedBy now).1 = (w.markExpired id).record d) ∨
      ∃ t ∈ w.pending.find? id, t.status = .pending ∧ t.isExpired now = false ∧
        ∃ d : ApprovalTicket, (∀ action component, isFor action component d =
            isFor action component t) ∧ d.status = .approved ∧
          (w.approve id approvedBy now).1 = ((w.addApproved t).removeTicket id).record d := by
  unfold approve
  cases hfind : w.pending.find? id with
  | none => exact Or.inl ⟨rfl, by simp⟩
  | some t =>
      by_cases hstatus : t.status = .pending
      · right
        simp only [hstatus, ne_eq, not_true_eq_false, if_false]
        cases hexp : t.isExpired now with
        | true =>
            exact Or.inl ⟨t, rfl, hstatus, hexp, { t with status := .expired }, fun _ _ => rfl, rfl,
              congrArg Prod.fst (if_pos rfl)⟩
        | false =>
            exact Or.inr ⟨t, rfl, hstatus, hexp,
              { t with status := .approved, approvedBy, decidedAt := now }, fun _ _ => rfl, rfl,
              congrArg Prod.fst (if_neg nofun)⟩
      · left
        refine ⟨by simp [hstatus], ?_⟩
        intro u hu
        exact Option.some.inj hu ▸ hstatus

/-- Marking a ticket expired leaves what is held of every pair. -/
theorem held_markExpired (w : HealingApprovalWorkflow) (id : Nat) :
    (w.markExpired id).held action component = [] ↔ w.held action component = [] := by
  rw [held_eq_nil_iff, held_eq_nil_iff]
  unfold markExpired Table.update
  simp only [List.forall_mem_map]
  refine forall₂_congr fun t _ => ?_
  by_cases hid : t.id = id <;> simp [hid, isFor]

/-- A ticket that has run out was held, and what has its text is permitted as before. -/
theorem expired_sound (sound : w.PairSound action component) {id : Nat} {t d : ApprovalTicket}
    (hfind : w.pending.find? id = some t)
    (hd : isFor action component d = isFor action component t) :
    ((w.markExpired id).record d).PairSound action component := by
  rintro ⟨hheld, hkey⟩
  have hold := (held_markExpired w id).mp hheld
  have hmem : t ∈ w.pending.rows := ((w.pending.find?_eq_some_iff id t).mp hfind).1
  have hnot : isFor action component d ≠ true := hd ▸ held_eq_nil_iff.mp hold t hmem
  exact (standing_record_of_not_for hnot).mpr (sound ⟨hold, hkey⟩)

/-- An approval stands for its own pair; another pair it permits only through the same text. -/
theorem approved_sound_iff (sound : w.PairSound action component) {id : Nat}
    {t d : ApprovalTicket} (hfind : w.pending.find? id = some t)
    (hd : isFor action component d = isFor action component t) (happroved : d.status = .approved) :
    (((w.addApproved t).removeTicket id).record d).PairSound action component ↔
      (isFor action component t ≠ true →
        actionKey action component = actionKey t.actionType t.component →
        w.held action component = [] → w.Standing action component) := by
  by_cases hfor : isFor action component t = true
  · refine iff_of_true (fun _ => ?_) fun hnot => absurd hfor hnot
    exact (standing_record_of_for (hd.trans hfor)).mpr happroved
  · have hnot : isFor action component d ≠ true := hd ▸ hfor
    have hheld : ((w.addApproved t).removeTicket id).held action component = [] ↔
        w.held action component = [] :=
      held_removeTicket_of_not_for (w := w.addApproved t) hfind hfor
    constructor
    · intro after _ hkey hnone
      refine (standing_record_of_not_for hnot).mp (after ⟨hheld.mpr hnone, ?_⟩)
      exact hkey ▸ List.mem_cons_self
    · rintro hsafe ⟨hnone, hkey⟩
      refine (standing_record_of_not_for hnot).mpr ?_
      rcases List.mem_cons.mp hkey with hkey | hkey
      · exact hsafe hfor hkey (hheld.mp hnone)
      · exact sound ⟨hheld.mp hnone, hkey⟩

theorem approve_sound_iff (sound : w.PairSound action component) (id : Nat) (approvedBy : String)
    (now : Time) :
    (w.approve id approvedBy now).1.PairSound action component ↔
      ∀ t ∈ w.pending.find? id, t.status = .pending → t.isExpired now = false →
        isFor action component t ≠ true →
        actionKey action component = actionKey t.actionType t.component →
        w.held action component = [] → w.Standing action component := by
  rcases w.approve_cases id approvedBy now with
    ⟨hafter, hdone⟩ | ⟨t, hfind, -, hexp, d, hd, -, hafter⟩ |
      ⟨t, hfind, hstatus, hlive, d, hd, happroved, hafter⟩
  · rw [hafter]
    exact ⟨fun _ u hu hpending => absurd hpending (hdone u hu), fun _ => sound⟩
  · rw [hafter]
    refine iff_of_true (expired_sound sound hfind (hd _ _)) fun u hu _ hlive => ?_
    obtain rfl : t = u := Option.some.inj (hfind.symm.trans hu)
    exact absurd hexp (by simp [hlive])
  · rw [hafter, approved_sound_iff sound hfind (hd _ _) happroved]
    constructor
    · intro hsafe u hu _ _
      obtain rfl : t = u := Option.some.inj (hfind.symm.trans hu)
      exact hsafe
    · intro hsafe
      exact hsafe t hfind hstatus hlive

theorem reject_cases (w : HealingApprovalWorkflow) (id : Nat) (rejectedBy reason : String)
    (now : Time) :
    (w.reject id rejectedBy reason now).1 = w ∧ (∀ t ∈ w.pending.find? id, t.status ≠ .pending) ∨
      ∃ t ∈ w.pending.find? id, t.status = .pending ∧
        ∃ d : ApprovalTicket, (∀ action component, isFor action component d =
            isFor action component t) ∧ d.status = .rejected ∧
          (w.reject id rejectedBy reason now).1 = (w.removeTicket id).record d := by
  unfold reject
  cases hfind : w.pending.find? id with
  | none => exact Or.inl ⟨rfl, by simp⟩
  | some t =>
      by_cases hstatus : t.status = .pending
      · right
        simp only [hstatus, ne_eq, not_true_eq_false, if_false]
        exact ⟨t, rfl, hstatus,
          { t with
            status := .rejected, approvedBy := rejectedBy, decidedAt := now,
            rejectionReason := if reason = "" then "Rejected without reason" else reason },
          fun _ _ => rfl, rfl, rfl⟩
      · left
        refine ⟨by simp [hstatus], ?_⟩
        intro u hu
        exact Option.some.inj hu ▸ hstatus

theorem reject_sound_iff (sound : w.PairSound action component) (id : Nat)
    (rejectedBy reason : String) (now : Time) :
    (w.reject id rejectedBy reason now).1.PairSound action component ↔
      ∀ t ∈ w.pending.find? id, t.status = .pending → isFor action component t = true →
        actionKey action component ∈ w.approvedActions →
        ∃ u ∈ w.held action component, u.id ≠ id := by
  rcases w.reject_cases id rejectedBy reason now with
    ⟨hafter, hdone⟩ | ⟨t, hfind, hstatus, d, hd, hrejected, hafter⟩
  · rw [hafter]
    exact ⟨fun _ u hu hpending => absurd hpending (hdone u hu), fun _ => sound⟩
  · rw [hafter]
    by_cases hfor : isFor action component t = true
    · have hnot : ¬ ((w.removeTicket id).record d).Standing action component := by
        rw [standing_record_of_for ((hd _ _).trans hfor), hrejected]
        exact nofun
      constructor
      · intro after u _ _ _ hkey
        by_contra hnone
        push Not at hnone
        exact hnot (after ⟨held_removeTicket.mpr hnone, hkey⟩)
      · rintro hsafe ⟨hnone, hkey⟩
        obtain ⟨u, hu, hid⟩ := hsafe t hfind hstatus hfor hkey
        exact absurd (held_removeTicket.mp hnone u hu) hid
    · have hnot : isFor action component d ≠ true := hd action component ▸ hfor
      constructor
      · intro _ u hu _ hforu
        obtain rfl : t = u := Option.some.inj (hfind.symm.trans hu)
        exact absurd hforu hfor
      · rintro - ⟨hnone, hkey⟩
        refine (standing_record_of_not_for hnot).mpr (sound ⟨?_, hkey⟩)
        exact (held_removeTicket_of_not_for hfind hfor).mp hnone

theorem held_checkExpired (w : HealingApprovalWorkflow) (now : Time) :
    (w.checkExpired now).held action component =
      (w.held action component).filter fun t => !timedOut now t := by
  have hpending : (w.checkExpired now).pending = w.pending.filter fun t => !timedOut now t := by
    unfold checkExpired
    simp only
    split <;> rfl
  rw [held, hpending]
  exact List.filter_comm _ _ _

/-- Decisions none of which approves leave nothing standing for the pairs they are about. -/
theorem standing_append {refused log : List ApprovalTicket}
    (hrefused : ∀ t ∈ refused, t.status ≠ .approved) :
    (∃ t ∈ (refused ++ log).find? (isFor action component), t.status = .approved) ↔
      (∀ t ∈ refused, isFor action component t ≠ true) ∧
        ∃ t ∈ log.find? (isFor action component), t.status = .approved := by
  rw [List.find?_append]
  cases hfind : refused.find? (isFor action component) with
  | none =>
      have hnone := List.find?_eq_none.mp hfind
      simp only [Option.none_or]
      exact ⟨fun h => ⟨hnone, h⟩, And.right⟩
  | some d =>
      have hmem := List.mem_of_find?_eq_some hfind
      simp only [Option.some_or, Option.mem_def, Option.some.injEq, exists_eq_left']
      constructor
      · intro h
        exact absurd h (hrefused d hmem)
      · intro h
        exact absurd (List.find?_some hfind) (h.1 d hmem)

theorem standing_checkExpired (w : HealingApprovalWorkflow) (now : Time) :
    (w.checkExpired now).Standing action component ↔
      (∀ t ∈ w.held action component, timedOut now t = false) ∧ w.Standing action component := by
  have hdecided : (w.checkExpired now).decided = ((w.pending.rows.filter (timedOut now)).map
      fun t => { t with status := .expired }).reverse ++ w.decided := by
    unfold checkExpired
    simp only
    split <;> rfl
  unfold Standing
  rw [hdecided, standing_append]
  · refine and_congr_left fun _ => ?_
    simp only [List.mem_reverse, List.forall_mem_map, List.mem_filter, mem_held]
    constructor
    · rintro h t ⟨ht, hfor⟩
      by_contra hout
      exact h t ⟨ht, by simpa using hout⟩ hfor
    · rintro h t ⟨ht, hout⟩ hfor
      exact absurd hout (by simp [h t ⟨ht, hfor⟩])
  · intro t ht
    obtain ⟨u, -, rfl⟩ := List.mem_map.mp (List.mem_reverse.mp ht)
    exact nofun

theorem checkExpired_sound_iff (sound : w.PairSound action component) (now : Time) :
    (w.checkExpired now).PairSound action component ↔
      ((∃ t ∈ w.held action component, timedOut now t = true) →
        actionKey action component ∈ w.approvedActions →
        ∃ t ∈ w.held action component, timedOut now t = false) := by
  have hkeys : (w.checkExpired now).approvedActions = w.approvedActions := by
    unfold checkExpired
    simp only
    split <;> rfl
  have hheld : (w.checkExpired now).held action component = [] ↔
      ∀ t ∈ w.held action component, timedOut now t = true := by
    rw [held_checkExpired, List.filter_eq_nil_iff]
    simp
  unfold PairSound Permits
  rw [standing_checkExpired, hheld, hkeys]
  constructor
  · rintro after ⟨t, ht, hout⟩ hkey
    by_contra hnone
    push Not at hnone
    have hall : ∀ u ∈ w.held action component, timedOut now u = true := fun u hu => by
      simpa using hnone u hu
    exact absurd hout (by simp [(after ⟨hall, hkey⟩).1 t ht])
  · rintro hsafe ⟨hall, hkey⟩
    have hnone : w.held action component = [] := by
      rw [List.eq_nil_iff_forall_not_mem]
      intro t ht
      obtain ⟨u, hu, hin⟩ := hsafe ⟨t, ht, hall t ht⟩ hkey
      exact absurd (hall u hu) (by simp [hin])
    exact ⟨by simp [hnone], sound ⟨hnone, hkey⟩⟩

end Sound

/-! ## The dictionary and the file through each step -/

section KeptSteps

theorem Kept.markExpired (kept : w.Kept) (id : Nat) : (w.markExpired id).Kept where
  statuses u hu := by
    obtain ⟨v, hv, rfl⟩ := List.mem_map.mp hu
    by_cases hid : v.id = id
    · simp [hid]
    · simpa [hid] using kept.statuses v hv
  numbered u hu := by
    obtain ⟨v, hv, rfl⟩ := List.mem_map.mp hu
    have hid : (if v.id = id then { v with status := .expired } else v).id = v.id := by
      split <;> rfl
    exact Nat.lt_of_le_of_lt (Nat.le_of_eq hid) (kept.numbered v hv)
  fileStatuses := kept.fileStatuses
  fileNumbered := kept.fileNumbered

theorem Kept.approve (kept : w.Kept) (id : Nat) (approvedBy : String) (now : Time) :
    (w.approve id approvedBy now).1.Kept := by
  rcases w.approve_cases id approvedBy now with
    ⟨hafter, -⟩ | ⟨t, -, -, -, d, -, -, hafter⟩ | ⟨t, -, -, -, d, -, -, hafter⟩
  · rw [hafter]
    exact kept
  · rw [hafter]
    exact (kept.markExpired id).record d
  · rw [hafter]
    have hadded : (w.addApproved t).Kept :=
      ⟨kept.statuses, kept.numbered, kept.fileStatuses, kept.fileNumbered⟩
    exact (hadded.removeTicket id).record d

theorem Kept.reject (kept : w.Kept) (id : Nat) (rejectedBy reason : String) (now : Time) :
    (w.reject id rejectedBy reason now).1.Kept := by
  rcases w.reject_cases id rejectedBy reason now with ⟨hafter, -⟩ | ⟨t, -, -, d, -, -, hafter⟩
  · rw [hafter]
    exact kept
  · rw [hafter]
    exact (kept.removeTicket id).record d

theorem Kept.checkExpired (kept : w.Kept) (now : Time) : (w.checkExpired now).Kept := by
  unfold HealingApprovalWorkflow.checkExpired
  simp only
  split
  · exact ⟨fun t ht => kept.statuses t (List.mem_filter.mp ht).1,
      fun t ht => kept.numbered t (List.mem_filter.mp ht).1, kept.fileStatuses, kept.fileNumbered⟩
  · exact kept_saveTickets (fun t ht => kept.statuses t (List.mem_filter.mp ht).1)
      (fun t ht => kept.numbered t (List.mem_filter.mp ht).1)

theorem Kept.shouldExecute (kept : w.Kept) (action component : String) (now : Time) :
    (w.shouldExecute action component now).1.Kept := by
  rcases shouldExecute_fst now kept action component with hafter | ⟨-, hafter⟩
  · rw [hafter]
    exact kept
  · rw [hafter]
    exact kept.request _ _ _ _ _ _

theorem Kept.restart (kept : w.Kept) (config : ApprovalConfig) : (w.restart config).Kept where
  statuses t ht := by
    obtain ⟨u, hu, rfl⟩ := List.mem_map.mp ht
    exact Or.inl (kept.fileStatuses u hu)
  numbered t ht := by
    obtain ⟨u, hu, rfl⟩ := List.mem_map.mp ht
    exact kept.fileNumbered u hu
  fileStatuses := kept.fileStatuses
  fileNumbered := kept.fileNumbered

theorem kept_start (config : ApprovalConfig) : (start config).Kept where
  statuses _ h := absurd h List.not_mem_nil
  numbered _ h := absurd h List.not_mem_nil
  fileStatuses _ h := absurd h List.not_mem_nil
  fileNumbered _ h := absurd h List.not_mem_nil

end KeptSteps

/-! ## What a no leaves -/

/-- A ticket of the pair waits that can still be approved. -/
def Waits (w : HealingApprovalWorkflow) (action component : String) (now : Time) : Prop :=
  ∃ t ∈ w.held action component, t.status = .pending ∧ t.isExpired now = false

theorem waits_request_iff (kept : w.Kept) {action component : String} (now : Time)
    (hheld : w.held action component = [])
    (hbelow : w.pendingCount < w.config.maxPendingTickets) (reason : String) :
    (w.requestApproval action component reason (.level .high) none now).1.Waits action component
      now ↔ 0 ≤ w.config.approvalTimeoutSeconds := by
  rcases w.request_cases action component reason (.level .high) none now with
    ⟨hlimit, -⟩ | ⟨-, hauto, -⟩ | ⟨-, -, t, hfor, hid, hstatus, hrequested, htimeout, hafter⟩
  · exact absurd hlimit (Int.not_le.mpr hbelow)
  · cases hauto
  · have hnew : (w.requestApproval action component reason (.level .high) none now).1.held
        action component = [t] := by
      rw [hafter]
      unfold held saveTickets at *
      simp [rows_upsert_next kept hid, List.filter_append, hheld, hfor]
    have hexp : t.isExpired now = false ↔ 0 ≤ w.config.approvalTimeoutSeconds := by
      simp [ApprovalTicket.isExpired, hrequested, htimeout, timeoutFor]
    unfold Waits
    rw [hnew]
    simp [hstatus, hexp]

theorem waits_shouldExecute_iff (kept : w.Kept) {action component : String} (now : Time)
    (hrisk : riskOf action = .high) (hbelow : w.pendingCount < w.config.maxPendingTickets) :
    ((w.shouldExecute action component now).2.1 = false →
        (w.shouldExecute action component now).1.Waits action component now) ↔
      (w.held action component = [] → actionKey action component ∉ w.approvedActions →
        0 ≤ w.config.approvalTimeoutSeconds) ∧
      (w.held action component ≠ [] → w.Waits action component now) := by
  by_cases hheld : w.held action component = []
  · by_cases hkey : actionKey action component ∈ w.approvedActions
    · simp [(shouldExecute_of_cached now hrisk ⟨hheld, hkey⟩).2, hheld, hkey]
    · obtain ⟨hafter, hno⟩ := shouldExecute_of_new now hrisk hheld hkey
      rw [hafter, hno, waits_request_iff kept now hheld hbelow]
      simp [hheld, hkey]
  · obtain ⟨hafter, hno⟩ := shouldExecute_of_held now kept hrisk hheld
    rw [hafter, hno]
    simp [hheld]

end HealingApprovalWorkflow

/-! ## Runs -/

inductive HealingOp
  | request (action component reason : String) (risk : RiskArgument) (timeout : Option Time)
    (now : Time)
  | approve (id : Nat) (approvedBy : String) (now : Time)
  | reject (id : Nat) (rejectedBy reason : String) (now : Time)
  | checkExpired (now : Time)
  | shouldExecute (action component : String) (now : Time)
  | restart (config : ApprovalConfig)
deriving DecidableEq, Repr

namespace HealingApprovalWorkflow

def step (w : HealingApprovalWorkflow) : HealingOp → HealingApprovalWorkflow
  | .request action component reason risk timeout now =>
      (w.requestApproval action component reason risk timeout now).1
  | .approve id approvedBy now => (w.approve id approvedBy now).1
  | .reject id rejectedBy reason now => (w.reject id rejectedBy reason now).1
  | .checkExpired now => w.checkExpired now
  | .shouldExecute action component now => (w.shouldExecute action component now).1
  | .restart config => w.restart config

/-- Below the limit, a no for a high-risk action leaves a ticket that can still be approved. -/
def StillApprovable (w : HealingApprovalWorkflow) : HealingOp → Prop
  | .shouldExecute action component now =>
      riskOf action = .high → w.pendingCount < w.config.maxPendingTickets →
        (w.shouldExecute action component now).2.1 = false →
          (w.shouldExecute action component now).1.Waits action component now
  | _ => True

/-- The operations after which the pair is sound and no further request is lost on it. -/
def PairSafe (w : HealingApprovalWorkflow) (action component : String) : HealingOp → Prop
  | .request action' component' _ _ _ _ => action = action' ∧ component = component' →
      w.config.maxPendingTickets ≤ w.pendingCount → ¬ w.Permits action component
  | .approve id _ now => ∀ t ∈ w.pending.find? id, t.status = .pending → t.isExpired now = false →
      isFor action component t ≠ true →
      actionKey action component = actionKey t.actionType t.component →
      w.held action component = [] → w.Standing action component
  | .reject id _ _ _ => ∀ t ∈ w.pending.find? id, t.status = .pending →
      isFor action component t = true → actionKey action component ∈ w.approvedActions →
      ∃ u ∈ w.held action component, u.id ≠ id
  | .checkExpired now => (∃ t ∈ w.held action component, timedOut now t = true) →
      actionKey action component ∈ w.approvedActions →
      ∃ t ∈ w.held action component, timedOut now t = false
  | .shouldExecute action' component' now => action' = action ∧ component' = component →
      w.pendingCount < w.config.maxPendingTickets →
      (w.held action component = [] → actionKey action component ∉ w.approvedActions →
        0 ≤ w.config.approvalTimeoutSeconds) ∧
      (w.held action component ≠ [] → w.Waits action component now)
  | .restart _ => True

def OpSafe (w : HealingApprovalWorkflow) (op : HealingOp) : Prop :=
  ∀ action component, riskOf action = .high → w.PairSafe action component op

variable {w : HealingApprovalWorkflow}

theorem Kept.step (kept : w.Kept) (op : HealingOp) : (w.step op).Kept := by
  cases op with
  | request action component reason risk timeout now => exact kept.request _ _ _ _ _ _
  | approve id approvedBy now => exact kept.approve _ _ _
  | reject id rejectedBy reason now => exact kept.reject _ _ _ _
  | checkExpired now => exact kept.checkExpired now
  | shouldExecute action component now => exact kept.shouldExecute _ _ _
  | restart config => exact kept.restart config

theorem shouldExecute_pairSound (kept : w.Kept) {action component : String}
    (sound : w.PairSound action component) (action' component' : String) (now : Time) :
    (w.shouldExecute action' component' now).1.PairSound action component := by
  rcases shouldExecute_fst now kept action' component' with hafter | ⟨hkey, hafter⟩
  · rw [hafter]
    exact sound
  · rw [hafter, request_sound_iff kept sound]
    rintro ⟨rfl, rfl⟩ - hpermits
    exact hkey hpermits.2

/-- After a step a sound pair is sound, and a no on it leaves a ticket, exactly when the step is safe
for it. -/
theorem pairSafe_iff (kept : w.Kept) {action component : String} (hrisk : riskOf action = .high)
    (sound : w.PairSound action component) (op : HealingOp) :
    w.PairSafe action component op ↔ (w.step op).PairSound action component ∧
      ∀ now, op = .shouldExecute action component now → w.StillApprovable op := by
  cases op with
  | request action' component' reason risk timeout now =>
      exact (request_sound_iff kept sound action' component' reason risk timeout now).symm.trans
        (by simp [step])
  | approve id approvedBy now =>
      exact (approve_sound_iff sound id approvedBy now).symm.trans (by simp [step])
  | reject id rejectedBy reason now =>
      exact (reject_sound_iff sound id rejectedBy reason now).symm.trans (by simp [step])
  | checkExpired now => exact (checkExpired_sound_iff sound now).symm.trans (by simp [step])
  | shouldExecute action' component' now =>
      have hsound := shouldExecute_pairSound kept sound action' component' now
      constructor
      · rintro hsafe
        refine ⟨hsound, ?_⟩
        rintro now' hop
        obtain ⟨rfl, rfl, rfl⟩ := HealingOp.shouldExecute.inj hop
        intro _ hbelow
        exact (waits_shouldExecute_iff kept now hrisk hbelow).mpr (hsafe ⟨rfl, rfl⟩ hbelow)
      · rintro ⟨-, hwaits⟩ ⟨rfl, rfl⟩ hbelow
        exact (waits_shouldExecute_iff kept now hrisk hbelow).mp (hwaits now rfl hrisk hbelow)
  | restart config =>
      exact ⟨fun _ => ⟨fun h => absurd h (w.not_permits_restart config), nofun⟩, fun _ => trivial⟩

theorem opSafe_iff (kept : w.Kept) (stands : w.ApprovalStands) (op : HealingOp) :
    w.OpSafe op ↔ (w.step op).ApprovalStands ∧ w.StillApprovable op := by
  have hsound := (approvalStands_iff kept).mp stands
  rw [approvalStands_iff (kept.step op)]
  constructor
  · intro hsafe
    refine ⟨fun action component hrisk => ((pairSafe_iff kept hrisk (hsound _ _ hrisk) op).mp
      (hsafe action component hrisk)).1, ?_⟩
    cases op with
    | shouldExecute action component now =>
        intro hrisk
        exact ((pairSafe_iff kept hrisk (hsound _ _ hrisk) _).mp
          (hsafe action component hrisk)).2 now rfl hrisk
    | _ => trivial
  · rintro ⟨hafter, hwaits⟩ action component hrisk
    exact (pairSafe_iff kept hrisk (hsound _ _ hrisk) op).mpr
      ⟨hafter action component hrisk, fun _ _ => hwaits⟩

/-- A yes for a high-risk action rests on a standing approval, and a no leaves a ticket to approve,
throughout a run exactly when each of its steps is safe. -/
theorem standing_approval_iff (config : ApprovalConfig) (ops : List HealingOp) :
    Always step ApprovalStands (start config) ops ∧
        StepsMeet step StillApprovable (start config) ops ↔
      StepsMeet step OpSafe (start config) ops := by
  refine Library.always_and_stepsMeet_iff (J := fun w => w.Kept ∧ w.ApprovalStands)
    (fun _ h => h.2) ?_ ?_ ⟨kept_start config, ?_⟩
  · rintro w op - ⟨kept, stands⟩ hsafe
    obtain ⟨hafter, hwaits⟩ := (opSafe_iff kept stands op).mp hsafe
    exact ⟨⟨kept.step op, hafter⟩, hwaits⟩
  · rintro w op - ⟨kept, stands⟩ hafter hwaits
    exact (opSafe_iff kept stands op).mpr ⟨hafter, hwaits⟩
  · rw [approvalStands_iff (kept_start config)]
    exact fun action component _ h => absurd h.2 List.not_mem_nil

/-- A rejection after an approval is passed over; and after an approval that came too late no ticket
can be approved, whatever is asked. -/
theorem approval_outlives_rejection :
    ¬ Always step ApprovalStands (start {})
        [.request "reconnect_broker" "kite" "connection lost" .absent none 0,
          .approve 0 "operator" second,
          .request "reconnect_broker" "kite" "connection lost" .absent none (2 * second),
          .reject 1 "operator" "market closed" (3 * second)] ∧
      ¬ StepsMeet step StillApprovable (start {})
        [.request "reconnect_broker" "kite" "connection lost" .absent none 0,
          .approve 0 "operator" (301 * second),
          .shouldExecute "reconnect_broker" "kite" (302 * second)] := by
  constructor
  · intro h
    have hlast := h.final "reconnect_broker" "kite" (4 * second) (by decide) (by decide)
    exact absurd hlast (by unfold Standing; decide)
  · intro h
    have hlast := h.2.2.1 (by decide) (by decide) (by decide)
    exact absurd hlast (by unfold Waits; decide)

end HealingApprovalWorkflow

end AutoTrade.SelfHealing
