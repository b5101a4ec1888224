import AutoTrade.Strategy.Lifecycle
import Mathlib.Data.List.Forall2

/-! # What an approval stands for

A promotion needs two approvals, and `approve_transition` counts calls: it does
not look at who made the first one, nor whether anyone is named. The evidence a
request must carry is looked up under the answer of `_get_transition_type`,
which for a block and a deprecation is the name of the state, under which there
is no rule, and which never is `REACTIVATE`.
-/

namespace AutoTrade.Strategy

open AutoTrade.Library

variable {ε : Type}

/-- The kind of transition by the descriptions of `TransitionType`. -/
def kindOf (fromState toState : String) : Option TransitionType :=
  if toState = "DONT_RUN" then some .block
  else if toState = "DEPRECATED" then some .deprecate
  else if toState = "LIVE_APPROVED" then some .promoteToLive
  else if toState = "PAPER_ONLY" then
    if fromState = "INITIALIZED" then some .paperStart
    else if fromState = "LIVE_APPROVED" then some .demoteToPaper
    else if fromState = "DEPRECATED" then some .reactivate
    else none
  else none

/-- The evidence carries every key the rule asks for. -/
def Carries (evidence : Dict String ε) (rule : ApprovalRule) : Prop :=
  ∀ key ∈ rule.requiredEvidenceKeys, evidence.contains key = true

theorem carries_of_validateEvidence {evidence : Dict String ε} {rule : ApprovalRule}
    (h : validateEvidence evidence rule = none) : Carries evidence rule := by
  unfold validateEvidence at h
  split at h
  · cases h
  · intro key hkey
    rw [Option.map_eq_none_iff, List.find?_eq_none] at h
    simpa using h key hkey

/-- Approvers are noted down for the first request that satisfies `p`. -/
def noteApprover (p : TransitionRequest ε → Bool) (approver : String) :
    List (TransitionRequest ε) → List (List String) → List (List String)
  | request :: older, names :: rest =>
      if p request then (approver :: names) :: rest
      else names :: noteApprover p approver older rest
  | _, names => names

/-- A workflow with the names `approve_transition` was called with for each of its requests, the last
one first. -/
structure Docket (ε : Type) where
  workflow : StrategyApprovalWorkflow ε
  approvers : List (List String) := []

namespace Docket

open StrategyApprovalWorkflow

/-- A new workflow with the default rules. -/
def fresh : Docket ε := { workflow := StrategyApprovalWorkflow.new none }

def step (d : Docket ε) (call : Call ε) : Docket ε where
  workflow := d.workflow.step call
  approvers :=
    match call with
    | .requestTransition _ strategy toState _ evidence =>
        if d.workflow.refusal strategy toState evidence = none then remember [] d.approvers
        else d.approvers
    | .approveTransition _ strategy toState approvedBy =>
        noteApprover (isPending strategy toState) approvedBy d.workflow.requests d.approvers
    | _ => d.approvers

/-- The request an approval is for, and who approved it before. -/
def waiting (d : Docket ε) (strategy toState : String) : Option (TransitionRequest ε × List String) :=
  (d.workflow.requests.zip d.approvers).find? fun e => isPending strategy toState e.1

/-- Where the call makes a request `APPROVED`: a promotion was approved under two names, and the
request carries the evidence that the rule of its kind asks for. -/
def ApprovesByRules (d : Docket ε) : Call ε → Prop
  | .approveTransition _ strategy toState approvedBy =>
      ∀ request earlier, d.waiting strategy toState = some (request, earlier) →
        d.workflow.Completes request →
          (toState = "LIVE_APPROVED" → ∃ a ∈ approvedBy :: earlier, ∃ b ∈ approvedBy :: earlier,
            a ≠ "" ∧ b ≠ "" ∧ a ≠ b) ∧
          ∀ kind, kindOf request.fromState request.toState = some kind →
            Carries request.evidence kind.rule
  | _ => True

/-- Where the call makes a request `APPROVED`: the approver of a promotion is named and is not the
earlier one, who is named too, and a block, a deprecation and a reactivation carry their evidence of
their own accord. -/
def Scrupulous (d : Docket ε) : Call ε → Prop
  | .approveTransition _ strategy toState approvedBy =>
      ∀ request earlier, d.waiting strategy toState = some (request, earlier) →
        d.workflow.Completes request →
          (toState = "LIVE_APPROVED" → approvedBy ≠ "" ∧ ∀ b ∈ earlier, b ≠ "" ∧ b ≠ approvedBy) ∧
          (toState = "DONT_RUN" → Carries request.evidence TransitionType.block.rule) ∧
          (toState = "DEPRECATED" → Carries request.evidence TransitionType.deprecate.rule) ∧
          (toState = "PAPER_ONLY" → request.fromState = "DEPRECATED" →
            Carries request.evidence TransitionType.reactivate.rule)
  | _ => True

/-! ## What the workflow has checked of each request -/

/-- The evidence passed the rule that was looked up, and a promotion that waits was approved as many
times as it counts, at most once. -/
structure Vetted (request : TransitionRequest ε) (names : List String) : Prop where
  evidence : validateEvidence request.evidence
    (ruleFor defaultApprovalRules request.fromState request.toState) = none
  counted : request.status = .pending → request.toState = "LIVE_APPROVED" →
    request.approvalCount = names.length ∧ names.length ≤ 1

/-- Every request is vetted against the default rules. -/
structure Orderly (d : Docket ε) : Prop where
  rules : d.workflow.rules = defaultApprovalRules
  vetted : List.Forall₂ Vetted d.workflow.requests d.approvers

theorem orderly_fresh : (fresh : Docket ε).Orderly := ⟨rfl, .nil⟩

theorem get?_defaultApprovalRules (type : TransitionType) :
    defaultApprovalRules.get? type.value = some type.rule := by
  cases type <;> rfl

theorem getTransitionType_of_kind {fromState toState : String} {kind : TransitionType}
    (h : kindOf fromState toState = some kind) (hkind : kind ∉ [.block, .deprecate, .reactivate]) :
    getTransitionType fromState toState = kind.value := by
  unfold kindOf at h
  split_ifs at h with hblock hdeprecate hlive hpaper hinitialized hdemoted hretired
  all_goals obtain rfl := Option.some.inj h
  · exact absurd hkind (by decide)
  · exact absurd hkind (by decide)
  · simp [getTransitionType, hlive]
  · simp [getTransitionType, hpaper, hinitialized]
  · simp [getTransitionType, hpaper, hdemoted]
  · exact absurd hkind (by decide)

/-- For a start on paper, a promotion and a demotion the code looks up the right rule. -/
theorem ruleFor_of_kind {fromState toState : String} {kind : TransitionType}
    (h : kindOf fromState toState = some kind) (hkind : kind ∉ [.block, .deprecate, .reactivate]) :
    ruleFor defaultApprovalRules fromState toState = kind.rule := by
  rw [ruleFor, getTransitionType_of_kind h hkind, get?_defaultApprovalRules]
  rfl

theorem ruleFor_live (fromState : String) :
    ruleFor defaultApprovalRules fromState "LIVE_APPROVED" = TransitionType.promoteToLive.rule :=
  ruleFor_of_kind (by simp [kindOf]) (by decide)

/-! ## The checks are kept -/

theorem updateFirst_of_none {α : Type} {p : α → Bool} {xs : List α} (h : xs.find? p = none)
    (f : α → α) : updateFirst p f xs = xs := by
  induction xs with
  | nil => rfl
  | cons x rest ih =>
      have hall := List.find?_eq_none.mp h
      have hx : ¬ p x = true := hall x List.mem_cons_self
      have hrest := ih (List.find?_eq_none.mpr fun y hy => hall y (List.mem_cons_of_mem _ hy))
      rw [updateFirst, if_neg hx, hrest]

theorem requests_approveTransition (w : StrategyApprovalWorkflow ε) (now : Time)
    (strategy toState approvedBy : String) :
    (w.approveTransition now strategy toState approvedBy).2.requests =
      updateFirst (isPending strategy toState) (w.approve now approvedBy) w.requests := by
  unfold approveTransition
  cases hfind : w.pendingRequest strategy toState with
  | none => exact (updateFirst_of_none hfind _).symm
  | some request => rfl

theorem requests_rejectTransition (w : StrategyApprovalWorkflow ε)
    (strategy toState reason : String) :
    (w.rejectTransition strategy toState reason).2.requests =
      updateFirst (isPending strategy toState)
        (fun request => { request with status := .rejected, rejectionReason := reason })
        w.requests := by
  unfold rejectTransition
  cases hfind : w.pendingRequest strategy toState with
  | none => exact (updateFirst_of_none hfind _).symm
  | some request => rfl

theorem forall₂_updateFirst {β : Type} {R : TransitionRequest ε → β → Prop}
    {p : TransitionRequest ε → Bool} {f : TransitionRequest ε → TransitionRequest ε}
    (kept : ∀ r b, p r = true → R r b → R (f r) b) {requests : List (TransitionRequest ε)}
    {bs : List β} (h : List.Forall₂ R requests bs) : List.Forall₂ R (updateFirst p f requests) bs := by
  induction h with
  | nil => exact .nil
  | cons hhead htail ih =>
      unfold updateFirst
      split
      · rename_i hp
        exact .cons (kept _ _ hp hhead) htail
      · exact .cons hhead ih

theorem forall₂_noteApprover {R : TransitionRequest ε → List String → Prop}
    {p : TransitionRequest ε → Bool} {f : TransitionRequest ε → TransitionRequest ε}
    {approver : String} (kept : ∀ r names, p r = true → R r names → R (f r) (approver :: names))
    {requests : List (TransitionRequest ε)} {approvers : List (List String)}
    (h : List.Forall₂ R requests approvers) :
    List.Forall₂ R (updateFirst p f requests) (noteApprover p approver requests approvers) := by
  induction h with
  | nil => exact .nil
  | cons hhead htail ih =>
      unfold updateFirst noteApprover
      split
      · rename_i hp
        exact .cons (kept _ _ hp hhead) htail
      · exact .cons hhead ih

theorem forall₂_remember {α β : Type} {R : α → β → Prop} {xs : List α} {ys : List β} {x : α} {y : β}
    (hnew : R x y) (h : List.Forall₂ R xs ys) :
    List.Forall₂ R (remember x xs) (remember y ys) := by
  have hall := List.Forall₂.cons hnew h
  unfold remember
  rw [← h.length_eq]
  split
  · rw [List.dropLast_eq_take, List.dropLast_eq_take, ← hall.length_eq]
    exact List.forall₂_take _ hall
  · exact hall

/-- One more approval of a promotion either completes it or is its first. -/
theorem Vetted.approve {w : StrategyApprovalWorkflow ε} (hrules : w.rules = defaultApprovalRules)
    {request : TransitionRequest ε} {names : List String} (h : Vetted request names)
    (hpending : request.status = .pending) (now : Time) (approvedBy : String) :
    Vetted (w.approve now approvedBy request) (approvedBy :: names) := by
  have hcount : (w.countApproval request).evidence = request.evidence ∧
      (w.countApproval request).fromState = request.fromState ∧
      (w.countApproval request).toState = request.toState := by
    unfold countApproval
    split <;> exact ⟨rfl, rfl, rfl⟩
  unfold StrategyApprovalWorkflow.approve
  split
  · refine ⟨?_, fun hstatus => by cases hstatus⟩
    simp only [hcount]
    exact h.evidence
  · rename_i hpartial
    refine ⟨by rw [hcount.1, hcount.2.1, hcount.2.2]; exact h.evidence, fun _ hlive => ?_⟩
    rw [hcount.2.2] at hlive
    obtain ⟨hcounted, hfew⟩ := h.counted hpending hlive
    have hrule : (ruleFor w.rules request.fromState request.toState).requiredApprovalCount = 2 := by
      rw [hrules, hlive, ruleFor_live]
      rfl
    unfold Completes at hpartial
    rw [hrule] at hpartial
    unfold countApproval
    rw [hrule, if_pos (by decide)]
    simp only [List.length_cons]
    omega

theorem rules_step (w : StrategyApprovalWorkflow ε) (call : Call ε) : (w.step call).rules = w.rules := by
  cases call with
  | requestTransition now strategy toState requestedBy evidence =>
      simp only [StrategyApprovalWorkflow.step, requestTransition]
      split <;> rfl
  | approveTransition now strategy toState approvedBy =>
      simp only [StrategyApprovalWorkflow.step, approveTransition]
      split <;> rfl
  | rejectTransition strategy toState reason =>
      simp only [StrategyApprovalWorkflow.step, rejectTransition]
      split <;> rfl
  | expireOldRequests now maxAgeHours => rfl

/-- A request that is not refused has the evidence of its rule and no approval yet. -/
theorem vetted_newRequest {w : StrategyApprovalWorkflow ε} (hrules : w.rules = defaultApprovalRules)
    {strategy toState : String} {evidence : Dict String ε}
    (h : w.refusal strategy toState evidence = none) (now : Time) (requestedBy : String) :
    Vetted (w.newRequest now strategy toState requestedBy evidence) [] := by
  have hevidence := (Option.or_eq_none_iff.mp h).2
  rw [hrules] at hevidence
  exact ⟨hevidence, fun _ _ => ⟨rfl, by simp⟩⟩

theorem Orderly.vetted_step {d : Docket ε} (h : d.Orderly) (call : Call ε) :
    List.Forall₂ Vetted (d.step call).workflow.requests (d.step call).approvers := by
  cases call with
  | requestTransition now strategy toState requestedBy evidence =>
      simp only [Docket.step, StrategyApprovalWorkflow.step, requestTransition]
      cases hrefusal : d.workflow.refusal strategy toState evidence with
      | some message => simpa using h.vetted
      | none =>
          rw [if_pos rfl]
          exact forall₂_remember (vetted_newRequest h.rules hrefusal now requestedBy) h.vetted
  | approveTransition now strategy toState approvedBy =>
      simp only [Docket.step, StrategyApprovalWorkflow.step, requests_approveTransition]
      refine forall₂_noteApprover (fun request names hp hvetted => ?_) h.vetted
      exact hvetted.approve h.rules (of_decide_eq_true hp).2.2 now approvedBy
  | rejectTransition strategy toState reason =>
      simp only [Docket.step, StrategyApprovalWorkflow.step, requests_rejectTransition]
      exact forall₂_updateFirst (fun request names _ hvetted =>
        ⟨hvetted.evidence, fun hstatus => by cases hstatus⟩) h.vetted
  | expireOldRequests now maxAgeHours =>
      simp only [Docket.step, StrategyApprovalWorkflow.step, expireOldRequests]
      rw [List.forall₂_map_left_iff]
      refine h.vetted.imp fun request names hvetted => ?_
      split
      · exact ⟨hvetted.evidence, fun hstatus => by cases hstatus⟩
      · exact hvetted

theorem Orderly.step {d : Docket ε} (h : d.Orderly) (call : Call ε) : (d.step call).Orderly :=
  ⟨(rules_step d.workflow call).trans h.rules, h.vetted_step call⟩

/-! ## One approval -/

/-- What waits is the request the call finds. -/
theorem waiting_map_fst {d : Docket ε} (h : d.Orderly) (strategy toState : String) :
    (d.waiting strategy toState).map Prod.fst = d.workflow.pendingRequest strategy toState := by
  have hrequests : (d.workflow.requests.zip d.approvers).map Prod.fst = d.workflow.requests :=
    List.map_fst_zip h.vetted.length_eq.le
  unfold waiting pendingRequest
  conv_rhs => rw [← hrequests, List.find?_map]
  rfl

theorem waiting_spec {d : Docket ε} (h : d.Orderly) {strategy toState : String}
    {request : TransitionRequest ε} {earlier : List String}
    (hwaiting : d.waiting strategy toState = some (request, earlier)) :
    Vetted request earlier ∧ request.toState = toState ∧ request.status = .pending := by
  unfold waiting at hwaiting
  have hmem := List.mem_of_find?_eq_some hwaiting
  have hfound := List.find?_some hwaiting
  have hpending : isPending strategy toState request = true := hfound
  exact ⟨List.forall₂_zip h.vetted hmem, (of_decide_eq_true hpending).2⟩

/-- When a promotion completes, exactly one earlier approval was counted. -/
theorem Vetted.earlier {w : StrategyApprovalWorkflow ε} (hrules : w.rules = defaultApprovalRules)
    {request : TransitionRequest ε} {names : List String} (h : Vetted request names)
    (hpending : request.status = .pending) (hlive : request.toState = "LIVE_APPROVED")
    (hcompletes : w.Completes request) : ∃ name, names = [name] := by
  obtain ⟨hcounted, hfew⟩ := h.counted hpending hlive
  have hrule : (ruleFor w.rules request.fromState request.toState).requiredApprovalCount = 2 := by
    rw [hrules, hlive, ruleFor_live]
    rfl
  unfold Completes at hcompletes
  rw [hrule] at hcompletes
  exact List.length_eq_one_iff.mp (by omega)

theorem Vetted.carries_iff {request : TransitionRequest ε} {names : List String}
    (h : Vetted request names) :
    (∀ kind, kindOf request.fromState request.toState = some kind →
      Carries request.evidence kind.rule) ↔
      (request.toState = "DONT_RUN" → Carries request.evidence TransitionType.block.rule) ∧
      (request.toState = "DEPRECATED" →
        Carries request.evidence TransitionType.deprecate.rule) ∧
      (request.toState = "PAPER_ONLY" → request.fromState = "DEPRECATED" →
        Carries request.evidence TransitionType.reactivate.rule) := by
  constructor
  · intro hall
    refine ⟨fun hto => hall .block ?_, fun hto => hall .deprecate ?_,
      fun hto hfrom => hall .reactivate ?_⟩
    · simp [kindOf, hto]
    · simp [kindOf, hto]
    · simp [kindOf, hto, hfrom]
  · rintro ⟨hblock, hdeprecate, hreactivate⟩ kind hkind
    by_cases hchecked : kind ∉ [.block, .deprecate, .reactivate]
    · rw [← ruleFor_of_kind hkind hchecked]
      exact carries_of_validateEvidence h.evidence
    · unfold kindOf at hkind
      split_ifs at hkind with hto hto hto hto hfrom hfrom hfrom
      all_goals obtain rfl := Option.some.inj hkind
      · exact hblock hto
      · exact hdeprecate hto
      · exact absurd (by decide) hchecked
      · exact absurd (by decide) hchecked
      · exact absurd (by decide) hchecked
      · exact hreactivate hto hfrom

theorem approvesByRules_iff {d : Docket ε} (h : d.Orderly) (call : Call ε) :
    d.ApprovesByRules call ↔ d.Scrupulous call := by
  cases call with
  | approveTransition now strategy toState approvedBy =>
      refine forall_congr' fun request => forall_congr' fun earlier =>
        forall_congr' fun hwaiting => forall_congr' fun hcompletes => ?_
      obtain ⟨hvetted, rfl, hpending⟩ := waiting_spec h hwaiting
      refine and_congr ?_ hvetted.carries_iff
      refine forall_congr' fun hlive => ?_
      obtain ⟨name, rfl⟩ := hvetted.earlier h.rules hpending hlive hcompletes
      simp only [List.mem_cons, List.not_mem_nil, or_false, exists_eq_or_imp, exists_eq_left,
        forall_eq, ne_eq, not_true_eq_false, and_false, false_or, or_false]
      constructor
      · rintro (⟨happrover, hname, hne⟩ | ⟨hname, happrover, hne⟩)
        · exact ⟨happrover, hname, Ne.symm hne⟩
        · exact ⟨happrover, hname, hne⟩
      · rintro ⟨happrover, hname, hne⟩
        exact .inl ⟨happrover, hname, Ne.symm hne⟩
  | requestTransition now strategy toState requestedBy evidence => exact Iff.rfl
  | rejectTransition strategy toState reason => exact Iff.rfl
  | expireOldRequests now maxAgeHours => exact Iff.rfl

/-- In every run with the default rules, what becomes `APPROVED` has the approvers and the evidence
its rule asks for exactly when the two approvers of each promotion are named and differ, and what
blocks, deprecates and reactivates carries its evidence without being asked. -/
theorem approvals_mean_rules_iff (calls : List (Call ε)) :
    StepsMeet step ApprovesByRules fresh calls ↔ StepsMeet step Scrupulous fresh calls :=
  stepsMeet_congr_of_invariant (J := Orderly) (fun _ call h => h.step call)
    (fun _ call h => approvesByRules_iff h call) orderly_fresh calls

/-- A promotion that one person approves twice. -/
def approvedTwiceByLead : List (Call Unit) :=
  [.requestTransition 0 "ma_crossover" "PAPER_ONLY" "quant_team" validatedConfig,
    .approveTransition 1 "ma_crossover" "PAPER_ONLY" "lead",
    .requestTransition 2 "ma_crossover" "LIVE_APPROVED" "quant_team" tradingRecord,
    .approveTransition 3 "ma_crossover" "LIVE_APPROVED" "lead",
    .approveTransition 4 "ma_crossover" "LIVE_APPROVED" "lead"]

theorem one_person_promotes : ¬ StepsMeet step ApprovesByRules fresh approvedTwiceByLead := by
  rintro ⟨-, -, -, -, hlast, -⟩
  have hwaiting : ((run step fresh (approvedTwiceByLead.take 4)).waiting "ma_crossover"
      "LIVE_APPROVED").map (fun e => (e.2, decide ((run step fresh
        (approvedTwiceByLead.take 4)).workflow.Completes e.1))) = some (["lead"], true) := by
    decide +kernel
  obtain ⟨⟨request, earlier⟩, hrequest, hvalues⟩ := Option.map_eq_some_iff.mp hwaiting
  obtain ⟨rfl, hcompletes⟩ := Prod.mk.inj hvalues
  obtain ⟨a, ha, b, hb, -, -, hne⟩ :=
    (hlast request ["lead"] hrequest (of_decide_eq_true hcompletes)).1 rfl
  simp only [List.mem_cons, List.not_mem_nil, or_false, or_self] at ha hb
  exact hne (ha.trans hb.symm)

end Docket

end AutoTrade.Strategy
