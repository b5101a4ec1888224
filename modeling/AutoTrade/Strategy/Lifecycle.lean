import AutoTrade.Strategy.ApprovalWorkflow

/-! # The lifecycle of a strategy

A strategy is in the state its newest approved request led to, the newest by the
time of the request. Two requests that wait at the same time can be approved in
either order, and the second approval is not checked against the state the first
one left; and when the list is full the oldest request is forgotten, whatever
rests on it.
-/

namespace AutoTrade.Strategy

open AutoTrade.Library

variable {ε : Type}

def isApprovedOf (strategy : String) (request : TransitionRequest ε) : Bool :=
  decide (request.strategyName = strategy ∧ request.status = .approved)

/-! ## Reading the state off the requests -/

theorem currentState_append (strategy last : String) (newer older : List (TransitionRequest ε)) :
    currentState strategy last (newer ++ older) =
      match newer.find? (isApprovedOf strategy) with
      | some request => request.toState
      | none => currentState strategy (currentState strategy last newer) older := by
  induction newer generalizing last with
  | nil => rfl
  | cons request rest ih =>
      by_cases hname : request.strategyName = strategy
      · by_cases happroved : request.status = .approved
        · simp [currentState, isApprovedOf, hname, happroved]
        · simpa [currentState, isApprovedOf, hname, happroved] using ih request.fromState
      · simpa [currentState, isApprovedOf, hname] using ih last

/-- Either some request of the strategy decides its state, or the walk falls back on what it was
given. -/
theorem currentState_cases (strategy : String) (requests : List (TransitionRequest ε)) :
    (∃ state, ∀ last, currentState strategy last requests = state) ∨
      ∀ last, currentState strategy last requests = last := by
  induction requests with
  | nil => exact .inr fun _ => rfl
  | cons request rest ih =>
      by_cases hname : request.strategyName = strategy
      · refine .inl ⟨currentState strategy "" (request :: rest), fun last => ?_⟩
        simp [currentState, hname]
      · simpa [currentState, hname] using ih

theorem currentState_fallback (strategy last : String) (requests : List (TransitionRequest ε)) :
    currentState strategy (currentState strategy last requests) requests =
      currentState strategy last requests := by
  rcases currentState_cases strategy requests with ⟨state, hstate⟩ | hlast
  · rw [hstate, hstate]
  · rw [hlast]

/-- Without an approved request the state is the one the oldest request started from. -/
theorem currentState_of_none {strategy : String} {requests : List (TransitionRequest ε)}
    (h : requests.find? (isApprovedOf strategy) = none) (last : String) :
    currentState strategy last requests =
      ((requests.filter fun r => r.strategyName = strategy).getLast?.map
        TransitionRequest.fromState).getD last := by
  induction requests generalizing last with
  | nil => rfl
  | cons request rest ih =>
      have hall := List.find?_eq_none.mp h
      have hrest := ih (List.find?_eq_none.mpr fun r hr => hall r (List.mem_cons_of_mem _ hr))
      by_cases hname : request.strategyName = strategy
      · have hstatus : request.status ≠ .approved := by
          intro happroved
          exact hall request List.mem_cons_self (by simp [isApprovedOf, hname, happroved])
        simp only [currentState, hname, hstatus, if_true, if_false, hrest, decide_true,
          List.filter_cons_of_pos, List.getLast?_cons, Option.map_some, Option.getD_some]
        cases (rest.filter fun r => r.strategyName = strategy).getLast? <;> rfl
      · simp [currentState, hname, hrest]

/-- What the walk reads of a request. -/
def TransitionRequest.view (request : TransitionRequest ε) : String × String × String × Bool :=
  (request.strategyName, request.fromState, request.toState, decide (request.status = .approved))

theorem currentState_congr {requests requests' : List (TransitionRequest ε)}
    (h : requests.map TransitionRequest.view = requests'.map TransitionRequest.view)
    (strategy last : String) :
    currentState strategy last requests = currentState strategy last requests' := by
  induction requests generalizing requests' last with
  | nil =>
      obtain rfl : requests' = [] := by simpa using h.symm
      rfl
  | cons request rest ih =>
      cases requests' with
      | nil => simp at h
      | cons request' rest' =>
          simp only [List.map_cons, List.cons.injEq, TransitionRequest.view, Prod.mk.injEq,
            decide_eq_decide] at h
          obtain ⟨⟨hname, hfrom, hto, hstatus⟩, hrest⟩ := h
          simp only [currentState, hname, hfrom, hto, hstatus, ih hrest]

/-! ## Changing one request -/

theorem updateFirst_eq {α : Type} {p : α → Bool} {requests : List α} {x : α}
    (h : requests.find? p = some x) :
    ∃ newer older, requests = newer ++ x :: older ∧
      requests.takeWhile (fun y => !p y) = newer ∧
      ∀ f, updateFirst p f requests = newer ++ f x :: older := by
  induction requests with
  | nil => cases h
  | cons y rest ih =>
      cases hp : p y with
      | true =>
          obtain rfl : y = x := by simpa [hp] using h
          exact ⟨[], rest, rfl, by simp [hp], fun f => by simp [updateFirst, hp]⟩
      | false =>
          obtain ⟨newer, older, hsplit, htake, hupdate⟩ := ih (by simpa [hp] using h)
          refine ⟨y :: newer, older, by rw [hsplit]; rfl, by simp [hp, htake], fun f => ?_⟩
          simp [updateFirst, hp, hupdate f]

theorem updateFirst_view {p : TransitionRequest ε → Bool}
    {f : TransitionRequest ε → TransitionRequest ε} {requests : List (TransitionRequest ε)}
    {request : TransitionRequest ε} (h : requests.find? p = some request)
    (hview : (f request).view = request.view) :
    (updateFirst p f requests).map TransitionRequest.view =
      requests.map TransitionRequest.view := by
  obtain ⟨newer, older, hsplit, -, hupdate⟩ := updateFirst_eq h
  rw [hupdate, hsplit]
  simp [hview]

namespace StrategyApprovalWorkflow

variable {w : StrategyApprovalWorkflow ε}

theorem approve_strategyName (w : StrategyApprovalWorkflow ε) (now : Time) (approvedBy : String)
    (request : TransitionRequest ε) :
    (w.approve now approvedBy request).strategyName = request.strategyName := by
  unfold approve countApproval
  split <;> split <;> rfl

theorem approve_toState (w : StrategyApprovalWorkflow ε) (now : Time) (approvedBy : String)
    (request : TransitionRequest ε) :
    (w.approve now approvedBy request).toState = request.toState := by
  unfold approve countApproval
  split <;> split <;> rfl

theorem approve_view_of_incomplete {request : TransitionRequest ε} (h : ¬ w.Completes request)
    (now : Time) (approvedBy : String) : (w.approve now approvedBy request).view = request.view := by
  unfold approve countApproval
  rw [if_neg h]
  split <;> rfl

theorem approve_status {request : TransitionRequest ε} (h : w.Completes request) (now : Time)
    (approvedBy : String) : (w.approve now approvedBy request).status = .approved := by
  unfold approve
  rw [if_pos h]

theorem pendingRequest_spec {strategy toState : String} {request : TransitionRequest ε}
    (h : w.pendingRequest strategy toState = some request) :
    request.strategyName = strategy ∧ request.toState = toState ∧ request.status = .pending := by
  have hpending : isPending strategy toState request = true := List.find?_some h
  exact of_decide_eq_true hpending

/-! ## The property and its condition -/

/-- The call makes the request `APPROVED`. -/
def Approves (w : StrategyApprovalWorkflow ε) : Call ε → TransitionRequest ε → Prop
  | .approveTransition _ strategy toState _, request =>
      w.pendingRequest strategy toState = some request ∧ w.Completes request
  | _, _ => False

/-- A strategy stays in its state, or one of its requests becomes `APPROVED` and leads along an edge
of the table from the state in force. -/
def FollowsLifecycle (w : StrategyApprovalWorkflow ε) (call : Call ε) : Prop :=
  ∀ strategy, (w.step call).getCurrentState strategy = w.getCurrentState strategy ∨
    ∃ request, w.Approves call request ∧ request.strategyName = strategy ∧
      (w.step call).getCurrentState strategy = request.toState ∧
      request.toState ∈ validTransitions (w.getCurrentState strategy)

/-- No state rests on the request that is popped: another request of the strategy is approved, or
what the popped one says is where the oldest one left started from. -/
def PopsSafely (kept : List (TransitionRequest ε)) (popped : TransitionRequest ε) : Prop :=
  (∃ request ∈ kept, isApprovedOf popped.strategyName request = true) ∨
    (if popped.status = .approved then popped.toState else popped.fromState) =
      ((kept.filter fun r => r.strategyName = popped.strategyName).getLast?.map
        TransitionRequest.fromState).getD "INITIALIZED"

/-- A request of the strategy that is newer than the one an approval finds is approved. -/
def Overtaken (w : StrategyApprovalWorkflow ε) (strategy toState : String) : Prop :=
  ∃ newer ∈ w.requests.takeWhile (fun r => !isPending strategy toState r),
    isApprovedOf strategy newer = true

/-- A request beyond the limit pops one on which no state rests; and a request that becomes
`APPROVED` is older than an approved one of its strategy, or the table allows its transition from the
state now in force. -/
def Governed (w : StrategyApprovalWorkflow ε) : Call ε → Prop
  | .requestTransition now strategy toState requestedBy evidence =>
      w.refusal strategy toState evidence = none → maxRequests ≤ w.requests.length →
        ∀ popped ∈ w.requests.getLast?,
          PopsSafely (w.newRequest now strategy toState requestedBy evidence :: w.requests.dropLast)
            popped
  | .approveTransition _ strategy toState _ =>
      ∀ request, w.pendingRequest strategy toState = some request → w.Completes request →
        w.Overtaken strategy toState ∨ toState = w.getCurrentState strategy ∨
          toState ∈ validTransitions (w.getCurrentState strategy)
  | .rejectTransition _ _ _ => True
  | .expireOldRequests _ _ => True

/-! ## One call -/

theorem getCurrentState_reject (w : StrategyApprovalWorkflow ε) (strategy toState reason : String)
    (s : String) :
    (w.rejectTransition strategy toState reason).2.getCurrentState s = w.getCurrentState s := by
  unfold rejectTransition
  cases hfind : w.pendingRequest strategy toState with
  | none => rfl
  | some request =>
      have hpending := pendingRequest_spec hfind
      refine currentState_congr (updateFirst_view hfind ?_) s "INITIALIZED"
      simp [TransitionRequest.view, hpending.2.2]

theorem getCurrentState_expire (w : StrategyApprovalWorkflow ε) (now : Time) (maxAgeHours : Int)
    (s : String) :
    (w.expireOldRequests now maxAgeHours).2.getCurrentState s = w.getCurrentState s := by
  refine currentState_congr ?_ s "INITIALIZED"
  simp only [expireOldRequests, List.map_map]
  refine List.map_congr_left fun request _ => ?_
  simp only [Function.comp_apply]
  split
  · rename_i hold
    have hpending := (of_decide_eq_true hold).1
    simp [TransitionRequest.view, hpending]
  · rfl

/-- A new request says what the state is already. -/
theorem currentState_newRequest (w : StrategyApprovalWorkflow ε) (now : Time)
    (strategy toState requestedBy : String) (evidence : Dict String ε) (s : String) :
    currentState s "INITIALIZED"
      (w.newRequest now strategy toState requestedBy evidence :: w.requests) =
        w.getCurrentState s := by
  by_cases hname : strategy = s
  · subst hname
    have hfallback := currentState_fallback strategy "INITIALIZED" w.requests
    simpa [currentState, newRequest, getCurrentState] using hfallback
  · simp [currentState, newRequest, getCurrentState, hname]

theorem popsSafely_iff (kept : List (TransitionRequest ε)) (popped : TransitionRequest ε) :
    PopsSafely kept popped ↔
      ∀ s, currentState s "INITIALIZED" kept = currentState s "INITIALIZED" (kept ++ [popped]) := by
  have happend := fun s => currentState_append s "INITIALIZED" kept [popped]
  have hkept := fun s => currentState_append s "INITIALIZED" kept []
  rw [List.append_nil] at hkept
  cases hfind : kept.find? (isApprovedOf popped.strategyName) with
  | some request =>
      have happroved : PopsSafely kept popped :=
        .inl ⟨request, List.mem_of_find?_eq_some hfind, List.find?_some hfind⟩
      refine iff_of_true happroved fun s => ?_
      rw [happend s, hkept s]
      by_cases hname : popped.strategyName = s
      · rw [← hname, hfind]
      · cases kept.find? (isApprovedOf s) <;> simp [currentState, hname]
  | none =>
      have hnone : ¬ ∃ request ∈ kept, isApprovedOf popped.strategyName request = true := by
        simpa using hfind
      have hstate := currentState_of_none hfind "INITIALIZED"
      unfold PopsSafely
      rw [or_iff_right hnone, ← hstate]
      constructor
      · intro heq s
        rw [happend s]
        by_cases hname : popped.strategyName = s
        · subst hname
          rw [hfind, ← heq]
          simp [currentState]
        · rw [hkept s]
          cases kept.find? (isApprovedOf s) <;> simp [currentState, hname]
      · intro hall
        have hsame := hall popped.strategyName
        rw [happend, hfind] at hsame
        rw [hsame]
        simp [currentState]

theorem follows_requestTransition_iff (w : StrategyApprovalWorkflow ε) (now : Time)
    (strategy toState requestedBy : String) (evidence : Dict String ε) :
    w.FollowsLifecycle (.requestTransition now strategy toState requestedBy evidence) ↔
      w.Governed (.requestTransition now strategy toState requestedBy evidence) := by
  have hstays : w.FollowsLifecycle (.requestTransition now strategy toState requestedBy evidence) ↔
      ∀ s, (w.requestTransition now strategy toState requestedBy evidence).2.getCurrentState s =
        w.getCurrentState s := by
    simp only [FollowsLifecycle, step, Approves, false_and, exists_false, or_false]
  rw [hstays]
  unfold Governed requestTransition
  cases hrefusal : w.refusal strategy toState evidence with
  | some message => simp [hrefusal]
  | none =>
      have hnew := currentState_newRequest w now strategy toState requestedBy evidence
      simp only [hrefusal, forall_const]
      by_cases hfull : maxRequests ≤ w.requests.length
      · have hne : w.requests ≠ [] := by
          intro hnil
          rw [hnil, List.length_nil, maxRequests] at hfull
          omega
        have hlast := List.dropLast_append_getLast hne
        have hremember : remember (w.newRequest now strategy toState requestedBy evidence)
            w.requests = w.newRequest now strategy toState requestedBy evidence ::
              w.requests.dropLast := by
          rw [remember, if_pos (by omega), List.dropLast_cons_of_ne_nil hne]
        simp only [getCurrentState, hremember, hfull, forall_const,
          List.getLast?_eq_getLast_of_ne_nil hne, Option.mem_def, Option.some.injEq, forall_eq']
        rw [popsSafely_iff]
        refine forall_congr' fun s => ?_
        rw [List.cons_append, hlast, hnew]
        rfl
      · have hremember : remember (w.newRequest now strategy toState requestedBy evidence)
            w.requests = w.newRequest now strategy toState requestedBy evidence :: w.requests := by
          rw [remember, if_neg (by omega)]
        simp only [getCurrentState, hremember, hfull, false_implies, iff_true]
        exact hnew

section Approval

variable {strategy toState : String} {request : TransitionRequest ε}

/-- The state of any strategy before and after an approval, with what is newer than the request. -/
theorem currentState_approve (hfind : w.pendingRequest strategy toState = some request) (now : Time)
    (approvedBy : String) : ∃ newer older,
      w.requests.takeWhile (fun r => !isPending strategy toState r) = newer ∧ ∀ s,
        w.getCurrentState s = (match newer.find? (isApprovedOf s) with
          | some approved => approved.toState
          | none => currentState s (currentState s "INITIALIZED" newer) (request :: older)) ∧
        (w.approveTransition now strategy toState approvedBy).2.getCurrentState s =
          (match newer.find? (isApprovedOf s) with
          | some approved => approved.toState
          | none => currentState s (currentState s "INITIALIZED" newer)
              (w.approve now approvedBy request :: older)) := by
  obtain ⟨newer, older, hsplit, htake, hupdate⟩ := updateFirst_eq hfind
  refine ⟨newer, older, htake, fun s => ⟨?_, ?_⟩⟩
  · rw [getCurrentState, hsplit, currentState_append]
  · simp only [approveTransition, hfind, getCurrentState, hupdate, currentState_append]

/-- Other strategies do not look at the request. -/
theorem getCurrentState_approve_other
    (hfind : w.pendingRequest strategy toState = some request) (now : Time) (approvedBy : String)
    {s : String} (hs : s ≠ strategy) :
    (w.approveTransition now strategy toState approvedBy).2.getCurrentState s =
      w.getCurrentState s := by
  obtain ⟨newer, older, -, hstates⟩ := currentState_approve hfind now approvedBy
  obtain ⟨hbefore, hafter⟩ := hstates s
  have hname := (pendingRequest_spec hfind).1
  rw [hbefore, hafter]
  cases newer.find? (isApprovedOf s) <;>
    simp [currentState, approve_strategyName, hname, hs.symm]

theorem getCurrentState_approve_overtaken
    (hfind : w.pendingRequest strategy toState = some request) (now : Time) (approvedBy : String)
    (hover : w.Overtaken strategy toState) :
    (w.approveTransition now strategy toState approvedBy).2.getCurrentState strategy =
      w.getCurrentState strategy := by
  obtain ⟨newer, older, htake, hstates⟩ := currentState_approve hfind now approvedBy
  obtain ⟨hbefore, hafter⟩ := hstates strategy
  rw [Overtaken, htake] at hover
  obtain ⟨approved, happroved⟩ := Option.isSome_iff_exists.mp (List.find?_isSome.mpr hover)
  rw [hbefore, hafter, happroved]

theorem getCurrentState_approve_led (hfind : w.pendingRequest strategy toState = some request)
    (now : Time) (approvedBy : String) (hcompletes : w.Completes request)
    (hover : ¬ w.Overtaken strategy toState) :
    (w.approveTransition now strategy toState approvedBy).2.getCurrentState strategy = toState := by
  obtain ⟨newer, older, htake, hstates⟩ := currentState_approve hfind now approvedBy
  obtain ⟨hname, hto, -⟩ := pendingRequest_spec hfind
  rw [Overtaken, htake] at hover
  have hnone : newer.find? (isApprovedOf strategy) = none := by
    rw [← Option.not_isSome_iff_eq_none, List.find?_isSome]
    exact hover
  rw [(hstates strategy).2, hnone]
  simp [currentState, approve_strategyName, approve_toState, approve_status hcompletes, hname, hto]

end Approval

theorem follows_approveTransition_iff (w : StrategyApprovalWorkflow ε) (now : Time)
    (strategy toState approvedBy : String) :
    w.FollowsLifecycle (.approveTransition now strategy toState approvedBy) ↔
      w.Governed (.approveTransition now strategy toState approvedBy) := by
  unfold FollowsLifecycle Governed
  simp only [Approves, step]
  cases hfind : w.pendingRequest strategy toState with
  | none => simp [approveTransition, hfind]
  | some request =>
      obtain ⟨hname, hto, -⟩ := pendingRequest_spec hfind
      have hother := fun s => getCurrentState_approve_other hfind now approvedBy (s := s)
      simp only [Option.some.injEq, forall_eq', and_assoc, exists_eq_left', hname, hto]
      by_cases hcompletes : w.Completes request
      · simp only [hcompletes, forall_const, true_and]
        by_cases hover : w.Overtaken strategy toState
        · refine iff_of_true (fun s => .inl ?_) (.inl hover)
          by_cases hs : s = strategy
          · rw [hs, getCurrentState_approve_overtaken hfind now approvedBy hover]
          · exact hother s hs
        · have hled := getCurrentState_approve_led hfind now approvedBy hcompletes hover
          rw [or_iff_right hover]
          constructor
          · intro hall
            rcases hall strategy with hsame | ⟨-, -, hedge⟩
            · exact .inl (hled.symm.trans hsame)
            · exact .inr hedge
          · intro hallowed s
            by_cases hs : s = strategy
            · subst hs
              rcases hallowed with hsame | hedge
              · exact .inl (hled.trans hsame)
              · exact .inr ⟨rfl, hled, hedge⟩
            · exact .inl (hother s hs)
      · simp only [hcompletes, false_implies, iff_true, false_and, or_false]
        intro s
        simp only [approveTransition, hfind]
        exact currentState_congr (updateFirst_view hfind
          (approve_view_of_incomplete hcompletes now approvedBy)) s "INITIALIZED"

theorem followsLifecycle_iff_governed (w : StrategyApprovalWorkflow ε) (call : Call ε) :
    w.FollowsLifecycle call ↔ w.Governed call := by
  cases call with
  | requestTransition now strategy toState requestedBy evidence =>
      exact w.follows_requestTransition_iff now strategy toState requestedBy evidence
  | approveTransition now strategy toState approvedBy =>
      exact w.follows_approveTransition_iff now strategy toState approvedBy
  | rejectTransition strategy toState reason =>
      exact iff_of_true (fun s => .inl (w.getCurrentState_reject strategy toState reason s)) trivial
  | expireOldRequests now maxAgeHours =>
      exact iff_of_true (fun s => .inl (w.getCurrentState_expire now maxAgeHours s)) trivial

/-! ## Runs -/

/-- The strategy is blocked or retired. -/
def Barred (state : String) : Prop := state = "DONT_RUN" ∨ state = "DEPRECATED"

/-- Out of a barred state the table leads to the other one or to `PAPER_ONLY`. -/
theorem barred_or_paper_of_edge {state next : String} (h : Barred state)
    (hedge : next ∈ validTransitions state) : Barred next ∨ next = "PAPER_ONLY" := by
  rcases h with rfl | rfl
  · have hcases : next = "PAPER_ONLY" ∨ next = "DEPRECATED" := by simpa [validTransitions] using hedge
    rcases hcases with hpaper | hdeprecated
    · exact .inr hpaper
    · exact .inl (.inr hdeprecated)
  · exact .inr (by simpa [validTransitions] using hedge)

theorem barred_or_paper_of_follows {call : Call ε} (h : w.FollowsLifecycle call) {strategy : String}
    (hbarred : Barred (w.getCurrentState strategy)) :
    Barred ((w.step call).getCurrentState strategy) ∨
      (w.step call).getCurrentState strategy = "PAPER_ONLY" := by
  rcases h strategy with hsame | ⟨request, -, -, hled, hedge⟩
  · exact .inl (hsame ▸ hbarred)
  · rw [hled]
    exact barred_or_paper_of_edge hbarred hedge

theorem passes_paper {calls : List (Call ε)} {strategy : String}
    (meet : StepsMeet step FollowsLifecycle w calls)
    (hbarred : Barred (w.getCurrentState strategy))
    (hlive : (run step w calls).getCurrentState strategy = "LIVE_APPROVED") :
    ∃ before later, calls = before ++ later ∧
      (run step w before).getCurrentState strategy = "PAPER_ONLY" := by
  induction calls generalizing w with
  | nil =>
      have hstate : w.getCurrentState strategy = "LIVE_APPROVED" := hlive
      rcases hbarred with hblocked | hretired
      · exact absurd (hblocked.symm.trans hstate) (by decide)
      · exact absurd (hretired.symm.trans hstate) (by decide)
  | cons call rest ih =>
      rcases barred_or_paper_of_follows meet.1 hbarred with hnext | hpaper
      · obtain ⟨before, later, hsplit, hpaper⟩ := ih meet.2 hnext hlive
        exact ⟨call :: before, later, by rw [hsplit]; rfl, hpaper⟩
      · exact ⟨[call], rest, rfl, hpaper⟩

/-- In every run the states change along the table, at approvals only, exactly when no state rests on
a request that is popped and every request that is approved last leads from the state then in force;
in such a run no strategy goes from a barred state to `LIVE_APPROVED` but through `PAPER_ONLY`. -/
theorem lifecycle_followed_iff (rules : Option (Dict String ApprovalRule)) (calls : List (Call ε)) :
    (StepsMeet step FollowsLifecycle (new rules) calls ↔ StepsMeet step Governed (new rules) calls) ∧
      (StepsMeet step Governed (new rules) calls → ∀ strategy before after, calls = before ++ after →
        Barred ((run step (new rules) before).getCurrentState strategy) →
        (run step (new rules) calls).getCurrentState strategy = "LIVE_APPROVED" →
        ∃ mid later, after = mid ++ later ∧
          (run step (new rules) (before ++ mid)).getCurrentState strategy = "PAPER_ONLY") := by
  have hiff : StepsMeet step FollowsLifecycle (new rules) calls ↔
      StepsMeet step Governed (new rules) calls :=
    stepsMeet_congr followsLifecycle_iff_governed (new rules) calls
  refine ⟨hiff, ?_⟩
  rintro governed strategy before after rfl hbarred hlive
  have follows := ((stepsMeet_append _ before after).mp (hiff.mpr governed)).2
  have hrun : ∀ later, run step (new rules) (before ++ later) =
      run step (run step (new rules) before) later := fun later => List.foldl_append
  rw [hrun] at hlive
  obtain ⟨mid, later, hsplit, hpaper⟩ := passes_paper follows hbarred hlive
  exact ⟨mid, later, hsplit, by rw [hrun]; exact hpaper⟩

/-- Evidence for a start on paper. -/
def validatedConfig : Dict String Unit := ⟨[("config_validated", ())], by decide⟩

/-- Evidence for a promotion. -/
def tradingRecord : Dict String Unit :=
  ⟨[("backtest_sharpe", ()), ("paper_trades", ()), ("paper_win_rate", ())], by decide⟩

/-- A block and a promotion wait at the same time; the block is approved first. -/
def promotedAfterBlock : List (Call Unit) :=
  [.requestTransition 0 "ma_crossover" "PAPER_ONLY" "quant_team" validatedConfig,
    .approveTransition 1 "ma_crossover" "PAPER_ONLY" "lead",
    .requestTransition 2 "ma_crossover" "DONT_RUN" "risk" ⟨[("block_reason", ())], by decide⟩,
    .requestTransition 3 "ma_crossover" "LIVE_APPROVED" "quant_team" tradingRecord,
    .approveTransition 4 "ma_crossover" "DONT_RUN" "risk",
    .approveTransition 5 "ma_crossover" "LIVE_APPROVED" "lead",
    .approveTransition 6 "ma_crossover" "LIVE_APPROVED" "compliance"]

theorem blocked_strategy_goes_live :
    ¬ StepsMeet step FollowsLifecycle (new none) promotedAfterBlock := by
  rintro ⟨-, -, -, -, -, -, hlast, -⟩
  rcases hlast "ma_crossover" with hsame | ⟨request, -, -, hled, hedge⟩
  · exact absurd hsame (by decide +kernel)
  · rw [← hled] at hedge
    exact absurd hedge (by decide +kernel)

end StrategyApprovalWorkflow

end AutoTrade.Strategy
