import AutoTrade.Orders.IntentRace
import Mathlib.Algebra.Order.BigOperators.Group.Finset
import Mathlib.Data.Fintype.BigOperators

/-! # One placement per intent

The gap between the check for an intent and the registration of its event is not
under the lock. As long as no call checks while another is in that gap and no
wait runs out, the calls follow one course: one call claims the intent, enters
its order, places it, records the answer and sets the event, and all the others
answer with what it recorded.
-/

namespace AutoTrade.Orders

open AutoTrade.Library

namespace SameIntent

variable {κ : Type} [DecidableEq κ] (R : SameIntent κ)

/-! ## The property and its condition -/

/-- The answer itself, or the order as recorded from it. -/
def Describes (s : Race κ) (r : OrderResponse) : Prop :=
  ∃ p response, (p, .ok response) ∈ s.placements ∧
    (r = response ∨ r = (OrderManager.concludedOrder (R.calls p) response).response)

structure OnePlacement (s : Race κ) : Prop where
  once : s.placements.length ≤ 1
  describes : ∀ c r, s.point c = .returned r → R.Describes s r

/-- What the step of a call at this point takes. -/
def Permits (s : Race κ) : Point κ → Prop
  | .check => ∀ d, s.point d ≠ .create ∧ s.point d ≠ .registerEvent
  | .awaitEvent registrant => s.signalled registrant = true
  | .returned _ | .raised _ => False
  | _ => True

instance [Fintype κ] (s : Race κ) : (q : Point κ) → Decidable (Permits s q)
  | .check => inferInstanceAs (Decidable (∀ _, _ ∧ _))
  | .awaitEvent _ => inferInstanceAs (Decidable (_ = true))
  | .returned _ | .raised _ => inferInstanceAs (Decidable False)
  | .create | .registerEvent | .mapIntent | .persistNew | .placeOrder | .record _ _ | .signal _
  | .lookAgain => inferInstanceAs (Decidable True)

/-- No call checks while another is between its check and the registration of its event, and a wait
ends with the event. A call that is over takes no step. -/
def Orderly (s : Race κ) (c : κ) : Prop := Permits s (s.point c)

instance [Fintype κ] (s : Race κ) (c : κ) : Decidable (Orderly s c) :=
  inferInstanceAs (Decidable (Permits s (s.point c)))

/-! ## The course of an orderly run -/

/-- No call has made its check yet. -/
structure Unclaimed (s : Race κ) : Prop where
  points : ∀ c, s.point c = .check
  order : s.manager.orders.get? R.intentId = none
  unconfirmed : truthy (s.manager.intentMap.get? R.intentId) = false
  unsignalled : ∀ c, s.signalled c = false
  objects : ∀ c, s.objects c = OrderManager.newOrder (R.calls c)
  placements : s.placements = []

/-- Call `p` found no order and has not registered its event yet. -/
structure Claimed (s : Race κ) (p : κ) : Prop where
  others : ∀ c, c ≠ p → s.point c = .check
  unconfirmed : truthy (s.manager.intentMap.get? R.intentId) = false
  unsignalled : s.signalled p = false
  object : s.objects p = OrderManager.newOrder (R.calls p)
  placements : s.placements = []

/-- Call `p` has entered its order and registered its event, and has not answered yet. -/
structure Begun (s : Race κ) (p : κ) : Prop where
  owner : s.owner = some p
  order : s.manager.orders.get? R.intentId = some (s.objects p)
  event : s.event = some p
  unsignalled : s.signalled p = false
  unconfirmed : truthy (s.manager.intentMap.get? R.intentId) = false
  others : ∀ c, c ≠ p → s.point c = .check ∨ s.point c = .awaitEvent p

/-- Call `p` has placed the order, recorded the answer and set its event. -/
structure Settled (s : Race κ) (p : κ) (response : OrderResponse) : Prop where
  point : s.point p = .returned response
  order : s.manager.orders.get? R.intentId =
    some (OrderManager.concludedOrder (R.calls p) response)
  event : s.event = some p
  signalled : s.signalled p = true
  confirmed : ∀ r ∈ s.manager.confirmedResponse? R.intentId,
    r = (OrderManager.concludedOrder (R.calls p) response).response
  placements : s.placements = [(p, .ok response)]
  others : ∀ c, c ≠ p → s.point c = .check ∨ s.point c = .awaitEvent p ∨ s.point c = .lookAgain ∨
    s.point c = .returned (OrderManager.concludedOrder (R.calls p) response).response

inductive Phase (s : Race κ) : Prop
  | unclaimed (unclaimed : R.Unclaimed s)
  | claimed (p : κ) (point : s.point p = .create) (claimed : R.Claimed s p)
  | entered (p : κ) (point : s.point p = .registerEvent) (claimed : R.Claimed s p)
      (owner : s.owner = some p)
      (order : s.manager.orders.get? R.intentId = some (s.objects p))
  | placing (p : κ) (begun : R.Begun s p)
      (point : s.point p = .mapIntent ∨ s.point p = .persistNew ∨ s.point p = .placeOrder)
      (object : s.objects p = OrderManager.newOrder (R.calls p))
      (placements : s.placements = [])
  | recording (p : κ) (todo : List FieldWrite) (response : OrderResponse) (begun : R.Begun s p)
      (point : s.point p = .record todo response)
      (object : todo.foldl FieldWrite.apply (s.objects p) =
        OrderManager.concludedOrder (R.calls p) response)
      (placements : s.placements = [(p, .ok response)])
  | signalling (p : κ) (response : OrderResponse) (begun : R.Begun s p)
      (point : s.point p = .signal response)
      (object : s.objects p = OrderManager.concludedOrder (R.calls p) response)
      (placements : s.placements = [(p, .ok response)])
  | settled (p : κ) (response : OrderResponse) (settled : R.Settled s p response)

/-! ### One step -/

variable {R} {s : Race κ} {p c : κ} {response : OrderResponse}

theorem confirmedResponse?_eq_none {mgr : OrderManager} {intentId : String}
    (h : truthy (mgr.intentMap.get? intentId) = false) :
    mgr.confirmedResponse? intentId = none := by
  unfold OrderManager.confirmedResponse?
  simp only [h]
  rfl

theorem Begun.goto_other (begun : R.Begun s p) (hc : c ≠ p) :
    R.Begun (s.goto c (.awaitEvent p)) p where
  owner := begun.owner
  order := begun.order
  event := begun.event
  unsignalled := begun.unsignalled
  unconfirmed := begun.unconfirmed
  others := by
    intro d hd
    by_cases hdc : d = c
    · subst hdc
      exact .inr (Race.goto_point_self _ _ _)
    · rw [Race.goto_point_of_ne _ _ hdc]
      exact begun.others d hd

theorem Begun.goto_self (begun : R.Begun s p) (q : Point κ) : R.Begun (s.goto p q) p where
  owner := begun.owner
  order := begun.order
  event := begun.event
  unsignalled := begun.unsignalled
  unconfirmed := begun.unconfirmed
  others := by
    intro d hd
    rw [Race.goto_point_of_ne _ _ hd]
    exact begun.others d hd

/-- While a call is under way, all another call can do is to wait for it. -/
theorem Begun.step_other (begun : R.Begun s p) (hc : c ≠ p) (orderly : Orderly s c) :
    R.step s c = s.goto c (.awaitEvent p) := by
  cases begun.others c hc with
  | inl hcheck =>
      have hpoint : s.checkIntent R.intentId = .awaitEvent p := by
        unfold Race.checkIntent
        rw [begun.order, confirmedResponse?_eq_none begun.unconfirmed, begun.event]
      unfold step
      rw [hcheck, ← hpoint]
  | inr hwait =>
      unfold Orderly at orderly
      rw [hwait] at orderly
      exact absurd (begun.unsignalled.symm.trans orderly) (by simp)

theorem Begun.assign (begun : R.Begun s p) (write : FieldWrite) :
    R.Begun (s.assign R.intentId p write) p where
  owner := begun.owner
  order := by
    simp only [Race.assign, begun.owner, if_true, Function.update_self]
    exact Dict.get?_set_self _ _ _
  event := begun.event
  unsignalled := begun.unsignalled
  unconfirmed := by
    simp only [Race.assign, begun.owner, if_true]
    exact begun.unconfirmed
  others := begun.others

omit [DecidableEq κ] in
theorem Begun.persist (begun : R.Begun s p) (c : κ) : R.Begun (s.persist c) p :=
  ⟨begun.owner, begun.order, begun.event, begun.unsignalled, begun.unconfirmed, begun.others⟩

theorem phase_unclaimed_step (unclaimed : R.Unclaimed s) (c : κ) : R.Phase (R.step s c) := by
  have hstep : R.step s c = s.goto c .create := by
    unfold step
    rw [unclaimed.points c]
    unfold Race.checkIntent
    rw [unclaimed.order]
  rw [hstep]
  refine .claimed c (Race.goto_point_self _ _ _)
    ⟨?_, unclaimed.unconfirmed, unclaimed.unsignalled c, unclaimed.objects c, unclaimed.placements⟩
  intro d hd
  rw [Race.goto_point_of_ne _ _ hd]
  exact unclaimed.points d

theorem Claimed.goto_self (claimed : R.Claimed s p) (q : Point κ) : R.Claimed (s.goto p q) p where
  others := by
    intro d hd
    rw [Race.goto_point_of_ne _ _ hd]
    exact claimed.others d hd
  unconfirmed := claimed.unconfirmed
  unsignalled := claimed.unsignalled
  object := claimed.object
  placements := claimed.placements

/-- While a call is in the gap, no other call may step. -/
theorem Claimed.eq_of_orderly (claimed : R.Claimed s p)
    (point : s.point p = .create ∨ s.point p = .registerEvent) (orderly : Orderly s c) :
    c = p := by
  by_contra hc
  unfold Orderly at orderly
  rw [claimed.others c hc] at orderly
  cases point with
  | inl hcreate => exact (orderly p).1 hcreate
  | inr hregister => exact (orderly p).2 hregister

theorem phase_claimed_step (point : s.point p = .create) (claimed : R.Claimed s p)
    (orderly : Orderly s c) : R.Phase (R.step s c) := by
  cases claimed.eq_of_orderly (.inl point) orderly
  have hclaimed : R.Claimed
      { s with
        manager := { s.manager with orders := s.manager.orders.set R.intentId (s.objects p) }
        owner := some p } p :=
    ⟨claimed.others, claimed.unconfirmed, claimed.unsignalled, claimed.object, claimed.placements⟩
  unfold step
  rw [point]
  exact .entered p (Race.goto_point_self _ _ _) (hclaimed.goto_self _) rfl
    (Dict.get?_set_self _ _ _)

theorem phase_entered_step (point : s.point p = .registerEvent) (claimed : R.Claimed s p)
    (owner : s.owner = some p)
    (order : s.manager.orders.get? R.intentId = some (s.objects p)) (orderly : Orderly s c) :
    R.Phase (R.step s c) := by
  cases claimed.eq_of_orderly (.inr point) orderly
  have hbegun : R.Begun { s with event := some p } p :=
    ⟨owner, order, rfl, claimed.unsignalled, claimed.unconfirmed,
      fun d hd => .inl (claimed.others d hd)⟩
  unfold step
  rw [point]
  exact .placing p (hbegun.goto_self _) (.inl (Race.goto_point_self _ _ _)) claimed.object
    claimed.placements

theorem phase_placing_step
    (answers : ∀ c, ∃ response, (R.calls c).gateway.placeOrder (R.calls c).request = .ok response)
    (begun : R.Begun s p)
    (point : s.point p = .mapIntent ∨ s.point p = .persistNew ∨ s.point p = .placeOrder)
    (object : s.objects p = OrderManager.newOrder (R.calls p))
    (placements : s.placements = []) (orderly : Orderly s c) : R.Phase (R.step s c) := by
  by_cases hc : c = p
  · subst hc
    unfold step
    obtain hpoint | hpoint | hpoint := point
    · rw [hpoint]
      have hbegun : R.Begun
          { s with manager :=
            { s.manager with intentMap := s.manager.intentMap.set R.intentId "" } } c :=
        ⟨begun.owner, begun.order, begun.event, begun.unsignalled,
          by rw [Dict.get?_set_self]; rfl, begun.others⟩
      exact .placing c (hbegun.goto_self _) (.inr (.inl (Race.goto_point_self _ _ _))) object
        placements
    · rw [hpoint]
      exact .placing c ((begun.persist c).goto_self _)
        (.inr (.inr (Race.goto_point_self _ _ _))) object placements
    · rw [hpoint]
      obtain ⟨response, hresponse⟩ := answers c
      simp only [hresponse]
      have hbegun : R.Begun { s with placements := s.placements ++ [(c, .ok response)] } c :=
        ⟨begun.owner, begun.order, begun.event, begun.unsignalled, begun.unconfirmed,
          begun.others⟩
      refine .recording c _ response (hbegun.goto_self _) (Race.goto_point_self _ _ _) ?_ ?_
      · rw [← recordingWrites_foldl, ← object]
        rfl
      · exact congrArg (· ++ [(c, .ok response)]) placements
  · rw [begun.step_other hc orderly]
    refine .placing p (begun.goto_other hc) ?_ object placements
    rw [Race.goto_point_of_ne _ _ (Ne.symm hc)]
    exact point

omit [DecidableEq κ] in
/-- The broker order id of a recorded answer leads back to the recorded order. -/
theorem confirmedResponse?_mapBrokerOrder {mgr : OrderManager} (named : R.intentId ≠ "")
    (order : mgr.orders.get? R.intentId =
      some (OrderManager.concludedOrder (R.calls p) response))
    (unconfirmed : truthy (mgr.intentMap.get? R.intentId) = false)
    (ok : response.status ≠ .failed) :
    ∀ r ∈ (mgr.mapBrokerOrder R.intentId response.orderId).confirmedResponse? R.intentId,
      r = (OrderManager.concludedOrder (R.calls p) response).response := by
  intro r hr
  by_cases hid : response.orderId = ""
  · have hmap : mgr.mapBrokerOrder R.intentId response.orderId = mgr := if_pos hid
    rw [hmap, confirmedResponse?_eq_none unconfirmed] at hr
    cases hr
  · have hconcluded : OrderManager.concludedOrder (R.calls p) response =
        (OrderManager.newOrder (R.calls p)).recordAck (R.calls p).later response := if_neg ok
    rw [hconcluded] at order ⊢
    have hmap : mgr.mapBrokerOrder R.intentId response.orderId =
        { mgr with
          brokerMap := mgr.brokerMap.set response.orderId R.intentId
          intentMap := mgr.intentMap.set R.intentId response.orderId } := if_neg hid
    rw [hmap] at hr
    unfold OrderManager.confirmedResponse? OrderManager.getOrderResponse at hr
    simp only [Dict.get?_set_self, truthy_some hid, if_true, Option.getD_some, Option.bind_some,
      if_neg named, order, Option.some_or] at hr
    cases hr
    simp [OrderState.recordAck, OrderState.response, orElse_some hid]

/-- The call that set the event is over, and the order it recorded is there for the others. -/
theorem settled_setEvent
    (order : s.manager.orders.get? R.intentId =
      some (OrderManager.concludedOrder (R.calls p) response))
    (event : s.event = some p)
    (confirmed : ∀ r ∈ s.manager.confirmedResponse? R.intentId,
      r = (OrderManager.concludedOrder (R.calls p) response).response)
    (placements : s.placements = [(p, .ok response)])
    (others : ∀ c, c ≠ p → s.point c = .check ∨ s.point c = .awaitEvent p) :
    R.Settled (s.setEvent.goto p (.returned response)) p response := by
  have hset : s.setEvent = { s with signalled := Function.update s.signalled p true } := by
    unfold Race.setEvent
    rw [event]
  rw [hset]
  refine ⟨Race.goto_point_self _ _ _, order, event, by simp [Race.goto], confirmed, placements, ?_⟩
  intro d hd
  rw [Race.goto_point_of_ne _ _ hd]
  cases others d hd with
  | inl hcheck => exact .inl hcheck
  | inr hwait => exact .inr (.inl hwait)

theorem phase_recording_step {todo : List FieldWrite} (named : R.intentId ≠ "")
    (begun : R.Begun s p) (point : s.point p = .record todo response)
    (object : todo.foldl FieldWrite.apply (s.objects p) =
      OrderManager.concludedOrder (R.calls p) response)
    (placements : s.placements = [(p, .ok response)]) (orderly : Orderly s c) :
    R.Phase (R.step s c) := by
  by_cases hc : c = p
  · subst hc
    unfold step
    rw [point]
    cases todo with
    | cons write rest =>
        refine .recording c rest response ((begun.assign write).goto_self _)
          (Race.goto_point_self _ _ _) ?_ placements
        rw [← object]
        simp [Race.goto, Race.assign]
    | nil =>
        have hobject : s.objects c = OrderManager.concludedOrder (R.calls c) response := object
        have horder := begun.order
        rw [hobject] at horder
        by_cases hfailed : response.status = .failed
        · simp only [if_pos hfailed]
          exact .signalling c response ((begun.persist c).goto_self _)
            (Race.goto_point_self _ _ _) hobject placements
        · simp only [if_neg hfailed]
          have hconfirmed :=
            confirmedResponse?_mapBrokerOrder named horder begun.unconfirmed hfailed
          have horder' : (s.manager.mapBrokerOrder R.intentId response.orderId).orders.get?
              R.intentId = some (OrderManager.concludedOrder (R.calls c) response) := by
            rw [OrderManager.mapBrokerOrder_orders]
            exact horder
          exact .settled c response
            (settled_setEvent horder' begun.event hconfirmed placements begun.others)
  · rw [begun.step_other hc orderly]
    refine .recording p todo response (begun.goto_other hc) ?_ object placements
    rw [Race.goto_point_of_ne _ _ (Ne.symm hc)]
    exact point

theorem phase_signalling_step (begun : R.Begun s p) (point : s.point p = .signal response)
    (object : s.objects p = OrderManager.concludedOrder (R.calls p) response)
    (placements : s.placements = [(p, .ok response)]) (orderly : Orderly s c) :
    R.Phase (R.step s c) := by
  by_cases hc : c = p
  · subst hc
    unfold step
    rw [point]
    have horder := begun.order
    rw [object] at horder
    refine .settled c response (settled_setEvent horder begun.event ?_ placements begun.others)
    intro r hr
    rw [confirmedResponse?_eq_none begun.unconfirmed] at hr
    cases hr
  · rw [begun.step_other hc orderly]
    refine .signalling p response (begun.goto_other hc) ?_ object placements
    rw [Race.goto_point_of_ne _ _ (Ne.symm hc)]
    exact point

/-- After the answer, another call moves on and leaves all else as it is. -/
theorem Settled.goto (settled : R.Settled s p response) (hc : c ≠ p) {q : Point κ}
    (point : q = .awaitEvent p ∨ q = .lookAgain ∨
      q = .returned (OrderManager.concludedOrder (R.calls p) response).response) :
    R.Settled (s.goto c q) p response where
  point := by
    rw [Race.goto_point_of_ne _ _ (Ne.symm hc)]
    exact settled.point
  order := settled.order
  event := settled.event
  signalled := settled.signalled
  confirmed := settled.confirmed
  placements := settled.placements
  others := by
    intro d hd
    by_cases hdc : d = c
    · subst hdc
      rw [Race.goto_point_self]
      exact .inr point
    · rw [Race.goto_point_of_ne _ _ hdc]
      exact settled.others d hd

omit [DecidableEq κ] in
theorem Settled.checkIntent (settled : R.Settled s p response) :
    s.checkIntent R.intentId = .awaitEvent p ∨
      s.checkIntent R.intentId =
        .returned (OrderManager.concludedOrder (R.calls p) response).response := by
  unfold Race.checkIntent
  rw [settled.order, settled.event]
  cases hconfirmed : s.manager.confirmedResponse? R.intentId with
  | none => exact .inl rfl
  | some r => exact .inr (congrArg Point.returned (settled.confirmed r hconfirmed))

omit [DecidableEq κ] in
theorem Settled.checkAgain (settled : R.Settled s p response) :
    s.checkAgain R.intentId =
      .returned (OrderManager.concludedOrder (R.calls p) response).response := by
  unfold Race.checkAgain
  rw [settled.order]
  cases hconfirmed : s.manager.confirmedResponse? R.intentId with
  | none => rfl
  | some r => exact congrArg Point.returned (settled.confirmed r hconfirmed)

theorem Settled.step (settled : R.Settled s p response) (orderly : Orderly s c) :
    R.Settled (R.step s c) p response := by
  unfold Orderly at orderly
  by_cases hc : c = p
  · subst hc
    rw [settled.point] at orderly
    exact orderly.elim
  · unfold SameIntent.step
    obtain hpoint | hpoint | hpoint | hpoint := settled.others c hc
    · rw [hpoint]
      cases settled.checkIntent with
      | inl hwait => exact settled.goto hc (.inl hwait)
      | inr hreturn => exact settled.goto hc (.inr (.inr hreturn))
    · rw [hpoint]
      exact settled.goto hc (.inr (.inl rfl))
    · rw [hpoint]
      exact settled.goto hc (.inr (.inr settled.checkAgain))
    · rw [hpoint] at orderly
      exact orderly.elim

theorem Phase.step (named : R.intentId ≠ "")
    (answers : ∀ c, ∃ response, (R.calls c).gateway.placeOrder (R.calls c).request = .ok response)
    (phase : R.Phase s) (orderly : Orderly s c) : R.Phase (R.step s c) := by
  cases phase with
  | unclaimed unclaimed => exact phase_unclaimed_step unclaimed c
  | claimed p point claimed => exact phase_claimed_step point claimed orderly
  | entered p point claimed owner order =>
      exact phase_entered_step point claimed owner order orderly
  | placing p begun point object placements =>
      exact phase_placing_step answers begun point object placements orderly
  | recording p todo response begun point object placements =>
      exact phase_recording_step named begun point object placements orderly
  | signalling p response begun point object placements =>
      exact phase_signalling_step begun point object placements orderly
  | settled p response settled => exact .settled p response (settled.step orderly)

omit [DecidableEq κ] in
theorem phase_start {mgr : OrderManager} (unknown : mgr.orders.get? R.intentId = none)
    (unmapped : mgr.intentMap.get? R.intentId = none) : R.Phase (R.start mgr) := by
  refine .unclaimed ⟨fun _ => rfl, unknown, ?_, fun _ => rfl, fun _ => rfl, rfl⟩
  have hmap : (R.start mgr).manager.intentMap.get? R.intentId = none := unmapped
  rw [hmap]
  rfl

/-! ### What every phase gives -/

omit [DecidableEq κ] in
theorem Claimed.not_returned (claimed : R.Claimed s p) (point : ∀ r, s.point p ≠ .returned r)
    (c : κ) (r : OrderResponse) : s.point c ≠ .returned r := by
  by_cases hc : c = p
  · subst hc
    exact point r
  · intro hreturned
    cases (claimed.others c hc).symm.trans hreturned

omit [DecidableEq κ] in
theorem Begun.not_returned (begun : R.Begun s p) (point : ∀ r, s.point p ≠ .returned r) (c : κ)
    (r : OrderResponse) : s.point c ≠ .returned r := by
  by_cases hc : c = p
  · subst hc
    exact point r
  · intro hreturned
    cases begun.others c hc with
    | inl hcheck => cases hcheck.symm.trans hreturned
    | inr hwait => cases hwait.symm.trans hreturned

omit [DecidableEq κ] in
theorem onePlacement_of_none_returned (once : s.placements.length ≤ 1)
    (none : ∀ c r, s.point c ≠ .returned r) : R.OnePlacement s :=
  ⟨once, fun c r hreturned => absurd hreturned (none c r)⟩

theorem Settled.onePlacement (settled : R.Settled s p response) : R.OnePlacement s := by
  refine ⟨by simp [settled.placements], fun c r hreturned => ?_⟩
  refine ⟨p, response, by simp [settled.placements], ?_⟩
  by_cases hc : c = p
  · subst hc
    cases settled.point.symm.trans hreturned
    exact .inl rfl
  · obtain hpoint | hpoint | hpoint | hpoint := settled.others c hc
    · cases hpoint.symm.trans hreturned
    · cases hpoint.symm.trans hreturned
    · cases hpoint.symm.trans hreturned
    · cases hpoint.symm.trans hreturned
      exact .inr rfl

theorem Phase.onePlacement (phase : R.Phase s) : R.OnePlacement s := by
  cases phase with
  | unclaimed unclaimed =>
      apply onePlacement_of_none_returned (by simp [unclaimed.placements])
      intro c r hreturned
      cases (unclaimed.points c).symm.trans hreturned
  | claimed p point claimed =>
      apply onePlacement_of_none_returned (by simp [claimed.placements])
      exact claimed.not_returned fun r hp => by cases point.symm.trans hp
  | entered p point claimed owner order =>
      apply onePlacement_of_none_returned (by simp [claimed.placements])
      exact claimed.not_returned fun r hp => by cases point.symm.trans hp
  | placing p begun point object placements =>
      apply onePlacement_of_none_returned (by simp [placements])
      apply begun.not_returned
      intro r hp
      obtain hpoint | hpoint | hpoint := point
      · cases hpoint.symm.trans hp
      · cases hpoint.symm.trans hp
      · cases hpoint.symm.trans hp
  | recording p todo response begun point object placements =>
      apply onePlacement_of_none_returned (by simp [placements])
      exact begun.not_returned fun r hp => by cases point.symm.trans hp
  | signalling p response begun point object placements =>
      apply onePlacement_of_none_returned (by simp [placements])
      exact begun.not_returned fun r hp => by cases point.symm.trans hp
  | settled p response settled => exact settled.onePlacement

/-! ### Every call comes to its end -/

/-- The most statements a call has before it. -/
def remaining : Point κ → Nat
  | .check => 13
  | .create => 12
  | .registerEvent => 11
  | .mapIntent => 10
  | .persistNew => 9
  | .placeOrder => 8
  | .record todo _ => todo.length + 2
  | .awaitEvent _ => 2
  | .signal _ | .lookAgain => 1
  | .returned _ | .raised _ => 0

/-- A step moves no other call. -/
theorem step_point_of_ne (s : Race κ) {c d : κ} (h : d ≠ c) :
    (R.step s c).point d = s.point d := by
  have hgoto : ∀ (t : Race κ) q, (t.goto c q).point d = t.point d :=
    fun t q => t.goto_point_of_ne q h
  unfold step
  cases s.point c with
  | record todo response =>
      cases todo with
      | cons write rest => exact hgoto _ _
      | nil =>
          simp only
          split
          · exact hgoto _ _
          · rw [hgoto, Race.setEvent_point]
            rfl
  | signal response =>
      simp only
      rw [hgoto, Race.setEvent_point]
  | returned r => rfl
  | raised e => rfl
  | check => exact hgoto _ _
  | create => exact hgoto _ _
  | registerEvent => exact hgoto _ _
  | mapIntent => exact hgoto _ _
  | persistNew => exact hgoto _ _
  | placeOrder => exact hgoto _ _
  | awaitEvent registrant => exact hgoto _ _
  | lookAgain => exact hgoto _ _

omit [DecidableEq κ] in
theorem remaining_checkIntent (s : Race κ) (intentId : String) :
    remaining (s.checkIntent intentId) < 13 := by
  unfold Race.checkIntent
  split
  · simp [remaining]
  · split <;> simp [remaining]

omit [DecidableEq κ] in
theorem remaining_checkAgain (s : Race κ) (intentId : String) :
    remaining (s.checkAgain intentId) < 1 := by
  unfold Race.checkAgain
  split <;> simp [remaining]

theorem remaining_step (orderly : Orderly s c) :
    remaining ((R.step s c).point c) < remaining (s.point c) := by
  unfold Orderly at orderly
  unfold step
  cases hpoint : s.point c with
  | check =>
      simp only [Race.goto_point_self]
      exact remaining_checkIntent s R.intentId
  | placeOrder =>
      simp only [Race.goto_point_self]
      split
      · rename_i response _
        have hlength := recordingWrites_length (R.calls c).later response
        simp only [remaining]
        omega
      · simp [remaining]
  | record todo response =>
      cases todo with
      | cons write rest => simp [remaining]
      | nil =>
          simp only
          split <;> simp [remaining]
  | lookAgain =>
      simp only [Race.goto_point_self]
      exact remaining_checkAgain s R.intentId
  | returned r =>
      rw [hpoint] at orderly
      exact orderly.elim
  | raised e =>
      rw [hpoint] at orderly
      exact orderly.elim
  | create => simp [remaining]
  | registerEvent => simp [remaining]
  | mapIntent => simp [remaining]
  | persistNew => simp [remaining]
  | signal response => simp [remaining]
  | awaitEvent registrant => simp [remaining]

omit [DecidableEq κ] in
/-- The call is at a statement it can always run. -/
theorem orderly_of_point {q : Point κ} (point : s.point c = q)
    (free : match q with
      | .check | .awaitEvent _ | .returned _ | .raised _ => False
      | _ => True) : Orderly s c := by
  unfold Orderly
  rw [point]
  cases q <;> trivial

theorem Settled.finished (settled : R.Settled s p response) (stuck : ∀ c, ¬ Orderly s c) (c : κ) :
    ∃ r, s.point c = .returned r := by
  by_cases hc : c = p
  · subst hc
    exact ⟨response, settled.point⟩
  · obtain hpoint | hpoint | hpoint | hpoint := settled.others c hc
    · refine absurd ?_ (stuck c)
      unfold Orderly
      rw [hpoint]
      intro d
      by_cases hd : d = p
      · rw [hd, settled.point]
        exact ⟨nofun, nofun⟩
      · obtain h | h | h | h := settled.others d hd <;> rw [h] <;> exact ⟨nofun, nofun⟩
    · refine absurd ?_ (stuck c)
      unfold Orderly
      rw [hpoint]
      exact settled.signalled
    · exact absurd (orderly_of_point hpoint trivial) (stuck c)
    · exact ⟨_, hpoint⟩

/-- Where no call can step, each has returned. -/
theorem Phase.finished (phase : R.Phase s) (stuck : ∀ c, ¬ Orderly s c) (c : κ) :
    ∃ r, s.point c = .returned r := by
  cases phase with
  | unclaimed unclaimed =>
      refine absurd ?_ (stuck c)
      unfold Orderly
      rw [unclaimed.points c]
      intro d
      rw [unclaimed.points d]
      exact ⟨nofun, nofun⟩
  | claimed p point claimed => exact absurd (orderly_of_point point trivial) (stuck p)
  | entered p point claimed owner order =>
      exact absurd (orderly_of_point point trivial) (stuck p)
  | placing p begun point object placements =>
      obtain hpoint | hpoint | hpoint := point
      · exact absurd (orderly_of_point hpoint trivial) (stuck p)
      · exact absurd (orderly_of_point hpoint trivial) (stuck p)
      · exact absurd (orderly_of_point hpoint trivial) (stuck p)
  | recording p todo response begun point object placements =>
      exact absurd (orderly_of_point point trivial) (stuck p)
  | signalling p response begun point object placements =>
      exact absurd (orderly_of_point point trivial) (stuck p)
  | settled p response settled => exact settled.finished stuck c

section Rank

variable [Fintype κ]

def rank (s : Race κ) : Nat := ∑ c, remaining (s.point c)

theorem rank_step (orderly : Orderly s c) : rank (R.step s c) < rank s := by
  refine Finset.sum_lt_sum (fun d _ => ?_) ⟨c, Finset.mem_univ c, remaining_step orderly⟩
  by_cases hd : d = c
  · subst hd
    exact (remaining_step orderly).le
  · rw [step_point_of_ne s hd]

omit [DecidableEq κ] in
theorem rank_start (mgr : OrderManager) : rank (R.start mgr) = 13 * Fintype.card κ := by
  simp [rank, start, remaining, Nat.mul_comm]

end Rank

/-! ## Whole runs -/

/-- In an orderly run the order is placed at most once and every answer is about that placement; the
run is bounded, and where it cannot go on every call has answered. -/
theorem one_placement_along_run [Fintype κ] (named : R.intentId ≠ "")
    (answers : ∀ c, ∃ response, (R.calls c).gateway.placeOrder (R.calls c).request = .ok response)
    {mgr : OrderManager} (unknown : mgr.orders.get? R.intentId = none)
    (unmapped : mgr.intentMap.get? R.intentId = none) {ops : List κ}
    (orderly : StepsMeet R.step Orderly (R.start mgr) ops) :
    Always R.step R.OnePlacement (R.start mgr) ops ∧ ops.length ≤ 13 * Fintype.card κ ∧
      ((∀ c, ¬ Orderly (run R.step (R.start mgr) ops) c) →
        ∀ c, ∃ r, (run R.step (R.start mgr) ops).point c = .returned r) := by
  have hphase := always_of_stepsMeet
    (fun s c _ phase horderly => Phase.step named answers phase horderly)
    (phase_start unknown unmapped) orderly
  have hlength := length_le_of_stepsMeet (fun s c => rank_step) orderly
  rw [rank_start] at hlength
  refine ⟨hphase.mono fun s phase => phase.onePlacement, by omega, ?_⟩
  exact hphase.final.finished

/-- Two calls for one intent, each of which the broker would answer. -/
def rivals : SameIntent (Fin 2) where
  intentId := "I-1"
  calls _ :=
    { intentId := "I-1"
      request := { symbol := "NIFTY", qty := 75, price := 0, orderType := "MARKET"
                   direction := "BUY", product := "MIS", variety := "REGULAR" }
      gateway := { adapter := .ok { orderId := "B-1", status := .acknowledged } }
      now := 0
      later := second }
  same _ := rfl

/-- The second call comes while the first is placing its order, waits, and answers the same. -/
theorem rivals_in_turn :
    rivals.OnePlacement (run rivals.step (rivals.start { table := .empty })
      [0, 0, 0, 1, 0, 0, 0, 0, 0, 0, 0, 0, 0, 1, 1]) := by
  refine (one_placement_along_run (R := rivals) (by decide) (fun _ => ⟨_, rfl⟩) rfl rfl ?_).1.final
  decide +kernel

/-- Both calls check before either enters its order: the order is placed twice. -/
theorem rivals_place_twice :
    ¬ rivals.OnePlacement (run rivals.step (rivals.start { table := .empty })
      [0, 1, 0, 0, 0, 0, 0, 1, 1, 1, 1, 1]) := by
  intro h
  exact absurd h.once (by decide)

end SameIntent

end AutoTrade.Orders
