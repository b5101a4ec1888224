import AutoTrade.Orders.OrderManager
import Mathlib.Logic.Function.Basic

/-! # Concurrent calls for one intent

Any number of `execute_intent` calls with the same intent id, interleaved at the
two lock-protected sections and at every statement between them. Each call has
its own order object and may put it, with a new event, in the place of another
call's: the lock is released between the check for the intent and its entry into
`_orders`. A call that runs alone does what `executeIntent` says.
-/

namespace AutoTrade.Orders

open AutoTrade.Library

/-! ## The statements that record an answer -/

inductive FieldWrite
  | brokerOrderId (id : String)
  | status (s : OrderStatus)
  | error (e : Option String)
  | filledQty (n : Int)
  | avgPrice (x : ℚ)
  | updatedAt (t : Time)
deriving DecidableEq, Repr

def FieldWrite.apply (o : OrderState) : FieldWrite → OrderState
  | .brokerOrderId id => { o with brokerOrderId := some id }
  | .status s => { o with status := s }
  | .error e => { o with error := e }
  | .filledQty n => { o with filledQty := n }
  | .avgPrice x => { o with avgPrice := x }
  | .updatedAt t => { o with updatedAt := t }

/-- The assignments after the broker's answer, one statement each. -/
def recordingWrites (now : Time) (response : OrderResponse) : List FieldWrite :=
  if response.status = .failed then [.status .failed, .error response.error, .updatedAt now]
  else [.brokerOrderId response.orderId, .status .acknowledged, .filledQty response.filledQty,
    .avgPrice response.avgPrice, .updatedAt now]

theorem recordingWrites_foldl (call : OrderManager.IntentCall) (response : OrderResponse) :
    (recordingWrites call.later response).foldl FieldWrite.apply (OrderManager.newOrder call) =
      OrderManager.concludedOrder call response := by
  unfold recordingWrites OrderManager.concludedOrder
  split <;> rfl

theorem recordingWrites_length (now : Time) (response : OrderResponse) :
    (recordingWrites now response).length ≤ 5 := by
  unfold recordingWrites
  split <;> simp

/-! ## Calls and their interleaving -/

/-- The statement a call is about to run. -/
inductive Point (κ : Type)
  | check
  | create
  | registerEvent
  | mapIntent
  | persistNew
  | placeOrder
  /-- Assignments are left; with none left, the order is persisted. -/
  | record (todo : List FieldWrite) (response : OrderResponse)
  | signal (response : OrderResponse)
  /-- The wait for the event this call registered. -/
  | awaitEvent (registrant : κ)
  | lookAgain
  | returned (response : OrderResponse)
  | raised (e : PyExc)
deriving DecidableEq

/-- Calls of `execute_intent` that all name one intent. -/
structure SameIntent (κ : Type) where
  intentId : String
  calls : κ → OrderManager.IntentCall
  same : ∀ c, (calls c).intentId = intentId

/-- What the calls share, and where each of them is. -/
structure Race (κ : Type) where
  manager : OrderManager
  point : κ → Point κ
  /-- The order object of each call. -/
  objects : κ → OrderState
  /-- The call whose object is in `_orders`. -/
  owner : Option κ
  /-- The call whose event is in `_intent_events`. -/
  event : Option κ
  signalled : κ → Bool
  placements : List (κ × Except PyExc OrderResponse)

namespace Race

variable {κ : Type} [DecidableEq κ]

def goto (s : Race κ) (c : κ) (p : Point κ) : Race κ :=
  { s with point := Function.update s.point c p }

/-- An assignment to the object of a call; the manager sees it if it holds that object. -/
def assign (s : Race κ) (intentId : String) (c : κ) (write : FieldWrite) : Race κ :=
  let o := write.apply (s.objects c)
  { s with
    objects := Function.update s.objects c o
    manager :=
      if s.owner = some c then { s.manager with orders := s.manager.orders.set intentId o }
      else s.manager }

def persist (s : Race κ) (c : κ) : Race κ :=
  { s with manager := s.manager.persistOrder (s.objects c) }

def setEvent (s : Race κ) : Race κ :=
  match s.event with
  | none => s
  | some e => { s with signalled := Function.update s.signalled e true }

/-- The first lock-protected section. -/
def checkIntent (s : Race κ) (intentId : String) : Point κ :=
  match s.manager.orders.get? intentId with
  | none => .create
  | some o =>
      match s.manager.confirmedResponse? intentId, s.event with
      | some response, _ => .returned response
      | none, none => .returned o.response
      | none, some registrant => .awaitEvent registrant

/-- The lock-protected section after the wait. -/
def checkAgain (s : Race κ) (intentId : String) : Point κ :=
  match s.manager.confirmedResponse? intentId, s.manager.orders.get? intentId with
  | some response, _ => .returned response
  | none, some o => .returned o.response
  | none, none => .raised ⟨.keyError, intentId⟩

@[simp] theorem goto_point_self (s : Race κ) (c : κ) (p : Point κ) : (s.goto c p).point c = p := by
  simp [goto]

theorem goto_point_of_ne (s : Race κ) {c d : κ} (p : Point κ) (h : d ≠ c) :
    (s.goto c p).point d = s.point d := by
  simp [goto, h]

@[simp] theorem setEvent_point (s : Race κ) : s.setEvent.point = s.point := by
  unfold setEvent
  split <;> rfl

end Race

namespace SameIntent

variable {κ : Type} [DecidableEq κ] (R : SameIntent κ)

def start (mgr : OrderManager) : Race κ where
  manager := mgr
  point _ := .check
  objects c := OrderManager.newOrder (R.calls c)
  owner := none
  event := none
  signalled _ := false
  placements := []

/-- The next statement of one call; a wait ends with the event or with its time. -/
def step (s : Race κ) (c : κ) : Race κ :=
  match s.point c with
  | .check => s.goto c (s.checkIntent R.intentId)
  | .create =>
      { s with
        manager :=
          { s.manager with orders := s.manager.orders.set R.intentId (s.objects c) }
        owner := some c }.goto c .registerEvent
  | .registerEvent => { s with event := some c }.goto c .mapIntent
  | .mapIntent =>
      { s with
        manager :=
          { s.manager with intentMap := s.manager.intentMap.set R.intentId "" } }.goto c .persistNew
  | .persistNew => (s.persist c).goto c .placeOrder
  | .placeOrder =>
      let result := (R.calls c).gateway.placeOrder (R.calls c).request
      { s with placements := s.placements ++ [(c, result)] }.goto c
        (match result with
          | .ok response => .record (recordingWrites (R.calls c).later response) response
          | .error e => .raised e)
  | .record (write :: todo) response =>
      (s.assign R.intentId c write).goto c (.record todo response)
  | .record [] response =>
      if response.status = .failed then (s.persist c).goto c (.signal response)
      else
        ({ s with
          manager :=
            s.manager.mapBrokerOrder R.intentId response.orderId }.persist c).setEvent.goto c
          (.returned response)
  | .signal response => s.setEvent.goto c (.returned response)
  | .awaitEvent _ => s.goto c .lookAgain
  | .lookAgain => s.goto c (s.checkAgain R.intentId)
  | .returned _ | .raised _ => s

/-! ## A call alone -/

variable {R} {s : Race κ} {c : κ}

/-- Where a call ends. -/
def ending : Except PyExc OrderResponse → Point κ
  | .ok response => .returned response
  | .error e => .raised e

theorem run_of_ending {result : Except PyExc OrderResponse} (h : s.point c = ending result)
    (n : Nat) : run R.step s (List.replicate n c) = s := by
  have hstep : R.step s c = s := by
    unfold step
    rw [h]
    cases result <;> rfl
  induction n with
  | zero => rfl
  | succ n ih =>
      rw [List.replicate_succ, run, List.foldl_cons, hstep]
      exact ih

theorem solo_run_known {mgr : OrderManager} {o : OrderState}
    (known : mgr.orders.get? R.intentId = some o) (c : κ) (n : Nat) :
    run R.step (R.start mgr) (List.replicate (n + 1) c) =
      (R.start mgr).goto c (.returned (mgr.existingResponse R.intentId o)) := by
  have hpoint : (R.start mgr).checkIntent R.intentId =
      .returned (mgr.existingResponse R.intentId o) := by
    unfold Race.checkIntent OrderManager.existingResponse
    simp only [start, known]
    cases mgr.confirmedResponse? R.intentId <;> rfl
  rw [List.replicate_succ, run, List.foldl_cons]
  have hstep : R.step (R.start mgr) c =
      (R.start mgr).goto c (.returned (mgr.existingResponse R.intentId o)) := by
    rw [← hpoint]
    rfl
  have hending : ((R.start mgr).goto c (.returned (mgr.existingResponse R.intentId o))).point c =
      ending (.ok (mgr.existingResponse R.intentId o)) := Race.goto_point_self _ _ _
  rw [hstep]
  exact run_of_ending hending n

/-- The state in which a call for a new intent, alone, has its answer from the broker. -/
def answered (R : SameIntent κ) (mgr : OrderManager) (c : κ) (q : Point κ) : Race κ where
  manager := mgr.preSubmit (OrderManager.newOrder (R.calls c))
  point := Function.update (fun _ => .check) c q
  objects d := OrderManager.newOrder (R.calls d)
  owner := some c
  event := some c
  signalled _ := false
  placements := [(c, (R.calls c).gateway.placeOrder (R.calls c).request)]

theorem solo_run_answered {mgr : OrderManager} (new : mgr.orders.get? R.intentId = none) (c : κ) :
    run R.step (R.start mgr) (List.replicate 6 c) = R.answered mgr c
      (match (R.calls c).gateway.placeOrder (R.calls c).request with
        | .ok response => .record (recordingWrites (R.calls c).later response) response
        | .error e => .raised e) := by
  simp [run, step, start, answered, new, R.same c, Race.goto, Race.checkIntent, Race.persist,
    OrderManager.preSubmit, OrderManager.writeOrder, OrderManager.persistOrder,
    OrderManager.newOrder]

/-- The assignments end in the order that `conclude` writes. -/
theorem answered_run_record {mgr : OrderManager} (c : κ) (response : OrderResponse) :
    let s := run R.step
      (R.answered mgr c (.record (recordingWrites (R.calls c).later response) response))
      (List.replicate 7 c)
    s.manager =
        (mgr.preSubmit (OrderManager.newOrder (R.calls c))).conclude (R.calls c) response ∧
      s.point c = .returned response := by
  by_cases hfailed : response.status = .failed
  · simp [run, step, answered, hfailed, R.same c, Race.goto, Race.persist, Race.assign,
      Race.setEvent, recordingWrites, FieldWrite.apply, OrderManager.writeOrder,
      OrderManager.preSubmit, OrderManager.persistOrder, OrderManager.conclude,
      OrderManager.newOrder, OrderManager.concludedOrder, OrderState.recordFailure]
  · by_cases hid : response.orderId = "" <;>
      simp [run, step, answered, hfailed, hid, R.same c, Race.goto, Race.persist, Race.assign,
        Race.setEvent, recordingWrites, FieldWrite.apply, OrderManager.writeOrder,
        OrderManager.preSubmit, OrderManager.persistOrder, OrderManager.conclude,
        OrderManager.newOrder, OrderManager.concludedOrder, OrderState.recordAck,
        OrderManager.mapBrokerOrder]

/-- Alone, a call does what `execute_intent` does. -/
theorem solo_run (mgr : OrderManager) (c : κ) :
    let s := run R.step (R.start mgr) (List.replicate 13 c)
    let result := mgr.executeIntent (R.calls c)
    s.manager = result.1 ∧ s.point c = ending result.2 := by
  have hid := R.same c
  cases hget : mgr.orders.get? R.intentId with
  | some o =>
      rw [OrderManager.executeIntent_of_known (hid ▸ hget), solo_run_known hget, hid]
      exact ⟨rfl, Race.goto_point_self _ _ _⟩
  | none =>
      have hrun : run R.step (R.start mgr) (List.replicate 13 c) =
          run R.step (run R.step (R.start mgr) (List.replicate 6 c)) (List.replicate 7 c) := by
        unfold run
        rw [← List.foldl_append, ← List.replicate_add]
      rw [OrderManager.executeIntent_of_new (hid ▸ hget), hrun, solo_run_answered hget]
      cases hplace : (R.calls c).gateway.placeOrder (R.calls c).request with
      | error e =>
          have hending : (R.answered mgr c (.raised e)).point c = ending (.error e) := by
            simp [answered, ending]
          simp only [run_of_ending hending]
          exact ⟨rfl, hending⟩
      | ok response => exact answered_run_record c response

end SameIntent

end AutoTrade.Orders
