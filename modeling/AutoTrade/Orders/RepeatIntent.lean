import AutoTrade.Orders.OrderPersistence

/-! # Repeated intents

A call for an intent that is already there is answered from what was stored of
the first answer. A failed order keeps the error alone, and any other is filed
as acknowledged and found again by its broker order id, which the order that
was answered with it last is filed under.
-/

namespace AutoTrade.Orders

open AutoTrade.Library

namespace OrderManager

/-! ## What is found by an order id -/

/-- The order `get_order_response` answers from. -/
def foundOrder (mgr : OrderManager) (brokerOrderId : String) : Option OrderState :=
  ((mgr.brokerMap.get? brokerOrderId).bind fun intentId =>
    if intentId = "" then none else mgr.orders.get? intentId).or (mgr.orders.get? brokerOrderId)

theorem getOrderResponse_eq (mgr : OrderManager) (brokerOrderId : String) :
    mgr.getOrderResponse brokerOrderId =
      match mgr.foundOrder brokerOrderId with
      | none => { orderId := "NOT_FOUND", status := .failed, error := some "Order not found" }
      | some o => { o.response with orderId := orElse o.brokerOrderId brokerOrderId } := rfl

theorem foundOrder_of_intent {mgr : OrderManager} {brokerOrderId intentId : String} {o : OrderState}
    (mapped : mgr.brokerMap.get? brokerOrderId = some intentId) (named : intentId ≠ "")
    (held : mgr.orders.get? intentId = some o) : mgr.foundOrder brokerOrderId = some o := by
  unfold foundOrder
  rw [mapped, Option.bind_some, if_neg named, held, Option.some_or]

theorem foundOrder_of_unnamed {mgr : OrderManager} {brokerOrderId : String}
    (mapped : mgr.brokerMap.get? brokerOrderId = some "") :
    mgr.foundOrder brokerOrderId = mgr.orders.get? brokerOrderId := by
  unfold foundOrder
  rw [mapped, Option.bind_some, if_pos rfl, Option.none_or]

/-- The answer to a call for this intent, if it is there. -/
def answerFor (mgr : OrderManager) (intentId : String) : Option OrderResponse :=
  (mgr.orders.get? intentId).map (mgr.existingResponse intentId)

/-- Every mapped order id belongs to an order, and an intent's order id finds one. -/
structure WellMapped (mgr : OrderManager) : Prop where
  known : ∀ brokerOrderId intentId, mgr.brokerMap.get? brokerOrderId = some intentId →
    (mgr.orders.get? intentId).isSome
  found : ∀ intentId brokerOrderId, mgr.intentMap.get? intentId = some brokerOrderId →
    brokerOrderId ≠ "" → (mgr.foundOrder brokerOrderId).isSome

/-- An order more leaves what was found by an order id. -/
theorem foundOrder_eq {mgr mgr' : OrderManager} (mapped : mgr.WellMapped) {brokerOrderId : String}
    (hbroker : mgr'.brokerMap.get? brokerOrderId = mgr.brokerMap.get? brokerOrderId)
    (horders : ∀ id, (mgr.orders.get? id).isSome → mgr'.orders.get? id = mgr.orders.get? id)
    (hfound : (mgr.foundOrder brokerOrderId).isSome) :
    mgr'.foundOrder brokerOrderId = mgr.foundOrder brokerOrderId := by
  cases hmap : mgr.brokerMap.get? brokerOrderId with
  | none =>
      have hnone : mgr.foundOrder brokerOrderId = mgr.orders.get? brokerOrderId := by
        unfold foundOrder
        rw [hmap, Option.bind_none, Option.none_or]
      rw [hnone] at hfound ⊢
      unfold foundOrder
      rw [hbroker, hmap, Option.bind_none, Option.none_or, horders _ hfound]
  | some intentId =>
      by_cases hnamed : intentId = ""
      · subst hnamed
        rw [foundOrder_of_unnamed hmap] at hfound ⊢
        rw [foundOrder_of_unnamed (hbroker.trans hmap), horders _ hfound]
      · have hknown := mapped.known brokerOrderId intentId hmap
        obtain ⟨o, ho⟩ := Option.isSome_iff_exists.mp hknown
        rw [foundOrder_of_intent hmap hnamed ho,
          foundOrder_of_intent (hbroker.trans hmap) hnamed ((horders _ hknown).trans ho)]

/-! ## Loading -/

/-- A manager that was only loaded: its orders have intent ids, and both maps tell the same. -/
structure Indexed (mgr : OrderManager) : Prop where
  known : ∀ brokerOrderId intentId, mgr.brokerMap.get? brokerOrderId = some intentId →
    intentId ≠ "" ∧ (mgr.orders.get? intentId).isSome
  mapped : ∀ intentId brokerOrderId, mgr.intentMap.get? intentId = some brokerOrderId →
    brokerOrderId ≠ "" → (mgr.brokerMap.get? brokerOrderId).isSome

theorem Indexed.wellMapped {mgr : OrderManager} (indexed : mgr.Indexed) : mgr.WellMapped where
  known brokerOrderId intentId h := (indexed.known brokerOrderId intentId h).2
  found intentId brokerOrderId h hne := by
    obtain ⟨owner, howner⟩ := Option.isSome_iff_exists.mp (indexed.mapped _ _ h hne)
    obtain ⟨hnamed, hheld⟩ := indexed.known _ _ howner
    obtain ⟨o, ho⟩ := Option.isSome_iff_exists.mp hheld
    rw [foundOrder_of_intent howner hnamed ho]
    rfl

theorem indexed_empty (t : OrdersTable) : Indexed { table := t } where
  known _ _ h := by cases h
  mapped _ _ h := by cases h

/-- Where the loaded order has no broker order id, only the intent is filed. -/
theorem brokerMap_loadOrder (mgr : OrderManager) (o : OrderState) (brokerOrderId : String) :
    (mgr.loadOrder o).brokerMap.get? brokerOrderId =
      if brokerOrderId ≠ "" ∧ o.brokerOrderId = some brokerOrderId then some o.intentId
      else mgr.brokerMap.get? brokerOrderId := by
  unfold OrderManager.loadOrder
  cases ho : o.brokerOrderId with
  | none => simp
  | some id =>
      by_cases hid : id = ""
      · subst hid
        simp only [if_true]
        rw [if_neg fun h => h.1 (Option.some.inj h.2).symm]
      · simp only [if_neg hid, Dict.get?_set]
        by_cases hsame : brokerOrderId = id
        · subst hsame
          rw [if_pos rfl, if_pos ⟨hid, rfl⟩]
        · rw [if_neg hsame, if_neg fun h => hsame (Option.some.inj h.2).symm]

theorem isSome_loadOrder {mgr : OrderManager} {o : OrderState} {id : String}
    (h : id = o.intentId ∨ (mgr.orders.get? id).isSome) :
    ((mgr.loadOrder o).orders.get? id).isSome := by
  simp only [OrderManager.loadOrder, Dict.get?_set]
  split
  · rfl
  · rename_i hne
    exact h.resolve_left hne

theorem Indexed.loadOrder {mgr : OrderManager} (indexed : mgr.Indexed) {o : OrderState}
    (named : o.intentId ≠ "") : (mgr.loadOrder o).Indexed := by
  constructor
  · intro brokerOrderId intentId h
    rw [brokerMap_loadOrder] at h
    split at h
    · cases h
      exact ⟨named, isSome_loadOrder (.inl rfl)⟩
    · obtain ⟨hnamed, hheld⟩ := indexed.known _ _ h
      exact ⟨hnamed, isSome_loadOrder (.inr hheld)⟩
  · intro intentId brokerOrderId h hne
    rw [brokerMap_loadOrder]
    simp only [OrderManager.loadOrder, if_neg named, Dict.get?_set] at h
    split
    · rfl
    · rename_i hown
      by_cases hid : intentId = o.intentId
      · rw [if_pos hid] at h
        cases ho : o.brokerOrderId with
        | none => exact absurd (by simpa [ho] using h) hne.symm
        | some id =>
            rw [ho] at h hown
            exact absurd ⟨hne, h⟩ hown
      · rw [if_neg hid] at h
        exact indexed.mapped _ _ h hne

theorem readOrder_named {uuid : String} (generated : uuid ≠ "") {row : OrderRow} {o : OrderState}
    (h : readOrder uuid row = .ok o) : o.intentId ≠ "" := by
  rw [(readOrder_fields h).1]
  split
  · exact generated
  · assumption

theorem indexed_of_openOn {uuid : String} (generated : uuid ≠ "") {t : OrdersTable}
    {mgr : OrderManager} (opened : openOn uuid t = .ok mgr) : mgr.Indexed :=
  openOn_invariant (indexed_empty t)
    (fun _ _ _ hread indexed => indexed.loadOrder (readOrder_named generated hread)) opened

/-! ## What a new order leaves behind -/

/-- An order is filed under its intent, with the broker order id it is mapped to or an empty one. -/
structure Filed (mgr mgr' : OrderManager) (intentId : String) (o : OrderState)
    (brokerOrderId : String) : Prop where
  orders : ∀ id, mgr'.orders.get? id = if id = intentId then some o else mgr.orders.get? id
  intentMap : ∀ id, mgr'.intentMap.get? id =
    if id = intentId then some brokerOrderId else mgr.intentMap.get? id
  brokerMap : ∀ id, mgr'.brokerMap.get? id =
    if brokerOrderId ≠ "" ∧ id = brokerOrderId then some intentId else mgr.brokerMap.get? id

section Filed

variable {mgr mgr' : OrderManager} {intentId brokerOrderId : String} {o : OrderState}

theorem answerFor_of_unmapped {id : String} (held : mgr.orders.get? id = some o)
    (unmapped : mgr.intentMap.get? id = none ∨ mgr.intentMap.get? id = some "") :
    mgr.answerFor id = some o.response := by
  unfold answerFor existingResponse confirmedResponse?
  rw [held]
  cases unmapped with
  | inl h => simp [h, truthy]
  | inr h => simp [h, truthy]

theorem answerFor_of_mapped {id : String} (held : mgr.orders.get? id = some o)
    (mapped : mgr.intentMap.get? id = some brokerOrderId) (hne : brokerOrderId ≠ "") :
    mgr.answerFor id = some (mgr.getOrderResponse brokerOrderId) := by
  unfold answerFor existingResponse confirmedResponse?
  rw [held]
  simp [mapped, truthy_some hne]

theorem Filed.order (filed : Filed mgr mgr' intentId o brokerOrderId) :
    mgr'.orders.get? intentId = some o := by rw [filed.orders, if_pos rfl]

theorem Filed.owner (filed : Filed mgr mgr' intentId o brokerOrderId) (hne : brokerOrderId ≠ "") :
    mgr'.brokerMap.get? brokerOrderId = some intentId := by rw [filed.brokerMap, if_pos ⟨hne, rfl⟩]

theorem Filed.answerFor_self (filed : Filed mgr mgr' intentId o brokerOrderId) :
    mgr'.answerFor intentId =
      some (if brokerOrderId = "" then o.response else mgr'.getOrderResponse brokerOrderId) := by
  have hmap : mgr'.intentMap.get? intentId = some brokerOrderId := by
    rw [filed.intentMap, if_pos rfl]
  by_cases hblank : brokerOrderId = ""
  · rw [if_pos hblank,
      answerFor_of_unmapped filed.order (.inr (hmap.trans (congrArg some hblank)))]
  · rw [if_neg hblank, answerFor_of_mapped filed.order hmap hblank]

theorem Filed.foundOrder_other (filed : Filed mgr mgr' intentId o brokerOrderId)
    (mapped : mgr.WellMapped) (new : mgr.orders.get? intentId = none) {id : String}
    (hfound : (mgr.foundOrder id).isSome) (hother : ¬ (brokerOrderId ≠ "" ∧ id = brokerOrderId)) :
    mgr'.foundOrder id = mgr.foundOrder id := by
  refine foundOrder_eq mapped ?_ (fun j hj => ?_) hfound
  · rw [filed.brokerMap, if_neg hother]
  · rw [filed.orders]
    split
    · rename_i heq
      rw [heq, new] at hj
      cases hj
    · rfl

/-- Another intent's answer changes only where it is found by the order id of the new one. -/
theorem Filed.answerFor_other (filed : Filed mgr mgr' intentId o brokerOrderId)
    (mapped : mgr.WellMapped) (new : mgr.orders.get? intentId = none) {id : String}
    (hother : id ≠ intentId) :
    mgr'.answerFor id =
      if brokerOrderId ≠ "" ∧ mgr.intentMap.get? id = some brokerOrderId then
        (mgr.orders.get? id).map fun _ => mgr'.getOrderResponse brokerOrderId
      else mgr.answerFor id := by
  have horder : mgr'.orders.get? id = mgr.orders.get? id := by
    rw [filed.orders, if_neg hother]
  have hmap : mgr'.intentMap.get? id = mgr.intentMap.get? id := by
    rw [filed.intentMap, if_neg hother]
  cases hheld : mgr.orders.get? id with
  | none => simp [answerFor, horder, hheld]
  | some old =>
      by_cases hshared : brokerOrderId ≠ "" ∧ mgr.intentMap.get? id = some brokerOrderId
      · rw [if_pos hshared, answerFor_of_mapped (horder.trans hheld) (hmap.trans hshared.2)
          hshared.1]
        rfl
      · rw [if_neg hshared]
        by_cases hblank : mgr.intentMap.get? id = none ∨ mgr.intentMap.get? id = some ""
        · rw [answerFor_of_unmapped hheld hblank,
            answerFor_of_unmapped (horder.trans hheld) (by rwa [hmap])]
        · obtain ⟨hsome, hne⟩ := not_or.mp hblank
          obtain ⟨other, hid⟩ := Option.ne_none_iff_exists'.mp hsome
          have hnamed : other ≠ "" := fun h => hne (h ▸ hid)
          have hown : ¬ (brokerOrderId ≠ "" ∧ other = brokerOrderId) :=
            fun h => hshared ⟨h.1, hid.trans (congrArg some h.2)⟩
          rw [answerFor_of_mapped hheld hid hnamed,
            answerFor_of_mapped (horder.trans hheld) (hmap.trans hid) hnamed,
            getOrderResponse_eq, getOrderResponse_eq,
            filed.foundOrder_other mapped new (mapped.found id other hid hnamed) hown]

theorem WellMapped.filed (mapped : mgr.WellMapped)
    (filed : Filed mgr mgr' intentId o brokerOrderId) (new : mgr.orders.get? intentId = none)
    (found : brokerOrderId ≠ "" → (mgr'.foundOrder brokerOrderId).isSome) : mgr'.WellMapped where
  known := by
    intro id owner h
    rw [filed.brokerMap] at h
    rw [filed.orders]
    split
    · rfl
    · rename_i hother
      split at h
      · exact absurd (Option.some.inj h).symm hother
      · exact mapped.known id owner h
  found := by
    intro id other h hne
    by_cases hown : brokerOrderId ≠ "" ∧ other = brokerOrderId
    · rw [hown.2]
      exact found hown.1
    · have hold : mgr.intentMap.get? id = some other := by
        rw [filed.intentMap] at h
        split at h
        · cases h
          exact absurd ⟨hne, rfl⟩ hown
        · exact h
      have hfound := mapped.found id other hold hne
      rw [filed.foundOrder_other mapped new hfound hown]
      exact hfound

end Filed

/-! ### The order that was answered -/

variable {mgr : OrderManager} {call : IntentCall} {response : OrderResponse}

/-- The manager after a new intent's order was answered. -/
def answered (mgr : OrderManager) (call : IntentCall) (response : OrderResponse) : OrderManager :=
  (mgr.preSubmit (newOrder call)).conclude call response

/-- The order id that enters the maps; there is none where this is empty. -/
def mappedId (response : OrderResponse) : String :=
  if response.status = .failed then "" else response.orderId

theorem filed_preSubmit (mgr : OrderManager) (call : IntentCall) :
    Filed mgr (mgr.preSubmit (newOrder call)) call.intentId (newOrder call) "" where
  orders _ := Dict.get?_set _ _ _ _
  intentMap _ := Dict.get?_set _ _ _ _
  brokerMap _ := (if_neg fun h => h.1 rfl).symm

theorem filed_answered :
    Filed mgr (mgr.answered call response) call.intentId (concludedOrder call response)
      (mappedId response) where
  orders := by
    intro id
    have hwritten : (mgr.answered call response).orders =
        (mgr.preSubmit (newOrder call)).orders.set call.intentId
          (concludedOrder call response) := by
      rw [← concludedOrder_intentId call response]
      unfold answered conclude
      split
      · rfl
      · simp only [writeOrder, persistOrder, mapBrokerOrder_orders]
    rw [hwritten, Dict.get?_set, (filed_preSubmit mgr call).orders]
    split <;> rfl
  intentMap := by
    intro id
    unfold answered conclude mappedId
    split
    · exact Dict.get?_set _ _ _ _
    · unfold mapBrokerOrder
      split
      · rename_i hblank
        rw [hblank]
        exact Dict.get?_set _ _ _ _
      · simp only [writeOrder, persistOrder, preSubmit, newOrder, Dict.set_set]
        exact Dict.get?_set _ _ _ _
  brokerMap := by
    intro id
    unfold answered conclude mappedId
    by_cases hfailed : response.status = .failed
    · simp only [if_pos hfailed]
      rfl
    · simp only [if_neg hfailed]
      unfold mapBrokerOrder
      by_cases hblank : response.orderId = ""
      · rw [if_pos hblank, if_neg fun h => h.1 hblank]
        rfl
      · rw [if_neg hblank]
        simp only [writeOrder, persistOrder, preSubmit, Dict.get?_set]
        by_cases hid : id = response.orderId
        · rw [if_pos hid, if_pos ⟨hblank, hid⟩]
        · rw [if_neg hid, if_neg fun h => hid h.2]

/-- What is stored of the answer gives it back. An intent without an id is not found by its order
id, which may be the intent of another order. -/
def GivenBack (mgr : OrderManager) (call : IntentCall) (response : OrderResponse) : Prop :=
  if response.status = .failed then
    response.orderId = "" ∧ response.filledQty = 0 ∧ response.avgPrice = 0
  else if call.intentId = "" ∧ response.orderId ≠ "" then
    ∃ o ∈ mgr.orders.get? response.orderId,
      { o.response with orderId := orElse o.brokerOrderId response.orderId } = response
  else response.status = .acknowledged ∧ response.error = none

instance (mgr : OrderManager) (call : IntentCall) (response : OrderResponse) :
    Decidable (GivenBack mgr call response) :=
  inferInstanceAs (Decidable (if response.status = .failed then _ ∧ _ ∧ _ = (0 : ℚ)
    else if call.intentId = "" ∧ response.orderId ≠ "" then
      ∃ o ∈ mgr.orders.get? response.orderId, _ = response
    else _ ∧ response.error = none))

theorem response_failed (h : response.status = .failed) :
    (concludedOrder call response).response = response ↔
      response.orderId = "" ∧ response.filledQty = 0 ∧ response.avgPrice = 0 := by
  unfold concludedOrder
  rw [if_pos h]
  cases response
  subst h
  simp [OrderState.response, OrderState.recordFailure, newOrder, eq_comm]

/-- An order that did not fail is filed as acknowledged, and without an error. -/
theorem response_acknowledged (h : response.status ≠ .failed) :
    (concludedOrder call response).response = response ↔
      response.status = .acknowledged ∧ response.error = none := by
  unfold concludedOrder
  rw [if_neg h]
  cases response
  simp [OrderState.response, OrderState.recordAck, newOrder, eq_comm]

theorem getOrderResponse_named (h : response.status ≠ .failed) (hne : response.orderId ≠ "")
    (named : call.intentId ≠ "") :
    (mgr.answered call response).getOrderResponse response.orderId =
      (concludedOrder call response).response := by
  have hid : mappedId response = response.orderId := if_neg h
  have howner := (@filed_answered mgr call response).owner (hid ▸ hne)
  rw [hid] at howner
  rw [getOrderResponse_eq, foundOrder_of_intent howner named filed_answered.order]
  unfold concludedOrder
  rw [if_neg h]
  simp [OrderState.response, OrderState.recordAck, orElse_some hne]

theorem getOrderResponse_unnamed (h : response.status ≠ .failed) (hne : response.orderId ≠ "")
    (unnamed : call.intentId = "") :
    (mgr.answered call response).getOrderResponse response.orderId = response ↔
      ∃ o ∈ mgr.orders.get? response.orderId,
        { o.response with orderId := orElse o.brokerOrderId response.orderId } = response := by
  have hid : mappedId response = response.orderId := if_neg h
  have howner := (@filed_answered mgr call response).owner (hid ▸ hne)
  rw [hid, unnamed] at howner
  have horder : (mgr.answered call response).orders.get? response.orderId =
      mgr.orders.get? response.orderId := by
    rw [filed_answered.orders, unnamed, if_neg hne]
  rw [getOrderResponse_eq, foundOrder_of_unnamed howner, horder]
  cases mgr.orders.get? response.orderId with
  | none =>
      simp only [Option.mem_def, reduceCtorEq, false_and, exists_false, iff_false]
      intro heq
      rw [← heq] at h
      exact h rfl
  | some o => simp

theorem answerFor_answered_iff :
    (mgr.answered call response).answerFor call.intentId = some response ↔
      GivenBack mgr call response := by
  rw [filed_answered.answerFor_self, Option.some_inj]
  unfold GivenBack mappedId
  by_cases hfailed : response.status = .failed
  · rw [if_pos hfailed, if_pos hfailed, if_pos rfl]
    exact response_failed hfailed
  · rw [if_neg hfailed, if_neg hfailed]
    by_cases hblank : response.orderId = ""
    · rw [if_pos hblank, if_neg fun h => h.2 hblank]
      exact response_acknowledged hfailed
    · rw [if_neg hblank]
      by_cases hnamed : call.intentId = ""
      · rw [if_pos ⟨hnamed, hblank⟩]
        exact getOrderResponse_unnamed hfailed hblank hnamed
      · rw [if_neg fun h => hnamed h.1, getOrderResponse_named hfailed hblank hnamed]
        exact response_acknowledged hfailed

/-- What the order id of a returned answer finds is the order, or one that answers like it. -/
theorem getOrderResponse_mapped (given : (mgr.answered call response).answerFor call.intentId =
    some response) (hne : mappedId response ≠ "") :
    (mgr.answered call response).getOrderResponse (mappedId response) = response := by
  rw [filed_answered.answerFor_self, if_neg hne] at given
  exact Option.some.inj given

theorem found_of_mapped (given : (mgr.answered call response).answerFor call.intentId =
    some response) (hne : mappedId response ≠ "") :
    ((mgr.answered call response).foundOrder (mappedId response)).isSome := by
  have hresponse := getOrderResponse_mapped given hne
  rw [getOrderResponse_eq] at hresponse
  cases hfound : (mgr.answered call response).foundOrder (mappedId response) with
  | some o => rfl
  | none =>
      rw [hfound] at hresponse
      rw [← hresponse] at hne
      exact absurd rfl hne

end OrderManager

/-! ## Runs of calls -/

/-- A manager with what its calls answered, and the intents whose requests went to the gateway. -/
structure IntentHistory where
  manager : OrderManager
  answers : List (String × OrderResponse) := []
  placed : List String := []

namespace IntentHistory

open OrderManager

def opened (mgr : OrderManager) : IntentHistory := { manager := mgr }

def returned (intentId : String) : Except PyExc OrderResponse → List (String × OrderResponse)
  | .ok response => [(intentId, response)]
  | .error _ => []

def step (h : IntentHistory) (call : IntentCall) : IntentHistory where
  manager := (h.manager.executeIntent call).1
  answers := h.answers ++ returned call.intentId (h.manager.executeIntent call).2
  placed := h.placed ++
    if (h.manager.orders.get? call.intentId).isSome then [] else [call.intentId]

/-- A call for an intent that was answered, whatever it asks for and whatever the broker would
answer, returns that answer again and does nothing else. -/
def RepeatsAnswers (h : IntentHistory) : Prop :=
  ∀ e ∈ h.answers, ∀ call : IntentCall, call.intentId = e.1 →
    h.step call = { h with answers := h.answers ++ [e] }

/-- The broker's answer to a new intent is given back by what is stored of it, and an order id it
shares with an earlier answer comes with the same answer. -/
def AnswerKeeps (h : IntentHistory) (call : IntentCall) (response : OrderResponse) : Prop :=
  GivenBack h.manager call response ∧
    (response.status ≠ .failed → response.orderId ≠ "" → ∀ e ∈ h.answers,
      h.manager.intentMap.get? e.1 = some response.orderId → e.2 = response)

def Keeps (h : IntentHistory) (call : IntentCall) : Prop :=
  h.manager.orders.get? call.intentId = none →
    ∀ response ∈ (call.gateway.placeOrder call.request).toOption, h.AnswerKeeps call response

instance (h : IntentHistory) (call : IntentCall) : Decidable (h.Keeps call) :=
  inferInstanceAs (Decidable (_ → ∀ response ∈ _, GivenBack _ _ response ∧ _))

/-! ### One call -/

variable {h : IntentHistory} {call : IntentCall} {response : OrderResponse}

theorem answerFor_eq_some_iff {mgr : OrderManager} {id : String} :
    mgr.answerFor id = some response ↔
      ∃ o, mgr.orders.get? id = some o ∧ mgr.existingResponse id o = response := by
  unfold answerFor
  rw [Option.map_eq_some_iff]

theorem step_known {o : OrderState} (known : h.manager.orders.get? call.intentId = some o) :
    h.step call = { h with
      answers := h.answers ++ [(call.intentId, h.manager.existingResponse call.intentId o)] } := by
  unfold step
  rw [executeIntent_of_known known, known]
  simp [returned]

theorem step_raised {e : PyExc} (new : h.manager.orders.get? call.intentId = none)
    (raised : call.gateway.placeOrder call.request = .error e) :
    h.step call = { h with
      manager := h.manager.preSubmit (newOrder call), placed := h.placed ++ [call.intentId] } := by
  unfold step
  rw [executeIntent_of_new new, raised, new]
  simp [returned]

theorem step_placed (new : h.manager.orders.get? call.intentId = none)
    (placed : call.gateway.placeOrder call.request = .ok response) :
    h.step call =
      { manager := h.manager.answered call response
        answers := h.answers ++ [(call.intentId, response)]
        placed := h.placed ++ [call.intentId] } := by
  unfold step
  rw [executeIntent_of_new new, placed, new]
  rfl

theorem repeatsAnswers_iff :
    h.RepeatsAnswers ↔ ∀ e ∈ h.answers, h.manager.answerFor e.1 = some e.2 := by
  constructor
  · intro hrepeats e he
    let again : IntentCall :=
      { intentId := e.1, request := defaultRequest
        gateway := { adapter := .error ⟨.other, ""⟩ }, now := 0, later := 0 }
    have hstep := hrepeats e he again rfl
    cases hheld : h.manager.orders.get? e.1 with
    | none =>
        have hplaced := congrArg IntentHistory.placed hstep
        simp [step, again, hheld] at hplaced
    | some o =>
        have hknown : h.manager.orders.get? again.intentId = some o := hheld
        rw [step_known hknown] at hstep
        have hanswer := List.append_cancel_left (congrArg IntentHistory.answers hstep)
        rw [answerFor_eq_some_iff]
        exact ⟨o, hheld, congrArg Prod.snd (List.cons.inj hanswer).1⟩
  · intro hanswers e he again hid
    obtain ⟨o, hheld, hresponse⟩ := answerFor_eq_some_iff.mp (hanswers e he)
    have hknown : h.manager.orders.get? again.intentId = some o := hid ▸ hheld
    rw [step_known hknown, hid, hresponse]

/-- No answered intent is new. -/
theorem ne_of_new (hanswers : ∀ e ∈ h.answers, h.manager.answerFor e.1 = some e.2)
    (new : h.manager.orders.get? call.intentId = none) :
    ∀ e ∈ h.answers, e.1 ≠ call.intentId := by
  intro e he hid
  obtain ⟨o, hheld, -⟩ := answerFor_eq_some_iff.mp (hanswers e he)
  rw [hid, new] at hheld
  cases hheld

/-- The maps find their orders, and every answer is repeated. -/
structure Tracked (h : IntentHistory) : Prop where
  mapped : h.manager.WellMapped
  repeats : h.RepeatsAnswers

theorem Tracked.step_known {o : OrderState} (tracked : h.Tracked)
    (known : h.manager.orders.get? call.intentId = some o) : (h.step call).Tracked := by
  rw [IntentHistory.step_known known]
  refine ⟨tracked.mapped, repeatsAnswers_iff.mpr fun e he => ?_⟩
  rcases List.mem_append.mp he with hold | hnew
  · exact repeatsAnswers_iff.mp tracked.repeats e hold
  · rw [List.mem_singleton.mp hnew]
    exact answerFor_eq_some_iff.mpr ⟨o, known, rfl⟩

theorem Tracked.step_raised {e : PyExc} (tracked : h.Tracked)
    (new : h.manager.orders.get? call.intentId = none)
    (raised : call.gateway.placeOrder call.request = .error e) : (h.step call).Tracked := by
  have hfiled := filed_preSubmit h.manager call
  have hanswers := repeatsAnswers_iff.mp tracked.repeats
  rw [IntentHistory.step_raised new raised]
  refine ⟨tracked.mapped.filed hfiled new fun hne => absurd rfl hne,
    repeatsAnswers_iff.mpr fun e he => ?_⟩
  rw [hfiled.answerFor_other tracked.mapped new (ne_of_new hanswers new e he),
    if_neg fun h => h.1 rfl]
  exact hanswers e he

/-- An earlier answer whose order id a new order takes becomes the new answer. -/
theorem answerFor_earlier_iff (tracked : h.Tracked)
    (new : h.manager.orders.get? call.intentId = none)
    (given : (h.manager.answered call response).answerFor call.intentId = some response)
    {e : String × OrderResponse} (he : e ∈ h.answers) :
    (h.manager.answered call response).answerFor e.1 = some e.2 ↔
      (mappedId response ≠ "" → h.manager.intentMap.get? e.1 = some (mappedId response) →
        e.2 = response) := by
  have hanswers := repeatsAnswers_iff.mp tracked.repeats
  obtain ⟨o, hheld, -⟩ := answerFor_eq_some_iff.mp (hanswers e he)
  rw [filed_answered.answerFor_other tracked.mapped new (ne_of_new hanswers new e he)]
  split
  · rename_i hcond
    rw [hheld, Option.map_some, getOrderResponse_mapped given hcond.1, Option.some_inj]
    exact ⟨fun heq _ _ => heq.symm, fun himp => (himp hcond.1 hcond.2).symm⟩
  · rename_i hcond
    exact iff_of_true (hanswers e he) fun hne hmap => absurd ⟨hne, hmap⟩ hcond

/-- After a new order is answered the earlier answers stand where the new one does not take their
order id from them. -/
theorem answers_placed_iff (tracked : h.Tracked)
    (new : h.manager.orders.get? call.intentId = none)
    (placed : call.gateway.placeOrder call.request = .ok response) :
    (h.step call).RepeatsAnswers ↔ h.AnswerKeeps call response := by
  rw [step_placed new placed, repeatsAnswers_iff]
  unfold AnswerKeeps
  rw [← answerFor_answered_iff]
  constructor
  · intro hafter
    have given := hafter (call.intentId, response) (by simp)
    refine ⟨given, fun hfailed hne e he hmap => ?_⟩
    have hid : mappedId response = response.orderId := if_neg hfailed
    exact (answerFor_earlier_iff tracked new given he).mp (hafter e (by simp [he])) (hid ▸ hne)
      (hid ▸ hmap)
  · rintro ⟨given, hother⟩ e he
    rcases List.mem_append.mp he with hold | hnew
    · refine (answerFor_earlier_iff tracked new given hold).mpr fun hne hmap => ?_
      have hfailed : response.status ≠ .failed := fun hfailed => hne (if_pos hfailed)
      have hid : mappedId response = response.orderId := if_neg hfailed
      exact hother hfailed (hid ▸ hne) e hold (hid ▸ hmap)
    · rw [List.mem_singleton.mp hnew]
      exact given

theorem Tracked.step (tracked : h.Tracked) (keeps : h.Keeps call) : (h.step call).Tracked := by
  cases hheld : h.manager.orders.get? call.intentId with
  | some o => exact tracked.step_known hheld
  | none =>
      cases hplaced : call.gateway.placeOrder call.request with
      | error e => exact tracked.step_raised hheld hplaced
      | ok response =>
          have hkeeps := keeps hheld response (by rw [hplaced]; exact Option.mem_some_self _)
          refine ⟨?_, (answers_placed_iff tracked hheld hplaced).mpr hkeeps⟩
          rw [step_placed hheld hplaced]
          exact tracked.mapped.filed filed_answered hheld
            (found_of_mapped (answerFor_answered_iff.mpr hkeeps.1))

theorem Tracked.keeps (tracked : h.Tracked) (after : (h.step call).RepeatsAnswers) :
    h.Keeps call := by
  intro new response hresponse
  cases hplaced : call.gateway.placeOrder call.request with
  | error e =>
      rw [hplaced] at hresponse
      cases hresponse
  | ok answer =>
      rw [hplaced] at hresponse
      cases hresponse
      exact (answers_placed_iff tracked new hplaced).mp after

/-! ### Whole runs -/

/-- Every repeat of an answered intent returns the first answer, and the broker hears nothing of it,
exactly when what is stored of every new answer gives it back. -/
theorem repeated_intents_answer_alike {uuid : String} (generated : uuid ≠ "") {t : OrdersTable}
    {mgr : OrderManager} (loaded : openOn uuid t = .ok mgr) (calls : List IntentCall) :
    Always step RepeatsAnswers (opened mgr) calls ↔ StepsMeet step Keeps (opened mgr) calls := by
  have hinitial : (opened mgr).Tracked :=
    ⟨(indexed_of_openOn generated loaded).wellMapped, fun e he => by cases he⟩
  exact always_iff_stepsMeet_of_stronger (fun h tracked => tracked.repeats)
    (fun h call _ tracked keeps => tracked.step keeps)
    (fun h call _ tracked after => tracked.keeps after) hinitial

/-- A call the broker answers like this. -/
def marketCall (intentId orderId : String) (status : OrderStatus) : IntentCall :=
  { intentId, request := sampleRequest "MARKET"
    gateway := { adapter := .ok { orderId, status } }, now := 0, later := second }

theorem acknowledged_intents_answer_alike :
    Always step RepeatsAnswers (opened { table := .empty })
      [marketCall "I-1" "B-1" .acknowledged, marketCall "I-2" "B-2" .acknowledged,
        marketCall "I-1" "B-3" .rejected] := by
  have hloaded : openOn "U" .empty = .ok { table := .empty } := rfl
  refine (repeated_intents_answer_alike (by decide) hloaded _).mpr ?_
  decide +kernel

/-- A rejected order is acknowledged when its intent is repeated. -/
theorem rejected_intent_acknowledged :
    ¬ Always step RepeatsAnswers (opened { table := .empty }) [marketCall "I-1" "B-1" .rejected] ∧
      (run step (opened { table := .empty })
        [marketCall "I-1" "B-1" .rejected, marketCall "I-1" "B-1" .rejected]).answers =
          [("I-1", { orderId := "B-1", status := .rejected }),
            ("I-1", { orderId := "B-1", status := .acknowledged })] := by
  refine ⟨fun halways => ?_, by decide +kernel⟩
  have hrepeat := halways.final _ (List.mem_singleton.mpr rfl)
    (marketCall "I-1" "B-1" .rejected) rfl
  exact absurd (congrArg IntentHistory.answers hrepeat) (by decide +kernel)

end IntentHistory

end AutoTrade.Orders
