import AutoTrade.Execution.Service

/-! # The status of an order known by its id

When a broker hands back an order id, `_attempt_order_execution` asks it for the
filled quantity and calls the order `FILLED` as soon as that is positive. The
order size is not looked at, and `PARTIALLY_FILLED`, for which the caller has a
branch, is never the answer on this path.
-/

namespace AutoTrade.Execution

/-- The attempt goes to a broker that hands back this order id. -/
def HandsBackId (setup : Setup) (context : ExecutionContext) (answers : BrokerAnswers) (id : String) :
    Prop :=
  context.executionMode ≠ .paper ∧ setup.port.isPaper = false ∧
    if setup.smartRouter then ∃ route, answers.routeToBest = .ok route ∧ route.success = true ∧
      route.orderId = .orderId id
    else setup.port.hasPlaceOrder = true ∧ answers.placeOrder = .ok (.orderId id)

/-- What `get_filled_quantity` answers is a fill of part of the order. -/
def PartlyFilled (request : OrderRequest) (answers : BrokerAnswers) : Prop :=
  ∃ q, answers.getFilledQuantity = some (.ok q) ∧ 0 < q ∧ q < request.lotSize

/-- A result that comes back for an order id is `FILLED` only where the whole order is, and
`PARTIALLY_FILLED` where a part of it is. -/
def StatusMeansFill (setup : Setup) (now : Time) (request : OrderRequest) (context : ExecutionContext)
    (answers : BrokerAnswers) : Prop :=
  ∀ id, HandsBackId setup context answers id →
    ∀ result, (attemptOrderExecution setup now request context answers).outcome = .ok result →
      (result.status = .filled → request.lotSize ≤ result.filledQuantity) ∧
        (PartlyFilled request answers → result.status = .partiallyFilled)

/-- The classes `_attempt_order_execution` handles. -/
def attemptErrors : List ExcClass := [.valueError, .osError, .attributeError]

/-- A query that follows the one for the filled quantity raises what is not handled: the one for the
fill price, or, after that one answered, the one for the charges. -/
def LaterQueryRaises (answers : BrokerAnswers) : Prop :=
  (∃ e, answers.getFillPrice = some (.error e) ∧ e.caughtBy attemptErrors = false) ∨
    (∀ e, answers.getFillPrice ≠ some (.error e)) ∧
      ∃ e, answers.getOrderDetails = some (.error e) ∧ e.caughtBy attemptErrors = false ∧
        e.caughtBy [.keyError, .valueError, .typeError, .attributeError] = false

theorem bind_eq_ok {ε α β : Type} {x : Except ε α} {f : α → Except ε β} {b : β}
    (h : x >>= f = .ok b) : ∃ a, x = .ok a ∧ f a = .ok b := by
  cases x with
  | error e => cases h
  | ok a => exact ⟨a, rfl, h⟩

/-- What an `except` clause lets through. -/
theorem handled_eq_error_iff {α : Type} {classes : List ExcClass} {e e' : PyExc} {x : α} :
    (if e'.caughtBy classes then Except.ok x else .error e') = .error e ↔
      e' = e ∧ e.caughtBy classes = false := by
  split
  · rename_i hcaught
    simp only [reduceCtorEq, false_iff, not_and, Bool.not_eq_false]
    rintro rfl
    exact hcaught
  · rename_i huncaught
    rw [Bool.not_eq_true] at huncaught
    rw [Except.error.injEq]
    exact ⟨fun h => ⟨h, h ▸ huncaught⟩, And.left⟩

theorem outcome_of_handsBackId {setup : Setup} {context : ExecutionContext} {answers : BrokerAnswers}
    {id : String} (h : HandsBackId setup context answers id) (now : Time) (request : OrderRequest) :
    (attemptOrderExecution setup now request context answers).outcome =
      catchAttempt now ((resultOfOrderId now request answers id).map
        (validateBrokerResult setup.platform now)) := by
  obtain ⟨hmode, hport, hpath⟩ := h
  unfold attemptOrderExecution
  rw [if_neg (by simp [hmode, hport])]
  split
  · rename_i hrouter
    rw [if_pos hrouter] at hpath
    obtain ⟨route, hroute, hsuccess, hid⟩ := hpath
    rw [hroute]
    simp only [hsuccess, if_true, attemptOfReturn, hid]
    rfl
  · rename_i hrouter
    rw [if_neg hrouter] at hpath
    rw [if_pos hpath.1, hpath.2]
    rfl

theorem validateBrokerResult_status (platform : Platform) (now : Time) (result : OrderResult) :
    (validateBrokerResult platform now result).status = .rejected ∨
      validateBrokerResult platform now result = result := by
  unfold validateBrokerResult
  split
  · exact .inr rfl
  · exact .inl rfl

theorem catchAttempt_ok {now : Time} {outcome : Except PyExc OrderResult} {result : OrderResult}
    (h : catchAttempt now outcome = .ok result) :
    outcome = .ok result ∨ result.status = .rejected := by
  cases outcome with
  | ok r => exact .inl h
  | error e =>
      cases hcaught : e.caughtBy [.valueError, .osError, .attributeError] with
      | true =>
          simp only [catchAttempt, hcaught, if_true, Except.ok.injEq] at h
          rw [← h]
          exact .inr rfl
      | false => simp [catchAttempt, hcaught] at h

/-! ## The result read off an order id -/

section ByOrderId

variable {now : Time} {request : OrderRequest} {answers : BrokerAnswers} {id : String}

theorem getCommission_error_iff (request : OrderRequest) (answers : BrokerAnswers) (e : PyExc) :
    getCommissionFromBroker request answers = .error e ↔
      answers.getOrderDetails = some (.error e) ∧
        e.caughtBy [.keyError, .valueError, .typeError, .attributeError] = false := by
  unfold getCommissionFromBroker
  cases answers.getOrderDetails with
  | none => simp
  | some answer =>
      cases answer with
      | ok charges => simp
      | error e' =>
          rw [handled_eq_error_iff, Option.some.injEq, Except.error.injEq]

/-- A result on this path is `FILLED` with the quantity the broker reported, or nothing was filled. -/
theorem resultOfOrderId_ok {result : OrderResult}
    (h : resultOfOrderId now request answers id = .ok result) :
    (∃ q, answers.getFilledQuantity = some (.ok q) ∧ 0 < q ∧ result.status = .filled ∧
      result.filledQuantity = q) ∨ result.status ∈ [.submitted, .rejected] := by
  unfold resultOfOrderId at h
  obtain ⟨q, hquantity, h⟩ := bind_eq_ok h
  obtain ⟨price, -, h⟩ := bind_eq_ok h
  by_cases hq : 0 < q
  · rw [if_pos hq] at h
    obtain ⟨commission, -, h⟩ := bind_eq_ok h
    obtain rfl := Except.ok.inj h
    refine .inl ⟨q, ?_, hq, rfl, rfl⟩
    cases hquery : answers.getFilledQuantity with
    | none =>
        rw [hquery] at hquantity
        obtain rfl := Except.ok.inj hquantity
        exact absurd hq (by decide)
    | some answer => rw [← hquantity, hquery]; rfl
  · rw [if_neg hq] at h
    obtain rfl := Except.ok.inj h
    right
    dsimp only
    split <;> decide

/-- After a positive fill the price is asked for first, then the charges. -/
theorem resultOfOrderId_error_iff {q : Int} (hquantity : answers.getFilledQuantity = some (.ok q))
    (hq : 0 < q) (e : PyExc) :
    resultOfOrderId now request answers id = .error e ↔ answers.getFillPrice = some (.error e) ∨
      (∀ e', answers.getFillPrice ≠ some (.error e')) ∧
        getCommissionFromBroker request answers = .error e := by
  unfold resultOfOrderId
  simp only [hquantity, Option.getD_some, bind, Except.bind, pure, Except.pure, gt_iff_lt, hq, if_true]
  cases hprice : answers.getFillPrice with
  | none => cases getCommissionFromBroker request answers <;> simp
  | some answer =>
      cases answer with
      | ok price => cases getCommissionFromBroker request answers <;> simp
      | error e' => simp

/-- After a positive fill the attempt raises exactly when a later query does. -/
theorem raises_iff {q : Int} (hquantity : answers.getFilledQuantity = some (.ok q)) (hq : 0 < q) :
    (∃ e, resultOfOrderId now request answers id = .error e ∧ e.caughtBy attemptErrors = false) ↔
      LaterQueryRaises answers := by
  simp only [resultOfOrderId_error_iff hquantity hq, getCommission_error_iff]
  constructor
  · rintro ⟨e, hprice | ⟨hquiet, hdetails, hcaught⟩, huncaught⟩
    · exact .inl ⟨e, hprice, huncaught⟩
    · exact .inr ⟨hquiet, e, hdetails, huncaught, hcaught⟩
  · rintro (⟨e, hprice, huncaught⟩ | ⟨hquiet, e, hdetails, huncaught, hcaught⟩)
    · exact ⟨e, .inl hprice, huncaught⟩
    · exact ⟨e, .inr ⟨hquiet, hdetails, hcaught⟩, huncaught⟩

end ByOrderId

/-! ## The attempt -/

variable {setup : Setup} {now : Time} {request : OrderRequest} {context : ExecutionContext}
  {answers : BrokerAnswers} {id : String}

/-- A result of this path says that the broker's positive fill is the whole of what happened, or it
says that nothing was filled. -/
theorem result_cases (h : HandsBackId setup context answers id) {result : OrderResult}
    (hresult : (attemptOrderExecution setup now request context answers).outcome = .ok result) :
    (∃ q, answers.getFilledQuantity = some (.ok q) ∧ 0 < q ∧ result.status = .filled ∧
      result.filledQuantity = q) ∨ result.status ∈ [.submitted, .rejected] := by
  have hrefused : result.status = .rejected → result.status ∈ [.submitted, .rejected] := by
    intro hstatus
    simp [hstatus]
  rw [outcome_of_handsBackId h] at hresult
  rcases catchAttempt_ok hresult with hmap | hrejected
  · cases hread : resultOfOrderId now request answers id with
    | error e => simp [hread, Except.map] at hmap
    | ok read =>
        rw [hread] at hmap
        obtain rfl := Except.ok.inj hmap
        rcases validateBrokerResult_status setup.platform now read with hrejected | hsame
        · exact .inr (hrefused hrejected)
        · rw [hsame]
          exact resultOfOrderId_ok hread
  · exact .inr (hrefused hrejected)

theorem catchAttempt_error_iff (now : Time) (outcome : Except PyExc OrderResult) (e : PyExc) :
    catchAttempt now outcome = .error e ↔ outcome = .error e ∧ e.caughtBy attemptErrors = false := by
  cases outcome with
  | ok result => simp [catchAttempt]
  | error e' =>
      rw [catchAttempt, handled_eq_error_iff, Except.error.injEq]
      rfl

/-- After a positive fill the attempt gives a result unless a later query raises. -/
theorem exists_result_iff (h : HandsBackId setup context answers id) {q : Int}
    (hquantity : answers.getFilledQuantity = some (.ok q)) (hq : 0 < q) :
    (∃ result, (attemptOrderExecution setup now request context answers).outcome = .ok result) ↔
      ¬ LaterQueryRaises answers := by
  rw [← raises_iff hquantity hq, outcome_of_handsBackId h]
  cases hread : resultOfOrderId now request answers id with
  | ok read => simp [Except.map, catchAttempt]
  | error e =>
      have hraised := catchAttempt_error_iff now (.error e)
      cases hcaught : catchAttempt now (.error e) with
      | ok result =>
          have huncaught : e.caughtBy attemptErrors ≠ false := by
            intro hfalse
            have herror := (hraised e).mpr ⟨rfl, hfalse⟩
            rw [hcaught] at herror
            cases herror
          simp [Except.map, hcaught, huncaught]
      | error e' =>
          obtain ⟨hsame, huncaught⟩ := (hraised e').mp hcaught
          obtain rfl := Except.error.inj hsame
          simp [Except.map, hcaught, huncaught]

/-- On the order-id path the status means what was filled exactly when the broker does not report a
part of the order as filled, or raises right after. -/
theorem status_means_fill_iff (setup : Setup) (now : Time) (request : OrderRequest)
    (context : ExecutionContext) (answers : BrokerAnswers) :
    StatusMeansFill setup now request context answers ↔
      ∀ id, HandsBackId setup context answers id → PartlyFilled request answers →
        LaterQueryRaises answers := by
  refine forall_congr' fun id => forall_congr' fun h => ?_
  constructor
  · rintro hmeans ⟨q, hquantity, hq, hpart⟩
    by_contra hquiet
    obtain ⟨result, hresult⟩ := (exists_result_iff h hquantity hq).mpr hquiet
    have hstatus := (hmeans result hresult).2 ⟨q, hquantity, hq, hpart⟩
    rcases result_cases h hresult with ⟨q', -, -, hfilled, -⟩ | hnothing
    · rw [hstatus] at hfilled
      cases hfilled
    · rw [hstatus] at hnothing
      exact absurd hnothing (by decide)
  · intro hraises result hresult
    have hwhole : ¬ PartlyFilled request answers := by
      rintro ⟨q, hquantity, hq, hpart⟩
      exact (exists_result_iff h hquantity hq).mp ⟨result, hresult⟩
        (hraises ⟨q, hquantity, hq, hpart⟩)
    refine ⟨fun hfilled => ?_, fun hpart => absurd hpart hwhole⟩
    rcases result_cases h hresult with ⟨q, hquantity, hq, -, hreported⟩ | hnothing
    · rw [hreported]
      by_contra hless
      exact hwhole ⟨q, hquantity, hq, not_le.mp hless⟩
    · rw [hfilled] at hnothing
      exact absurd hnothing (by decide)

/-- Ten of fifty are filled when the broker is asked. -/
theorem part_of_order_called_filled :
    ¬ StatusMeansFill { platform := ExecutionService.samplePlatform } 0
      { symbol := "NIFTY", direction := "BUY", strikePrice := 24500, lotSize := 50
        orderType := .market }
      { signalTimestamp := 0 }
      { paperTrader := .error ⟨.other, ""⟩, placeOrder := .ok (.orderId "B1")
        routeToBest := .error ⟨.other, ""⟩, getFilledQuantity := some (.ok 10) } := by
  intro hmeans
  have hpath : HandsBackId { platform := ExecutionService.samplePlatform } { signalTimestamp := 0 }
      { paperTrader := .error ⟨.other, ""⟩, placeOrder := .ok (.orderId "B1")
        routeToBest := .error ⟨.other, ""⟩, getFilledQuantity := some (.ok 10) } "B1" := by
    simp [HandsBackId]
  have hresult := hmeans "B1" hpath _ rfl
  exact absurd (hresult.1 (by decide +kernel)) (by decide +kernel)

end AutoTrade.Execution
