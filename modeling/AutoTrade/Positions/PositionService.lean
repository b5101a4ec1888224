import AutoTrade.Execution.Service
import AutoTrade.Library.Run

/-! # The position service

`core/position_service.py`: a trade is entered through a market order, watched
by `monitor_positions` and closed by `exit_position`. The service is generic in
the state of the execution service behind it, which answers each order with a
result or raises; a position service without one is wired to `none`.

The gates and the sizing of `enter_trade` ask other services. What they settle
on is an argument of the call: the trade is refused, an exception leaves the
method, or a quantity goes on to the order. The price resolver's handled errors
are the answer `None`. Three components of the state are history and influence
nothing: the orders sent, what was handed to the books, and the names given up.
-/

namespace AutoTrade.Positions

open AutoTrade.Library AutoTrade.Execution

/-! ## Configuration and records -/

/-- The configuration keys read below, and which of the optional services are there. -/
structure Settings where
  slPct : ℚ := 92 / 100
  targetPct : ℚ := 13 / 10
  trailPct : ℚ := 93 / 100
  trailActivate : ℚ := 11 / 10
  takeProfitAndStop : Bool := true
  maxPositionAge : Int := 9999
  exitOrderRetries : Int := 3
  capitalManagerEquityScalingEnabled : Bool := false
  intradayPerformanceMonitorEnabled : Bool := false
  portfolioService : Bool := true
  riskService : Bool := true
  /-- `resolve_trades_db_path` finds a path. -/
  tradesDb : Bool := true
  brokerApiEnabled : Bool := false
deriving DecidableEq, Repr

/-- An entry of `_positions`. The number of the order that opened it is history. -/
structure Position where
  direction : String
  qty : Int
  entryPrice : ℚ
  underlyingEntryPrice : ℚ
  entryTime : ℚ
  orderId : String
  strike : Int
  idempotencyKey : String
  entryOrderDirection : String
  score : Int
  peakUnderlying : Option ℚ := none
  trailActivated : Bool := false
  exitFailed : Bool := false
  exitRetries : Int := 0
  openedBy : Nat
deriving DecidableEq, Repr

/-- What `enter_trade` reads of a signal once the gates have passed it. -/
structure Signal where
  direction : String := "CALL"
  price : ℚ := 0
  /-- The text of the signal's time, its dots replaced. -/
  tsText : String
  strike : Option ℚ := none
  score : Int := 0
deriving DecidableEq, Repr

/-- What the gates, the sizing and the checks under the state lock settle on. -/
inductive Admission
  | refused
  | raised (e : PyExc)
  | admitted (qty : Int) (context : ExecutionContext)
deriving DecidableEq, Repr

structure EntryCall where
  name : String
  signal : Signal
  admission : Admission
  ltp : Option ℚ := none
  /-- `time.time()` when the position is stored. -/
  now : ℚ
deriving DecidableEq, Repr

/-- The row `record_closed_trade` appends. -/
structure ClosedTrade where
  indexName : String
  direction : String
  entry : ℚ
  exitPrice : ℚ
  qty : Int
  grossPnl : ℚ
  netPnl : ℚ
  reason : String
  mode : String
  score : Int
deriving DecidableEq, Repr

/-- The calls by which a closed trade reaches the books. -/
inductive Handover
  | updateDailyPnl (pnl : ℚ)
  | incrementTradeCount
  | recordTradeOutcome (wasProfit : Bool)
  | recordTradeResult (netPnl : ℚ) (isWinner : Bool)
  | recordTradeClose (pnl : ℚ) (wasWinner : Bool)
  | recordClosedTrade (row : ClosedTrade)
deriving DecidableEq, Repr

/-- An order as it was sent for a position: the execution service before and after it. -/
structure SentOrder (σ : Type) where
  position : Nat
  isExit : Bool
  request : OrderRequest
  before : σ
  after : σ
  outcome : Except PyExc OrderResult

def SentOrder.isFilled {σ : Type} (o : SentOrder σ) : Bool :=
  match o.outcome with
  | .ok result => ExecutionService.isFill result
  | .error _ => false

structure PositionService (σ : Type) where
  positions : Dict String Position := Table.empty
  execution : σ
  orders : List (SentOrder σ) := []
  handedOver : List Handover := []
  givenUp : List String := []

/-- `execute_order` of an execution service. -/
abbrev Execute (σ : Type) :=
  OrderRequest → Option ExecutionContext → σ → σ × Except PyExc OrderResult

/-- The execution service the position service is wired to, if any. -/
abbrev Venue (σ : Type) := Option (Execute σ)

/-- The classes every `except` clause of the service names; `IndexError` counts as `KeyError`. -/
def handledErrors : List ExcClass := [.valueError, .typeError, .keyError, .attributeError, .osError]

/-- `price or default` on an optional number. -/
def priceOr (price : Option ℚ) (default : ℚ) : ℚ :=
  match price with
  | none => default
  | some p => if p = 0 then default else p

/-- `int(x)`, which cuts the fraction off. -/
def truncate (x : ℚ) : Int := x.num.tdiv x.den

/-- `str.upper` on ASCII text. -/
def asciiUpper (s : String) : String := String.ofList (s.toList.map Char.toUpper)

namespace PositionService

variable {σ : Type}

def send (execute : Execute σ) (position : Nat) (isExit : Bool) (request : OrderRequest)
    (context : Option ExecutionContext) (s : PositionService σ) :
    PositionService σ × Except PyExc OrderResult :=
  let out := execute request context s.execution
  ({ s with
      execution := out.1
      orders := s.orders ++ [⟨position, isExit, request, s.execution, out.1, out.2⟩] },
    out.2)

/-! ## Entry -/

def orderDirection (direction : String) : String :=
  if asciiUpper direction = "CALL" then "BUY"
  else if asciiUpper direction = "PUT" then "SELL"
  else asciiUpper direction

def entryKey (name : String) (sig : Signal) (qty : Int) : String :=
  name ++ "_" ++ sig.direction ++ "_" ++ toString qty ++ "_" ++ sig.tsText

def entryRequest (name : String) (sig : Signal) (qty : Int) : OrderRequest :=
  { symbol := name
    direction := orderDirection sig.direction
    strikePrice := sig.strike.getD sig.price
    lotSize := qty
    orderType := .market
    price := some sig.price
    idempotencyKey := some (entryKey name sig qty) }

/-- The position `_store_position` writes: it has the quantity that was asked for. -/
def enteredPosition (entry : EntryCall) (qty : Int) (openedBy : Nat) (result : OrderResult) :
    Position :=
  { direction := entry.signal.direction
    qty
    entryPrice := entry.signal.price
    underlyingEntryPrice := priceOr entry.ltp entry.signal.price
    entryTime := entry.now
    orderId := result.orderId
    strike := truncate (entry.signal.strike.getD entry.signal.price)
    idempotencyKey := entryKey entry.name entry.signal qty
    entryOrderDirection := orderDirection entry.signal.direction
    score := entry.signal.score
    openedBy }

/-- `_store_position`: whatever was there under the name is replaced. -/
def storePosition (name : String) (pos : Position) (s : PositionService σ) : PositionService σ :=
  { s with positions := s.positions.set name pos }

/-- `_submit_order_under_lock` once its checks have passed. -/
def submitOrderUnderLock (execute : Execute σ) (entry : EntryCall) (qty : Int)
    (context : ExecutionContext) (s : PositionService σ) :
    PositionService σ × Except PyExc OrderResult :=
  send execute s.orders.length false (entryRequest entry.name entry.signal qty) (some context) s

def enterTrade (venue : Venue σ) (entry : EntryCall) (s : PositionService σ) :
    PositionService σ × Except PyExc Unit :=
  match entry.admission, venue with
  | .refused, _ => (s, .ok ())
  | .raised e, _ => (s, .error e)
  | .admitted _ _, none => (s, .error ⟨.runtimeError, "No execution service available"⟩)
  | .admitted qty context, some execute =>
      let sent := submitOrderUnderLock execute entry qty context s
      match sent.2 with
      | .error e => (sent.1, if e.caughtBy handledErrors then .ok () else .error e)
      | .ok result =>
          if ExecutionService.isFill result then
            let pos := enteredPosition entry qty s.orders.length result
            (storePosition entry.name pos sent.1, .ok ())
          else (sent.1, .ok ())

/-- An entry sends nothing; or its order does not fill; or the filled order is stored. -/
theorem enterTrade_cases (venue : Venue σ) (entry : EntryCall) (s : PositionService σ) :
    ((∀ qty context execute, entry.admission = .admitted qty context → venue ≠ some execute) ∧
        (enterTrade venue entry s).1 = s) ∨
      ∃ qty context execute, entry.admission = .admitted qty context ∧ venue = some execute ∧
        (((∀ result, (submitOrderUnderLock execute entry qty context s).2 = .ok result →
              ¬ ExecutionService.isFill result) ∧
            (enterTrade venue entry s).1 = (submitOrderUnderLock execute entry qty context s).1) ∨
          ∃ result, (submitOrderUnderLock execute entry qty context s).2 = .ok result ∧
            ExecutionService.isFill result ∧
            (enterTrade venue entry s).1 = storePosition entry.name
              (enteredPosition entry qty s.orders.length result)
              (submitOrderUnderLock execute entry qty context s).1) := by
  unfold enterTrade
  cases hadmission : entry.admission with
  | refused => exact .inl ⟨by simp, rfl⟩
  | raised e => exact .inl ⟨by simp, rfl⟩
  | admitted qty context =>
      cases venue with
      | none => exact .inl ⟨by simp, rfl⟩
      | some execute =>
          refine .inr ⟨qty, context, execute, rfl, rfl, ?_⟩
          cases hout : (submitOrderUnderLock execute entry qty context s).2 with
          | error e => exact .inl ⟨by simp, by simp [hout]⟩
          | ok result =>
              by_cases hfill : ExecutionService.isFill result = true
              · exact .inr ⟨result, rfl, hfill, by simp [hout, hfill]⟩
              · refine .inl ⟨?_, by simp [hout, hfill]⟩
                intro r hr
                cases hr
                exact hfill

/-- The entry order as the history keeps it. -/
def entryOrder (execute : Execute σ) (entry : EntryCall) (qty : Int) (context : ExecutionContext)
    (s : PositionService σ) : SentOrder σ :=
  let out := execute (entryRequest entry.name entry.signal qty) (some context) s.execution
  ⟨s.orders.length, false, entryRequest entry.name entry.signal qty, s.execution, out.1, out.2⟩

/-- An entry sends nothing or one order, whatever comes of it. -/
theorem enterTrade_sent (execute : Execute σ) (entry : EntryCall) (s : PositionService σ) :
    (enterTrade (some execute) entry s).1 = s ∨
      ∃ qty context,
        (enterTrade (some execute) entry s).1.orders =
          s.orders ++ [entryOrder execute entry qty context s] ∧
        (enterTrade (some execute) entry s).1.execution =
          (entryOrder execute entry qty context s).after := by
  obtain ⟨-, hnothing⟩ | ⟨qty, context, execute', -, hvenue, hsent⟩ :=
    enterTrade_cases (some execute) entry s
  · exact .inl hnothing
  · obtain rfl := Option.some.inj hvenue
    refine .inr ⟨qty, context, ?_⟩
    obtain ⟨-, hafter⟩ | ⟨result, -, -, hafter⟩ := hsent
    · rw [hafter]
      exact ⟨rfl, rfl⟩
    · rw [hafter]
      exact ⟨rfl, rfl⟩

/-! ## Exit -/

def exitDirection (pos : Position) : String :=
  if pos.entryOrderDirection ≠ "" then
    if pos.entryOrderDirection = "BUY" then "SELL" else "BUY"
  else if pos.direction = "CALL" then "SELL" else "BUY"

def exitKey (name reason : String) (pos : Position) : String :=
  "exit_" ++ name ++ "_" ++ toString pos.qty ++ "_" ++ toString (truncate pos.entryPrice) ++ "_" ++
    reason

def exitRequest (name reason : String) (ltp : Option ℚ) (pos : Position) : OrderRequest :=
  { symbol := name
    direction := exitDirection pos
    strikePrice := priceOr ltp pos.entryPrice
    lotSize := pos.qty
    orderType := .market
    price := some (priceOr ltp pos.entryPrice)
    idempotencyKey := some (exitKey name reason pos) }

/-- The exit order, if there is a service to send it to. -/
def sendExit (venue : Venue σ) (name reason : String) (ltp : Option ℚ) (pos : Position)
    (s : PositionService σ) : PositionService σ × Except PyExc (Option OrderResult) :=
  match venue with
  | none => (s, .ok none)
  | some execute =>
      let sent := send execute pos.openedBy true (exitRequest name reason ltp pos) none s
      (sent.1, sent.2.map some)

/-- The price the exit is booked at: the entry price stands for "not filled". -/
def exitPriceOf (pos : Position) : Except PyExc (Option OrderResult) → Except PyExc ℚ
  | .ok none => .ok pos.entryPrice
  | .ok (some result) =>
      if ExecutionService.isFill result then .ok (priceOr (some result.averagePrice) pos.entryPrice)
      else .ok pos.entryPrice
  | .error e => if e.caughtBy handledErrors then .ok pos.entryPrice else .error e

/-- `exit_failed`. -/
def judgedFailed (pos : Position) (reason : String) (exitPrice : ℚ) : Bool :=
  decide (exitPrice = pos.entryPrice ∧ reason ≠ "MANUAL")

def realisedPnl (pos : Position) (exitPrice : ℚ) : ℚ := (exitPrice - pos.entryPrice) * pos.qty

/-- What a closed trade hands over, in order. -/
def handovers (settings : Settings) (name reason : String) (pos : Position) (exitPrice : ℚ) :
    List Handover :=
  let pnl := realisedPnl pos exitPrice
  let won := decide (pnl > 0)
  (if settings.portfolioService then [.updateDailyPnl pnl, .incrementTradeCount] else []) ++
    [.recordTradeOutcome won] ++
    (if settings.capitalManagerEquityScalingEnabled ∧ settings.riskService then
      [.recordTradeResult pnl won] else []) ++
    (if settings.intradayPerformanceMonitorEnabled then [.recordTradeClose pnl won] else []) ++
    (if settings.tradesDb then
      [.recordClosedTrade
        { indexName := name, direction := pos.direction, entry := pos.entryPrice, exitPrice
          qty := pos.qty, grossPnl := pnl, netPnl := pnl, reason
          mode := if settings.brokerApiEnabled then "LIVE" else "PAPER", score := pos.score }]
      else [])

/-- The failed attempt has used up `EXIT_ORDER_RETRIES`. -/
def exhausted (settings : Settings) (pos : Position) : Bool :=
  decide (pos.exitRetries + 1 ≥ settings.exitOrderRetries)

/-- `_cleanup_position_entry` after a failed exit: the position stays until the retries are used
up. -/
def keepOrGiveUp (settings : Settings) (name : String) (pos : Position) (s : PositionService σ) :
    PositionService σ :=
  let kept := { pos with exitFailed := true, exitRetries := pos.exitRetries + 1 }
  if exhausted settings pos then
    { s with positions := s.positions.erase name, givenUp := s.givenUp ++ [name] }
  else { s with positions := s.positions.set name kept }

/-- The trade is handed over and `_cleanup_position_entry` removes the position. -/
def close (settings : Settings) (name reason : String) (pos : Position) (exitPrice : ℚ)
    (s : PositionService σ) : PositionService σ :=
  { s with
    positions := s.positions.erase name
    handedOver := s.handedOver ++ handovers settings name reason pos exitPrice }

/-- Nothing removes the entry between the read and the cleanup, so it is still there to clean up. -/
def exitPosition (settings : Settings) (venue : Venue σ) (name reason : String) (ltp : Option ℚ)
    (s : PositionService σ) : PositionService σ × Except PyExc Unit :=
  match s.positions.get? name with
  | none => (s, .ok ())
  | some pos =>
      let sent := sendExit venue name reason ltp pos s
      match exitPriceOf pos sent.2 with
      | .error e => (sent.1, .error e)
      | .ok exitPrice =>
          (if judgedFailed pos reason exitPrice then keepOrGiveUp settings name pos sent.1
            else close settings name reason pos exitPrice sent.1, .ok ())

/-- The exit order of a position as the history keeps it. -/
def exitOrder (execute : Execute σ) (name reason : String) (ltp : Option ℚ) (pos : Position)
    (s : PositionService σ) : SentOrder σ :=
  let out := execute (exitRequest name reason ltp pos) none s.execution
  ⟨pos.openedBy, true, exitRequest name reason ltp pos, s.execution, out.1, out.2⟩

/-- An exit sends one order for the position of its name, whatever comes of it. -/
theorem exitPosition_sent (settings : Settings) (execute : Execute σ) (name reason : String)
    (ltp : Option ℚ) (s : PositionService σ) :
    (s.positions.get? name = none ∧
        (exitPosition settings (some execute) name reason ltp s).1 = s) ∨
      ∃ pos, s.positions.get? name = some pos ∧
        (exitPosition settings (some execute) name reason ltp s).1.orders =
          s.orders ++ [exitOrder execute name reason ltp pos s] ∧
        (exitPosition settings (some execute) name reason ltp s).1.execution =
          (exitOrder execute name reason ltp pos s).after := by
  unfold exitPosition
  cases hpos : s.positions.get? name with
  | none => exact .inl ⟨rfl, rfl⟩
  | some pos =>
      refine .inr ⟨pos, rfl, ?_⟩
      dsimp only
      split
      · exact ⟨rfl, rfl⟩
      · split
        · unfold keepOrGiveUp
          dsimp only
          split <;> exact ⟨rfl, rfl⟩
        · exact ⟨rfl, rfl⟩

/-! ## Monitoring -/

/-- The prices `monitor_positions` reads for a name: its own, and the one its exit reads. -/
structure Quotes where
  observed : String → Option ℚ
  atExit : String → Option ℚ

/-- The position with the peak brought up to the observed price. -/
def withPeak (ltp : ℚ) (pos : Position) : Position :=
  { pos with
    peakUnderlying := some (max (pos.peakUnderlying.getD ltp) ltp)
    trailActivated := pos.peakUnderlying.isSome && pos.trailActivated }

/-- The move of the underlying since entry. -/
def movePct (ltp : ℚ) (pos : Position) : ℚ :=
  (ltp - pos.underlyingEntryPrice) / pos.underlyingEntryPrice

/-- The `MAX_AGE` test, made when no price test has led to an exit. -/
def ageReason (settings : Settings) (now : ℚ) (pos : Position) : Option String :=
  if settings.maxPositionAge < 9999 ∧ pos.entryTime > 0 ∧
      (now - pos.entryTime) / 60 ≥ settings.maxPositionAge then some "MAX_AGE"
  else none

/-- The trailing stop, once the price tests passed: `activates` is the test that arms it and
`crossed` the test against the peak. -/
def trail (settings : Settings) (now : ℚ) (pos : Position) (activates : Bool)
    (crossed : ℚ → Bool) : Position × Option String :=
  let pos := { pos with trailActivated := pos.trailActivated || activates }
  if pos.trailActivated && pos.peakUnderlying.any crossed then (pos, some "TRAIL_HIT")
  else (pos, ageReason settings now pos)

/-- The body of `monitor_positions` for one position with a usable price: the position as the tests
leave it, and the reason for an exit. -/
def verdict (settings : Settings) (now ltp : ℚ) (pos : Position) : Position × Option String :=
  let pos := withPeak ltp pos
  let move := movePct ltp pos
  if pos.direction = "CALL" then
    if move ≤ -(1 - settings.slPct) then (pos, some "SL_HIT")
    else if settings.takeProfitAndStop ∧ move ≥ settings.targetPct - 1 then
      (pos, some "TARGET_HIT")
    else
      trail settings now pos (decide (move ≥ settings.trailActivate - 1))
        fun peak => decide (ltp ≤ peak * settings.trailPct)
  else
    -- every other direction is treated as a put
    if move ≥ 1 - settings.slPct then (pos, some "SL_HIT")
    else if settings.takeProfitAndStop ∧ move ≤ -(settings.targetPct - 1) then
      (pos, some "TARGET_HIT")
    else
      trail settings now pos (decide (move ≤ -(settings.trailActivate - 1)))
        fun peak => decide (ltp ≥ peak * (2 - settings.trailPct))

/-- The tests of `monitor_positions` write to the peak and the trailing latch only. -/
theorem verdict_position (settings : Settings) (now ltp : ℚ) (pos : Position) :
    ∃ peak armed, (verdict settings now ltp pos).1 =
      { pos with peakUnderlying := peak, trailActivated := armed } := by
  unfold verdict trail
  dsimp only
  repeat' split
  all_goals exact ⟨_, _, rfl⟩

theorem stop_or_target_cases {takesProfit stopped reached : Prop} [Decidable takesProfit]
    [Decidable stopped] [Decidable reached] {pos : Position} {after result : Position × Option String}
    (h : result = if stopped then (pos, some "SL_HIT")
      else if takesProfit ∧ reached then (pos, some "TARGET_HIT") else after) :
    result.2 = some "SL_HIT" ∧ stopped ∨ result.2 = some "TARGET_HIT" ∧ reached ∨
      result = after := by
  split at h
  · rw [h]
    exact .inl ⟨rfl, ‹_›⟩
  · split at h
    · rename_i htarget
      rw [h]
      exact .inr (.inl ⟨rfl, htarget.2⟩)
    · exact .inr (.inr h)

/-- A stop, a target, or neither and then the trailing stop, each with the test for the direction. -/
theorem verdict_cases (settings : Settings) (now ltp : ℚ) (pos : Position) :
    ((verdict settings now ltp pos).2 = some "SL_HIT" ∧
        if pos.direction = "CALL" then movePct ltp pos ≤ -(1 - settings.slPct)
        else movePct ltp pos ≥ 1 - settings.slPct) ∨
      ((verdict settings now ltp pos).2 = some "TARGET_HIT" ∧
        if pos.direction = "CALL" then movePct ltp pos ≥ settings.targetPct - 1
        else movePct ltp pos ≤ -(settings.targetPct - 1)) ∨
      ∃ activates crossed,
        verdict settings now ltp pos = trail settings now (withPeak ltp pos) activates crossed ∧
          (activates = true ↔
            if pos.direction = "CALL" then movePct ltp pos ≥ settings.trailActivate - 1
            else movePct ltp pos ≤ -(settings.trailActivate - 1)) ∧
          ∀ peak, crossed peak = true ↔
            if pos.direction = "CALL" then ltp ≤ peak * settings.trailPct
            else ltp ≥ peak * (2 - settings.trailPct) := by
  have hdirection : (withPeak ltp pos).direction = pos.direction := rfl
  have hmove : movePct ltp (withPeak ltp pos) = movePct ltp pos := rfl
  unfold verdict
  simp only [hdirection, hmove]
  by_cases hcall : pos.direction = "CALL"
  · simp only [if_pos hcall]
    exact (stop_or_target_cases rfl).imp_right (.imp_right fun h =>
      ⟨_, _, h, decide_eq_true_iff, fun _ => decide_eq_true_iff⟩)
  · simp only [if_neg hcall]
    exact (stop_or_target_cases rfl).imp_right (.imp_right fun h =>
      ⟨_, _, h, decide_eq_true_iff, fun _ => decide_eq_true_iff⟩)

/-- One name of the loop. Only what `exit_position` lets through ends the loop. -/
def monitorName (settings : Settings) (venue : Venue σ) (quotes : Quotes) (now : ℚ)
    (s : PositionService σ) (name : String) : PositionService σ × Option PyExc :=
  match s.positions.get? name, quotes.observed name with
  | some pos, some ltp =>
      if pos.underlyingEntryPrice ≤ 0 then (s, none)
      else
        let (watched, reason) := verdict settings now ltp pos
        let s := storePosition name watched s
        match reason with
        | none => (s, none)
        | some reason =>
            match exitPosition settings venue name reason (quotes.atExit name) s with
            | (s, .ok ()) => (s, none)
            | (s, .error e) => (s, some e)
  | _, _ => (s, none)

/-- A name is skipped; or its position is watched; or its position is watched and exited. -/
theorem monitorName_cases (settings : Settings) (venue : Venue σ) (quotes : Quotes) (now : ℚ)
    (s : PositionService σ) (name : String) :
    ((∀ pos ltp, s.positions.get? name = some pos → quotes.observed name = some ltp →
          pos.underlyingEntryPrice ≤ 0) ∧ (monitorName settings venue quotes now s name).1 = s) ∨
      ∃ pos ltp, s.positions.get? name = some pos ∧ quotes.observed name = some ltp ∧
        0 < pos.underlyingEntryPrice ∧
        (((verdict settings now ltp pos).2 = none ∧
            (monitorName settings venue quotes now s name).1 =
              storePosition name (verdict settings now ltp pos).1 s) ∨
          ∃ reason, (verdict settings now ltp pos).2 = some reason ∧
            (monitorName settings venue quotes now s name).1 =
              (exitPosition settings venue name reason (quotes.atExit name)
                (storePosition name (verdict settings now ltp pos).1 s)).1) := by
  unfold monitorName
  cases hpos : s.positions.get? name with
  | none => exact .inl ⟨by simp, rfl⟩
  | some pos =>
      cases hltp : quotes.observed name with
      | none => exact .inl ⟨by simp, rfl⟩
      | some ltp =>
          by_cases hentry : pos.underlyingEntryPrice ≤ 0
          · exact .inl ⟨by simpa using hentry, by simp [hentry]⟩
          · refine .inr ⟨pos, ltp, rfl, rfl, not_le.mp hentry, ?_⟩
            simp only [hentry, if_false]
            cases hreason : (verdict settings now ltp pos).2 with
            | none => exact .inl ⟨rfl, rfl⟩
            | some reason =>
                refine .inr ⟨reason, rfl, ?_⟩
                simp only []
                split
                · rename_i hout
                  rw [hout]
                · rename_i hout
                  rw [hout]

def monitorPositions (settings : Settings) (venue : Venue σ) (quotes : Quotes) (now : ℚ)
    (s : PositionService σ) : PositionService σ × Option PyExc :=
  loop (monitorName settings venue quotes now) s (s.positions.rows.map Prod.fst)

/-! ## Runs -/

inductive PositionCall
  | enterTrade (entry : EntryCall)
  | monitorPositions (quotes : Quotes) (now : ℚ)
  | exitPosition (name reason : String) (ltp : Option ℚ)

/-- The service after one call, whether it returned or raised. Each call meets an execution service
that answers in its own way. -/
def step (settings : Settings) (s : PositionService σ) (op : Venue σ × PositionCall) :
    PositionService σ :=
  match op.2 with
  | .enterTrade entry => (enterTrade op.1 entry s).1
  | .monitorPositions quotes now => (monitorPositions settings op.1 quotes now s).1
  | .exitPosition name reason ltp => (exitPosition settings op.1 name reason ltp s).1

/-! ## A sample service -/

/-- An execution service that answers every order with this result. -/
def answering (result : OrderResult) : Venue Unit := some fun _ _ world => (world, .ok result)

def sampleFill (status : OrderStatus) (filledQuantity : Int) (averagePrice : ℚ) : OrderResult :=
  { orderId := "B-7", status, filledQuantity, averagePrice, timestamp := 0 }

/-- An entry of this many lots at 100. -/
def sampleEntry (direction : String) (qty : Int) (tsText : String) : EntryCall :=
  { name := "NIFTY", signal := { direction, price := 100, tsText }
    admission := .admitted qty { signalTimestamp := 0 }, now := 1 }

end PositionService

end AutoTrade.Positions
