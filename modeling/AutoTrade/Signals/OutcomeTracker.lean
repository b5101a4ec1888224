import AutoTrade.Execution.Order
import AutoTrade.Library.Run
import AutoTrade.Library.Table

/-! # Signal outcomes

Signals are graded against bars and prices, expired when their holding horizon
is over, resolved from daily bars, and closed when the opposite signal is
recorded. Directions, categories and symbols are stored in upper case. Days are
counted as `date.toordinal` counts them.
-/

namespace AutoTrade.Signals

open AutoTrade.Library
open AutoTrade.Execution (Platform)

inductive OutcomeState
  | opened
  | active
  | target1Hit
  | target2Hit
  | slHit
  | ambiguous
  | ambiguousSameBar
  | expired
  | unresolved
  | closedOnReversal
deriving DecidableEq, Repr

inductive OutcomeConfidence
  | exactObservation
  | ambiguous
  | unresolved
  | polling
  | unknown
deriving DecidableEq, Repr

inductive FirstTouch
  | absent
  | t1
  | t2
  | sl
  | ambiguous
  | expired
  | ambiguousSameBar
  | ambiguousSameObservation
deriving DecidableEq, Repr

/-- A row of `system_signals`. -/
structure SystemSignal where
  signalId : String
  timestamp : String
  createdDate : String
  symbol : String
  category : String
  direction : String
  entryPrice : ℚ
  stopLoss : ℚ
  target1 : ℚ
  target2 : ℚ
  currentPrice : ℚ
  status : OutcomeState
  pnlPct : ℚ
  opportunityKey : String
  outcomeConfidence : OutcomeConfidence := .polling
  firstTouch : FirstTouch := .absent
  firstTouchAt : String := ""
  firstTouchPrice : ℚ := 0
  exitReason : String := ""
  exitPrice : Option ℚ := none
  exitAt : String := ""
deriving DecidableEq, Repr

abbrev SystemSignals := Table SystemSignal SystemSignal.signalId

/-- A bar; `time` is its timestamp on the clock of the exchange, where it can be read. -/
structure SignalBar where
  openPrice : ℚ
  high : ℚ
  low : ℚ
  close : ℚ
  timestamp : String
  time : Option Time
deriving DecidableEq, Repr

structure BarrierHits where
  sl : Bool
  t1 : Bool
  t2 : Bool
deriving DecidableEq, Repr

/-- What a grading leaves of the outcome of a signal. -/
structure Transition where
  newStatus : Option OutcomeState
  firstTouch : FirstTouch
  firstTouchAt : String
  firstTouchPrice : ℚ
  outcomeConfidence : OutcomeConfidence
deriving DecidableEq, Repr

/-- `SignalEvaluationResult`, without the note for the log of events. -/
structure SignalEvaluationResult extends Transition where
  currentPrice : ℚ
  pnlPct : ℚ
  isTerminal : Bool
  hits : BarrierHits
deriving DecidableEq, Repr

/-- The calendar of the exchange and what `datetime` makes of texts. -/
structure SignalRuntime extends Platform where
  isMarketDay : Int → Bool
  /-- `date.fromisoformat(text[:10])`. -/
  dateOf : String → Option Int
  /-- The time of day in a timestamp, since midnight. -/
  clockOf : String → Option Time
  /-- `strftime("%Y-%m-%d %H:%M:%S")`. -/
  strftime : Time → String

def day : Time := 24 * hour

def dayOf (t : Time) : Int := t / day

def clock (t : Time) : Time := t % day

def marketCloseTime : Time := 15 * hour + 1800 * second

def nearCloseThresholdTime : Time := 15 * hour + 900 * second

/-- `date.max.toordinal()`. -/
def maxOrdinal : Int := 3652059

/-! ## Horizons -/

/-- `"OPTION" in category or "0DTE" in category or "INTRADAY" in category`. -/
def SystemSignal.isIntraday (s : SystemSignal) : Bool :=
  inText "OPTION" s.category || inText "0DTE" s.category || inText "INTRADAY" s.category

def SystemSignal.isCall (s : SystemSignal) : Bool :=
  decide (s.direction ∈ ["CALL", "BUY", "LONG"])

section Runtime

variable (rt : SignalRuntime)

def createdOn (s : SystemSignal) : Option Int := (rt.dateOf s.createdDate).or (rt.dateOf s.timestamp)

def nearCloseCreated (s : SystemSignal) : Bool :=
  (rt.clockOf s.timestamp).any fun t => decide (nearCloseThresholdTime ≤ t)

/-- `_count_trading_days`. -/
def countTradingDays (startDate endDate : Int) : Nat :=
  ((List.range (endDate - startDate).toNat).filter fun k : Nat =>
    rt.isMarketDay (startDate + 1 + k)).length

def pastMarketClose (now : Time) : Bool :=
  rt.isMarketDay (dayOf now) && decide (marketCloseTime ≤ clock now)

/-- The horizon of `evaluate_bar` after a first touch; without one the day has to be a market day. -/
def horizonOver (s : SystemSignal) (now : Time) : Bool :=
  let created := (createdOn rt s).getD (dayOf now)
  if s.isIntraday then
    decide (created < dayOf now) ||
      (decide (created = dayOf now) && pastMarketClose rt now && !nearCloseCreated rt s)
  else decide (5 ≤ countTradingDays rt created (dayOf now))

/-- The day on which the loops of `check_signal_expiry` have met as many market days after `d`; the
calendar ends with the last `date`. -/
def marketDayAfter : Nat → Nat → Int → Option Int
  | 0, _, d => some d
  | _ + 1, 0, _ => none
  | count + 1, left + 1, d =>
      if rt.isMarketDay (d + 1) then marketDayAfter count left (d + 1)
      else marketDayAfter (count + 1) left (d + 1)

inductive Classification
  | alreadyTerminal
  | wouldExpire
  | wouldRemainActive
  | invalid
deriving DecidableEq, Repr

/-- The day whose close ends the holding horizon. -/
def expiryDay (s : SystemSignal) (created : Int) : Option Int :=
  let left := (maxOrdinal - created).toNat
  if s.isIntraday then
    if nearCloseCreated rt s then marketDayAfter rt 1 left created else some created
  else marketDayAfter rt 5 left created

def SystemSignal.alreadyTerminal (s : SystemSignal) : Bool :=
  decide (s.status ∈ [.expired, .slHit, .ambiguous, .target2Hit]) ||
    decide (s.firstTouch ∈ [.sl, .ambiguous, .expired, .ambiguousSameBar,
      .ambiguousSameObservation])

/-- `check_signal_expiry`, without what is only shown. -/
def checkSignalExpiry (s : SystemSignal) (now : Time) : Except PyExc Classification :=
  match createdOn rt s with
  | none => .ok .invalid
  | some created =>
      match expiryDay rt s created with
      | none => .error ⟨.other, "date value out of range"⟩
      | some last =>
          if s.alreadyTerminal then .ok .alreadyTerminal
          else if decide (last < dayOf now) || (decide (last = dayOf now) && pastMarketClose rt now)
          then .ok .wouldExpire
          else .ok .wouldRemainActive

/-! ## Grading -/

/-- The prices of the signal and of the bar are positive, the bar is one, and it is no more than half
a minute ahead of the clock. -/
def acceptsBar (s : SystemSignal) (bar : SignalBar) (now : Time) (checkStaleness : Bool) : Bool :=
  decide (0 < s.entryPrice ∧ 0 < s.stopLoss ∧ 0 < s.target1) &&
    decide (bar.low ≤ bar.high ∧ 0 < bar.openPrice ∧ 0 < bar.close ∧ 0 < bar.high ∧ 0 < bar.low) &&
      bar.time.all fun t =>
        decide (t - now ≤ 30 * second) && (!checkStaleness || decide (now - t ≤ 900 * second))

def barrierHits (s : SystemSignal) (bar : SignalBar) : BarrierHits :=
  if s.isCall then
    { sl := decide (bar.low ≤ s.stopLoss)
      t1 := decide (s.target1 ≤ bar.high)
      t2 := decide (0 < s.target2 ∧ s.target2 ≤ bar.high) }
  else
    { sl := decide (s.stopLoss ≤ bar.high)
      t1 := decide (bar.low ≤ s.target1)
      t2 := decide (0 < s.target2 ∧ bar.low ≤ s.target2) }

def barPnl (s : SystemSignal) (bar : SignalBar) : ℚ :=
  if s.isCall then roundTo 2 ((bar.close - s.entryPrice) / s.entryPrice * 100)
  else roundTo 2 ((s.entryPrice - bar.close) / s.entryPrice * 100)

/-- The outcome recorded so far, under a new status or under none. -/
def SystemSignal.keep (s : SystemSignal) (newStatus : Option OutcomeState) : Transition :=
  { newStatus
    firstTouch := s.firstTouch
    firstTouchAt := s.firstTouchAt
    firstTouchPrice := s.firstTouchPrice
    outcomeConfidence := s.outcomeConfidence }

def touched (newStatus : OutcomeState) (firstTouch : FirstTouch) (firstTouchAt : String)
    (firstTouchPrice : ℚ) : Transition :=
  { newStatus := some newStatus, firstTouch, firstTouchAt, firstTouchPrice
    outcomeConfidence := .exactObservation }

def untouched (newStatus : OutcomeState) (outcomeConfidence : OutcomeConfidence) : Transition :=
  { newStatus := some newStatus, firstTouch := .absent, firstTouchAt := "", firstTouchPrice := 0
    outcomeConfidence }

/-- The state machine of `evaluate_bar`. -/
def transition (s : SystemSignal) (hits : BarrierHits) (now : Time) : Transition :=
  if s.firstTouch = .absent then
    if hits.sl && (hits.t1 || hits.t2) then untouched .ambiguous .ambiguous
    else if hits.t2 then
      touched .target2Hit (if hits.t1 then .t1 else .t2) (rt.isoformat now)
        (if hits.t1 then s.target1 else s.target2)
    else if hits.t1 then touched .target1Hit .t1 (rt.isoformat now) s.target1
    else if hits.sl then touched .slHit .sl (rt.isoformat now) s.stopLoss
    else if rt.isMarketDay (dayOf now) && horizonOver rt s now then untouched .expired .unresolved
    else s.keep none
  else if s.firstTouch = .t1 ∧ s.status = .target1Hit then
    if hits.t2 && !hits.sl then s.keep (some .target2Hit)
    else if hits.sl then s.keep (some .slHit)
    else if horizonOver rt s now then s.keep (some .expired)
    else s.keep none
  else if s.firstTouch ∈ [.sl, .ambiguous, .expired, .ambiguousSameBar] then s.keep (some s.status)
  else s.keep none

/-- `a or b` on numbers. -/
def orPrice (a b : ℚ) : ℚ := if a = 0 then b else a

def terminalTouch (t : FirstTouch) : Bool :=
  decide (t ∈ [.sl, .ambiguous, .expired, .ambiguousSameBar])

/-- `evaluate_bar`. -/
def evaluateBar (s : SystemSignal) (bar : SignalBar) (now : Time) (checkStaleness : Bool) :
    SignalEvaluationResult :=
  if acceptsBar s bar now checkStaleness then
    let hits := barrierHits s bar
    let t := transition rt s hits now
    { t with
      currentPrice := bar.close
      pnlPct := barPnl s bar
      isTerminal := t.newStatus.any (fun st => decide (st ∈ [.slHit, .ambiguous, .expired,
        .target2Hit])) || terminalTouch t.firstTouch
      hits }
  else
    { s.keep none with
      currentPrice := orPrice s.currentPrice s.entryPrice
      pnlPct := s.pnlPct
      isTerminal := terminalTouch s.firstTouch
      hits := ⟨false, false, false⟩ }

/-- The bar of a single price. -/
def tickBar (price : ℚ) (now : Time) : SignalBar :=
  ⟨price, price, price, price, rt.isoformat now, some now⟩

/-- `evaluate_tick`. -/
def evaluateTick (s : SystemSignal) (price : ℚ) (now : Time) : SignalEvaluationResult :=
  evaluateBar rt s (tickBar rt price now) now false

/-- The barriers a polled price is beyond; a second target of zero counts here. -/
def polledHits (s : SystemSignal) (price : ℚ) : List Bool :=
  if s.isCall then
    [decide (price ≤ s.stopLoss), decide (s.target1 ≤ price), decide (s.target2 ≤ price)]
  else [decide (s.stopLoss ≤ price), decide (price ≤ s.target1), decide (price ≤ s.target2)]

def crossesSeveral (s : SystemSignal) (price : ℚ) : Bool :=
  decide (1 < (polledHits s price).count true)

/-- A polled price; one beyond several barriers makes an untouched signal ambiguous. -/
def evaluatePoll (s : SystemSignal) (price : ℚ) (now : Time) : SignalEvaluationResult :=
  let e := evaluateTick rt s price now
  if s.firstTouch = .absent ∧ crossesSeveral s price then
    { e with
      firstTouch := .absent
      firstTouchPrice := 0
      outcomeConfidence := .ambiguous
      newStatus := some .ambiguous }
  else e

/-- What is written of a signal without a price whose horizon is over. -/
def expiredWithoutPrice (s : SystemSignal) : SignalEvaluationResult :=
  { (if s.firstTouch ∈ [.t1, .t2, .sl] then s.keep (some .expired)
      else untouched .expired .unresolved) with
    currentPrice := orPrice s.currentPrice s.entryPrice
    pnlPct := s.pnlPct
    isTerminal := true
    hits := ⟨false, false, false⟩ }

/-! ## The grading pass -/

/-- What the lookups yield for a signal; `futuresBar` is the bar of its own contract, if it is on a
future. -/
structure Observation where
  bar : Option SignalBar := none
  futuresBar : Option SignalBar := none
  price : Option ℚ := none
deriving DecidableEq, Repr

structure SignalOutcomeTracker where
  signals : SystemSignals
  evaluatedCandles : List String := []

def candleKey (s : SystemSignal) (bar : SignalBar) : String := s.signalId ++ "::" ++ bar.timestamp

def addCandle (candles : List String) (key : String) : List String :=
  if 10000 < (candles.insert key).length then [] else candles.insert key

/-- The grading of a signal without a bar. -/
def evaluatePrice (s : SystemSignal) (price : Option ℚ) (now : Time) :
    Except PyExc (Option SignalEvaluationResult) :=
  match price.filter (fun p => decide (0 < p)) with
  | some p => .ok (some (evaluatePoll rt s p now))
  | none =>
      match checkSignalExpiry rt s now with
      | .error e => .error e
      | .ok .wouldExpire => .ok (some (expiredWithoutPrice s))
      | .ok _ => .ok none

/-- The candles evaluated after a signal, and its grading. -/
def evaluateRow (candles : List String) (s : SystemSignal) (o : Observation) (now : Time) :
    List String × Except PyExc (Option SignalEvaluationResult) :=
  match o.bar with
  | some bar =>
      if candleKey s bar ∈ candles then (candles, .ok none)
      else (addCandle candles (candleKey s bar), .ok (some (evaluateBar rt s bar now false)))
  | none =>
      match o.futuresBar.filter (fun bar => decide (candleKey s bar ∉ candles)) with
      | some bar =>
          (addCandle candles (candleKey s bar), .ok (some (evaluateBar rt s bar now false)))
      | none => (candles, evaluatePrice rt s o.price now)

/-- The columns an evaluation writes. -/
def SystemSignal.persist (s : SystemSignal) (e : SignalEvaluationResult) : SystemSignal :=
  match e.newStatus with
  | some status =>
      { s with
        currentPrice := e.currentPrice
        status
        pnlPct := e.pnlPct
        firstTouch := e.firstTouch
        firstTouchAt := e.firstTouchAt
        firstTouchPrice := e.firstTouchPrice
        outcomeConfidence := e.outcomeConfidence }
  | none => { s with currentPrice := e.currentPrice, pnlPct := e.pnlPct }

theorem SystemSignal.persist_signalId (s : SystemSignal) (e : SignalEvaluationResult) :
    (s.persist e).signalId = s.signalId := by
  unfold persist
  split <;> rfl

def writeEvaluation (t : SystemSignals) (id : String) (e : SignalEvaluationResult) :
    SystemSignals := t.update id (fun s => s.persist e) fun s => s.persist_signalId e

def gradeRow (observe : String → Observation) (now : Time) (t : SignalOutcomeTracker)
    (s : SystemSignal) : SignalOutcomeTracker × Option PyExc :=
  match evaluateRow rt t.evaluatedCandles s (observe s.signalId) now with
  | (candles, .ok none) => ({ t with evaluatedCandles := candles }, none)
  | (candles, .ok (some e)) =>
      ({ signals := writeEvaluation t.signals s.signalId e, evaluatedCandles := candles }, none)
  | (candles, .error e) => ({ t with evaluatedCandles := candles }, some e)

/-- The rows a grading pass reads. -/
def SystemSignals.graded (t : SystemSignals) : List SystemSignal :=
  t.rows.filter fun s => decide (s.status ∈ [.active, .opened, .target1Hit, .target2Hit, .slHit,
    .ambiguous])

/-- `update_active_signal_outcomes`; an exception leaves the transaction uncommitted. -/
def updateActiveSignalOutcomes (t : SignalOutcomeTracker) (observe : String → Observation)
    (now : Time) : SignalOutcomeTracker :=
  match loop (gradeRow rt observe now) t t.signals.graded with
  | (t', none) => t'
  | (t', some _) => { t' with signals := t.signals }

/-! ## The expiry sweep -/

/-- `dry_run_signal_expiry`. -/
def classifyAll (now : Time) : List SystemSignal → Except PyExc (List (String × Classification))
  | [] => .ok []
  | s :: rest =>
      match checkSignalExpiry rt s now with
      | .error e => .error e
      | .ok c =>
          match classifyAll now rest with
          | .error e => .error e
          | .ok cs => .ok ((s.signalId, c) :: cs)

/-- The signals a sweep is going to expire, in the order of their ids. -/
def candidatesToExpire (t : SystemSignals) (now : Time) : Except PyExc (List String) :=
  match classifyAll rt now (t.rows.mergeSort fun r s => decide (r.signalId ≤ s.signalId)) with
  | .error e => .error e
  | .ok cs => .ok ((cs.filter fun c => decide (c.2 = .wouldExpire)).map (·.1))

/-- A first target that was hit counts as touched. -/
def SystemSignal.sweptTouch (s : SystemSignal) : FirstTouch :=
  if s.firstTouch = .absent ∧ s.status = .target1Hit then .t1 else s.firstTouch

/-- A signal as a sweep leaves it. -/
def expireRow (s : SystemSignal) (now : Time) : SystemSignal :=
  if s.sweptTouch ∈ [.t1, .t2, .sl] then
    { s with
      status := .expired
      firstTouch := s.sweptTouch
      firstTouchAt := orElse (some s.firstTouchAt) (orElse (some s.createdDate) (rt.isoformat now))
      firstTouchPrice :=
        orPrice s.firstTouchPrice (orPrice s.target1 (orPrice s.currentPrice s.entryPrice))
      outcomeConfidence :=
        if s.outcomeConfidence = .unknown then .exactObservation else s.outcomeConfidence }
  else
    { s with
      status := .expired
      firstTouch := .absent
      firstTouchAt := ""
      firstTouchPrice := 0
      outcomeConfidence := .unresolved }

/-- The update pass looks again at the status alone, and not for a second target. -/
def SystemSignal.passedOver (s : SystemSignal) : Bool :=
  decide (s.status ∈ [.expired, .slHit, .ambiguous])

def expireIfOpen (s : SystemSignal) (now : Time) : SystemSignal :=
  if s.passedOver then s else expireRow rt s now

theorem expireIfOpen_signalId (s : SystemSignal) (now : Time) :
    (expireIfOpen rt s now).signalId = s.signalId := by
  unfold expireIfOpen expireRow
  split
  · rfl
  · split <;> rfl

/-- The update pass of a sweep over the signals found before. -/
def expireCandidates (t : SystemSignals) (ids : List String) (now : Time) : SystemSignals :=
  ids.foldl (fun t id => t.update id (fun s => expireIfOpen rt s now) fun s =>
    expireIfOpen_signalId rt s now) t

/-- `expire_stale_signals`. -/
def expireStaleSignals (t : SystemSignals) (now : Time) : SystemSignals × Option PyExc :=
  match candidatesToExpire rt t now with
  | .error e => (t, some e)
  | .ok ids => (expireCandidates rt t ids now, none)

/-! ## The historical resolver -/

/-- The signals in flight, the oldest first; a limit of zero is none. -/
def pendingSignals (t : SystemSignals) (limit : Option Nat) : List SystemSignal :=
  let rows := (t.rows.filter fun s => decide (s.status ∈ [.active, .opened, .target1Hit])).mergeSort
    fun r s => decide (r.createdDate < s.createdDate) ||
      (decide (r.createdDate = s.createdDate) && decide (r.signalId ≤ s.signalId))
  match limit.filter (fun n => decide (0 < n)) with
  | some n => rows.take n
  | none => rows

/-- `text[:10]`. -/
def dateText (text : String) : String := String.ofList (text.toList.take 10)

/-- The close of the day of a bar, or the current time where its date cannot be read. -/
def barClose (bar : SignalBar) (now : Time) : Time :=
  match rt.dateOf (dateText bar.timestamp) with
  | some d => d * day + marketCloseTime
  | none => now

/-- The replay stops at the first terminal evaluation; a first target is carried to the next bars. -/
def replayBars (now : Time) :
    SystemSignal → Option SignalEvaluationResult → List SignalBar → Option SignalEvaluationResult
  | _, last, [] => last
  | s, _, bar :: rest =>
      let e := evaluateBar rt s bar (barClose rt bar now) false
      if e.isTerminal then some e
      else if e.hits.t1 ∧ e.newStatus = some .target1Hit then
        replayBars now
          { s with
            status := .target1Hit
            firstTouch := e.firstTouch
            firstTouchAt := e.firstTouchAt
            firstTouchPrice := e.firstTouchPrice
            outcomeConfidence := e.outcomeConfidence } (some e) rest
      else replayBars now s (some e) rest

/-- `evaluate_signal_against_bars`. -/
def evaluateSignalAgainstBars (s : SystemSignal) (bars : List SignalBar) (now : Time) :
    Option SignalEvaluationResult :=
  let sigDate := dateText (orElse (some s.createdDate) s.timestamp)
  replayBars rt now s none (bars.filter fun bar => decide (sigDate ≤ dateText bar.timestamp))

/-- The evaluation a resolver writes: one with a status that is not the one it read. -/
def resolution (s : SystemSignal) (bars : List SignalBar) (now : Time) :
    Option SignalEvaluationResult :=
  (evaluateSignalAgainstBars rt s bars now).filter fun e =>
    e.newStatus.any fun status => decide (status ≠ s.status)

/-- The update of one signal, as it was read, whatever its row holds by now. -/
def resolveSignal (t : SystemSignals) (s : SystemSignal) (bars : List SignalBar) (now : Time) :
    SystemSignals :=
  match resolution rt s bars now with
  | some e => writeEvaluation t s.signalId e
  | none => t

def resolveSignals (t : SystemSignals) (pending : List SystemSignal)
    (bars : String → List SignalBar) (now : Time) : SystemSignals :=
  pending.foldl (fun t s => resolveSignal rt t s (bars s.symbol) now) t

/-- `resolve_all_pending`, which ends with a sweep of its own. -/
def resolveAllPending (t : SystemSignals) (limit : Option Nat) (bars : String → List SignalBar)
    (now sweepNow : Time) : SystemSignals :=
  (expireStaleSignals rt (resolveSignals rt t (pendingSignals t limit) bars now) sweepNow).1

/-! ## Recording -/

/-- What `record_generated_signal` has of a signal once its gates are passed and its levels are
computed. -/
structure GeneratedSignal where
  symbol : String
  direction : String
  category : String
  opportunityKey : String
  entryPrice : ℚ
  stopLoss : ℚ
  target1 : ℚ
  target2 : ℚ
  dedupCooldownSecs : Int := 900
  oppositeDirCooldownSecs : Int := 1800
deriving DecidableEq, Repr

def cutoff (now : Time) (cooldown : Int) : String := rt.strftime (now - max 0 cooldown * second)

/-- An active signal of the same opportunity, or one recorded within the cooldown. -/
def isDuplicate (t : SystemSignals) (g : GeneratedSignal) (now : Time) : Bool :=
  t.rows.any fun s => decide (s.opportunityKey = g.opportunityKey) &&
    (decide (s.status = .active) || decide (cutoff rt now g.dedupCooldownSecs ≤ s.timestamp))

/-- The latest active signal of the symbol, among equals the last recorded. -/
def activeSameSymbol (t : SystemSignals) (symbol : String) : Option SystemSignal :=
  (t.rows.filter fun s => decide (s.symbol = symbol) && decide (s.status = .active)).foldl
    (fun latest s => if latest.all fun r => decide (r.timestamp ≤ s.timestamp) then some s
      else latest) none

/-- The query for the prior signal reads no price. -/
def closeOnReversal (s : SystemSignal) (now : Time) : SystemSignal :=
  if s.status = .active then
    { s with
      status := .closedOnReversal
      exitReason := "OPPOSITE_DIRECTION_REVERSAL"
      exitPrice := some 0
      exitAt := rt.isoformat now
      outcomeConfidence := .exactObservation }
  else s

theorem closeOnReversal_signalId (s : SystemSignal) (now : Time) :
    (closeOnReversal rt s now).signalId = s.signalId := by
  unfold closeOnReversal
  split <;> rfl

def GeneratedSignal.row (g : GeneratedSignal) (signalId : String) (now : Time) : SystemSignal :=
  { signalId
    timestamp := rt.strftime now
    createdDate := dateText (rt.isoformat now)
    symbol := g.symbol
    category := g.category
    direction := g.direction
    entryPrice := g.entryPrice
    stopLoss := g.stopLoss
    target1 := g.target1
    target2 := g.target2
    currentPrice := g.entryPrice
    status := .active
    pnlPct := 0
    opportunityKey := g.opportunityKey }

/-- `record_generated_signal`; an id that is taken fails the transaction. -/
def recordGeneratedSignal (t : SystemSignals) (g : GeneratedSignal) (signalId : String)
    (now : Time) : SystemSignals × String :=
  if isDuplicate rt t g now then (t, "")
  else
    let inserted (u : SystemSignals) : SystemSignals × String :=
      if u.contains signalId then (t, "")
      else (u.insertOrIgnore (g.row rt signalId now), signalId)
    match activeSameSymbol t g.symbol with
    | none => inserted t
    | some prior =>
        if prior.direction = g.direction then inserted t
        else if cutoff rt now g.oppositeDirCooldownSecs ≤ prior.timestamp then (t, "")
        else inserted (t.update prior.signalId (fun s => closeOnReversal rt s now) fun s =>
          closeOnReversal_signalId rt s now)

end Runtime

/-! ## A sample exchange -/

/-- A Friday and the Monday after it. -/
def sampleDates : List (String × Int) := [("2024-01-05", 738890), ("2024-01-08", 738893)]

def sampleDateText (t : Time) : String :=
  ((sampleDates.find? fun d => decide (d.2 = dayOf t)).map (·.1)).getD ""

def sampleClockText (t : Time) : String :=
  zeroPadded 2 (clock t / hour).toNat ++ ":" ++ zeroPadded 2 (clock t % hour / (60 * second)).toNat ++
    ":" ++ zeroPadded 2 (clock t % (60 * second) / second).toNat

/-- Two digits at a place of a text. -/
def twoDigitsAt (place : Nat) (text : String) : Int :=
  ((text.toList.drop place).take 2).foldl (fun n c => n * 10 + (c.toNat - 48 : Int)) 0

/-- Monday to Friday, two of whose dates can be read. -/
def sampleRuntime : SignalRuntime where
  floatStr := formatFixed 1 ""
  isoformat t := sampleDateText t ++ "T" ++ sampleClockText t ++ "+05:30"
  sha256Hex _ := String.ofList (List.replicate 64 '0')
  sha256Hex_length _ := by decide +kernel
  isMarketDay d := decide ((d - 1) % 7 < 5)
  dateOf text := (sampleDates.find? fun d => decide (d.1 = dateText text)).map (·.2)
  clockOf text := some (twoDigitsAt 11 text * hour + twoDigitsAt 14 text * 60 * second)
  strftime t := sampleDateText t ++ " " ++ sampleClockText t

/-- A time of the Friday, in minutes after nine. -/
def fridayAt (minutes : Int) : Time := 738890 * day + 9 * hour + minutes * 60 * second

def sampleSignal : SystemSignal :=
  { signalId := "SIG-20240105100000-INFY-a1b2c3"
    timestamp := "2024-01-05 10:00:00"
    createdDate := "2024-01-05"
    symbol := "INFY"
    category := "LARGE_CAP_EQUITY"
    direction := "CALL"
    entryPrice := 100
    stopLoss := 90
    target1 := 110
    target2 := 120
    currentPrice := 100
    status := .active
    pnlPct := 0
    opportunityKey := "INFY|CALL|LARGE_CAP_EQUITY|default" }

def sampleTracker : SignalOutcomeTracker := { signals := ⟨[sampleSignal], by decide⟩ }

/-- A price for every signal. -/
def priced (price : ℚ) : String → Observation := fun _ => { price := some price }

end AutoTrade.Signals
