import AutoTrade.Positions.PositionService
import AutoTrade.Execution.Placement

/-! # Exit orders and the idempotency cache

The position service in front of the execution service, whose idempotency cache
answers an order under a key it has confirmed before. The key of an exit is made
of the name, the quantity, the whole part of the entry price and the reason, and
nothing in it tells one position from the next. The history of orders tells
which order an entry of the cache came from.
-/

namespace AutoTrade.Positions

open AutoTrade.Library AutoTrade.Execution

/-! ## The two services together -/

/-- What the orders of one call meet at the execution service. -/
structure OrderConditions where
  mode : Option OperatingMode := none
  hardHalted : Bool := false
  answers : BrokerAnswers
  latency : Nat := 0

def OrderConditions.call (conditions : OrderConditions) (request : OrderRequest)
    (context : Option ExecutionContext) : OrderCall :=
  { request, context, mode := conditions.mode, hardHalted := conditions.hardHalted
    answers := conditions.answers, latency := conditions.latency }

def OrderConditions.execute (setup : Setup) (conditions : OrderConditions) :
    Execute ExecutionService := fun request context service =>
  ExecutionService.executeOrder setup (conditions.call request context) service

inductive TradingStep
  | wait (elapsed : Nat)
  | enterTrade (conditions : OrderConditions) (entry : EntryCall)
  | exitPosition (conditions : OrderConditions) (name reason : String) (ltp : Option ℚ)

/-- An order at the execution service. -/
abbrev ServiceOrder := SentOrder ExecutionService

def SentOrder.key {σ : Type} (o : SentOrder σ) : String := o.request.idempotencyKey.getD ""

/-- The order left this entry in the confirmed cache. -/
def Left (o : ServiceOrder) (key : String) (entry : Time × OrderResult) : Prop :=
  o.after.idempotency.cache.get? key = some entry ∧
    o.before.idempotency.cache.get? key ≠ some entry

/-- The second order was answered with the entry that the first left in the cache. -/
def AnsweredFrom (first second : ServiceOrder) : Prop :=
  ∃ entry, Left first second.key entry ∧
    (second.before.idempotency.cleanup second.before.clock).cache.get? second.key = some entry ∧
    second.outcome = .ok entry.2

/-- The order is no duplicate for the idempotency manager. -/
def PassesCheck (o : ServiceOrder) : Prop :=
  (o.before.idempotency.isDuplicate o.before.clock o.key).1 = false

namespace PositionService

def tradingStep (settings : Settings) (setup : Setup) (s : PositionService ExecutionService) :
    TradingStep → PositionService ExecutionService
  | .wait elapsed => { s with execution := s.execution.step setup (.advance elapsed) }
  | .enterTrade conditions entry =>
      step settings s (some (conditions.execute setup), .enterTrade entry)
  | .exitPosition conditions name reason ltp =>
      step settings s (some (conditions.execute setup), .exitPosition name reason ltp)

/-- No exit of another position was filled under the key of this exit and is still remembered. -/
def KeysApart (s : PositionService ExecutionService) : TradingStep → Prop
  | .exitPosition _ name reason _ =>
      ∀ pos ∈ s.positions.get? name, ∀ e ∈ s.orders,
        e.isExit → e.position ≠ pos.openedBy → e.isFilled → e.key = exitKey name reason pos →
          e.after.clock < s.execution.clock - s.execution.idempotency.window
  | _ => True

instance (s : PositionService ExecutionService) : (op : TradingStep) → Decidable (KeysApart s op)
  | .wait _ => inferInstanceAs (Decidable True)
  | .enterTrade _ _ => inferInstanceAs (Decidable True)
  | .exitPosition _ name reason _ =>
      inferInstanceAs (Decidable (∀ pos ∈ s.positions.get? name, ∀ e ∈ s.orders,
        e.isExit → e.position ≠ pos.openedBy → e.isFilled → e.key = exitKey name reason pos →
          e.after.clock < s.execution.clock - s.execution.idempotency.window))

end PositionService

/-! ## What one order leaves behind -/

/-- The order went through `execute_order` under a key of its own. -/
structure Genuine (setup : Setup) (o : ServiceOrder) : Prop where
  keyed : o.request.idempotencyKey = some o.key
  key_ne_empty : o.key ≠ ""
  executed : ∃ conditions : OrderConditions, ∃ context,
    conditions.execute setup o.request context o.before = (o.after, o.outcome)

theorem Genuine.keyOf {setup : Setup} {o : ServiceOrder} (genuine : Genuine setup o)
    (conditions : OrderConditions) (context : Option ExecutionContext) :
    ExecutionService.keyOf setup (conditions.call o.request context) o.before = o.key := by
  have hkeyed := genuine.keyed
  unfold ExecutionService.keyOf OrderRequest.key OrderConditions.call
  rw [hkeyed]
  exact orElse_some genuine.key_ne_empty _

section Order

variable {setup : Setup} {o : ServiceOrder} (hprevent : setup.enableDuplicatePrevention = true)
  (genuine : Genuine setup o)
include hprevent genuine

/-- An entry of the cache after an order was there before it, or is the fill the order returned. -/
theorem Genuine.cache {k : String} {entry : Time × OrderResult}
    (h : o.after.idempotency.cache.get? k = some entry) :
    o.before.idempotency.cache.get? k = some entry ∨
      (k = o.key ∧ entry.1 = o.after.clock ∧ ExecutionService.isFill entry.2 = true ∧
        o.outcome = .ok entry.2) := by
  obtain ⟨conditions, context, hout⟩ := genuine.executed
  have hafter : (ExecutionService.executeOrder setup (conditions.call o.request context)
      o.before).1 = o.after := congrArg Prod.fst hout
  have hvalue : (ExecutionService.executeOrder setup (conditions.call o.request context)
      o.before).2 = o.outcome := congrArg Prod.snd hout
  rw [← hafter] at h
  have hsource := ExecutionService.cache_executeOrder hprevent h
  rw [genuine.keyOf, hafter, hvalue] at hsource
  exact hsource

theorem Genuine.inFlight {k : String} {t : Time}
    (h : o.after.idempotency.inFlight.get? k = some t) :
    o.before.idempotency.inFlight.get? k = some t ∨ k = o.key := by
  obtain ⟨conditions, context, hout⟩ := genuine.executed
  have hafter : (ExecutionService.executeOrder setup (conditions.call o.request context)
      o.before).1 = o.after := congrArg Prod.fst hout
  rw [← hafter] at h
  have hsource := ExecutionService.inFlight_executeOrder hprevent h
  rw [genuine.keyOf] at hsource
  exact hsource

end Order

/-! ## Runs -/

/-- How an order stands to those before it: an exit is not answered from the cache entry of another
position's exit, and under a new key it is no duplicate. -/
def Apart (start : ExecutionService) (pre : List ServiceOrder) (o : ServiceOrder) : Prop :=
  o.isExit →
    (∀ e ∈ pre, e.isExit → e.position ≠ o.position → ¬ AnsweredFrom e o) ∧
    (start.idempotency.cache.get? o.key = none → start.idempotency.inFlight.get? o.key = none →
      (∀ e ∈ pre, e.key ≠ o.key) → PassesCheck o)

namespace PositionService

structure Kept (setup : Setup) (start : ExecutionService) (s : PositionService ExecutionService) :
    Prop where
  genuine : ∀ o ∈ s.orders, Genuine setup o
  /-- A key of the manager is one of the start or of an order. -/
  cached : ∀ k entry, s.execution.idempotency.cache.get? k = some entry →
    start.idempotency.cache.get? k ≠ none ∨ ∃ e ∈ s.orders, e.key = k
  marked : ∀ k t, s.execution.idempotency.inFlight.get? k = some t →
    start.idempotency.inFlight.get? k ≠ none ∨ ∃ e ∈ s.orders, e.key = k
  apart : EachAfter (Apart start) s.orders

/-- An exit whose key no exit of another position was lately filled under stands apart. -/
theorem Kept.apart_of {setup : Setup} {start : ExecutionService}
    {s : PositionService ExecutionService} (hprevent : setup.enableDuplicatePrevention = true)
    (kept : Kept setup start s) {o : ServiceOrder} (hbefore : o.before = s.execution)
    (fresh : ∀ e ∈ s.orders, e.isExit → e.position ≠ o.position → e.isFilled → e.key = o.key →
      e.after.clock < s.execution.clock - s.execution.idempotency.window) :
    Apart start s.orders o := by
  intro _
  refine ⟨?_, ?_⟩
  · intro e he hexit hposition hanswered
    obtain ⟨entry, hleft, hcached, -⟩ := hanswered
    rw [hbefore, IdempotencyManager.cache_get?_cleanup, Option.filter_eq_some_iff] at hcached
    have hyoung : ¬ entry.1 < s.execution.clock - s.execution.idempotency.window := by
      simpa using hcached.2
    obtain hold | ⟨hkey, htime, hfill, hout⟩ := (kept.genuine e he).cache hprevent hleft.1
    · exact hleft.2 hold
    · have hfilled : e.isFilled = true := by
        simp [SentOrder.isFilled, hout, hfill]
      rw [htime] at hyoung
      exact hyoung (fresh e he hexit hposition hfilled hkey.symm)
  · intro hcache hflight hnew
    have hnone : ∀ k, k = o.key → ¬ ∃ e ∈ s.orders, e.key = k := by
      rintro k rfl ⟨e, he, hkey⟩
      exact hnew e he hkey
    have hcached : s.execution.idempotency.cache.get? o.key = none := by
      by_contra hsome
      obtain ⟨entry, hentry⟩ := Option.ne_none_iff_exists'.mp hsome
      exact (kept.cached o.key entry hentry).elim (fun h => h hcache) (hnone _ rfl)
    have hmarked : s.execution.idempotency.inFlight.get? o.key = none := by
      by_contra hsome
      obtain ⟨t, ht⟩ := Option.ne_none_iff_exists'.mp hsome
      exact (kept.marked o.key t ht).elim (fun h => h hflight) (hnone _ rfl)
    unfold PassesCheck
    rw [IdempotencyManager.isDuplicate_eq_false_iff, hbefore,
      IdempotencyManager.cache_get?_cleanup, IdempotencyManager.inFlight_get?_cleanup, hcached,
      hmarked]
    exact ⟨rfl, rfl⟩

/-- One more order, if it stands apart from those before it. -/
theorem Kept.send {setup : Setup} {start : ExecutionService}
    {s t : PositionService ExecutionService} (hprevent : setup.enableDuplicatePrevention = true)
    (kept : Kept setup start s) {o : ServiceOrder} (genuine : Genuine setup o)
    (hbefore : o.before = s.execution) (horders : t.orders = s.orders ++ [o])
    (hafter : t.execution = o.after) (apart : Apart start s.orders o) : Kept setup start t := by
  have holder : ∀ k, (∃ e ∈ s.orders, e.key = k) → ∃ e ∈ t.orders, e.key = k := by
    rintro k ⟨e, he, hkey⟩
    exact ⟨e, by simp [horders, he], hkey⟩
  have hself : ∃ e ∈ t.orders, e.key = o.key := ⟨o, by simp [horders], rfl⟩
  refine ⟨?_, ?_, ?_, horders ▸ kept.apart.append apart⟩
  · intro e he
    rw [horders, List.mem_append, List.mem_singleton] at he
    obtain he | rfl := he
    · exact kept.genuine e he
    · exact genuine
  · intro k entry hentry
    rw [hafter] at hentry
    obtain hold | ⟨rfl, -⟩ := genuine.cache hprevent hentry
    · exact (kept.cached k entry (hbefore ▸ hold)).imp id (holder k)
    · exact .inr hself
  · intro k mark hmark
    rw [hafter] at hmark
    obtain hold | rfl := genuine.inFlight hprevent hmark
    · exact (kept.marked k mark (hbefore ▸ hold)).imp id (holder k)
    · exact .inr hself

theorem exitKey_ne_empty (name reason : String) (pos : Position) :
    exitKey name reason pos ≠ "" := by
  simp [exitKey]

theorem entryKey_ne_empty (name : String) (sig : Signal) (qty : Int) :
    entryKey name sig qty ≠ "" := by
  simp [entryKey]

theorem kept_step (settings : Settings) {setup : Setup} {start : ExecutionService}
    {s : PositionService ExecutionService} (hprevent : setup.enableDuplicatePrevention = true)
    (kept : Kept setup start s) (op : TradingStep) (apart : KeysApart s op) :
    Kept setup start (tradingStep settings setup s op) := by
  cases op with
  | wait elapsed => exact ⟨kept.genuine, kept.cached, kept.marked, kept.apart⟩
  | enterTrade conditions entry =>
      obtain hnothing | ⟨qty, context, horders, hafter⟩ :=
        enterTrade_sent (conditions.execute setup) entry s
      · exact (congrArg (Kept setup start) hnothing).mpr kept
      · refine kept.send hprevent ?_ rfl horders hafter ?_
        · exact ⟨rfl, entryKey_ne_empty entry.name entry.signal qty, conditions, some context, rfl⟩
        · intro hexit
          cases hexit
  | exitPosition conditions name reason ltp =>
      obtain ⟨-, hnothing⟩ | ⟨pos, hpos, horders, hafter⟩ :=
        exitPosition_sent settings (conditions.execute setup) name reason ltp s
      · exact (congrArg (Kept setup start) hnothing).mpr kept
      · refine kept.send hprevent ?_ rfl horders hafter ?_
        · exact ⟨rfl, exitKey_ne_empty name reason pos, conditions, none, rfl⟩
        · exact kept.apart_of hprevent rfl (apart pos hpos)

/-- In a run in which no exit meets the key of another position's exit that was filled within the
window of the cache, no exit is answered from the cache entry of another position's exit, and an
exit under a key that is new to the run and to the manager is no duplicate. -/
theorem exits_apart_along_run (settings : Settings) (setup : Setup) (start : ExecutionService)
    (steps : List TradingStep) (hprevent : setup.enableDuplicatePrevention = true)
    (apart : StepsMeet (tradingStep settings setup) KeysApart { execution := start } steps) :
    EachAfter (Apart start)
      (run (tradingStep settings setup) { execution := start } steps).orders := by
  have initial : Kept setup start { execution := start } := by
    refine ⟨by simp, ?_, ?_, eachAfter_nil _⟩
    · intro k entry hentry
      exact .inl (Option.ne_none_iff_exists'.mpr ⟨entry, hentry⟩)
    · intro k t ht
      exact .inl (Option.ne_none_iff_exists'.mpr ⟨t, ht⟩)
  have always : Always (tradingStep settings setup) (Kept setup start) { execution := start }
      steps :=
    always_of_stepsMeet (fun s op _ kept hop => kept_step settings hprevent kept op hop) initial
      apart
  exact always.final.apart

/-- A trade of one lot, entered at 100 and closed at 90. -/
def losingTrade (tsText reason : String) : List TradingStep :=
  [.enterTrade { answers := ExecutionService.answering (sampleFill .filled 1 100) }
      (sampleEntry "CALL" 1 tsText),
    .exitPosition { answers := ExecutionService.answering (sampleFill .filled 1 90) } "NIFTY" reason
      (some 90)]

/-- Two such trades, the second an hour after the first. -/
def twoTrades (firstReason secondReason : String) : List TradingStep :=
  losingTrade "1" firstReason ++ .wait 3600000000 :: losingTrade "2" secondReason

def afterTrades (firstReason secondReason : String) : PositionService ExecutionService :=
  run (tradingStep {} ExecutionService.sampleSetup) { execution := ExecutionService.freshService }
    (twoTrades firstReason secondReason)

/-- Trades that are closed for different reasons keep apart. -/
theorem exits_apart_by_reason :
    StepsMeet (tradingStep {} ExecutionService.sampleSetup) KeysApart
        { execution := ExecutionService.freshService } (twoTrades "SL_HIT" "TRAIL_HIT") ∧
      EachAfter (Apart ExecutionService.freshService)
        (afterTrades "SL_HIT" "TRAIL_HIT").orders := by
  have hmeet : StepsMeet (tradingStep {} ExecutionService.sampleSetup) KeysApart
      { execution := ExecutionService.freshService } (twoTrades "SL_HIT" "TRAIL_HIT") := by
    decide +kernel
  exact ⟨hmeet, exits_apart_along_run {} ExecutionService.sampleSetup ExecutionService.freshService
    (twoTrades "SL_HIT" "TRAIL_HIT") rfl hmeet⟩

/-- Trades of the same size and price that are stopped out alike: the second exit is answered with
the fill of the first, and of the four orders the broker sees three. -/
theorem second_exit_answered_from_first :
    ∃ first second, (afterTrades "SL_HIT" "SL_HIT").orders[1]? = some first ∧
      (afterTrades "SL_HIT" "SL_HIT").orders[3]? = some second ∧
      first.isExit ∧ second.isExit ∧ first.position ≠ second.position ∧
      AnsweredFrom first second ∧
      (afterTrades "SL_HIT" "SL_HIT").execution.placements.length = 3 := by
  have hfirst : 1 < (afterTrades "SL_HIT" "SL_HIT").orders.length := by decide +kernel
  have hsecond : 3 < (afterTrades "SL_HIT" "SL_HIT").orders.length := by decide +kernel
  refine ⟨_, _, List.getElem?_eq_getElem hfirst, List.getElem?_eq_getElem hsecond,
    by decide +kernel +revert, by decide +kernel +revert, by decide +kernel +revert, ?_,
    by decide +kernel⟩
  refine ⟨(12 * hour, sampleFill .filled 1 90), ⟨?_, ?_⟩, ?_, ?_⟩
  · decide +kernel +revert
  · decide +kernel +revert
  · decide +kernel +revert
  · rfl

end PositionService

end AutoTrade.Positions
