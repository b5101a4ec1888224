import AutoTrade.Library.Run
import AutoTrade.Library.Selection
import AutoTrade.Library.Table
import AutoTrade.Runtime
import Mathlib.Data.List.MinMax

/-! # The smart router

`core/execution/smart_router.py`: which brokers are available, what they score,
and which one an order goes to. Adapters are what they answer at a time; the
router reads the clock anew whenever it lists the available brokers, which it
also does for every single score.
-/

namespace AutoTrade.Execution

open AutoTrade.Library

structure BrokerAdapter where
  /-- The `status` of the dict `health_check(9999)` returns, if it returns one. -/
  healthCheck : Time → Except PyExc (Option String)
  getOrderStatus : Time → Except PyExc String

structure RouterConfig where
  strategy : String := "lowest_fee"
  preferredBroker : String := ""
  blacklistedBrokers : List String := []
  feeWeights : Dict String ℚ := Table.empty
  brokerTimeout : ℚ := 30

structure SmartRouter where
  routers : Dict String BrokerAdapter
  cfg : RouterConfig := {}
  health : Dict String Bool := Table.empty
  latency : Dict String (List ℚ) := Table.empty
  fillRates : Dict String (List Bool) := Table.empty
  lastHealthy : Dict String Time := Table.empty
  rrIndex : Nat := 0

structure BrokerScore where
  broker : String
  score : ℚ
  feeScore : ℚ
  healthScore : ℚ
  latencyScore : ℚ
  executionScore : ℚ
  isAvailable : Bool
deriving DecidableEq, Repr

namespace SmartRouter

/-! ## Availability -/

/-- What `available_brokers` catches around an adapter's calls. -/
def adapterHandled : List ExcClass := [.attributeError, .typeError, .osError]

def isHealthy (r : SmartRouter) (name : String) : Bool := (r.health.get? name).getD true

def markHealthy (r : SmartRouter) (name : String) (now : Time) : SmartRouter :=
  { r with health := r.health.set name true, lastHealthy := r.lastHealthy.set name now }

/-- The health check of a broker whose timeout has passed. -/
def recheck (r : SmartRouter) (now : Time) (name : String) (adapter : BrokerAdapter) :
    SmartRouter × Except PyExc Bool :=
  match adapter.healthCheck now with
  | .ok status =>
      if status = some "healthy" then (r.markHealthy name now, .ok true) else (r, .ok false)
  | .error e => (r, if e.caughtBy adapterHandled then .ok false else .error e)

/-- Whatever the order status is, and whether or not it is read, the broker stays available. -/
def verify (adapter : BrokerAdapter) (now : Time) : Except PyExc Bool :=
  match adapter.getOrderStatus now with
  | .ok _ => .ok true
  | .error e => if e.caughtBy adapterHandled then .ok true else .error e

def checkBroker (r : SmartRouter) (now : Time) (name : String) (adapter : BrokerAdapter) :
    SmartRouter × Except PyExc Bool :=
  if name ∈ r.cfg.blacklistedBrokers then (r, .ok false)
  else if r.isHealthy name then (r, verify adapter now)
  else if totalSeconds now ((r.lastHealthy.get? name).getD 0) < r.cfg.brokerTimeout then
    (r, .ok false)
  else
    match r.recheck now name adapter with
    | (r, .ok true) => (r, verify adapter now)
    | other => other

def availableFrom (now : Time) :
    SmartRouter → List (String × BrokerAdapter) → SmartRouter × Except PyExc (List String)
  | r, [] => (r, .ok [])
  | r, (name, adapter) :: rest =>
      match r.checkBroker now name adapter with
      | (r, .error e) => (r, .error e)
      | (r, .ok up) =>
          match availableFrom now r rest with
          | (r, .error e) => (r, .error e)
          | (r, .ok available) => (r, .ok (if up then name :: available else available))

def availableBrokers (r : SmartRouter) (now : Time) : SmartRouter × Except PyExc (List String) :=
  availableFrom now r r.routers.rows

/-! ## Scores -/

def defaultFees : Dict String ℚ :=
  Dict.set (Dict.set (Dict.set Table.empty "KITE" 20) "ANGEL" 15) "PAPER" 0

/-- The default fees with those of the configuration over them. -/
def allFees (r : SmartRouter) : Dict String ℚ :=
  r.cfg.feeWeights.rows.foldl (fun fees entry => fees.set entry.1 entry.2) defaultFees

def actualFee (r : SmartRouter) (broker : String) : ℚ := (r.allFees.get? broker).getD 20

def maxFee (r : SmartRouter) : ℚ := (r.allFees.rows.map Prod.snd).max?.getD 20

def feeScore (r : SmartRouter) (broker : String) : ℚ :=
  if 0 < r.maxFee then 1 - r.actualFee broker / r.maxFee else 1

def latencyScore (r : SmartRouter) (broker : String) : ℚ :=
  let latencies := (r.latency.get? broker).getD []
  if latencies = [] then 1 / 2 else max 0 (1 - latencies.sum / latencies.length / 1000)

def executionScore (r : SmartRouter) (broker : String) : ℚ :=
  let fills := (r.fillRates.get? broker).getD []
  if fills = [] then 1 / 2 else (fills.count true : ℚ) / fills.length

/-- The score of a broker of which it is known whether it is available. -/
def brokerScore (r : SmartRouter) (broker : String) (isAvailable : Bool) : BrokerScore :=
  let healthScore : ℚ := if isAvailable then 1 else 0
  { broker
    score := roundTo 4 (r.feeScore broker * (35 / 100) + healthScore * (30 / 100) +
      r.latencyScore broker * (15 / 100) + r.executionScore broker * (20 / 100))
    feeScore := roundTo 4 (r.feeScore broker)
    healthScore := roundTo 4 healthScore
    latencyScore := roundTo 4 (r.latencyScore broker)
    executionScore := roundTo 4 (r.executionScore broker)
    isAvailable }

def scoreBroker (r : SmartRouter) (now : Time) (broker : String) :
    SmartRouter × Except PyExc (Option BrokerScore) :=
  if broker ∈ r.cfg.blacklistedBrokers then (r, .ok none)
  else if ¬ r.routers.contains broker then (r, .ok none)
  else
    match r.availableBrokers now with
    | (r, .error e) => (r, .error e)
    | (r, .ok available) => (r, .ok (some (r.brokerScore broker (broker ∈ available))))

/-! ## Selection -/

/-- When a selection reads the clock: first, and for the score of each broker. -/
structure SelectionClock where
  now : Time
  scoredAt : String → Time

def selectLowestFee (r : SmartRouter) (available : List String) : Option String :=
  available.argmin r.actualFee

def selectRoundRobin (r : SmartRouter) (available : List String) : SmartRouter × Option String :=
  ({ r with rrIndex := (r.rrIndex + 1) % 1000 }, available[r.rrIndex % available.length]?)

def weightedFrom (scoredAt : String → Time) :
    SmartRouter → String → ℚ → List String → SmartRouter × Except PyExc (Option String)
  | r, best, _, [] => (r, .ok (some best))
  | r, best, bestScore, broker :: rest =>
      match r.scoreBroker (scoredAt broker) broker with
      | (r, .error e) => (r, .error e)
      | (r, .ok none) => weightedFrom scoredAt r best bestScore rest
      | (r, .ok (some data)) =>
          if bestScore < data.score then weightedFrom scoredAt r broker data.score rest
          else weightedFrom scoredAt r best bestScore rest

def selectWeighted (r : SmartRouter) (scoredAt : String → Time) (first : String)
    (rest : List String) : SmartRouter × Except PyExc (Option String) :=
  weightedFrom scoredAt r first (-1) (first :: rest)

def selectBroker (r : SmartRouter) (clock : SelectionClock) :
    SmartRouter × Except PyExc (Option String) :=
  match r.availableBrokers clock.now with
  | (r, .error e) => (r, .error e)
  | (r, .ok []) => (r, .ok none)
  | (r, .ok (first :: rest)) =>
      let preferred := r.cfg.preferredBroker
      if preferred ≠ "" ∧ preferred ∈ first :: rest then (r, .ok (some preferred))
      else if r.cfg.strategy = "lowest_fee" then (r, .ok (r.selectLowestFee (first :: rest)))
      else if r.cfg.strategy = "round_robin" then
        let (r, broker) := r.selectRoundRobin (first :: rest)
        (r, .ok broker)
      else if r.cfg.strategy = "weighted" then r.selectWeighted clock.scoredAt first rest
      else (r, .ok (some first))

end SmartRouter

end AutoTrade.Execution
