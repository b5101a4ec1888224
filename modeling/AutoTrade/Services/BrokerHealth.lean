import AutoTrade.Library.Run
import AutoTrade.Library.Table
import AutoTrade.Runtime

/-! # The broker health service

A check of a broker asks its adapter for a connection, for a quote and for its
credentials, and stores what it finds under the name of the broker. A broker is
available, and may be recommended, by what is stored. The clock is read once in
a check.
-/

namespace AutoTrade.Services

open AutoTrade.Library

inductive BrokerStatus
  | connected
  | disconnected
  | error
  | recovering
  | unknown
deriving DecidableEq, Repr

inductive HealthCheckType
  | connectivity
  | latency
  | authentication
deriving DecidableEq, Repr

/-- `ConnectionError` is an `OSError`. -/
inductive HealthExcClass
  | brokerConnectionError
  | brokerTimeoutError
  | osError
  | valueError
  | attributeError
  | other
deriving DecidableEq, Repr

structure HealthExc where
  cls : HealthExcClass
  message : String
deriving DecidableEq, Repr

structure BrokerHealthMetrics where
  status : BrokerStatus
  latencyMs : ℚ := 0
  errorRate : ℚ := 0
  successRate : ℚ := 1
  lastSuccess : Option Time := none
  lastError : Option Time := none
  consecutiveErrors : Nat := 0
  consecutiveSuccesses : Nat := 0
  errorMessage : Option String := none
  authenticationValid : Bool := true
deriving DecidableEq, Repr

structure HealthCheckResult where
  checkType : HealthCheckType
  success : Bool
  latencyMs : ℚ
  timestamp : Time
  errorMessage : Option String := none
deriving DecidableEq, Repr

structure BrokerHealthServiceConfig where
  comprehensiveCheckInterval : Int := 300
  latencyCriticalThreshold : ℚ := 5000
  maxHistorySize : Nat := 1000
  historyRetentionHours : Int := 24

structure BrokerHealthService where
  /-- The names of `broker_adapters`. -/
  brokers : List String
  nodup : brokers.Nodup
  healthMetrics : Dict String BrokerHealthMetrics
  healthHistory : Dict String (List HealthCheckResult)
  lastHealthCheck : Dict String Time

/-! ## Adapters -/

/-- What an adapter does in one check: the result of each call, where it has one, and how long the
calls took. -/
structure AdapterBehaviour where
  /-- The truth of what `ping` returns. -/
  ping : Option (Except HealthExc Bool) := none
  /-- `get_account_info` returns something. -/
  getAccountInfo : Option (Except HealthExc Bool) := none
  checkConnection : Option (Except HealthExc Bool) := none
  isAdapter : Bool := true
  getQuote : Option (Except HealthExc Unit) := none
  getLatestPrice : Option (Except HealthExc Unit) := none
  validateToken : Option (Except HealthExc Bool) := none
  checkAuth : Option (Except HealthExc Bool) := none
  /-- There is an `api_key`, and it is not empty. -/
  hasApiKey : Bool := false
  connectivityMs : ℚ := 0
  latencyMs : ℚ := 0
  authenticationMs : ℚ := 0
  checkMs : ℚ := 0

namespace AdapterBehaviour

def connectivity (a : AdapterBehaviour) : Except HealthExc Bool :=
  (a.ping.or (a.getAccountInfo.or a.checkConnection)).getD (.ok a.isAdapter)

def latency (a : AdapterBehaviour) : Except HealthExc Bool :=
  ((a.getQuote.or a.getLatestPrice).getD (.ok ())).map fun _ => true

def authentication (a : AdapterBehaviour) : Except HealthExc Bool :=
  (a.validateToken.or a.checkAuth).getD (.ok a.hasApiKey)

end AdapterBehaviour

/-! ## Probes -/

/-- A call of the adapter; an exception of these classes is a result without success. -/
def probe (checkType : HealthCheckType) (handled : List HealthExcClass)
    (call : Except HealthExc Bool) (latencyMs : ℚ) (now : Time) :
    Except HealthExc HealthCheckResult :=
  match call with
  | .ok success => .ok { checkType, success, latencyMs, timestamp := now }
  | .error e =>
      if e.cls ∈ handled then
        .ok
          { checkType, success := false, latencyMs, timestamp := now
            errorMessage := some e.message }
      else .error e

def connectivityHandled : List HealthExcClass := [.osError, .valueError, .attributeError]

def checkConnectivity (a : AdapterBehaviour) (now : Time) : Except HealthExc HealthCheckResult :=
  probe .connectivity connectivityHandled a.connectivity a.connectivityMs now

def checkLatency (a : AdapterBehaviour) (now : Time) : Except HealthExc HealthCheckResult :=
  probe .latency [.osError, .valueError, .brokerTimeoutError, .attributeError] a.latency a.latencyMs
    now

def checkAuthentication (a : AdapterBehaviour) (now : Time) : Except HealthExc HealthCheckResult :=
  probe .authentication [.osError, .valueError, .attributeError] a.authentication
    a.authenticationMs now

/-! ## The service -/

namespace BrokerHealthService

/-- `datetime.min`. -/
def datetimeMin : Time := -62135596800 * second

def initializeBrokerMetrics (s : BrokerHealthService) (name : String) : BrokerHealthService :=
  { s with
    healthMetrics := s.healthMetrics.set name { status := .unknown }
    healthHistory := s.healthHistory.set name []
    lastHealthCheck := s.lastHealthCheck.set name datetimeMin }

def init (brokers : List String) (nodup : brokers.Nodup) : BrokerHealthService :=
  brokers.foldl initializeBrokerMetrics
    { brokers, nodup, healthMetrics := Table.empty, healthHistory := Table.empty
      lastHealthCheck := Table.empty }

/-- `BrokerHealthMetrics` of a name that has none are unknown. -/
def getBrokerMetrics (s : BrokerHealthService) (name : String) : BrokerHealthMetrics :=
  (s.healthMetrics.get? name).getD { status := .unknown }

def isBrokerAvailable (s : BrokerHealthService) (name : String) : Bool :=
  decide ((s.getBrokerMetrics name).status ∈ [.connected, .recovering])

def isHealthy (m : BrokerHealthMetrics) : Bool :=
  decide (m.status = .connected ∨
    m.status = .recovering ∧ m.errorRate < 1 / 10 ∧ 9 / 10 < m.successRate)

def healthScore (m : BrokerHealthMetrics) : ℚ :=
  min (m.latencyMs / 1000) 10 + m.errorRate * 10 + (1 - m.successRate) * 10

def getRecommendedBroker (s : BrokerHealthService) : Option String :=
  let healthy := s.healthMetrics.rows.filter fun e => isHealthy e.2
  (healthy.mergeSort fun d e => decide (healthScore d.2 ≤ healthScore e.2)).head?.map Prod.fst

def historyOf (s : BrokerHealthService) (name : String) : List HealthCheckResult :=
  (s.healthHistory.get? name).getD []

variable (config : BrokerHealthServiceConfig)

/-- The oldest result leaves a full history, and all results leave with age. -/
def recordCheckResult (s : BrokerHealthService) (name : String) (result : HealthCheckResult)
    (now : Time) : BrokerHealthService :=
  let appended := s.historyOf name ++ [result]
  let kept := appended.drop (appended.length - config.maxHistorySize)
  let cutoff := now - config.historyRetentionHours * hour
  { s with
    healthHistory := s.healthHistory.set name (kept.dropWhile fun r => decide (r.timestamp < cutoff)) }

def lastTime (history : List HealthCheckResult) (success : Bool) : Option Time :=
  (history.reverse.find? fun r => r.success == success).map HealthCheckResult.timestamp

def streak (history : List HealthCheckResult) (success : Bool) : Nat :=
  (history.reverse.takeWhile fun r => r.success == success).length

/-- Above the warning threshold a broker is still connected. -/
def statusOfLatency (latencyMs : ℚ) : BrokerStatus :=
  if config.latencyCriticalThreshold < latencyMs then .error else .connected

/-- The metrics of a broker that has a connection. The rates that `_update_error_rates` writes are
those of the metrics these replace. -/
def connectedMetrics (s : BrokerHealthService) (name : String)
    (latency authentication : HealthCheckResult) : BrokerHealthMetrics :=
  let history := s.historyOf name
  let status := statusOfLatency config latency.latencyMs
  { status := if !authentication.success && decide (status = .connected) then .error else status
    latencyMs := latency.latencyMs
    lastSuccess := lastTime history true
    lastError := lastTime history false
    consecutiveErrors := streak history false
    consecutiveSuccesses := streak history true
    authenticationValid := authentication.success }

def storeMetrics (s : BrokerHealthService) (name : String) (m : BrokerHealthMetrics) (now : Time) :
    BrokerHealthService :=
  { s with
    healthMetrics := s.healthMetrics.set name m
    lastHealthCheck := s.lastHealthCheck.set name now }

def checkHandled : List HealthExcClass :=
  [.brokerConnectionError, .brokerTimeoutError, .osError, .valueError, .attributeError]

/-- The `except` clause of a check; another exception is not caught. -/
def checkFailed (s : BrokerHealthService) (name : String) (latencyMs checkMs : ℚ) (e : HealthExc)
    (now : Time) : BrokerHealthService × Except HealthExc BrokerHealthMetrics :=
  if e.cls ∈ checkHandled then
    let m : BrokerHealthMetrics := { status := .error, latencyMs, errorMessage := some e.message }
    let result : HealthCheckResult :=
      { checkType := .connectivity, success := false, latencyMs := checkMs, timestamp := now
        errorMessage := some e.message }
    ((s.recordCheckResult config name result now).storeMetrics name m now, .ok m)
  else (s, .error e)

/-- `check_broker_health`. -/
def checkBrokerHealth (s : BrokerHealthService) (name : String) (a : AdapterBehaviour)
    (now : Time) : BrokerHealthService × Except HealthExc BrokerHealthMetrics :=
  if name ∉ s.brokers then
    (s, .ok
      { status := .unknown, errorMessage := some ("Broker " ++ name ++ " not found in adapters") })
  else
    match checkConnectivity a now with
    | .error e => s.checkFailed config name 0 a.checkMs e now
    | .ok connectivity =>
        if !connectivity.success then
          -- the metrics are returned, and not stored
          (s.recordCheckResult config name connectivity now,
            .ok { status := .disconnected, errorMessage := connectivity.errorMessage })
        else
          match checkLatency a now with
          | .error e => s.checkFailed config name 0 a.checkMs e now
          | .ok latency =>
              match checkAuthentication a now with
              | .error e => s.checkFailed config name latency.latencyMs a.checkMs e now
              | .ok authentication =>
                  let m := s.connectedMetrics config name latency authentication
                  let result : HealthCheckResult :=
                    { checkType := .connectivity, success := true, latencyMs := m.latencyMs
                      timestamp := now }
                  ((s.recordCheckResult config name result now).storeMetrics name m now, .ok m)

def isCacheFresh (s : BrokerHealthService) (name : String) (now : Time) : Bool :=
  (s.lastHealthCheck.get? name).any fun last =>
    decide (totalSeconds now last < config.comprehensiveCheckInterval)

/-- One broker of `get_all_brokers_health`. -/
def getBrokerHealth (observe : String → AdapterBehaviour) (now : Time)
    (r : BrokerHealthService × Dict String BrokerHealthMetrics) (name : String) :
    (BrokerHealthService × Dict String BrokerHealthMetrics) × Option HealthExc :=
  if r.1.isCacheFresh config name now then ((r.1, r.2.set name (r.1.getBrokerMetrics name)), none)
  else
    match r.1.checkBrokerHealth config name (observe name) now with
    | (s, .ok m) => ((s, r.2.set name m), none)
    | (s, .error e) => ((s, r.2), some e)

/-- `get_all_brokers_health`. -/
def getAllBrokersHealth (s : BrokerHealthService) (observe : String → AdapterBehaviour)
    (now : Time) : BrokerHealthService × Except HealthExc (Dict String BrokerHealthMetrics) :=
  match loop (getBrokerHealth config observe now) (s, Table.empty) s.brokers with
  | (r, none) => (r.1, .ok r.2)
  | (r, some e) => (r.1, .error e)

/-- The metrics of a broker, which are made when there are none, after what `f` writes. -/
def modifyMetrics (s : BrokerHealthService) (name : String)
    (f : BrokerHealthMetrics → BrokerHealthMetrics) : BrokerHealthService :=
  let known := if s.healthMetrics.contains name then s else s.initializeBrokerMetrics name
  { known with healthMetrics := known.healthMetrics.set name (f (known.getBrokerMetrics name)) }

/-- An exponential moving average with a smoothing factor of 0.1. -/
def smoothed (new old : ℚ) : ℚ := 1 / 10 * new + (1 - 1 / 10) * old

def recordBrokerSuccess (s : BrokerHealthService) (name : String) (latencyMs : ℚ) (now : Time) :
    BrokerHealthService :=
  s.modifyMetrics name fun m =>
    { m with
      lastSuccess := some now
      consecutiveSuccesses := m.consecutiveSuccesses + 1
      consecutiveErrors := 0
      successRate := smoothed 1 m.successRate
      latencyMs := if 0 < latencyMs then smoothed latencyMs m.latencyMs else m.latencyMs }

/-- `record_broker_error`, without the failover it may ask for. -/
def recordBrokerError (s : BrokerHealthService) (name : String) (latencyMs : ℚ) (now : Time) :
    BrokerHealthService :=
  s.modifyMetrics name fun m =>
    { m with
      lastError := some now
      consecutiveErrors := m.consecutiveErrors + 1
      consecutiveSuccesses := 0
      errorRate := smoothed 1 m.errorRate
      latencyMs := if 0 < latencyMs then smoothed latencyMs m.latencyMs else m.latencyMs }

end BrokerHealthService

end AutoTrade.Services
