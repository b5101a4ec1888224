import AutoTrade.Market.EventCalendar

/-! # The exchange calendar engine

`core/exchange_calendar_engine.py` over the event calendar: the special sessions
of a year, from the exchange's lists and from the configuration, the status of
the market and of single categories, and the expiries of a year. Sessions of the
configuration have no times. `str.strip().upper()` on a category is a parameter:
the results hold for every way of normalising it. The monthly expiries are
computed and thrown away, so they are left out.
-/

namespace AutoTrade.Market

open AutoTrade.Library EventCalendar

/-! ## Special sessions -/

inductive SessionType
  | muhurat
  | halfDay
  | specialSession
deriving DecidableEq, Repr

def SessionType.ofText (text : String) : Option SessionType :=
  if text = "MUHURAT" then some .muhurat
  else if text = "HALF_DAY" then some .halfDay
  else if text = "SPECIAL_SESSION" then some .specialSession
  else none

structure SpecialSession where
  date : Int
  type : SessionType
  openTime : Option Time
  closeTime : Option Time
deriving DecidableEq, Repr

/-- `_NSE_SPECIAL_SESSIONS`. -/
def nseSpecialSessions (year : Int) : List (Int × SessionType) :=
  if year = 2025 then [(dateOf 2025 10 21, .muhurat)] else []

/-- `_NSE_HALF_DAYS`. -/
def nseHalfDays (year : Int) : List Int :=
  if year = 2025 then [dateOf 2025 3 14, dateOf 2025 10 21] else []

def muhuratOpen : Time := timeOfDay 18 15

def muhuratClose : Time := timeOfDay 19 15

def halfDayClose : Time := timeOfDay 12 30

def noneComparison : PyExc :=
  ⟨.typeError, "'<=' not supported between instances of 'NoneType' and 'datetime.time'"⟩

/-- The times of a session; the key is always there, so the default of `get` is never used, and a
comparison with `None` raises. -/
def SpecialSession.times (s : SpecialSession) : Except PyExc (Time × Time) :=
  match s.openTime, s.closeTime with
  | some opens, some closes => .ok (opens, closes)
  | _, _ => .error noneComparison

def listedSession (entry : Int × SessionType) : SpecialSession :=
  { date := entry.1
    type := entry.2
    openTime := if entry.2 = .muhurat then some muhuratOpen else none
    closeTime := if entry.2 = .muhurat then some muhuratClose else none }

/-- A half day is added unless the day has a Muhurat session. -/
def addHalfDay (sessions : List SpecialSession) (day : Int) : List SpecialSession :=
  if sessions.any fun s => decide (s.date = day ∧ s.type = .muhurat) then sessions
  else sessions ++ [⟨day, .halfDay, some nseOpen, some halfDayClose⟩]

/-- An event of the configuration is added if it is of a special type and its day has no session. -/
def addEvent (sessions : List SpecialSession) (event : EventDate) : List SpecialSession :=
  match event.eventType.bind SessionType.ofText, event.date with
  | some type, some day =>
      if sessions.any fun s => decide (s.date = day) then sessions
      else sessions ++ [⟨day, type, none, none⟩]
  | _, _ => sessions

namespace EventCalendar

variable (cal : EventCalendar)

def getSpecialSessions (year : Int) : List SpecialSession :=
  let listed := (nseHalfDays year).foldl addHalfDay ((nseSpecialSessions year).map listedSession)
  (cal.cfg.eventDates.foldl addEvent listed).mergeSort fun s s' => decide (s.date ≤ s'.date)

def isMuhuratTrading (day : Int) : Bool :=
  (cal.getSpecialSessions (yearOf day)).any fun s => decide (s.date = day ∧ s.type = .muhurat)

def isHalfDay (day : Int) : Bool :=
  (cal.getSpecialSessions (yearOf day)).any fun s => decide (s.date = day ∧ s.type = .halfDay)

/-! ## Market status -/

inductive ExtendedMarketStatus
  | open
  | preMarket
  | postMarket
  | nonTrading
  | halfDay
  | muhurat
deriving DecidableEq, Repr

/-- `ExtendedMarketStatus(base.value)`. -/
def MarketStatus.extended : MarketStatus → ExtendedMarketStatus
  | .open => .open
  | .preMarket => .preMarket
  | .postMarket => .postMarket
  | .nonTrading => .nonTrading

/-- Before, within or after a session with both ends. -/
def placeIn (opens closes time : Time) : MarketStatus :=
  if time < opens then .preMarket else if time ≤ closes then .open else .postMarket

/-- The status within a special session, under the name it has while it lasts. -/
def sessionStatus (during : ExtendedMarketStatus) (opens closes time : Time) :
    ExtendedMarketStatus :=
  if opens ≤ time ∧ time ≤ closes then during
  else if time < opens then .preMarket
  else .postMarket

/-- The status by the first Muhurat or half-day session of the day. -/
def specialStatus (now : DateTime) :
    List SpecialSession → Option (Except PyExc ExtendedMarketStatus)
  | [] => none
  | s :: rest =>
      if s.date ≠ now.date then specialStatus now rest
      else
        match s.type with
        | .muhurat => some (s.times.map fun t => sessionStatus .muhurat t.1 t.2 now.time)
        | .halfDay => some (.ok (sessionStatus .halfDay nseOpen halfDayClose now.time))
        | .specialSession => specialStatus now rest

/-- `ExchangeCalendarEngine.get_market_status`. -/
def getExtendedStatus (now : DateTime) : Except PyExc ExtendedMarketStatus :=
  (specialStatus now (cal.getSpecialSessions (yearOf now.date))).getD
    (.ok (MarketStatus.extended (cal.getMarketStatus now)))

/-! ## Categories -/

structure SessionSchedule where
  opens : Time
  closes : Time
deriving DecidableEq, Repr

def equityHours : SessionSchedule := ⟨timeOfDay 9 15, timeOfDay 15 30⟩

def derivativeHours : SessionSchedule := ⟨timeOfDay 9 15, timeOfDay 15 40⟩

def currencyHours : SessionSchedule := ⟨timeOfDay 9 0, timeOfDay 17 0⟩

def commodityHours : SessionSchedule := ⟨timeOfDay 9 0, timeOfDay 23 30⟩

/-- `CATEGORY_SESSION_SCHEDULES`. -/
def categorySessionSchedules : List (String × SessionSchedule) :=
  [("EQUITY", equityHours), ("LARGE_CAP_EQUITY", equityHours), ("MID_CAP_EQUITY", equityHours),
    ("SMALL_CAP_EQUITY", equityHours), ("MICRO_CAP_EQUITY", equityHours),
    ("PENNY_SME", equityHours), ("ETFS_REITS", equityHours), ("DERIVATIVES", derivativeHours),
    ("INDEX_OPTIONS", derivativeHours), ("STOCK_OPTIONS", derivativeHours),
    ("FUTURES", derivativeHours), ("CURRENCIES", currencyHours), ("CURRENCY", currencyHours),
    ("COMMODITIES", commodityHours), ("COMMODITY", commodityHours)]

def hasWord (words : List String) (category : String) : Bool :=
  words.any fun w => inText w category

/-- The hours of a category; one that is not listed goes by the words in it. -/
def scheduleOf (category : String) : SessionSchedule :=
  match categorySessionSchedules.lookup category with
  | some hours => hours
  | none =>
      if hasWord ["COMMODITY", "MCX", "GOLD", "SILVER", "CRUDE"] category then commodityHours
      else if hasWord ["CURRENCY", "CDS", "FOREX"] category then currencyHours
      else if hasWord ["OPTION", "FUTURES", "DERIVATIVE", "0DTE"] category then derivativeHours
      else equityHours

/-- `str(category or "EQUITY").strip().upper()`. -/
def categoryName (normalize : String → String) (category : Option String) : String :=
  normalize (orElse category "EQUITY")

/-- The first Muhurat session of the day. -/
def muhuratSession (day : Int) : Option SpecialSession :=
  (cal.getSpecialSessions (yearOf day)).find? fun s => decide (s.date = day ∧ s.type = .muhurat)

/-- `is_category_session_open`, of a category by its normalised name. -/
def isCategorySessionOpen (category : String) (now : DateTime) : Except PyExc Bool :=
  if ¬ cal.isMarketDay now.date then
    match if cal.isMuhuratTrading now.date then cal.muhuratSession now.date else none with
    | some s => s.times.map fun t => decide (t.1 ≤ now.time ∧ now.time ≤ t.2)
    | none => .ok false
  else if cal.isHalfDay now.date ∧ category ∉ ["COMMODITIES", "COMMODITY"] then
    .ok (decide (nseOpen ≤ now.time ∧ now.time ≤ halfDayClose))
  else
    let sched := scheduleOf category
    .ok (decide (sched.opens ≤ now.time ∧ now.time ≤ sched.closes))

/-- `get_category_session_state`. -/
def getCategorySessionState (category : String) (now : DateTime) : Except PyExc MarketStatus :=
  if ¬ cal.isMarketDay now.date then
    match if cal.isMuhuratTrading now.date then cal.muhuratSession now.date else none with
    | some s => s.times.map fun t => placeIn t.1 t.2 now.time
    | none => .ok .nonTrading
  else .ok (placeIn (scheduleOf category).opens (scheduleOf category).closes now.time)

/-! ## Expiries -/

structure ExpiryRecord where
  indexName : String
  expiryDate : Int
  isWeekly : Bool := true
  tradingWeek : Int := 0
deriving DecidableEq, Repr

/-- `_WEEKLY_EXPIRY_MAP`. -/
def weeklyExpiryMap : List (String × Int) :=
  [("NIFTY", 3), ("BANKNIFTY", 2), ("FINNIFTY", 1), ("MIDCPNIFTY", 0), ("SENSEX", 4)]

def expiryRecord (indexName : String) (day : Int) : ExpiryRecord :=
  { indexName, expiryDate := day, isWeekly := true, tradingWeek := isoWeek (weekIndex day) }

/-- The market days among the days a week apart from `current` on, up to the end of the year. -/
def weeklyExpiries (year : Int) : Nat → Int → Except PyExc (List Int)
  | 0, _ => .ok []
  | left + 1, current =>
      if yearOf current ≠ year then .ok []
      else if maxDate < current + 7 then .error dateOverflow
      else
        (weeklyExpiries year left (current + 7)).map fun later =>
          if cal.isMarketDay current then current :: later else later

/-- The first day of the year with this weekday. -/
def firstWeekday (year : Int) (target : Int) : Int :=
  let first := daysBefore year
  let ahead := target - weekday first
  first + if ahead < 0 then ahead + 7 else ahead

/-- `get_expiry_calendar` for one index; an index that is not tracked has no entry. No year has more
than 53 days a week apart. -/
def getExpiryCalendar (year : Int) (indexName : String) : Except PyExc (List ExpiryRecord) :=
  match weeklyExpiryMap.lookup indexName with
  | none => .ok []
  | some target =>
      (cal.weeklyExpiries year 54 (firstWeekday year target)).map
        (·.map (expiryRecord indexName))

def getNextExpiry (indexName : String) (fromDate : Int) : Except PyExc (Option ExpiryRecord) :=
  (cal.getExpiryCalendar (yearOf fromDate) indexName).map fun expiries =>
    expiries.find? fun e => decide (fromDate ≤ e.expiryDate)

def isExpiryDay (indexName : String) (day : Int) : Except PyExc Bool :=
  (cal.getNextExpiry indexName day).map fun next =>
    next.any fun e => decide (e.expiryDate = day)

end EventCalendar

end AutoTrade.Market
