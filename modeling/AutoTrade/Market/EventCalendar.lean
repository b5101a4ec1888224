import AutoTrade.Library.Calendar
import AutoTrade.Library.Table
import AutoTrade.Runtime

/-! # The event calendar

`core/event_calendar.py`: which days are market days, what the market does at a
time of day, and when it opens next. Days are those of the Gregorian calendar,
day 0 being the first of January of the year 1. Dates come as what
`date.fromisoformat` makes of their texts, and the holidays fetched from the
exchange are part of the calendar.
-/

namespace AutoTrade.Market

open AutoTrade.Library

/-! ## Dates and times -/

/-- Microseconds since midnight. -/
def timeOfDay (hours minutes : Int) : Time := hours * hour + minutes * 60 * second

structure DateTime where
  date : Int
  time : Time
deriving DecidableEq, Repr

/-- `date.weekday()`: Monday is 0. -/
def weekday (day : Int) : Int := day % 7

/-- `date(year, month, day)`. -/
def dateOf (year : Int) (month : Nat) (day : Int) : Int :=
  daysBefore year + daysBeforeMonth (isLeap year) month + day - 1

/-- `date.max`. -/
def maxDate : Int := 3652058

def dateOverflow : PyExc := ⟨.other, "date value out of range"⟩

/-! ## Market days -/

/-- An entry of `event_dates`; one whose date is missing or cannot be read has none. -/
structure EventDate where
  date : Option Int
  /-- In upper case. -/
  eventType : Option String := none
  blockEntries : Option Bool := none

structure CalendarConfig where
  eventDates : List EventDate := []
  eventDayBlockEntries : Bool := false
  nseHolidays : List (Option Int) := []

/-- A configuration with the holidays last fetched from the exchange. -/
structure EventCalendar where
  cfg : CalendarConfig := {}
  liveHolidays : List Int := []

namespace EventCalendar

/-- `_build_index`, as far as the holidays need it: whether the event of a date blocks entries. The
last entry for a date counts. -/
def buildIndex (cal : EventCalendar) : Dict Int Bool :=
  cal.cfg.eventDates.foldl
    (fun index event =>
      match event.date with
      | none => index
      | some d => index.set d (event.blockEntries.getD cal.cfg.eventDayBlockEntries))
    Table.empty

/-- Membership in `_nse_holidays`. -/
def isNseHoliday (cal : EventCalendar) (day : Int) : Bool :=
  decide (cal.buildIndex.get? day = some true) || decide (day ∈ cal.liveHolidays)

def isMarketDay (cal : EventCalendar) (day : Int) : Bool :=
  if weekday day ∈ [5, 6] then false
  else !(cal.isNseHoliday day || decide (some day ∈ cal.cfg.nseHolidays))

/-! ## The session of a day -/

/-- `MarketStatus`; `get_category_session_state` returns the same four texts. -/
inductive MarketStatus
  | open
  | preMarket
  | postMarket
  | nonTrading
deriving DecidableEq, Repr

def nseOpen : Time := timeOfDay 9 15

def nseClose : Time := timeOfDay 15 30

def getMarketStatus (cal : EventCalendar) (now : DateTime) : MarketStatus :=
  if ¬ cal.isMarketDay now.date then .nonTrading
  else if now.time < nseOpen then .preMarket
  else if now.time ≤ nseClose then .open
  else .postMarket

/-! ## The next open -/

/-- The first market day among as many days from `day` on, if one is left; with none, the day after
them is computed, too. -/
def scanMarketDays (cal : EventCalendar) : Nat → Int → Except PyExc (Option Int)
  | 0, _ => .ok none
  | left + 1, day =>
      if cal.isMarketDay day then .ok (some day)
      else if maxDate ≤ day then .error dateOverflow
      else cal.scanMarketDays left (day + 1)

/-- `get_next_market_open`. -/
def getNextMarketOpen (cal : EventCalendar) (now : DateTime) : Except PyExc DateTime :=
  if cal.isMarketDay now.date ∧ now.time < nseOpen then .ok ⟨now.date, nseOpen⟩
  else if maxDate ≤ now.date then .error dateOverflow
  else
    match cal.scanMarketDays 14 (now.date + 1) with
    | .error e => .error e
    | .ok (some day) => .ok ⟨day, nseOpen⟩
    | .ok none => .ok ⟨now.date + 7, nseOpen⟩

end EventCalendar

end AutoTrade.Market
