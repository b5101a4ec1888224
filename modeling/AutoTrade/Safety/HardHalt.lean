import AutoTrade.Runtime
import AutoTrade.Library.Run
import Mathlib.Logic.Function.Basic

/-! # The process-wide halt

`core/safety_state.py`. The flag `_HARD_HALT`, its reason and the clear history are shared by every
thread. `clear_hard_halt` runs under a lock, `trip_hard_halt` under none, so a call is modelled as
the accesses to the shared variables it makes one after another, and the threads take turns between
any two of them.
-/

namespace AutoTrade.Safety

/-- `_HALT_CLEAR_COOLDOWN`. -/
def haltClearCooldown : Time := 60 * second

/-- `_clear_halt_history` keeps this many entries. -/
def clearHistoryLimit : Nat := 100

/-- An entry of `_clear_halt_history`. -/
structure ClearRecord where
  timestamp : Time
  source : String
  reason : String
  previousHaltReason : String
deriving DecidableEq, Repr

/-- The module's variables. `clearLock` is the thread that holds `_clear_halt_lock`; no intraday
loss limit is the limit of minus infinity. -/
structure SafetyState where
  hardHalt : Bool := false
  shutdown : Bool := false
  hardHaltReason : String := ""
  clearHaltHistory : List ClearRecord := []
  lastClearTime : Time := 0
  clearLock : Option Nat := none
  consecutiveLosses : Nat := 0
  intradayPnl : ℚ := 0
  intradayLossLimit : Option ℚ := none
deriving DecidableEq

namespace SafetyState

def isHardHalted (s : SafetyState) : Bool := s.hardHalt

def isShuttingDown (s : SafetyState) : Bool := s.shutdown

/-- The new count is returned as well. -/
def recordTradeOutcome (s : SafetyState) (wasProfit : Bool) : Nat × SafetyState :=
  let losses := if wasProfit then 0 else s.consecutiveLosses + 1
  (losses, { s with consecutiveLosses := losses })

def resetConsecutiveLosses (s : SafetyState) : SafetyState := { s with consecutiveLosses := 0 }

def setIntradayPnl (s : SafetyState) (pnl : ℚ) : SafetyState := { s with intradayPnl := pnl }

def resetIntradayPnl (s : SafetyState) : SafetyState := { s with intradayPnl := 0 }

def setIntradayLossLimit (s : SafetyState) (limit : ℚ) : SafetyState :=
  { s with intradayLossLimit := some (-|limit|) }

/-- The history takes the entry and drops its oldest one beyond the limit. -/
def appendClear (history : List ClearRecord) (entry : ClearRecord) : List ClearRecord :=
  let extended := history ++ [entry]
  if clearHistoryLimit < extended.length then extended.drop 1 else extended

end SafetyState

def haltText (reason source : String) : String :=
  if source = "" then reason else "[" ++ source ++ "] " ++ reason

def stopFileReason : String := "STOP_TRADING file found in project root"

def breachReason (pnl limit : ℚ) : String :=
  "Intraday loss limit breached: P&L=" ++ formatWhole pnl ++ " < limit=" ++ formatWhole limit

/-- What the caller of `trip_hard_halt` does once it has returned. -/
inductive AfterTrip
  | returns
  | returnsTrue
  | requestsShutdown
deriving DecidableEq, Repr

/-- Where a thread stands: the access to the shared variables it makes next. -/
inductive Position
  | idle
  /-- `if _HARD_HALT.is_set()` in `trip_hard_halt` -/
  | testing (text : String) (after : AfterTrip)
  /-- `_hard_halt_reason = ...` in `trip_hard_halt` -/
  | storing (text : String) (after : AfterTrip)
  /-- `_HARD_HALT.set()` -/
  | setting (after : AfterTrip)
  /-- `request_shutdown` -/
  | requesting
  /-- `limit = _intraday_loss_limit` -/
  | readingLimit (source : String)
  /-- `pnl = get_intraday_pnl()` and the comparison with the limit read before -/
  | comparing (source : String) (limit : ℚ)
  /-- `previous_reason = _hard_halt_reason`, after the cooldown test -/
  | readingReason (now : Time) (source reason : String)
  /-- `_HARD_HALT.clear()` -/
  | lowering (now : Time) (source reason previous : String)
  /-- the rest of `clear_hard_halt`, up to the release of the lock -/
  | recording (now : Time) (source reason previous : String)
deriving DecidableEq

/-- Inside `trip_hard_halt`, before the flag has been found set or been set. -/
def Position.tripping : Position → Bool
  | .testing .. | .storing .. | .setting .. => true
  | _ => false

/-- The reason a trip under way is going to store. -/
def Position.text? : Position → Option String
  | .testing text _ | .storing text _ => some text
  | _ => none

/-- The flag is about to be set, and the reason has been stored. -/
def Position.isSetting : Position → Bool
  | .setting _ => true
  | _ => false

/-- About to execute `_HARD_HALT.clear()`. -/
def Position.isLowering : Position → Bool
  | .lowering .. => true
  | _ => false

/-- The flag is lowered, and the clear is about to be recorded. -/
def Position.isRecording : Position → Bool
  | .recording .. => true
  | _ => false

/-- The watcher has found the file and has not yet asked for the shutdown. -/
def Position.bringsShutdown : Position → Bool
  | .testing _ after | .storing _ after | .setting after => decide (after = .requestsShutdown)
  | .requesting => true
  | _ => false

/-- The instant a `clear_hard_halt` under way has read. -/
def Position.clearTime? : Position → Option Time
  | .readingReason now .. | .lowering now .. | .recording now .. => some now
  | _ => none

inductive HaltCall
  | tripHardHalt (reason source : String)
  | checkIntradayPnlAndHalt (source : String)
  | checkKillFileAndHalt
  /-- one pass of the loop in `_kill_file_watcher` -/
  | killFileWatcher
  | requestShutdown
  | clearHardHalt (source reason : String)
  | setIntradayPnl (pnl : ℚ)
  | resetIntradayPnl
  | setIntradayLossLimit (limit : ℚ)
  | recordTradeOutcome (wasProfit : Bool)
  | resetConsecutiveLosses
deriving DecidableEq

/-- What a thread finds outside the module when it runs. -/
structure Surroundings where
  monotonic : Time
  wall : Time
  stopFile : Bool
deriving DecidableEq

/-- A thread's next position, and what its access left in the shared variables. `returned` is the
truth value a call of `check_intraday_pnl_and_halt` returns at this access. -/
structure Access where
  position : Position := .idle
  shared : SafetyState
  returned : Option Bool := none
deriving DecidableEq

/-- The return from `trip_hard_halt` to its caller. -/
def AfterTrip.resume (s : SafetyState) : AfterTrip → Access
  | .returns => { shared := s }
  | .returnsTrue => { shared := s, returned := some true }
  | .requestsShutdown => { position := .requesting, shared := s }

/-- The first access a call makes. -/
def begin (thread : Nat) (s : SafetyState) (around : Surroundings) : HaltCall → Access
  | .tripHardHalt reason source =>
      if s.hardHalt then { shared := s }
      else { position := .storing (haltText reason source) .returns, shared := s }
  | .checkIntradayPnlAndHalt source =>
      if s.isHardHalted then { shared := s, returned := some true }
      else { position := .readingLimit source, shared := s }
  | .checkKillFileAndHalt =>
      if around.stopFile then
        { position := .testing (haltText stopFileReason "kill_file_check") .returns, shared := s }
      else { shared := s }
  | .killFileWatcher =>
      if !s.shutdown && around.stopFile then
        { position := .testing (haltText stopFileReason "kill_file_watcher") .requestsShutdown
          shared := s }
      else { shared := s }
  | .requestShutdown => { shared := { s with shutdown := true } }
  | .clearHardHalt source reason =>
      -- a thread that finds the lock taken waits for it
      if s.clearLock.isSome then { shared := s }
      else if around.monotonic - s.lastClearTime < haltClearCooldown then { shared := s }
      else
        { position := .readingReason around.monotonic source reason
          shared := { s with clearLock := some thread } }
  | .setIntradayPnl pnl => { shared := s.setIntradayPnl pnl }
  | .resetIntradayPnl => { shared := s.resetIntradayPnl }
  | .setIntradayLossLimit limit => { shared := s.setIntradayLossLimit limit }
  | .recordTradeOutcome wasProfit => { shared := (s.recordTradeOutcome wasProfit).2 }
  | .resetConsecutiveLosses => { shared := s.resetConsecutiveLosses }

/-- The access a thread makes at a position; an idle one makes none. -/
def advance (s : SafetyState) (around : Surroundings) : Position → Access
  | .idle => { shared := s }
  | .testing text after =>
      if s.hardHalt then after.resume s else { position := .storing text after, shared := s }
  | .storing text after =>
      { position := .setting after, shared := { s with hardHaltReason := text } }
  | .setting after => after.resume { s with hardHalt := true }
  | .requesting => { shared := { s with shutdown := true } }
  | .readingLimit source =>
      match s.intradayLossLimit with
      | none => { shared := s, returned := some false }
      | some limit => { position := .comparing source limit, shared := s }
  | .comparing source limit =>
      if s.intradayPnl < limit then
        { position := .testing (haltText (breachReason s.intradayPnl limit) source) .returnsTrue
          shared := s }
      else { shared := s, returned := some false }
  | .readingReason now source reason =>
      { position := .lowering now source reason s.hardHaltReason, shared := s }
  | .lowering now source reason previous =>
      { position := .recording now source reason previous, shared := { s with hardHalt := false } }
  | .recording now source reason previous =>
      { shared :=
          { s with
            hardHaltReason := ""
            lastClearTime := now
            clearHaltHistory :=
              SafetyState.appendClear s.clearHaltHistory ⟨around.wall, source, reason, previous⟩
            clearLock := none } }

/-- The process: the shared variables and where each of its threads stands. -/
structure World where
  shared : SafetyState := {}
  positions : Nat → Position := fun _ => .idle

/-- A turn of a thread. An idle thread starts the call; any other one goes on with its own. -/
structure Turn where
  thread : Nat
  call : HaltCall
  around : Surroundings
deriving DecidableEq

namespace World

def access (w : World) (t : Turn) : Access :=
  match w.positions t.thread with
  | .idle => begin t.thread w.shared t.around t.call
  | position => advance w.shared t.around position

def turn (w : World) (t : Turn) : World :=
  { shared := (w.access t).shared
    positions := Function.update w.positions t.thread (w.access t).position }

@[simp] theorem turn_shared (w : World) (t : Turn) : (w.turn t).shared = (w.access t).shared := rfl

@[simp] theorem turn_positions_self (w : World) (t : Turn) :
    (w.turn t).positions t.thread = (w.access t).position :=
  Function.update_self ..

theorem turn_positions_other (w : World) {t : Turn} {i : Nat} (h : i ≠ t.thread) :
    (w.turn t).positions i = w.positions i :=
  Function.update_of_ne h ..

theorem access_idle {w : World} {t : Turn} (h : w.positions t.thread = .idle) :
    w.access t = begin t.thread w.shared t.around t.call := by
  simp [access, h]

theorem access_busy {w : World} {t : Turn} {p : Position} (h : w.positions t.thread = p)
    (hp : p ≠ .idle) : w.access t = advance w.shared t.around p := by
  unfold access
  rw [h]
  cases p <;> first | rfl | exact absurd rfl hp

end World

end AutoTrade.Safety
