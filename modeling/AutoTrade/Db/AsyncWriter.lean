import AutoTrade.Library.Run

/-! # The asynchronous database writer

`AsyncDbWriter` of `core/db_utils.py`: a bounded queue, a stop event, and a
worker thread that takes write operations out of the queue and executes them on
one connection. The calls of other threads are cut where another thread can get
in between: `submit` looks at the event and then puts, `start` looks for a
living thread, clears the event and launches one, `stop` sets the event, puts a
sentinel, waits at most a while and closes the connection.

Statements are taken to succeed on an open connection; on a closed one they
raise, and the operation is lost.
-/

namespace AutoTrade.Db

/-- A bounded queue is full at its capacity; a capacity of zero or less means no bound. -/
def queueFull {α : Type} (capacity : Int) (queue : List α) : Bool :=
  decide (0 < capacity ∧ capacity ≤ queue.length)

/-- Where a worker thread stands. Past the start it has a connection, named by a number. -/
inductive WorkerPhase (ω : Type)
  | starting
  | polling (conn : Nat)
  | foundEmpty (conn : Nat)
  | holding (conn : Nat) (op : ω)
deriving DecidableEq, Repr

namespace WorkerPhase

variable {ω : Type}

/-- The connection the worker writes on. -/
def conn? : WorkerPhase ω → Option Nat
  | .starting => none
  | .polling c => some c
  | .foundEmpty c => some c
  | .holding c _ => some c

/-- The operation taken out of the queue and not yet executed. -/
def hand : WorkerPhase ω → List ω
  | .holding _ op => [op]
  | _ => []

def isFoundEmpty : WorkerPhase ω → Bool
  | .foundEmpty _ => true
  | _ => false

end WorkerPhase

structure Worker (ω : Type) where
  id : Nat
  phase : WorkerPhase ω
  /-- Whether `stop` was called since this worker was started. -/
  stopCalled : Bool := false
deriving DecidableEq, Repr

structure AsyncDbWriter (ω : Type) where
  /-- The queue; `none` is the sentinel. -/
  queue : List (Option ω) := []
  stopEvent : Bool := false
  /-- The open connection in `_conn`, by its number, and how many were opened. -/
  conn : Option Nat := none
  connections : Nat := 0
  /-- How many threads were started; `_thread` is the last of them. -/
  threads : Nat := 0
  live : List (Worker ω) := []
  /-- The callers of `submit` that saw the event unset, of `start` that found no living thread or
  went on to clear the event, and of `stop` that set the event or went on to put the sentinel. -/
  submitting : List ω := []
  startsChecked : Nat := 0
  startsCleared : Nat := 0
  stopsFlagged : Nat := 0
  stopsSignalled : Nat := 0
  /-- The operations for which `submit` returned `True`, and those that were executed. -/
  accepted : List ω := []
  executed : List ω := []
  /-- For each thread that has ended, whether `stop` was called since it was started. -/
  finished : List Bool := []
deriving DecidableEq, Repr

inductive WriterStep (ω : Type)
  | submitCheck (op : ω)
  | submitPut (caller : Nat)
  | startCheck
  | startClear
  | startLaunch
  | stopSet
  | stopSentinel
  | stopClose
  | connect (worker : Nat)
  | get (worker : Nat)
  | checkStop (worker : Nat)
  | execute (worker : Nat)
deriving DecidableEq, Repr

namespace AsyncDbWriter

variable {ω : Type}

/-- `self._thread is not None and self._thread.is_alive()`. -/
def isAlive (s : AsyncDbWriter ω) : Bool := s.live.any fun w => decide (w.id + 1 = s.threads)

def worker? (s : AsyncDbWriter ω) (id : Nat) : Option (Worker ω) :=
  s.live.find? fun w => decide (w.id = id)

def setPhase (s : AsyncDbWriter ω) (id : Nat) (phase : WorkerPhase ω) : AsyncDbWriter ω :=
  { s with live := s.live.map fun w => if w.id = id then { w with phase } else w }

/-- The thread returns from `_worker`. -/
def finish (s : AsyncDbWriter ω) (w : Worker ω) : AsyncDbWriter ω :=
  { s with
    live := s.live.filter fun v => decide (v.id ≠ w.id)
    finished := s.finished ++ [w.stopCalled] }

/-- `conn = self._get_conn()` at the start of the thread. -/
def connectWorker (s : AsyncDbWriter ω) (w : Worker ω) : AsyncDbWriter ω :=
  match s.conn with
  | some c => s.setPhase w.id (.polling c)
  | none =>
      { s with conn := some s.connections, connections := s.connections + 1 }.setPhase w.id
        (.polling s.connections)

/-- `self._queue.get(timeout=0.5)`. -/
def getItem (s : AsyncDbWriter ω) (w : Worker ω) (c : Nat) : AsyncDbWriter ω :=
  match s.queue with
  | [] => s.setPhase w.id (.foundEmpty c)
  | none :: rest => { s with queue := rest }.finish w
  | some op :: rest => { s with queue := rest }.setPhase w.id (.holding c op)

/-- `conn.execute(...)`; the connection may have been closed in the meantime. -/
def executeItem (s : AsyncDbWriter ω) (w : Worker ω) (c : Nat) (op : ω) : AsyncDbWriter ω :=
  (if s.conn = some c then { s with executed := s.executed ++ [op] } else s).setPhase w.id
    (.polling c)

/-- The worker's next step, where it is at that step; otherwise nothing happens. -/
def workerStep (s : AsyncDbWriter ω) (w : Worker ω) : WriterStep ω → AsyncDbWriter ω
  | .connect _ =>
      match w.phase with
      | .starting => s.connectWorker w
      | _ => s
  | .get _ =>
      match w.phase with
      | .polling c => s.getItem w c
      | _ => s
  | .checkStop _ =>
      match w.phase with
      | .foundEmpty c => if s.stopEvent then s.finish w else s.setPhase w.id (.polling c)
      | _ => s
  | .execute _ =>
      match w.phase with
      | .holding c op => s.executeItem w c op
      | _ => s
  | _ => s

/-- The worker whose step it is. -/
def stepOwner? : WriterStep ω → Option Nat
  | .connect id => some id
  | .get id => some id
  | .checkStop id => some id
  | .execute id => some id
  | _ => none

/-- The step of a caller; one that no caller is ready for does nothing. -/
def callerStep (capacity : Int) (s : AsyncDbWriter ω) : WriterStep ω → AsyncDbWriter ω
  | .submitCheck op => if s.stopEvent then s else { s with submitting := s.submitting ++ [op] }
  | .submitPut i =>
      match s.submitting[i]? with
      | none => s
      | some op =>
          let s := { s with submitting := s.submitting.eraseIdx i }
          if queueFull capacity s.queue then s
          else { s with queue := s.queue ++ [some op], accepted := s.accepted ++ [op] }
  | .startCheck => if s.isAlive then s else { s with startsChecked := s.startsChecked + 1 }
  | .startClear =>
      if s.startsChecked = 0 then s
      else { s with
        stopEvent := false
        startsChecked := s.startsChecked - 1
        startsCleared := s.startsCleared + 1 }
  | .startLaunch =>
      if s.startsCleared = 0 then s
      else { s with
        startsCleared := s.startsCleared - 1
        threads := s.threads + 1
        live := s.live ++ [{ id := s.threads, phase := .starting }] }
  | .stopSet =>
      { s with
        stopEvent := true
        stopsFlagged := s.stopsFlagged + 1
        live := s.live.map fun w => { w with stopCalled := true } }
  | .stopSentinel =>
      if s.stopsFlagged = 0 then s
      else
        let s := { s with
          stopsFlagged := s.stopsFlagged - 1
          stopsSignalled := s.stopsSignalled + 1 }
        if queueFull capacity s.queue then s else { s with queue := s.queue ++ [none] }
  -- reached when the thread has ended, when the wait for it has timed out, and at once unless `block`
  | .stopClose =>
      if s.stopsSignalled = 0 then s
      else { s with stopsSignalled := s.stopsSignalled - 1, conn := none }
  | _ => s

def step (capacity : Int) (s : AsyncDbWriter ω) (op : WriterStep ω) : AsyncDbWriter ω :=
  match stepOwner? op with
  | none => s.callerStep capacity op
  | some id =>
      match s.worker? id with
      | none => s
      | some w => s.workerStep w op

end AsyncDbWriter

end AutoTrade.Db
