import AutoTrade.Db.AsyncWriter

/-! # No accepted write is lost

The queue, the stop event and the sentinel are three signals to one worker. As
long as they are given in an order the worker can follow, at most one worker is
alive, it executes the accepted operations in the order of their acceptance, and
it ends, after a call of `stop`, with all of them executed. `Orderly` says which
orders these are; the proof keeps the writer in one of two shapes, quiet or
served by one worker.
-/

namespace AutoTrade.Db

open AutoTrade.Library

namespace AsyncDbWriter

variable {ω : Type}

/-! ## The property -/

/-- The accepted operations are executed in order, all of them when no worker is left; a living
worker executes them all by steps of its own; and no worker has ended without a call of `stop`. -/
structure NoWriteLost (capacity : Int) (s : AsyncDbWriter ω) : Prop where
  inOrder : s.executed <+: s.accepted
  complete : s.live = [] → s.executed = s.accepted
  served : ∀ w ∈ s.live, ∃ steps : List (WriterStep ω),
    (∀ op ∈ steps, stepOwner? op = some w.id) ∧
      (run (step capacity) s steps).executed = s.accepted
  stopped : ∀ called ∈ s.finished, called = true

/-- A worker has found the queue empty and not yet looked at the stop event. -/
def Leaving (s : AsyncDbWriter ω) : Prop := ∃ w ∈ s.live, w.phase.isFoundEmpty = true

/-- The steps that can be followed: an operation is put while a worker is alive that will still
look at the queue; `stop` sets its event and puts its sentinel while the worker it stops is alive
and no other sentinel waits; a worker is started when there is none and the event is clear; and the
connection is closed when no worker uses it. -/
def Orderly (capacity : Int) (s : AsyncDbWriter ω) : WriterStep ω → Prop
  | .submitPut i => i < s.submitting.length → queueFull capacity s.queue = true ∨
      (s.live ≠ [] ∧ none ∉ s.queue ∧ (s.Leaving → s.stopEvent = false))
  | .startLaunch => 0 < s.startsCleared → s.live = [] ∧ s.stopEvent = false
  | .stopSet => s.Leaving → s.queue = []
  | .stopSentinel => 0 < s.stopsFlagged → queueFull capacity s.queue = true ∨
      (s.live ≠ [] ∧ none ∉ s.queue ∧ s.stopEvent = true ∧ ¬ s.Leaving)
  | .stopClose => 0 < s.stopsSignalled → s.live = []
  | _ => True

instance (s : AsyncDbWriter ω) : Decidable s.Leaving :=
  inferInstanceAs (Decidable (∃ w ∈ s.live, _))

instance [DecidableEq ω] (capacity : Int) (s : AsyncDbWriter ω) :
    ∀ op, Decidable (s.Orderly capacity op)
  | .submitPut _ => inferInstanceAs (Decidable (_ → _ ∨ _))
  | .startLaunch => inferInstanceAs (Decidable (_ → _ ∧ _))
  | .stopSet => inferInstanceAs (Decidable (s.Leaving → _))
  | .stopSentinel => inferInstanceAs (Decidable (_ → _ ∨ _))
  | .stopClose => inferInstanceAs (Decidable (_ → _))
  | .submitCheck _ => isTrue trivial
  | .startCheck => isTrue trivial
  | .startClear => isTrue trivial
  | .connect _ => isTrue trivial
  | .get _ => isTrue trivial
  | .checkStop _ => isTrue trivial
  | .execute _ => isTrue trivial

/-! ## The invariant -/

/-- No worker, and nothing left to do. -/
structure Quiet (s : AsyncDbWriter ω) : Prop where
  live : s.live = []
  queue : s.queue = []
  executed : s.executed = s.accepted

/-- One worker, with these operations in the queue and perhaps a sentinel behind them. -/
structure Serving (s : AsyncDbWriter ω) (w : Worker ω) (ops : List ω) (signalled : Bool) :
    Prop where
  live : s.live = [w]
  conn : ∀ c, w.phase.conn? = some c → s.conn = some c
  queue : s.queue = ops.map some ++ if signalled then [none] else []
  order : s.executed ++ w.phase.hand ++ ops = s.accepted
  stopped : s.stopEvent = true ∨ signalled = true → w.stopCalled = true
  leaving : w.phase.isFoundEmpty = true → s.stopEvent = true → s.queue = []

structure WriterInvariant (s : AsyncDbWriter ω) : Prop where
  shape : s.Quiet ∨ ∃ w ops signalled, s.Serving w ops signalled
  finished : ∀ called ∈ s.finished, called = true

theorem writerInvariant_initial : WriterInvariant ({} : AsyncDbWriter ω) :=
  ⟨.inl ⟨rfl, rfl, rfl⟩, by simp⟩

namespace Serving

variable {s : AsyncDbWriter ω} {w : Worker ω} {ops : List ω} {signalled : Bool}

theorem live_ne_nil (h : s.Serving w ops signalled) : s.live ≠ [] := by
  rw [h.live]
  simp

theorem leaving_iff (h : s.Serving w ops signalled) :
    s.Leaving ↔ w.phase.isFoundEmpty = true := by
  simp [Leaving, h.live]

theorem not_signalled (h : s.Serving w ops signalled) (hnone : none ∉ s.queue) :
    signalled = false := by
  cases signalled with
  | false => rfl
  | true =>
      apply absurd _ hnone
      rw [h.queue]
      simp

theorem ops_nil (h : s.Serving w ops signalled) (hqueue : s.queue = []) :
    ops = [] ∧ signalled = false := by
  have hshape := h.queue
  rw [hqueue] at hshape
  cases signalled with
  | false => simpa using hshape
  | true => simp at hshape

theorem worker?_self (h : s.Serving w ops signalled) : s.worker? w.id = some w := by
  simp [worker?, h.live]

theorem worker?_other (h : s.Serving w ops signalled) {id : Nat} (hid : id ≠ w.id) :
    s.worker? id = none := by
  simp [worker?, h.live, Ne.symm hid]

/-- A change of what no worker reads leaves it serving. -/
theorem of_same {t : AsyncDbWriter ω} (h : s.Serving w ops signalled) (hlive : t.live = s.live)
    (hconn : t.conn = s.conn) (hqueue : t.queue = s.queue) (hexecuted : t.executed = s.executed)
    (haccepted : t.accepted = s.accepted) (hstop : t.stopEvent = s.stopEvent) :
    t.Serving w ops signalled := by
  constructor
  · rw [hlive, h.live]
  · rw [hconn]
    exact h.conn
  · rw [hqueue, h.queue]
  · rw [hexecuted, haccepted, h.order]
  · rw [hstop]
    exact h.stopped
  · rw [hstop, hqueue]
    exact h.leaving

end Serving

/-! ## Steps of the worker -/

section WorkerSteps

variable {s : AsyncDbWriter ω} {w : Worker ω} {ops : List ω} {signalled : Bool}

theorem setPhase_live (h : s.live = [w]) (phase : WorkerPhase ω) :
    (s.setPhase w.id phase).live = [{ w with phase }] := by
  simp [setPhase, h]

theorem finish_live (h : s.live = [w]) : (s.finish w).live = [] := by
  simp [finish, h]

/-- A worker with empty hands polls on an open connection. -/
theorem serving_polling {c : Nat} (hlive : s.live = [w]) (hconn : s.conn = some c)
    (hqueue : s.queue = ops.map some ++ if signalled then [none] else [])
    (horder : s.executed ++ ops = s.accepted)
    (hstopped : s.stopEvent = true ∨ signalled = true → w.stopCalled = true) :
    (s.setPhase w.id (.polling c)).Serving { w with phase := .polling c } ops signalled := by
  constructor
  · exact setPhase_live hlive _
  · intro c' hc
    cases hc
    exact hconn
  · exact hqueue
  · simpa [setPhase, WorkerPhase.hand] using horder
  · exact hstopped
  · intro hempty
    cases hempty

/-- The thread gets its connection. -/
theorem serving_connectWorker (h : s.Serving w ops signalled) (hphase : w.phase = .starting) :
    ∃ c, (s.connectWorker w).Serving { w with phase := .polling c } ops signalled := by
  have horder : s.executed ++ ops = s.accepted := by
    simpa [hphase, WorkerPhase.hand] using h.order
  unfold connectWorker
  cases hconn : s.conn with
  | some c => exact ⟨c, serving_polling h.live hconn h.queue horder h.stopped⟩
  | none => exact ⟨s.connections, serving_polling h.live rfl h.queue horder h.stopped⟩

/-- The first operation of the queue goes into the worker's hand. -/
theorem serving_getItem_cons {c : Nat} {op : ω} {rest : List ω}
    (h : s.Serving w (op :: rest) signalled) (hphase : w.phase = .polling c) :
    (s.getItem w c).Serving { w with phase := .holding c op } rest signalled := by
  have hqueue := h.queue
  have horder := h.order
  have hconn := h.conn c (by rw [hphase]; rfl)
  rw [hphase] at horder
  rw [List.map_cons, List.cons_append] at hqueue
  simp only [getItem, hqueue]
  constructor
  · exact setPhase_live h.live _
  · intro c' hc
    cases hc
    exact hconn
  · rfl
  · simpa [setPhase, WorkerPhase.hand] using horder
  · exact h.stopped
  · intro hempty
    cases hempty

/-- With no operation left the worker finds the queue empty, or ends at the sentinel. -/
theorem getItem_nil {c : Nat} (h : s.Serving w [] signalled) (hphase : w.phase = .polling c) :
    (signalled = false ∧
        (s.getItem w c).Serving { w with phase := .foundEmpty c } [] signalled ∧
        (s.getItem w c).finished = s.finished) ∨
      ((s.getItem w c).Quiet ∧ (s.getItem w c).finished = s.finished ++ [true]) := by
  have hqueue := h.queue
  have horder := h.order
  have hconn := h.conn c (by rw [hphase]; rfl)
  rw [hphase] at horder
  cases signalled with
  | false =>
      left
      simp only [List.map_nil, Bool.false_eq_true, if_false, List.append_nil] at hqueue
      simp only [getItem, hqueue]
      refine ⟨trivial, ?_, rfl⟩
      constructor
      · exact setPhase_live h.live _
      · intro c' hc
        cases hc
        exact hconn
      · exact hqueue
      · exact horder
      · exact h.stopped
      · intro _ _
        exact hqueue
  | true =>
      right
      simp only [List.map_nil, if_true, List.nil_append] at hqueue
      simp only [getItem, hqueue]
      refine ⟨⟨finish_live h.live, rfl, ?_⟩, ?_⟩
      · simpa [finish, WorkerPhase.hand] using horder
      · simp [finish, h.stopped (.inr rfl)]

/-- The operation in hand is executed on the open connection. -/
theorem serving_executeItem {c : Nat} {op : ω} (h : s.Serving w ops signalled)
    (hphase : w.phase = .holding c op) :
    (s.executeItem w c op).Serving { w with phase := .polling c } ops signalled := by
  have hconn := h.conn c (by rw [hphase]; rfl)
  have horder : (s.executed ++ [op]) ++ ops = s.accepted := by
    simpa [hphase, WorkerPhase.hand] using h.order
  rw [executeItem, if_pos hconn]
  exact serving_polling h.live hconn h.queue horder h.stopped

/-- A worker that saw no operation goes on polling, or ends because it is to stop. -/
theorem checkStop_cases {c : Nat} (h : s.Serving w ops signalled) (hphase : w.phase = .foundEmpty c) :
    (s.stopEvent = false ∧ (s.setPhase w.id (.polling c)).Serving
        { w with phase := .polling c } ops signalled) ∨
      (s.stopEvent = true ∧ (s.finish w).Quiet ∧ (s.finish w).finished = s.finished ++ [true]) := by
  have hconn := h.conn c (by rw [hphase]; rfl)
  have horder : s.executed ++ ops = s.accepted := by
    simpa [hphase, WorkerPhase.hand] using h.order
  cases hstop : s.stopEvent with
  | false => exact .inl ⟨rfl, serving_polling h.live hconn h.queue horder h.stopped⟩
  | true =>
      have hqueue := h.leaving (by rw [hphase]; rfl) hstop
      rw [(h.ops_nil hqueue).1, List.append_nil] at horder
      refine .inr ⟨rfl, ⟨finish_live h.live, hqueue, horder⟩, ?_⟩
      simp [finish, h.stopped (.inl hstop)]

/-- A step of the worker keeps it serving, or ends it properly. -/
theorem workerStep_cases (h : s.Serving w ops signalled) (op : WriterStep ω) :
    (∃ w' ops' signalled', (s.workerStep w op).Serving w' ops' signalled' ∧
        (s.workerStep w op).finished = s.finished) ∨
      ((s.workerStep w op).Quiet ∧ (s.workerStep w op).finished = s.finished ++ [true]) := by
  have hstay : ∃ w' ops' signalled', s.Serving w' ops' signalled' ∧
      s.finished = s.finished := ⟨w, ops, signalled, h, rfl⟩
  cases op with
  | connect id =>
      left
      cases hphase : w.phase with
      | starting =>
          obtain ⟨c, hserving⟩ := serving_connectWorker h hphase
          simp only [workerStep, hphase]
          refine ⟨_, ops, signalled, hserving, ?_⟩
          unfold connectWorker
          split <;> rfl
      | _ => simpa only [workerStep, hphase] using hstay
  | get id =>
      cases hphase : w.phase with
      | polling c =>
          simp only [workerStep, hphase]
          cases ops with
          | cons op rest =>
              left
              refine ⟨_, rest, signalled, serving_getItem_cons h hphase, ?_⟩
              simp only [getItem, h.queue, List.map_cons, List.cons_append]
              rfl
          | nil =>
              cases getItem_nil h hphase with
              | inl hempty => exact .inl ⟨_, [], signalled, hempty.2.1, hempty.2.2⟩
              | inr hquiet => exact .inr hquiet
      | _ => exact .inl (by simpa only [workerStep, hphase] using hstay)
  | checkStop id =>
      cases hphase : w.phase with
      | foundEmpty c =>
          simp only [workerStep, hphase]
          cases checkStop_cases h hphase with
          | inl hpolling =>
              rw [hpolling.1]
              exact .inl ⟨_, ops, signalled, hpolling.2, rfl⟩
          | inr hquiet =>
              rw [hquiet.1]
              exact .inr hquiet.2
      | _ => exact .inl (by simpa only [workerStep, hphase] using hstay)
  | execute id =>
      left
      cases hphase : w.phase with
      | holding c op =>
          simp only [workerStep, hphase]
          refine ⟨_, ops, signalled, serving_executeItem h hphase, ?_⟩
          unfold executeItem
          split <;> rfl
      | _ => simpa only [workerStep, hphase] using hstay
  | _ => exact .inl hstay

theorem step_own (capacity : Int) (h : s.Serving w ops signalled) {op : WriterStep ω}
    (howner : stepOwner? op = some w.id) : s.step capacity op = s.workerStep w op := by
  simp [step, howner, h.worker?_self]

theorem connectWorker_accepted (s : AsyncDbWriter ω) (w : Worker ω) :
    (s.connectWorker w).accepted = s.accepted := by
  unfold connectWorker
  split <;> rfl

theorem getItem_accepted (s : AsyncDbWriter ω) (w : Worker ω) (c : Nat) :
    (s.getItem w c).accepted = s.accepted := by
  unfold getItem
  split <;> rfl

theorem executeItem_accepted (s : AsyncDbWriter ω) (w : Worker ω) (c : Nat) (op : ω) :
    (s.executeItem w c op).accepted = s.accepted := by
  unfold executeItem
  split <;> rfl

/-- A worker that polls executes every accepted operation by steps of its own: it takes the first
one and executes it, and so on. -/
theorem progress_of_polling (capacity : Int) {c : Nat} (h : s.Serving w ops signalled)
    (hphase : w.phase = .polling c) :
    ∃ steps : List (WriterStep ω), (∀ op ∈ steps, stepOwner? op = some w.id) ∧
      (run (step capacity) s steps).executed = s.accepted := by
  induction ops generalizing s w with
  | nil =>
      refine ⟨[], by simp, ?_⟩
      simpa [run, hphase, WorkerPhase.hand] using h.order
  | cons op rest ih =>
      have hget := serving_getItem_cons h hphase
      have hexecute := serving_executeItem hget rfl
      obtain ⟨steps, howner, hexecuted⟩ := ih hexecute rfl
      refine ⟨.get w.id :: .execute w.id :: steps, ?_, ?_⟩
      · simpa [stepOwner?] using howner
      · have hfirst : s.step capacity (.get w.id) = s.getItem w c := by
          rw [step_own capacity h rfl]
          simp only [workerStep, hphase]
        have hsecond : (s.getItem w c).step capacity (.execute w.id) =
            (s.getItem w c).executeItem { w with phase := .holding c op } c op :=
          step_own capacity hget rfl
        rw [executeItem_accepted, getItem_accepted] at hexecuted
        simp only [run, List.foldl_cons, hfirst, hsecond] at hexecuted ⊢
        exact hexecuted

/-- One step of its own brings the worker to polling. -/
theorem progress_after (capacity : Int) {t : AsyncDbWriter ω} {c : Nat} {op : WriterStep ω}
    (howner : stepOwner? op = some w.id) (hstep : s.step capacity op = t)
    (haccepted : t.accepted = s.accepted)
    (h : t.Serving { w with phase := .polling c } ops signalled) :
    ∃ steps : List (WriterStep ω), (∀ op ∈ steps, stepOwner? op = some w.id) ∧
      (run (step capacity) s steps).executed = s.accepted := by
  obtain ⟨steps, hown, hexecuted⟩ := progress_of_polling capacity h rfl
  refine ⟨op :: steps, ?_, ?_⟩
  · simpa [howner] using hown
  · rw [haccepted] at hexecuted
    simpa only [run, List.foldl_cons, hstep] using hexecuted

/-- Left alone, the worker executes every accepted operation by steps of its own. -/
theorem Serving.progress (capacity : Int) (h : s.Serving w ops signalled) :
    ∃ steps : List (WriterStep ω), (∀ op ∈ steps, stepOwner? op = some w.id) ∧
      (run (step capacity) s steps).executed = s.accepted := by
  cases hphase : w.phase with
  | starting =>
      have hown : stepOwner? (.connect w.id : WriterStep ω) = some w.id := rfl
      obtain ⟨c, hpolling⟩ := serving_connectWorker h hphase
      apply progress_after capacity hown _ (connectWorker_accepted s w) hpolling
      rw [step_own capacity h hown]
      simp only [workerStep, hphase]
  | polling c => exact progress_of_polling capacity h hphase
  | foundEmpty c =>
      have hown : stepOwner? (.checkStop w.id : WriterStep ω) = some w.id := rfl
      have hstep := step_own capacity h hown
      simp only [workerStep, hphase] at hstep
      cases checkStop_cases h hphase with
      | inl hpolling =>
          rw [hpolling.1] at hstep
          exact progress_after capacity hown hstep rfl hpolling.2
      | inr hquiet =>
          rw [hquiet.1] at hstep
          refine ⟨[.checkStop w.id], by simp [hown], ?_⟩
          simp only [run, List.foldl_cons, List.foldl_nil, hstep]
          exact hquiet.2.1.executed
  | holding c op =>
      have hown : stepOwner? (.execute w.id : WriterStep ω) = some w.id := rfl
      apply progress_after capacity hown _ (executeItem_accepted s w c op)
        (serving_executeItem h hphase)
      rw [step_own capacity h hown]
      simp only [workerStep, hphase]

end WorkerSteps

/-! ## Steps of callers -/

theorem quiet_callerStep (capacity : Int) {s : AsyncDbWriter ω} (h : s.Quiet) (op : WriterStep ω)
    (orderly : s.Orderly capacity op) (hfinished : ∀ called ∈ s.finished, called = true) :
    (s.callerStep capacity op).WriterInvariant := by
  have hroom : queueFull capacity s.queue = false := by
    rw [h.queue]
    simp [queueFull]
  have hquiet : s.WriterInvariant := ⟨.inl h, hfinished⟩
  cases op with
  | submitCheck op =>
      simp only [callerStep]
      split
      · exact hquiet
      · exact ⟨.inl ⟨h.live, h.queue, h.executed⟩, hfinished⟩
  | submitPut i =>
      simp only [callerStep]
      cases hi : s.submitting[i]? with
      | none => exact hquiet
      | some op =>
          cases orderly (List.getElem?_eq_some_iff.mp hi).1 with
          | inl hfull => exact absurd (hfull.symm.trans hroom) (by simp)
          | inr hput => exact absurd h.live hput.1
  | startCheck =>
      simp only [callerStep]
      split
      · exact hquiet
      · exact ⟨.inl ⟨h.live, h.queue, h.executed⟩, hfinished⟩
  | startClear =>
      simp only [callerStep]
      split
      · exact hquiet
      · exact ⟨.inl ⟨h.live, h.queue, h.executed⟩, hfinished⟩
  | startLaunch =>
      simp only [callerStep]
      split
      · exact hquiet
      · rename_i hready
        have hclear := (orderly (Nat.pos_of_ne_zero hready)).2
        refine ⟨.inr ⟨⟨s.threads, .starting, false⟩, [], false, ?_⟩, hfinished⟩
        constructor
        · simp [h.live]
        · intro c hc
          cases hc
        · simp [h.queue]
        · simp [WorkerPhase.hand, h.executed]
        · simp [hclear]
        · intro hempty
          cases hempty
  | stopSet => exact ⟨.inl ⟨by simp [callerStep, h.live], h.queue, h.executed⟩, hfinished⟩
  | stopSentinel =>
      simp only [callerStep]
      split
      · exact hquiet
      · rename_i hready
        cases orderly (Nat.pos_of_ne_zero hready) with
        | inl hfull => exact absurd (hfull.symm.trans hroom) (by simp)
        | inr hput => exact absurd h.live hput.1
  | stopClose =>
      simp only [callerStep]
      split
      · exact hquiet
      · exact ⟨.inl ⟨h.live, h.queue, h.executed⟩, hfinished⟩
  | _ => exact hquiet

section CallerSteps

variable {s : AsyncDbWriter ω} {w : Worker ω} {ops : List ω} {signalled : Bool}

/-- An operation put while the worker will still look at the queue waits behind the others. -/
theorem serving_put (h : s.Serving w ops false) (op : ω) (submitting : List ω)
    (hlook : w.phase.isFoundEmpty = true → s.stopEvent = false) :
    { s with submitting, queue := s.queue ++ [some op], accepted := s.accepted ++ [op] }.Serving w
      (ops ++ [op]) false := by
  constructor
  · exact h.live
  · exact h.conn
  · simp [h.queue]
  · simp [← h.order]
  · exact h.stopped
  · intro hempty hstop
    have hclear := hlook hempty
    rw [hclear] at hstop
    cases hstop

/-- The sentinel of a call of `stop` stands behind the operations of a worker told to stop. -/
theorem serving_sentinel (h : s.Serving w ops false) (flagged sent : Nat)
    (hstop : s.stopEvent = true) (hlook : ¬ w.phase.isFoundEmpty = true) :
    { s with
      stopsFlagged := flagged
      stopsSignalled := sent
      queue := s.queue ++ [none] }.Serving w ops true := by
  constructor
  · exact h.live
  · exact h.conn
  · simp [h.queue]
  · exact h.order
  · intro _
    exact h.stopped (.inl hstop)
  · intro hempty _
    exact absurd hempty hlook

/-- Clearing the event takes back no sentinel. -/
theorem serving_clear (h : s.Serving w ops signalled) (checked cleared : Nat) :
    { s with
      stopEvent := false
      startsChecked := checked
      startsCleared := cleared }.Serving w ops signalled := by
  refine ⟨h.live, h.conn, h.queue, h.order, ?_, ?_⟩
  · intro hstop
    cases hstop with
    | inl hflag => cases hflag
    | inr hsignal => exact h.stopped (.inr hsignal)
  · intro _ hflag
    cases hflag

/-- The event is set while the worker is not about to end on an operation it has not seen. -/
theorem serving_flag (h : s.Serving w ops signalled) (flagged : Nat)
    (hlook : w.phase.isFoundEmpty = true → s.queue = []) :
    { s with
      stopEvent := true
      stopsFlagged := flagged
      live := s.live.map fun v : Worker ω => { v with stopCalled := true } }.Serving
        { w with stopCalled := true } ops signalled := by
  constructor
  · simp [h.live]
  · exact h.conn
  · exact h.queue
  · exact h.order
  · intro _
    rfl
  · intro hempty _
    exact hlook hempty

theorem serving_callerStep (capacity : Int) (h : s.Serving w ops signalled) (op : WriterStep ω)
    (orderly : s.Orderly capacity op) (hfinished : ∀ called ∈ s.finished, called = true) :
    (s.callerStep capacity op).WriterInvariant := by
  have hstay : s.WriterInvariant := ⟨.inr ⟨w, ops, signalled, h⟩, hfinished⟩
  cases op with
  | submitCheck op =>
      simp only [callerStep]
      split
      · exact hstay
      · exact ⟨.inr ⟨w, ops, signalled, h.of_same rfl rfl rfl rfl rfl rfl⟩, hfinished⟩
  | submitPut i =>
      simp only [callerStep]
      cases hi : s.submitting[i]? with
      | none => exact hstay
      | some op =>
          dsimp only
          split
          · exact ⟨.inr ⟨w, ops, signalled, h.of_same rfl rfl rfl rfl rfl rfl⟩, hfinished⟩
          · rename_i hroom
            cases orderly (List.getElem?_eq_some_iff.mp hi).1 with
            | inl hfull => exact absurd hfull hroom
            | inr hput =>
                obtain ⟨_, hnone, hlook⟩ := hput
                rw [h.leaving_iff] at hlook
                have hsignal := h.not_signalled hnone
                subst hsignal
                exact ⟨.inr ⟨w, ops ++ [op], false, serving_put h op _ hlook⟩, hfinished⟩
  | startCheck =>
      simp only [callerStep]
      split
      · exact hstay
      · exact ⟨.inr ⟨w, ops, signalled, h.of_same rfl rfl rfl rfl rfl rfl⟩, hfinished⟩
  | startClear =>
      simp only [callerStep]
      split
      · exact hstay
      · exact ⟨.inr ⟨w, ops, signalled, serving_clear h _ _⟩, hfinished⟩
  | startLaunch =>
      simp only [callerStep]
      split
      · exact hstay
      · rename_i hready
        exact absurd (orderly (Nat.pos_of_ne_zero hready)).1 h.live_ne_nil
  | stopSet =>
      have hlook : w.phase.isFoundEmpty = true → s.queue = [] := fun hempty =>
        orderly (h.leaving_iff.mpr hempty)
      exact ⟨.inr ⟨_, ops, signalled, serving_flag h _ hlook⟩, hfinished⟩
  | stopSentinel =>
      simp only [callerStep]
      split
      · exact hstay
      · rename_i hready
        split
        · exact ⟨.inr ⟨w, ops, signalled, h.of_same rfl rfl rfl rfl rfl rfl⟩, hfinished⟩
        · rename_i hroom
          cases orderly (Nat.pos_of_ne_zero hready) with
          | inl hfull => exact absurd hfull hroom
          | inr hput =>
              obtain ⟨_, hnone, hstop, hlook⟩ := hput
              rw [h.leaving_iff] at hlook
              have hsignal := h.not_signalled hnone
              subst hsignal
              exact ⟨.inr ⟨w, ops, true, serving_sentinel h _ _ hstop hlook⟩, hfinished⟩
  | stopClose =>
      simp only [callerStep]
      split
      · exact hstay
      · rename_i hready
        exact absurd (orderly (Nat.pos_of_ne_zero hready)) h.live_ne_nil
  | _ => exact hstay

end CallerSteps

/-! ## Runs -/

theorem step_writerInvariant (capacity : Int) {s : AsyncDbWriter ω} (h : s.WriterInvariant)
    (op : WriterStep ω) (orderly : s.Orderly capacity op) :
    (s.step capacity op).WriterInvariant := by
  cases howner : stepOwner? op with
  | none =>
      simp only [step, howner]
      cases h.shape with
      | inl hquiet => exact quiet_callerStep capacity hquiet op orderly h.finished
      | inr hserving =>
          obtain ⟨w, ops, signalled, hserving⟩ := hserving
          exact serving_callerStep capacity hserving op orderly h.finished
  | some id =>
      cases h.shape with
      | inl hquiet =>
          have hnobody : s.worker? id = none := by simp [worker?, hquiet.live]
          simpa only [step, howner, hnobody] using h
      | inr hserving =>
          obtain ⟨w, ops, signalled, hserving⟩ := hserving
          by_cases hid : id = w.id
          · subst hid
            rw [step_own capacity hserving howner]
            cases workerStep_cases hserving op with
            | inl hnext =>
                obtain ⟨w', ops', signalled', hserving', hfinished⟩ := hnext
                exact ⟨.inr ⟨w', ops', signalled', hserving'⟩, by rw [hfinished]; exact h.finished⟩
            | inr hended =>
                refine ⟨.inl hended.1, ?_⟩
                rw [hended.2]
                intro called hmem
                cases List.mem_append.mp hmem with
                | inl hold => exact h.finished called hold
                | inr hnew => exact List.mem_singleton.mp hnew
          · have hnobody := hserving.worker?_other hid
            simpa only [step, howner, hnobody] using h

theorem WriterInvariant.noWriteLost (capacity : Int) {s : AsyncDbWriter ω}
    (h : s.WriterInvariant) : s.NoWriteLost capacity := by
  cases h.shape with
  | inl hquiet =>
      refine ⟨hquiet.executed ▸ List.prefix_rfl, fun _ => hquiet.executed, ?_, h.finished⟩
      intro w hw
      rw [hquiet.live] at hw
      cases hw
  | inr hserving =>
      obtain ⟨w, ops, signalled, hserving⟩ := hserving
      refine ⟨?_, fun hnone => absurd hnone hserving.live_ne_nil, ?_, h.finished⟩
      · rw [← hserving.order, List.append_assoc]
        exact List.prefix_append _ _
      · intro w' hw
        rw [hserving.live] at hw
        rw [List.mem_singleton.mp hw]
        exact hserving.progress capacity

/-- Along every orderly run no accepted write is lost. -/
theorem no_write_lost_along_run (capacity : Int) (steps : List (WriterStep ω))
    (orderly : StepsMeet (step capacity) (Orderly capacity) {} steps) :
    Always (step capacity) (NoWriteLost capacity) {} steps := by
  apply Always.mono fun s h => WriterInvariant.noWriteLost capacity h
  apply always_of_stepsMeet (I := WriterInvariant) _ writerInvariant_initial orderly
  intro s op _ hinv horderly
  exact step_writerInvariant capacity hinv op horderly

/-! ## A write in the worker's blind spot -/

/-- The worker has found the queue empty when an operation comes in; `stop` sets its event before
the worker looks at it. -/
def lateWrite : List (WriterStep Nat) :=
  [.startCheck, .startClear, .startLaunch, .connect 0, .submitCheck 7, .get 0, .submitPut 0,
    .stopSet, .checkStop 0]

/-- The operation was accepted, and the worker is gone. -/
theorem late_write_lost :
    ¬ ∀ (capacity : Int) (steps : List (WriterStep Nat)),
      Always (step capacity) (NoWriteLost capacity) {} steps := by
  intro h
  have hlost := (h 256 lateWrite).final
  exact absurd (hlost.complete (by decide)) (by decide)

/-- A writer that is started, used and stopped. -/
def plainUse : List (WriterStep Nat) :=
  [.startCheck, .startClear, .startLaunch, .connect 0, .submitCheck 7, .submitPut 0, .get 0,
    .execute 0, .stopSet, .stopSentinel, .get 0, .stopClose]

theorem plain_use_loses_nothing :
    Always (step 256) (NoWriteLost 256) ({} : AsyncDbWriter Nat) plainUse := by
  apply no_write_lost_along_run
  decide

end AsyncDbWriter

end AutoTrade.Db
