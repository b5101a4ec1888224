import AutoTrade.Signals.ActiveSignals

/-! # Pruning old signals

`prune_old_signals` of `core/signals/signal_tracker.py` moves resolved signals and their deliveries
into a zip archive named by the second, and deletes them from the live tables. An archive written
within the same second takes the place of the one before. The delivery audit is deleted and archived
nowhere.
-/

namespace AutoTrade.Signals

open AutoTrade.Library

/-- A row of `user_deliveries`, without the columns it copies from its signal. -/
structure UserDelivery where
  deliveryId : String
  signalId : String
  username : String
  channelsSent : String
deriving DecidableEq, Repr

abbrev UserDeliveries := Table UserDelivery UserDelivery.deliveryId

/-- A row of `signal_delivery_audit`. -/
structure DeliveryAudit where
  auditId : Nat
  signalId : String
  username : String
  channel : String
  destination : String
  attempted : Bool
  status : String
  errorMessage : Option String
  timestamp : String
deriving DecidableEq, Repr

/-- The JSON document of a zip archive. -/
structure SignalArchive where
  archivedAt : String
  systemSignals : List SystemSignal
  userDeliveries : List UserDelivery
deriving DecidableEq

/-- An eligible user: the switches that make up the text of the channels. -/
structure Recipient where
  username : String
  telegramEnabled : Bool
  emailEnabled : Bool
deriving DecidableEq, Repr

/-- What becomes of the archive file: it is written, the write fails before the file is opened, or it
fails after an earlier file of that name has been truncated. -/
inductive ArchiveWrite
  | written
  | fails
  | failsOpened
deriving DecidableEq, Repr

/-- The database of the signals, and the archives by their path. -/
structure SignalHistory where
  tracker : SignalOutcomeTracker
  deliveries : UserDeliveries := Table.empty
  audit : List DeliveryAudit := []
  nextAuditId : Nat := 1
  archives : Dict String SignalArchive := Table.empty

inductive HistoryOp
  /-- a grading pass, a sweep, a resolver, or a signal that reaches these users -/
  | outcome (op : OutcomeOp) (eligibleUsers : List Recipient)
  | recordDeliveryAttempt (signalId username channel destination : String) (attempted : Bool)
      (status : String) (errorMessage : Option String) (now : Time)
  | updateDeliveryStatus (auditId : Nat) (status : String) (errorMessage : Option String)
      (now : Time)
  | pruneOldSignals (maxAgeDays : Int) (archiveDir : String) (now stampedAt : Time)
      (write : ArchiveWrite) (commits : Bool)

namespace SignalHistory

section Runtime

variable (rt : SignalRuntime)

/-! ## Deliveries -/

def channelsText (u : Recipient) : String :=
  match u.telegramEnabled, u.emailEnabled with
  | true, true => "Telegram, Email"
  | true, false => "Telegram"
  | false, true => "Email"
  | false, false => "Web Dashboard"

def deliveryOf (signalId : String) (u : Recipient) : UserDelivery :=
  ⟨"DEL-" ++ signalId ++ "-" ++ u.username, signalId, u.username, channelsText u⟩

/-- The inserts for the eligible users; a delivery id that is taken raises. -/
def insertDeliveries (signalId : String) : UserDeliveries → List Recipient → Option UserDeliveries
  | t, [] => some t
  | t, u :: rest =>
      if t.contains (deliveryOf signalId u).deliveryId then none
      else insertDeliveries signalId (t.insertOrIgnore (deliveryOf signalId u)) rest

/-- `record_generated_signal` with its deliveries, in one transaction. -/
def recordSignal (h : SignalHistory) (g : GeneratedSignal) (signalId : String) (now : Time)
    (eligibleUsers : List Recipient) : SignalHistory :=
  let recorded := recordGeneratedSignal rt h.tracker.signals g signalId now
  if recorded.2 = "" then h
  else
    match insertDeliveries signalId h.deliveries eligibleUsers with
    | none => h
    | some deliveries =>
        { h with tracker := { h.tracker with signals := recorded.1 }, deliveries }

/-! ## The delivery audit -/

def auditError (errorMessage : Option String) : Option String :=
  if truthy errorMessage then errorMessage else none

def recordDeliveryAttempt (h : SignalHistory) (signalId username channel destination : String)
    (attempted : Bool) (status : String) (errorMessage : Option String) (now : Time) :
    Nat × SignalHistory :=
  let row : DeliveryAudit :=
    { auditId := h.nextAuditId
      signalId
      username
      channel := channel.toUpper
      destination
      attempted
      status := status.toUpper
      errorMessage := auditError errorMessage
      timestamp := rt.strftime now }
  (h.nextAuditId, { h with audit := h.audit ++ [row], nextAuditId := h.nextAuditId + 1 })

def updateDeliveryStatus (h : SignalHistory) (auditId : Nat) (status : String)
    (errorMessage : Option String) (now : Time) : Bool × SignalHistory :=
  if auditId = 0 then (false, h)
  else
    (h.audit.any fun row => decide (row.auditId = auditId),
      { h with
        audit := h.audit.map fun row =>
          if row.auditId = auditId then
            { row with
              status := status.toUpper
              errorMessage := auditError errorMessage
              timestamp := rt.strftime now }
          else row })

def isSignalDelivered (h : SignalHistory) (signalId username channel : String) : Bool :=
  h.audit.any fun row =>
    decide (row.signalId = signalId ∧ row.username = username ∧ row.channel = channel.toUpper ∧
      row.status ∈ ["SENT", "ACCEPTED", "TRANSMITTED"])

/-! ## Pruning -/

/-- The isoformat of the day that many days before. -/
def pruneCutoff (now : Time) (maxAgeDays : Int) : String :=
  dateText (rt.isoformat ((dayOf now - maxAgeDays) * day))

/-- The rows a prune reads. -/
def agedOut (t : SystemSignals) (cutoff : String) : List SystemSignal :=
  t.rows.filter fun s => decide (s.createdDate < cutoff) && decide (s.status ≠ .active)

def archivePath (archiveDir stamp : String) : String :=
  archiveDir ++ "/signals_archive_" ++ stamp ++ ".zip"

/-- The stamp of the clock is given by the runtime's text, without its separators. -/
def stampOf (t : Time) : String :=
  String.ofList ((rt.strftime t).toList.filterMap fun c =>
    if c = '-' ∨ c = ':' then none else if c = ' ' then some '_' else some c)

/-- The rows of the signals are deleted from the three tables. -/
def deleteSignals (h : SignalHistory) (ids : List String) : SignalHistory :=
  { h with
    tracker := { h.tracker with
      signals := h.tracker.signals.filter fun s => decide (s.signalId ∉ ids) }
    deliveries := h.deliveries.filter fun d => decide (d.signalId ∉ ids)
    audit := h.audit.filter fun row => decide (row.signalId ∉ ids) }

/-- The number of signals removed is returned as well. -/
def pruneOldSignals (h : SignalHistory) (maxAgeDays : Int) (archiveDir : String)
    (now stampedAt : Time) (write : ArchiveWrite) (commits : Bool) : Nat × SignalHistory :=
  if maxAgeDays ≤ 0 then (0, h)
  else
    let rows := agedOut h.tracker.signals (pruneCutoff rt now maxAgeDays)
    if rows = [] then (0, h)
    else
      let ids := rows.map SystemSignal.signalId
      let deliveries := h.deliveries.rows.filter fun d => decide (d.signalId ∈ ids)
      let path := archivePath archiveDir (stampOf rt stampedAt)
      match write with
      | .fails => (0, h)
      | .failsOpened => (0, { h with archives := h.archives.erase path })
      | .written =>
          let archived :=
            { h with archives := h.archives.set path ⟨rt.isoformat stampedAt, rows, deliveries⟩ }
          if commits then (rows.length, archived.deleteSignals ids) else (0, archived)

def step (h : SignalHistory) : HistoryOp → SignalHistory
  | .outcome (.record g signalId now) eligibleUsers => h.recordSignal rt g signalId now eligibleUsers
  | .outcome op _ => { h with tracker := op.step rt h.tracker }
  | .recordDeliveryAttempt signalId username channel destination attempted status error now =>
      (h.recordDeliveryAttempt rt signalId username channel destination attempted status error now).2
  | .updateDeliveryStatus auditId status error now =>
      (h.updateDeliveryStatus rt auditId status error now).2
  | .pruneOldSignals maxAgeDays archiveDir now stampedAt write commits =>
      (h.pruneOldSignals rt maxAgeDays archiveDir now stampedAt write commits).2

/-- An archive that is written, or only opened, has a path of its own. -/
def FreshArchive (h : SignalHistory) : HistoryOp → Prop
  | .pruneOldSignals maxAgeDays archiveDir now stampedAt write _ =>
      0 < maxAgeDays → agedOut h.tracker.signals (pruneCutoff rt now maxAgeDays) ≠ [] →
        write ≠ .fails → h.archives.get? (archivePath archiveDir (stampOf rt stampedAt)) = none
  | _ => True

variable {rt}

/-! ## Archives stand -/

theorem archives_prune {h : SignalHistory} {maxAgeDays : Int} {archiveDir : String}
    {now stampedAt : Time} {write : ArchiveWrite} {commits : Bool}
    (hfresh : FreshArchive rt h (.pruneOldSignals maxAgeDays archiveDir now stampedAt write commits))
    {path : String} {a : SignalArchive} (ha : h.archives.get? path = some a) :
    (h.pruneOldSignals rt maxAgeDays archiveDir now stampedAt write commits).2.archives.get? path =
      some a := by
  unfold pruneOldSignals
  split
  · exact ha
  · rename_i hage
    dsimp only
    split
    · exact ha
    · rename_i hrows
      have hother : write ≠ .fails → path ≠ archivePath archiveDir (stampOf rt stampedAt) := by
        rintro hwrite rfl
        rw [hfresh (not_le.mp hage) hrows hwrite] at ha
        cases ha
      cases write with
      | fails => exact ha
      | failsOpened =>
          dsimp only
          rw [Dict.get?_erase, if_neg (hother (by decide)), ha]
      | written =>
          have hset := Dict.get?_set_of_ne h.archives
            (⟨rt.isoformat stampedAt, agedOut h.tracker.signals (pruneCutoff rt now maxAgeDays),
              h.deliveries.rows.filter fun d => decide (d.signalId ∈
                (agedOut h.tracker.signals (pruneCutoff rt now maxAgeDays)).map
                  SystemSignal.signalId)⟩ : SignalArchive) (hother (by decide))
          dsimp only
          split
          · rw [deleteSignals, hset, ha]
          · rw [hset, ha]

theorem archives_step {h : SignalHistory} {op : HistoryOp} (hfresh : FreshArchive rt h op)
    {path : String} {a : SignalArchive} (ha : h.archives.get? path = some a) :
    (step rt h op).archives.get? path = some a := by
  cases op with
  | outcome op users =>
      cases op with
      | record g signalId now =>
          simp only [step, recordSignal]
          split
          · exact ha
          · split <;> exact ha
      | _ => exact ha
  | pruneOldSignals maxAgeDays archiveDir now stampedAt write commits =>
      exact archives_prune hfresh ha
  | updateDeliveryStatus auditId status error now =>
      simp only [step, updateDeliveryStatus]
      split <;> exact ha
  | recordDeliveryAttempt => exact ha

theorem archives_run {h : SignalHistory} {ops : List HistoryOp}
    (hfresh : StepsMeet (step rt) (FreshArchive rt) h ops) {path : String} {a : SignalArchive}
    (ha : h.archives.get? path = some a) :
    (run (step rt) h ops).archives.get? path = some a :=
  (always_of_stepsMeet (I := fun h : SignalHistory => h.archives.get? path = some a)
    (fun _ _ _ ha hfresh => archives_step hfresh ha) ha hfresh).final

/-! ## What leaves the live tables -/

/-- The signal is live, and so are its deliveries. -/
def Live (id : String) (ds : List UserDelivery) (h : SignalHistory) : Prop :=
  (∃ s ∈ h.tracker.signals.rows, s.signalId = id) ∧ ∀ d ∈ ds, d ∈ h.deliveries.rows

/-- The row is archived with the deliveries. -/
def Archived (s : SystemSignal) (ds : List UserDelivery) (h : SignalHistory) : Prop :=
  ∃ path a, h.archives.get? path = some a ∧ s ∈ a.systemSignals ∧ ∀ d ∈ ds, d ∈ a.userDeliveries

theorem mem_insertOrIgnore {ρ κ : Type} [DecidableEq κ] {key : ρ → κ} {t : Table ρ key} {r : ρ}
    (h : r ∈ t.rows) (x : ρ) : r ∈ (t.insertOrIgnore x).rows :=
  ((Table.find?_eq_some_iff _ _ _).mp
    (Table.find?_insertOrIgnore_of_some (Table.find?_of_mem h))).1

theorem mem_insertDeliveries {signalId : String} {t t' : UserDeliveries} {users : List Recipient}
    (h : insertDeliveries signalId t users = some t') {d : UserDelivery} (hd : d ∈ t.rows) :
    d ∈ t'.rows := by
  induction users generalizing t with
  | nil =>
      cases h
      exact hd
  | cons u rest ih =>
      rw [insertDeliveries] at h
      split at h
      · cases h
      · exact ih h (mem_insertOrIgnore hd _)

theorem live_recordGeneratedSignal {t : SystemSignals} {id : String}
    (h : ∃ s ∈ t.rows, s.signalId = id) (g : GeneratedSignal) (signalId : String) (now : Time) :
    ∃ s ∈ (recordGeneratedSignal rt t g signalId now).1.rows, s.signalId = id := by
  obtain ⟨s, hs, rfl⟩ := h
  rcases @recordGeneratedSignal_cases rt t g signalId now with ⟨-, hsame⟩ |
    ⟨-, -, ⟨-, -, hinsert⟩ | ⟨prior, -, -, -, hreverse⟩⟩
  · rw [hsame]
    exact ⟨s, hs, rfl⟩
  · rw [hinsert]
    exact ⟨s, mem_insertOrIgnore hs _, rfl⟩
  · rw [hreverse]
    obtain ⟨s', hs', -, hid⟩ := (@kept_close rt t prior.signalId now).row_after hs
    exact ⟨s', mem_insertOrIgnore hs' _, hid⟩

theorem live_outcome {t : SignalOutcomeTracker} {id : String}
    (h : ∃ s ∈ t.signals.rows, s.signalId = id) (op : OutcomeOp) :
    ∃ s ∈ (op.step rt t).signals.rows, s.signalId = id := by
  obtain ⟨s, hs, rfl⟩ := h
  cases op with
  | update observe now =>
      obtain ⟨s', hs', -, hid⟩ := (@kept_update rt t observe now).row_after hs
      exact ⟨s', hs', hid⟩
  | expireStale now =>
      obtain ⟨s', hs', -, hid⟩ := (@kept_sweep rt t.signals now).row_after hs
      exact ⟨s', hs', hid⟩
  | resolvePending limit bars now sweepNow =>
      obtain ⟨s', hs', -, hid⟩ :=
        ((@kept_resolveSignals rt t.signals (pendingSignals t.signals limit) bars now).trans
          SameSignal.trans (kept_sweep _ sweepNow)).row_after hs
      exact ⟨s', hs', hid⟩
  | record g signalId now => exact live_recordGeneratedSignal ⟨s, hs, rfl⟩ g signalId now

theorem live_prune {h : SignalHistory} {s : SystemSignal} {ds : List UserDelivery}
    (hs : s ∈ h.tracker.signals.rows) (hds : ∀ d ∈ ds, d ∈ h.deliveries.rows)
    (hids : ∀ d ∈ ds, d.signalId = s.signalId) (maxAgeDays : Int) (archiveDir : String)
    (now stampedAt : Time) (write : ArchiveWrite) (commits : Bool) :
    Live s.signalId ds (h.pruneOldSignals rt maxAgeDays archiveDir now stampedAt write commits).2 ∨
      s.status ≠ .active ∧
        Archived s ds (h.pruneOldSignals rt maxAgeDays archiveDir now stampedAt write commits).2 := by
  have hlive : Live s.signalId ds h := ⟨⟨s, hs, rfl⟩, hds⟩
  unfold pruneOldSignals
  split
  · exact .inl hlive
  · dsimp only
    split
    · exact .inl hlive
    · cases write with
      | fails => exact .inl hlive
      | failsOpened => exact .inl hlive
      | written =>
          dsimp only
          split
          · by_cases hpruned : s ∈ agedOut h.tracker.signals (pruneCutoff rt now maxAgeDays)
            · have hid : s.signalId ∈ (agedOut h.tracker.signals
                  (pruneCutoff rt now maxAgeDays)).map SystemSignal.signalId :=
                List.mem_map_of_mem hpruned
              have hstatus : s.status ≠ .active := by
                have hmatch := (List.mem_filter.mp hpruned).2
                exact of_decide_eq_true (Bool.and_eq_true_iff.mp hmatch).2
              refine .inr ⟨hstatus, _, _, Dict.get?_set_self .., hpruned, fun d hd => ?_⟩
              exact List.mem_filter.mpr ⟨hds d hd, decide_eq_true (hids d hd ▸ hid)⟩
            · have hid : s.signalId ∉ (agedOut h.tracker.signals
                  (pruneCutoff rt now maxAgeDays)).map SystemSignal.signalId := by
                intro hmem
                obtain ⟨r, hr, hkey⟩ := List.mem_map.mp hmem
                -- the table has one row for the id
                have hfind := Table.find?_of_mem (List.mem_of_mem_filter hr)
                rw [hkey, Table.find?_of_mem hs] at hfind
                cases hfind
                exact hpruned hr
              refine .inl ⟨⟨s, List.mem_filter.mpr ⟨hs, decide_eq_true hid⟩, rfl⟩, fun d hd => ?_⟩
              exact List.mem_filter.mpr ⟨hds d hd, decide_eq_true (hids d hd ▸ hid)⟩
          · exact .inl hlive

/-- A step keeps a live signal with its deliveries, or archives the row as it stood. -/
theorem live_step {h : SignalHistory} {s : SystemSignal} {ds : List UserDelivery}
    (hs : s ∈ h.tracker.signals.rows) (hds : ∀ d ∈ ds, d ∈ h.deliveries.rows)
    (hids : ∀ d ∈ ds, d.signalId = s.signalId) (op : HistoryOp) :
    Live s.signalId ds (step rt h op) ∨
      s.status ≠ .active ∧ Archived s ds (step rt h op) := by
  have hlive : Live s.signalId ds h := ⟨⟨s, hs, rfl⟩, hds⟩
  cases op with
  | outcome op users =>
      left
      cases op with
      | record g signalId now =>
          simp only [step, recordSignal]
          split
          · exact hlive
          · split
            · exact hlive
            · rename_i deliveries hinsert
              exact ⟨live_recordGeneratedSignal hlive.1 g signalId now,
                fun d hd => mem_insertDeliveries hinsert (hds d hd)⟩
      | _ => exact ⟨live_outcome hlive.1 _, hds⟩
  | pruneOldSignals maxAgeDays archiveDir now stampedAt write commits =>
      exact live_prune hs hds hids maxAgeDays archiveDir now stampedAt write commits
  | updateDeliveryStatus auditId status error now =>
      left
      simp only [step, updateDeliveryStatus]
      split <;> exact hlive
  | recordDeliveryAttempt => exact .inl hlive

/-- Where each prune has an archive path of its own, no signal is lost: after any run it is live with
all its deliveries, or an archive has it as it last stood, no longer active, with all of them. -/
theorem signal_live_or_archived {h : SignalHistory} {ops : List HistoryOp}
    (hfresh : StepsMeet (step rt) (FreshArchive rt) h ops) {s : SystemSignal}
    (hs : s ∈ h.tracker.signals.rows) {ds : List UserDelivery}
    (hds : ∀ d ∈ ds, d ∈ h.deliveries.rows) (hids : ∀ d ∈ ds, d.signalId = s.signalId) :
    Live s.signalId ds (run (step rt) h ops) ∨
      ∃ before later, ops = before ++ later ∧
        ∃ last ∈ (run (step rt) h before).tracker.signals.rows,
          last.signalId = s.signalId ∧ last.status ≠ .active ∧
            Archived last ds (run (step rt) h ops) := by
  induction ops generalizing h s with
  | nil => exact .inl ⟨⟨s, hs, rfl⟩, hds⟩
  | cons op rest ih =>
      obtain ⟨hstep, hrest⟩ := hfresh
      rcases @live_step rt h s ds hs hds hids op with ⟨⟨s', hs', hid⟩, hds'⟩ |
        ⟨hstatus, path, a, ha, hmem, hdeliveries⟩
      · rcases ih hrest hs' hds' (fun d hd => (hids d hd).trans hid.symm) with hlive |
          ⟨before, later, hsplit, last, hlast, hlastId, hstatus, harchived⟩
        · exact .inl (hid ▸ hlive)
        · exact .inr ⟨op :: before, later, by rw [hsplit]; rfl, last, hlast,
            hlastId.trans hid, hstatus, harchived⟩
      · exact .inr ⟨[], op :: rest, rfl, s, hs, rfl, hstatus, path, a, archives_run hrest ha, hmem,
          hdeliveries⟩

end Runtime

/-! ## A prune in the following week -/

def resolvedSignal : SystemSignal :=
  { sampleSignal with
    timestamp := "2024-01-04 10:00:00"
    createdDate := "2024-01-04"
    status := .slHit }

def resolvedDelivery : UserDelivery := deliveryOf resolvedSignal.signalId ⟨"asha", true, false⟩

def resolvedHistory : SignalHistory :=
  { tracker := { signals := ⟨[resolvedSignal], by decide⟩ }
    deliveries := ⟨[resolvedDelivery], by decide⟩ }

def mondayAt (hours : Int) : Time := 738893 * day + hours * hour

def mondayPrune : HistoryOp :=
  .pruneOldSignals 3 "signal_archives" (mondayAt 18) (mondayAt 18) .written true

example : agedOut resolvedHistory.tracker.signals (pruneCutoff sampleRuntime (mondayAt 18) 3) =
    [resolvedSignal] := by
  decide +kernel

theorem signal_live_or_archived_monday :
    Live resolvedSignal.signalId [resolvedDelivery]
        (run (step sampleRuntime) resolvedHistory [mondayPrune]) ∨
      ∃ before later, [mondayPrune] = before ++ later ∧
        ∃ last ∈ (run (step sampleRuntime) resolvedHistory before).tracker.signals.rows,
          last.signalId = resolvedSignal.signalId ∧ last.status ≠ .active ∧
            Archived last [resolvedDelivery]
              (run (step sampleRuntime) resolvedHistory [mondayPrune]) :=
  have hfresh : StepsMeet (step sampleRuntime) (FreshArchive sampleRuntime) resolvedHistory
      [mondayPrune] :=
    ⟨fun _ _ _ => rfl, trivial⟩
  signal_live_or_archived hfresh (.head _) (List.forall_mem_singleton.mpr (.head _))
    (List.forall_mem_singleton.mpr rfl)

end SignalHistory

end AutoTrade.Signals
