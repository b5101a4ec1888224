import AutoTrade.Signals.OutcomeFinality

/-! # Active signals

At most one signal of an opportunity is active, since a duplicate is looked up
under its own key. Of a symbol only the latest active signal is looked at before
the opposite one is recorded, and the look-up reads no price to close it at.
-/

namespace AutoTrade.Signals

open AutoTrade.Library

/-- The signals, and every row closed on a reversal, as it was and as it was left. -/
structure SignalBook where
  tracker : SignalOutcomeTracker
  reversed : List (SystemSignal × SystemSignal) := []

/-- The rows one table has as closed on a reversal and another has not. -/
def newlyReversed (t t' : SystemSignals) : List (SystemSignal × SystemSignal) :=
  t.rows.filterMap fun s => (t'.find? s.signalId).bind fun s' =>
    if s.status ≠ .closedOnReversal ∧ s'.status = .closedOnReversal then some (s, s') else none

def OneActivePerOpportunity (t : SystemSignals) : Prop :=
  ∀ r ∈ t.rows, ∀ s ∈ t.rows, r.status = .active → s.status = .active →
    r.opportunityKey = s.opportunityKey → r.signalId = s.signalId

def OneDirectionPerSymbol (t : SystemSignals) : Prop :=
  ∀ r ∈ t.rows, ∀ s ∈ t.rows, r.status = .active → s.status = .active →
    r.symbol = s.symbol → r.direction = s.direction

/-- The row was left at its current price, or at its entry price. -/
def LeftAtItsPrice (closing : SystemSignal × SystemSignal) : Prop :=
  closing.2.exitPrice = some (orPrice closing.1.currentPrice closing.1.entryPrice)

namespace SignalBook

structure Consistent (book : SignalBook) : Prop where
  opportunities : OneActivePerOpportunity book.tracker.signals
  directions : OneDirectionPerSymbol book.tracker.signals
  closings : ∀ closing ∈ book.reversed, LeftAtItsPrice closing

section Runtime

variable (rt : SignalRuntime)

def step (book : SignalBook) (op : OutcomeOp) : SignalBook :=
  let tracker := OutcomeOp.step rt book.tracker op
  { tracker, reversed := book.reversed ++ newlyReversed book.tracker.signals tracker.signals }

end Runtime

end SignalBook

/-! ## Gradings, sweeps and resolvers -/

/-- The same signal, and not made active. -/
structure NotActivated (s s' : SystemSignal) : Prop where
  symbol : s'.symbol = s.symbol
  direction : s'.direction = s.direction
  opportunityKey : s'.opportunityKey = s.opportunityKey
  active : s'.status = .active → s.status = .active

/-- The same signal, not closed on a reversal either. -/
structure SameSignal (s s' : SystemSignal) : Prop extends NotActivated s s' where
  reversed : s'.status = .closedOnReversal → s.status = .closedOnReversal

theorem NotActivated.refl (s : SystemSignal) : NotActivated s s := ⟨rfl, rfl, rfl, id⟩

theorem NotActivated.trans {s s' s'' : SystemSignal} (h : NotActivated s s')
    (h' : NotActivated s' s'') : NotActivated s s'' :=
  ⟨h'.symbol.trans h.symbol, h'.direction.trans h.direction,
    h'.opportunityKey.trans h.opportunityKey, fun hs => h.active (h'.active hs)⟩

theorem SameSignal.refl (s : SystemSignal) : SameSignal s s := ⟨NotActivated.refl s, id⟩

theorem SameSignal.trans (s s' s'' : SystemSignal) (h : SameSignal s s') (h' : SameSignal s' s'') :
    SameSignal s s'' :=
  ⟨h.toNotActivated.trans h'.toNotActivated, fun hs => h.reversed (h'.reversed hs)⟩

/-- The statuses a grading gives. -/
def Graded (status : OutcomeState) : Prop :=
  status ∈ [.target1Hit, .target2Hit, .slHit, .ambiguous, .expired]

theorem sameSignal_persist {s : SystemSignal} {e : SignalEvaluationResult}
    (h : ∀ status, e.newStatus = some status → status = s.status ∨ Graded status) :
    SameSignal s (s.persist e) := by
  unfold SystemSignal.persist
  split
  · rename_i status hstatus
    refine ⟨⟨rfl, rfl, rfl, fun hactive => ?_⟩, fun hreversed => ?_⟩
    · rcases h status hstatus with hsame | hgraded
      · exact hsame ▸ hactive
      · have hwritten : status = .active := hactive
        simp [Graded, hwritten] at hgraded
    · rcases h status hstatus with hsame | hgraded
      · exact hsame ▸ hreversed
      · have hwritten : status = .closedOnReversal := hreversed
        simp [Graded, hwritten] at hgraded
  · exact ⟨⟨rfl, rfl, rfl, id⟩, id⟩

section Runtime

variable {rt : SignalRuntime}

theorem transition_newStatus {s : SystemSignal} {hits : BarrierHits} {now : Time}
    {status : OutcomeState} (h : (transition rt s hits now).newStatus = some status) :
    status = s.status ∨ Graded status := by
  unfold transition at h
  repeat' split at h
  all_goals cases h <;> simp [Graded]

theorem evaluateBar_newStatus {s : SystemSignal} {bar : SignalBar} {now : Time}
    {checkStaleness : Bool} {status : OutcomeState}
    (h : (evaluateBar rt s bar now checkStaleness).newStatus = some status) :
    status = s.status ∨ Graded status := by
  have htransition := congrArg Transition.newStatus
    (@evaluateBar_transition rt s bar now checkStaleness)
  rw [h] at htransition
  split at htransition
  · exact transition_newStatus htransition.symm
  · cases htransition

theorem evaluateRow_newStatus {candles after : List String} {s : SystemSignal} {o : Observation}
    {now : Time} {e : SignalEvaluationResult}
    (h : evaluateRow rt candles s o now = (after, .ok (some e))) {status : OutcomeState}
    (hstatus : e.newStatus = some status) : status = s.status ∨ Graded status := by
  rcases evaluateRow_cases h with ⟨bar, rfl, -⟩ | ⟨p, rfl, -⟩ | ⟨rfl, -⟩
  · exact evaluateBar_newStatus hstatus
  · unfold evaluatePoll at hstatus
    dsimp only at hstatus
    split at hstatus
    · cases hstatus
      simp [Graded]
    · exact evaluateBar_newStatus hstatus
  · refine .inr ?_
    unfold expiredWithoutPrice at hstatus
    split at hstatus <;> cases hstatus <;> simp [Graded]

/-- A replay ends with the status it started from, or with a graded one. -/
theorem replayBars_newStatus {s r : SystemSignal} (hs : s.status = r.status ∨ Graded s.status)
    {now : Time} {last : Option SignalEvaluationResult}
    (hlast : ∀ e status, last = some e → e.newStatus = some status →
      status = r.status ∨ Graded status) {bars : List SignalBar} {e : SignalEvaluationResult}
    (h : replayBars rt now s last bars = some e) {status : OutcomeState}
    (hstatus : e.newStatus = some status) : status = r.status ∨ Graded status := by
  induction bars generalizing s last with
  | nil => exact hlast e status h hstatus
  | cons bar rest ih =>
      have hnext : ∀ x st, some (evaluateBar rt s bar (barClose rt bar now) false) = some x →
          x.newStatus = some st → st = r.status ∨ Graded st := by
        intro x st hx hst
        cases hx
        rcases evaluateBar_newStatus hst with hsame | hgraded
        · exact hsame ▸ hs
        · exact .inr hgraded
      unfold replayBars at h
      dsimp only at h
      split at h
      · exact hnext e status h hstatus
      · split at h
        · exact ih (.inr (by simp [Graded])) hnext h
        · exact ih hs hnext h

theorem kept_writeEvaluation {P : SystemSignal → SystemSignal → Prop} (hrefl : ∀ s, P s s)
    {t : SystemSignals} {id : String} {e : SignalEvaluationResult}
    (h : ∀ s, t.find? id = some s → P s (s.persist e)) :
    Table.Kept P t (writeEvaluation t id e) :=
  Table.kept_update hrefl t id (fun s => s.persist_signalId e) h

theorem kept_update {t : SignalOutcomeTracker} {observe : String → Observation} {now : Time} :
    Table.Kept SameSignal t.signals (updateActiveSignalOutcomes rt t observe now).signals := by
  refine Table.kept_of_rows ?_ fun id s hs => ?_
  · unfold updateActiveSignalOutcomes
    split
    · rename_i t' hloop
      have hkeys : Table.Kept (fun _ _ => True) t.signals
          (loop (gradeRow rt observe now) t t.signals.graded).1.signals := by
        refine loop_invariant
          (I := fun u : SignalOutcomeTracker => Table.Kept (fun _ _ => True) t.signals u.signals)
          (fun u s _ hu => ?_) (.refl (fun _ => trivial) _)
        unfold gradeRow
        split
        · exact hu
        · exact hu.trans (fun _ _ _ _ _ => trivial)
            (kept_writeEvaluation (fun _ => trivial) fun _ _ => trivial)
        · exact hu
      rw [hloop] at hkeys
      exact hkeys
    · exact .refl (fun _ => trivial) _
  · exact updateActive_rows (C := fun _ _ => True) SameSignal.refl
      (fun u r _ after e _ hevaluated =>
        sameSignal_persist fun _ hstatus => evaluateRow_newStatus hevaluated hstatus)
      (loopMeets_of_forall (fun _ _ _ => trivial) t) hs

theorem sameSignal_expireIfOpen (s : SystemSignal) (now : Time) :
    SameSignal s (expireIfOpen rt s now) := by
  unfold expireIfOpen expireRow
  split
  · exact SameSignal.refl s
  · split
    · exact ⟨⟨rfl, rfl, rfl, (nomatch ·)⟩, (nomatch ·)⟩
    · exact ⟨⟨rfl, rfl, rfl, (nomatch ·)⟩, (nomatch ·)⟩

theorem kept_sweep (t : SystemSignals) (now : Time) :
    Table.Kept SameSignal t (expireStaleSignals rt t now).1 := by
  unfold expireStaleSignals
  split
  · exact .refl SameSignal.refl t
  · rename_i ids hids
    intro id
    rw [find?_expireCandidates]
    cases t.find? id with
    | none =>
        split
        · exact .none
        · exact .none
    | some s =>
        split
        · exact .some (sameSignal_expireIfOpen s now)
        · exact .some (SameSignal.refl s)

theorem resolution_graded {s : SystemSignal} {bars : List SignalBar} {now : Time}
    {e : SignalEvaluationResult} (h : resolution rt s bars now = some e) {status : OutcomeState}
    (hstatus : e.newStatus = some status) : Graded status := by
  obtain ⟨hreplay, hother⟩ := Option.filter_eq_some_iff.mp h
  rw [hstatus] at hother
  rcases replayBars_newStatus (.inl rfl) (by simp) hreplay hstatus with hsame | hgraded
  · exact absurd hsame (by simpa using hother)
  · exact hgraded

theorem kept_resolveSignals (t : SystemSignals) (pending : List SystemSignal)
    (bars : String → List SignalBar) (now : Time) :
    Table.Kept SameSignal t (resolveSignals rt t pending bars now) := by
  induction pending generalizing t with
  | nil => exact .refl SameSignal.refl t
  | cons s rest ih =>
      refine Table.Kept.trans SameSignal.trans ?_ (ih (resolveSignal rt t s (bars s.symbol) now))
      unfold resolveSignal
      split
      · rename_i e hresolution
        exact kept_writeEvaluation SameSignal.refl fun r _ => sameSignal_persist fun _ hstatus =>
          .inr (resolution_graded hresolution hstatus)
      · exact .refl SameSignal.refl t

theorem kept_oneActive {t t' : SystemSignals} (h : Table.Kept NotActivated t t')
    (hone : OneActivePerOpportunity t) : OneActivePerOpportunity t' := by
  intro r' hr' s' hs' hractive hsactive hkeys
  obtain ⟨r, hr, hrsame, hrid⟩ := h.row_before hr'
  obtain ⟨s, hs, hssame, hsid⟩ := h.row_before hs'
  have hid := hone r hr s hs (hrsame.active hractive) (hssame.active hsactive)
    (hrsame.opportunityKey.symm.trans (hkeys.trans hssame.opportunityKey))
  exact hrid.trans (hid.trans hsid.symm)

theorem kept_oneDirection {t t' : SystemSignals} (h : Table.Kept NotActivated t t')
    (hone : OneDirectionPerSymbol t) : OneDirectionPerSymbol t' := by
  intro r' hr' s' hs' hractive hsactive hsymbols
  obtain ⟨r, hr, hrsame, -⟩ := h.row_before hr'
  obtain ⟨s, hs, hssame, -⟩ := h.row_before hs'
  have hdirections := hone r hr s hs (hrsame.active hractive) (hssame.active hsactive)
    (hrsame.symbol.symm.trans (hsymbols.trans hssame.symbol))
  exact hrsame.direction.trans (hdirections.trans hssame.direction.symm)

theorem mem_newlyReversed {t t' : SystemSignals} {closing : SystemSignal × SystemSignal} :
    closing ∈ newlyReversed t t' ↔ closing.1 ∈ t.rows ∧
      t'.find? closing.1.signalId = some closing.2 ∧ closing.1.status ≠ .closedOnReversal ∧
      closing.2.status = .closedOnReversal := by
  obtain ⟨s, s'⟩ := closing
  unfold newlyReversed
  rw [List.mem_filterMap]
  constructor
  · rintro ⟨r, hr, hbind⟩
    obtain ⟨r', hr', hif⟩ := Option.bind_eq_some_iff.mp hbind
    split at hif
    · rename_i hclosed
      cases hif
      exact ⟨hr, hr', hclosed⟩
    · cases hif
  · rintro ⟨hs, hs', hclosed⟩
    exact ⟨s, hs, Option.bind_eq_some_iff.mpr ⟨s', hs', if_pos hclosed⟩⟩

theorem newlyReversed_of_kept {t t' : SystemSignals} (h : Table.Kept SameSignal t t') :
    newlyReversed t t' = [] := by
  refine List.eq_nil_iff_forall_not_mem.mpr fun closing hmem => ?_
  obtain ⟨hs, hs', hopen, hclosed⟩ := mem_newlyReversed.mp hmem
  have hrel := h closing.1.signalId
  rw [Table.find?_of_mem hs, hs'] at hrel
  cases hrel with
  | some hsame => exact hopen (hsame.reversed hclosed)

/-! ## Recording -/

variable (rt) in
/-- The active signal that a recorded one replaces. -/
def reversalOf (t : SystemSignals) (g : GeneratedSignal) (signalId : String) (now : Time) :
    Option SystemSignal :=
  if isDuplicate rt t g now || t.contains signalId then none
  else (activeSameSymbol t g.symbol).filter fun prior =>
    decide (prior.direction ≠ g.direction ∧
      ¬ cutoff rt now g.oppositeDirCooldownSecs ≤ prior.timestamp)

/-- The later of two signals by their timestamps. -/
def later (latest : Option SystemSignal) (s : SystemSignal) : Option SystemSignal :=
  if latest.all fun r => decide (r.timestamp ≤ s.timestamp) then some s else latest

theorem later_isSome (latest : Option SystemSignal) (s : SystemSignal) :
    (later latest s).isSome = true := by
  cases latest with
  | none => rfl
  | some r =>
      unfold later
      split <;> rfl

theorem mem_of_foldl_later {rows : List SystemSignal} {first : Option SystemSignal}
    {latest : SystemSignal} (h : rows.foldl later first = some latest) :
    first = some latest ∨ latest ∈ rows := by
  induction rows generalizing first with
  | nil => exact .inl h
  | cons s rest ih =>
      rcases ih h with hfirst | hrest
      · unfold later at hfirst
        split at hfirst
        · cases hfirst
          exact .inr List.mem_cons_self
        · exact .inl hfirst
      · exact .inr (List.mem_cons_of_mem s hrest)

theorem foldl_later_isSome (rows : List SystemSignal) {first : Option SystemSignal}
    (h : first.isSome = true) : (rows.foldl later first).isSome = true := by
  induction rows generalizing first with
  | nil => exact h
  | cons s rest ih => exact ih (later_isSome first s)

theorem mem_of_activeSameSymbol {t : SystemSignals} {symbol : String} {s : SystemSignal}
    (h : activeSameSymbol t symbol = some s) :
    s ∈ t.rows ∧ s.symbol = symbol ∧ s.status = .active := by
  rcases mem_of_foldl_later h with hnone | hmem
  · cases hnone
  · obtain ⟨hrow, hactive⟩ := List.mem_filter.mp hmem
    simpa [hrow] using hactive

theorem activeSameSymbol_isSome {t : SystemSignals} {s : SystemSignal} (hs : s ∈ t.rows)
    (hactive : s.status = .active) : (activeSameSymbol t s.symbol).isSome = true := by
  have hmem : s ∈ t.rows.filter fun r => decide (r.symbol = s.symbol) && decide (r.status = .active) :=
    List.mem_filter.mpr ⟨hs, by simp [hactive]⟩
  show (List.foldl later none (t.rows.filter _)).isSome = true
  cases hrows : t.rows.filter fun r =>
      decide (r.symbol = s.symbol) && decide (r.status = .active) with
  | nil =>
      rw [hrows] at hmem
      cases hmem
  | cons r rest =>
      rw [List.foldl_cons]
      exact foldl_later_isSome rest (later_isSome none r)

theorem kept_close (t : SystemSignals) (id : String) (now : Time) :
    Table.Kept NotActivated t (t.update id (fun s => closeOnReversal rt s now) fun s =>
      closeOnReversal_signalId rt s now) := by
  refine Table.kept_update NotActivated.refl t id _ fun s _ => ?_
  unfold closeOnReversal
  split
  · exact ⟨rfl, rfl, rfl, (nomatch ·)⟩
  · exact NotActivated.refl s

variable (rt) in
/-- The signals with one closed and another recorded. -/
def reverse (t : SystemSignals) (prior : SystemSignal) (row : SystemSignal) (now : Time) :
    SystemSignals :=
  (t.update prior.signalId (fun s => closeOnReversal rt s now) fun s =>
    closeOnReversal_signalId rt s now).insertOrIgnore row

theorem contains_update (t : SystemSignals) (id j : String) (now : Time) :
    (t.update id (fun s => closeOnReversal rt s now) fun s =>
      closeOnReversal_signalId rt s now).contains j = t.contains j := by
  unfold Table.contains
  rw [Table.find?_update]
  split
  · exact Option.isSome_map
  · rfl

/-- A record leaves the table, adds a row, or replaces the active signal of the symbol. -/
theorem recordGeneratedSignal_cases (t : SystemSignals) (g : GeneratedSignal) (signalId : String)
    (now : Time) :
    (reversalOf rt t g signalId now = none ∧ (recordGeneratedSignal rt t g signalId now).1 = t) ∨
    (isDuplicate rt t g now = false ∧ t.contains signalId = false ∧
      ((reversalOf rt t g signalId now = none ∧
          (∀ prior, activeSameSymbol t g.symbol = some prior → prior.direction = g.direction) ∧
          (recordGeneratedSignal rt t g signalId now).1 = t.insertOrIgnore (g.row rt signalId now)) ∨
        ∃ prior, reversalOf rt t g signalId now = some prior ∧
          activeSameSymbol t g.symbol = some prior ∧ prior.direction ≠ g.direction ∧
          (recordGeneratedSignal rt t g signalId now).1 =
            reverse rt t prior (g.row rt signalId now) now)) := by
  unfold recordGeneratedSignal reversalOf
  cases hduplicate : isDuplicate rt t g now with
  | true => exact .inl ⟨rfl, rfl⟩
  | false =>
      simp only [Bool.false_eq_true, if_false, Bool.false_or]
      cases hcontains : t.contains signalId with
      | true =>
          refine .inl ⟨rfl, ?_⟩
          cases activeSameSymbol t g.symbol with
          | none => rfl
          | some prior =>
              simp only [contains_update, hcontains]
              split
              · rfl
              · split <;> rfl
      | false =>
          cases hactive : activeSameSymbol t g.symbol with
          | none =>
              exact .inr ⟨trivial, rfl, .inl ⟨rfl, by simp, rfl⟩⟩
          | some prior =>
              simp only [contains_update, hcontains, Bool.false_eq_true, if_false,
                Option.filter_some, decide_eq_true_eq]
              by_cases hdirection : prior.direction = g.direction
              · refine .inr ⟨trivial, trivial, .inl ⟨if_neg fun h => h.1 hdirection, ?_, ?_⟩⟩
                · rintro _ ⟨⟩
                  exact hdirection
                · rw [if_pos hdirection]
              · by_cases hcooling : cutoff rt now g.oppositeDirCooldownSecs ≤ prior.timestamp
                · refine .inl ⟨if_neg fun h => h.2 hcooling, ?_⟩
                  rw [if_neg hdirection, if_pos hcooling]
                · refine .inr ⟨trivial, trivial, .inr ⟨prior, if_pos ⟨hdirection, hcooling⟩, rfl,
                    hdirection, ?_⟩⟩
                  rw [if_neg hdirection, if_neg hcooling]
                  rfl

theorem fresh_of_contains {t : SystemSignals} {signalId : String}
    (h : t.contains signalId = false) : ∀ s ∈ t.rows, s.signalId ≠ signalId := by
  have hnone : t.find? signalId = none := by
    unfold Table.contains at h
    simpa using h
  exact (t.find?_eq_none_iff signalId).mp hnone

theorem key_ne_of_not_isDuplicate {t : SystemSignals} {g : GeneratedSignal} {now : Time}
    (h : isDuplicate rt t g now = false) {s : SystemSignal} (hs : s ∈ t.rows)
    (hactive : s.status = .active) : s.opportunityKey ≠ g.opportunityKey := by
  intro hkey
  unfold isDuplicate at h
  have hnone := List.any_eq_false.mp h s hs
  simp [hkey, hactive] at hnone

/-- A row of a key of its own leaves every opportunity with one active signal. -/
theorem oneActive_insert {t : SystemSignals} (hone : OneActivePerOpportunity t) {row : SystemSignal}
    (hfresh : ∀ s ∈ t.rows, s.signalId ≠ row.signalId)
    (hkeys : ∀ s ∈ t.rows, s.status = .active → s.opportunityKey ≠ row.opportunityKey) :
    OneActivePerOpportunity (t.insertOrIgnore row) := by
  intro r hr s hs hractive hsactive hsame
  rw [Table.rows_insertOrIgnore_of_fresh hfresh, List.mem_append, List.mem_singleton] at hr hs
  rcases hr with hr | rfl <;> rcases hs with hs | rfl
  · exact hone r hr s hs hractive hsactive hsame
  · exact absurd hsame (hkeys r hr hractive)
  · exact absurd hsame.symm (hkeys s hs hsactive)
  · rfl

theorem oneDirection_insert_iff {t : SystemSignals} (hone : OneDirectionPerSymbol t)
    {row : SystemSignal} (hfresh : ∀ s ∈ t.rows, s.signalId ≠ row.signalId)
    (hactive : row.status = .active) :
    OneDirectionPerSymbol (t.insertOrIgnore row) ↔
      ∀ s ∈ t.rows, s.status = .active → s.symbol = row.symbol → s.direction = row.direction := by
  unfold OneDirectionPerSymbol
  rw [Table.rows_insertOrIgnore_of_fresh hfresh]
  constructor
  · intro h s hs hsactive hsymbol
    exact h s (List.mem_append_left _ hs) row (by simp) hsactive hactive hsymbol
  · intro h r hr s hs hractive hsactive hsymbol
    rw [List.mem_append, List.mem_singleton] at hr hs
    rcases hr with hr | rfl <;> rcases hs with hs | rfl
    · exact hone r hr s hs hractive hsactive hsymbol
    · exact h r hr hractive hsymbol
    · exact (h s hs hsactive hsymbol.symm).symm
    · rfl

theorem find?_reverse {t : SystemSignals} {prior row : SystemSignal}
    (hprior : prior ∈ t.rows) (now : Time) {id : String} {s : SystemSignal} (hs : t.find? id = some s) :
    (reverse rt t prior row now).find? id =
      some (if id = prior.signalId then closeOnReversal rt prior now else s) := by
  refine Table.find?_insertOrIgnore_of_some ?_
  rw [Table.find?_update, hs, Option.map_some]
  split
  · rename_i hid
    rw [hid, Table.find?_of_mem hprior] at hs
    rw [Option.some.inj hs]
  · rfl

/-- The prior signal is the one row closed. -/
theorem mem_newlyReversed_reverse {t : SystemSignals} {prior row : SystemSignal}
    (hprior : prior ∈ t.rows) (hactive : prior.status = .active) (now : Time)
    {closing : SystemSignal × SystemSignal} :
    closing ∈ newlyReversed t (reverse rt t prior row now) ↔
      closing = (prior, closeOnReversal rt prior now) := by
  obtain ⟨s, s'⟩ := closing
  rw [mem_newlyReversed, Prod.mk.injEq]
  constructor
  · rintro ⟨hs, hs', hopen, hclosed⟩
    rw [find?_reverse hprior now (Table.find?_of_mem hs), Option.some.injEq] at hs'
    split at hs'
    · rename_i hid
      have hfound := Table.find?_of_mem hs
      rw [hid, Table.find?_of_mem hprior] at hfound
      exact ⟨(Option.some.inj hfound).symm, hs'.symm⟩
    · exact absurd (hs' ▸ hclosed) hopen
  · rintro ⟨rfl, rfl⟩
    refine ⟨hprior, ?_, ?_, ?_⟩
    · rw [find?_reverse hprior now (Table.find?_of_mem hprior), if_pos rfl]
    · rw [hactive]
      exact fun h => nomatch h
    · unfold closeOnReversal
      rw [if_pos hactive]

theorem mem_close_iff {t : SystemSignals} {id : String} {now : Time} {s : SystemSignal}
    (h : s.signalId ≠ id) :
    s ∈ (t.update id (fun s => closeOnReversal rt s now) fun s =>
      closeOnReversal_signalId rt s now).rows ↔ s ∈ t.rows := by
  have hfind := t.find?_update id (fun s => closeOnReversal rt s now)
    (fun s => closeOnReversal_signalId rt s now) s.signalId
  rw [if_neg h] at hfind
  constructor
  · intro hs
    exact ((t.find?_eq_some_iff _ _).mp (hfind.symm.trans (Table.find?_of_mem hs))).1
  · intro hs
    exact ((Table.find?_eq_some_iff _ _ _).mp (hfind.trans (Table.find?_of_mem hs))).1

theorem closed_not_active {t : SystemSignals} {prior s : SystemSignal} (hprior : prior ∈ t.rows)
    {now : Time} (hs : s ∈ (t.update prior.signalId (fun s => closeOnReversal rt s now) fun s =>
      closeOnReversal_signalId rt s now).rows) (hid : s.signalId = prior.signalId) :
    s.status ≠ .active := by
  have hfind := Table.find?_of_mem hs
  rw [Table.find?_update, hid, if_pos rfl, Table.find?_of_mem hprior, Option.map_some,
    Option.some.injEq] at hfind
  rw [← hfind]
  unfold closeOnReversal
  split
  · exact fun h => nomatch h
  · assumption

theorem newlyReversed_insert (t : SystemSignals) (row : SystemSignal) :
    newlyReversed t (t.insertOrIgnore row) = [] := by
  refine List.eq_nil_iff_forall_not_mem.mpr fun closing hmem => ?_
  obtain ⟨hs, hs', hopen, hclosed⟩ := mem_newlyReversed.mp hmem
  rw [Table.find?_insertOrIgnore_of_some (Table.find?_of_mem hs), Option.some.injEq] at hs'
  exact hopen (hs' ▸ hclosed)

namespace SignalBook

variable (rt) in
/-- A record that replaces a signal finds it without a price of its own to close at, and no other
active signal of the symbol in another direction. -/
def ReversesSoundly (book : SignalBook) : OutcomeOp → Prop
  | .record g signalId now =>
      ∀ prior, reversalOf rt book.tracker.signals g signalId now = some prior →
        orPrice prior.currentPrice prior.entryPrice = 0 ∧
          ∀ s ∈ book.tracker.signals.rows, s.status = .active → s.symbol = g.symbol →
            s.signalId ≠ prior.signalId → s.direction = g.direction
  | _ => True

theorem Consistent.step_of_kept {book : SignalBook} (h : book.Consistent) {op : OutcomeOp}
    (hkept : Table.Kept SameSignal book.tracker.signals
      (OutcomeOp.step rt book.tracker op).signals) : (book.step rt op).Consistent := by
  have hlabels := hkept.mono fun _ _ hsame => hsame.toNotActivated
  refine ⟨kept_oneActive hlabels h.opportunities, kept_oneDirection hlabels h.directions, ?_⟩
  show ∀ closing ∈ book.reversed ++ newlyReversed _ _, LeftAtItsPrice closing
  rw [newlyReversed_of_kept hkept, List.append_nil]
  exact h.closings

theorem consistent_step_iff {book : SignalBook} {op : OutcomeOp} {t : SystemSignals}
    (ht : (OutcomeOp.step rt book.tracker op).signals = t) :
    (book.step rt op).Consistent ↔ OneActivePerOpportunity t ∧ OneDirectionPerSymbol t ∧
      ∀ closing ∈ book.reversed ++ newlyReversed book.tracker.signals t, LeftAtItsPrice closing := by
  subst ht
  exact ⟨fun h => ⟨h.opportunities, h.directions, h.closings⟩, fun ⟨h, h', h''⟩ => ⟨h, h', h''⟩⟩

/-- A record that closes nothing. -/
theorem Consistent.insert {book : SignalBook} (h : book.Consistent) {g : GeneratedSignal}
    {signalId : String} {now : Time} (hduplicate : isDuplicate rt book.tracker.signals g now = false)
    (hcontains : book.tracker.signals.contains signalId = false)
    (hprior : ∀ prior, activeSameSymbol book.tracker.signals g.symbol = some prior →
      prior.direction = g.direction) :
    OneActivePerOpportunity (book.tracker.signals.insertOrIgnore (g.row rt signalId now)) ∧
      OneDirectionPerSymbol (book.tracker.signals.insertOrIgnore (g.row rt signalId now)) := by
  have hfresh := fresh_of_contains hcontains
  refine ⟨oneActive_insert h.opportunities hfresh fun s hs =>
    key_ne_of_not_isDuplicate hduplicate hs, ?_⟩
  refine (oneDirection_insert_iff h.directions hfresh rfl).mpr fun s hs hactive hsymbol => ?_
  obtain ⟨prior, hlatest⟩ := Option.isSome_iff_exists.mp (activeSameSymbol_isSome hs hactive)
  obtain ⟨hmem, hsame, hprioractive⟩ := mem_of_activeSameSymbol hlatest
  have hdirection := h.directions s hs prior hmem hactive hprioractive hsame.symm
  rw [hsymbol] at hlatest
  exact hdirection.trans (hprior prior hlatest)

/-- A record that replaces the latest signal of the symbol. -/
theorem Consistent.reverse_iff {book : SignalBook} (h : book.Consistent) {g : GeneratedSignal}
    {signalId : String} {now : Time} (hduplicate : isDuplicate rt book.tracker.signals g now = false)
    (hcontains : book.tracker.signals.contains signalId = false) {prior : SystemSignal}
    (hprior : prior ∈ book.tracker.signals.rows) (hactive : prior.status = .active) :
    (OneActivePerOpportunity (reverse rt book.tracker.signals prior (g.row rt signalId now) now) ∧
      OneDirectionPerSymbol (reverse rt book.tracker.signals prior (g.row rt signalId now) now) ∧
      ∀ closing ∈ book.reversed ++ newlyReversed book.tracker.signals
        (reverse rt book.tracker.signals prior (g.row rt signalId now) now),
        LeftAtItsPrice closing) ↔
    orPrice prior.currentPrice prior.entryPrice = 0 ∧
      ∀ s ∈ book.tracker.signals.rows, s.status = .active → s.symbol = g.symbol →
        s.signalId ≠ prior.signalId → s.direction = g.direction := by
  have hkept := @kept_close rt book.tracker.signals prior.signalId now
  have hfresh : ∀ s ∈ (book.tracker.signals.update prior.signalId
      (fun s => closeOnReversal rt s now) fun s => closeOnReversal_signalId rt s now).rows,
      s.signalId ≠ (g.row rt signalId now).signalId :=
    fresh_of_contains ((contains_update ..).trans hcontains)
  have hone : OneActivePerOpportunity
      (reverse rt book.tracker.signals prior (g.row rt signalId now) now) := by
    refine oneActive_insert (kept_oneActive hkept h.opportunities) hfresh fun s hs hsactive => ?_
    obtain ⟨r, hr, hsame, -⟩ := hkept.row_before hs
    rw [hsame.opportunityKey]
    exact key_ne_of_not_isDuplicate hduplicate hr (hsame.active hsactive)
  have hdirections := @oneDirection_insert_iff _ (kept_oneDirection hkept h.directions)
    (g.row rt signalId now) hfresh rfl
  have hprice : LeftAtItsPrice (prior, closeOnReversal rt prior now) ↔
      orPrice prior.currentPrice prior.entryPrice = 0 := by
    unfold LeftAtItsPrice closeOnReversal
    rw [if_pos hactive, Option.some.injEq]
    exact eq_comm
  have hclosings : (∀ closing ∈ book.reversed ++ newlyReversed book.tracker.signals
      (reverse rt book.tracker.signals prior (g.row rt signalId now) now), LeftAtItsPrice closing) ↔
      orPrice prior.currentPrice prior.entryPrice = 0 := by
    rw [← hprice]
    constructor
    · intro hall
      exact hall _ (List.mem_append_right _ ((mem_newlyReversed_reverse hprior hactive now).mpr rfl))
    · intro hleft closing hmem
      rcases List.mem_append.mp hmem with hold | hnew
      · exact h.closings closing hold
      · rw [(mem_newlyReversed_reverse hprior hactive now).mp hnew]
        exact hleft
  unfold reverse at hone hclosings ⊢
  rw [hclosings, hdirections, and_iff_right hone, and_comm]
  refine and_congr_right fun _ => ⟨fun hall s hs hsactive hsymbol hother => ?_,
    fun hall s hs hsactive hsymbol => ?_⟩
  · exact hall s ((mem_close_iff hother).mpr hs) hsactive hsymbol
  · have hother : s.signalId ≠ prior.signalId := by
      intro hid
      exact closed_not_active hprior hs hid hsactive
    exact hall s ((mem_close_iff hother).mp hs) hsactive hsymbol hother

theorem Consistent.step_record {book : SignalBook} (h : book.Consistent) (g : GeneratedSignal)
    (signalId : String) (now : Time) :
    (book.step rt (.record g signalId now)).Consistent ↔
      ReversesSoundly rt book (.record g signalId now) := by
  rcases @recordGeneratedSignal_cases rt book.tracker.signals g signalId now with
    ⟨hnone, hsame⟩ | ⟨hduplicate, hcontains, ⟨hnone, hprior, hinserted⟩ |
      ⟨prior, hreversal, hlatest, hdirection, hreversed⟩⟩
  · refine iff_of_true (h.step_of_kept ?_) fun prior hprior => ?_
    · show Table.Kept SameSignal _ (recordGeneratedSignal rt _ g signalId now).1
      rw [hsame]
      exact .refl SameSignal.refl _
    · rw [hnone] at hprior
      cases hprior
  · have hstep : (OutcomeOp.step rt book.tracker (.record g signalId now)).signals =
        book.tracker.signals.insertOrIgnore (g.row rt signalId now) := hinserted
    refine iff_of_true ((consistent_step_iff hstep).mpr ?_) fun prior hprior => ?_
    · obtain ⟨hopportunities, hdirections⟩ := h.insert hduplicate hcontains hprior
      rw [newlyReversed_insert, List.append_nil]
      exact ⟨hopportunities, hdirections, h.closings⟩
    · rw [hnone] at hprior
      cases hprior
  · obtain ⟨hmem, -, hactive⟩ := mem_of_activeSameSymbol hlatest
    have hstep : (OutcomeOp.step rt book.tracker (.record g signalId now)).signals =
        reverse rt book.tracker.signals prior (g.row rt signalId now) now := hreversed
    rw [consistent_step_iff hstep, h.reverse_iff hduplicate hcontains hmem hactive]
    simp only [ReversesSoundly, hreversal, Option.some.injEq, forall_eq']

theorem Consistent.step_iff {book : SignalBook} (h : book.Consistent) (op : OutcomeOp) :
    (book.step rt op).Consistent ↔ ReversesSoundly rt book op := by
  cases op with
  | update observe now => exact iff_of_true (h.step_of_kept kept_update) trivial
  | expireStale now =>
      exact iff_of_true (h.step_of_kept (kept_sweep book.tracker.signals now)) trivial
  | resolvePending limit bars now sweepNow =>
      refine iff_of_true (h.step_of_kept ?_) trivial
      exact Table.Kept.trans SameSignal.trans
        (kept_resolveSignals book.tracker.signals (pendingSignals book.tracker.signals limit) bars now)
        (kept_sweep _ sweepNow)
  | record g signalId now => exact h.step_record g signalId now

end SignalBook

/-- The book is consistent throughout a run exactly when every record that replaces a signal finds it
alone on the other side, and without a price to close at. -/
theorem active_signals_consistent_iff {book : SignalBook} (h : book.Consistent)
    (ops : List OutcomeOp) :
    Always (SignalBook.step rt) SignalBook.Consistent book ops ↔
      StepsMeet (SignalBook.step rt) (SignalBook.ReversesSoundly rt) book ops :=
  always_iff_stepsMeet (fun _ op _ hbook => hbook.step_iff op) h

end Runtime

/-! ## A put after two calls -/

/-- What a strategy finds on INFY. -/
def sampleFinding (direction strategy : String) : GeneratedSignal where
  symbol := "INFY"
  direction
  category := "LARGE_CAP_EQUITY"
  opportunityKey := "INFY|" ++ direction ++ "|LARGE_CAP_EQUITY|" ++ strategy
  entryPrice := 100
  stopLoss := 90
  target1 := 110
  target2 := 120

def recordFinding (direction strategy signalId : String) (minutes : Int) : OutcomeOp :=
  .record (sampleFinding direction strategy) signalId (fridayAt minutes)

def emptyBook : SignalBook := { tracker := { signals := Table.empty } }

theorem emptyBook_consistent : emptyBook.Consistent := by
  refine ⟨?_, ?_, ?_⟩ <;> intro x hx <;> cases hx

/-- Two calls of one strategy, the second within the cooldown. -/
theorem active_signals_consistent_repeat :
    Always (SignalBook.step sampleRuntime) SignalBook.Consistent emptyBook
      [recordFinding "CALL" "a" "SIG-1" 60, recordFinding "CALL" "a" "SIG-2" 70] := by
  refine (active_signals_consistent_iff emptyBook_consistent _).mpr ⟨?_, ?_, trivial⟩
  · intro prior hprior
    cases hprior
  · intro prior hprior
    have hnone : reversalOf sampleRuntime
        (SignalBook.step sampleRuntime emptyBook (recordFinding "CALL" "a" "SIG-1" 60)).tracker.signals
        (sampleFinding "CALL" "a") "SIG-2" (fridayAt 70) = none := by decide +kernel
    rw [hnone] at hprior
    cases hprior

/-- The put closes the later of two calls, at no price, and leaves the earlier one beside it. -/
theorem put_beside_call :
    ¬ Always (SignalBook.step sampleRuntime) SignalBook.Consistent emptyBook
      [recordFinding "CALL" "a" "SIG-1" 60, recordFinding "CALL" "b" "SIG-2" 61,
        recordFinding "PUT" "a" "SIG-3" 120] := by
  intro h
  have hdirections := h.final.directions
  revert hdirections
  unfold OneDirectionPerSymbol
  decide +kernel

end AutoTrade.Signals
