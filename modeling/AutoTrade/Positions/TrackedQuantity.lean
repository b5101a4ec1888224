import AutoTrade.Positions.PositionService

/-! # Tracked and executed quantities

The quantity held under a name against what its entry orders filled less what
its exit orders filled. An entry order stores the quantity that was asked for
and an exit removes the whole position, so the two agree only as long as every
fill is a full one; each call is characterised by exactly when it keeps them in
agreement. Calls on one name leave the others alone, which carries the result
through the loop of `monitor_positions`.
-/

namespace AutoTrade.Positions

open AutoTrade.Library AutoTrade.Execution

/-- What an order filled. -/
def filledBy : Except PyExc OrderResult → Int
  | .ok result => if ExecutionService.isFill result then result.filledQuantity else 0
  | .error _ => 0

namespace PositionService

variable {σ : Type}

/-- The filled quantity of the entry orders, or of the exit orders, of a name. -/
def filledFor (isExit : Bool) (name : String) (orders : List (SentOrder σ)) : Int :=
  (orders.map fun o =>
    if o.isExit = isExit ∧ o.request.symbol = name then filledBy o.outcome else 0).sum

def net (s : PositionService σ) (name : String) : Int :=
  filledFor false name s.orders - filledFor true name s.orders

/-- The quantity in `_positions`, 0 if there is none. -/
def held (s : PositionService σ) (name : String) : Int :=
  (s.positions.get? name).elim 0 Position.qty

/-- The held quantity is the executed one, unless a position of the name was given up. -/
def TrackedAt (s : PositionService σ) (name : String) : Prop :=
  name ∈ s.givenUp ∨ s.held name = s.net name

/-! ## One order -/

theorem filledFor_append (isExit : Bool) (name : String) (orders : List (SentOrder σ))
    (o : SentOrder σ) : filledFor isExit name (orders ++ [o]) = filledFor isExit name orders +
      if o.isExit = isExit ∧ o.request.symbol = name then filledBy o.outcome else 0 := by
  simp [filledFor]

/-- What an order changes in the executed quantity of a name. -/
theorem net_send (execute : Execute σ) (position : Nat) (isExit : Bool) (request : OrderRequest)
    (context : Option ExecutionContext) (s : PositionService σ) (name : String) :
    (send execute position isExit request context s).1.net name = s.net name +
      if request.symbol = name then
        if isExit then -filledBy (send execute position isExit request context s).2
        else filledBy (send execute position isExit request context s).2
      else 0 := by
  simp only [net, send, filledFor_append]
  by_cases hname : request.symbol = name
  · cases isExit
    · simp [hname]; omega
    · simp [hname]; omega
  · simp [hname]

theorem net_submitOrderUnderLock (execute : Execute σ) (entry : EntryCall) (qty : Int)
    (context : ExecutionContext) (s : PositionService σ) (name : String) :
    (submitOrderUnderLock execute entry qty context s).1.net name = s.net name +
      if entry.name = name then filledBy (submitOrderUnderLock execute entry qty context s).2
      else 0 :=
  net_send execute s.orders.length false (entryRequest entry.name entry.signal qty) (some context) s
    name

/-- What an exit order filled. -/
def exitFilled : Except PyExc (Option OrderResult) → Int
  | .ok none => 0
  | .ok (some result) => filledBy (.ok result)
  | .error _ => 0

theorem sendExit_positions (venue : Venue σ) (name reason : String) (ltp : Option ℚ)
    (pos : Position) (s : PositionService σ) :
    (sendExit venue name reason ltp pos s).1.positions = s.positions := by
  cases venue <;> rfl

theorem sendExit_givenUp (venue : Venue σ) (name reason : String) (ltp : Option ℚ)
    (pos : Position) (s : PositionService σ) :
    (sendExit venue name reason ltp pos s).1.givenUp = s.givenUp := by
  cases venue <;> rfl

theorem net_sendExit (venue : Venue σ) (name reason : String) (ltp : Option ℚ) (pos : Position)
    (s : PositionService σ) (other : String) :
    (sendExit venue name reason ltp pos s).1.net other = s.net other -
      if name = other then exitFilled (sendExit venue name reason ltp pos s).2 else 0 := by
  cases venue with
  | none => simp [sendExit, exitFilled]
  | some execute =>
      have hnet := net_send execute pos.openedBy true (exitRequest name reason ltp pos) none s other
      have hsymbol : (exitRequest name reason ltp pos).symbol = name := rfl
      simp only [sendExit]
      rw [hnet, hsymbol]
      cases hout : (send execute pos.openedBy true (exitRequest name reason ltp pos) none s).2 with
      | error e => simp [filledBy, exitFilled, Except.map]
      | ok result =>
          by_cases hname : name = other
          · simp [hname, exitFilled, Except.map]; omega
          · simp [hname]

/-! ## Names do not disturb each other -/

/-- Nothing about this name differs between the two states. -/
structure SameAt (name : String) (s t : PositionService σ) : Prop where
  position : t.positions.get? name = s.positions.get? name
  net : t.net name = s.net name
  givenUp : name ∈ t.givenUp ↔ name ∈ s.givenUp

theorem SameAt.refl (name : String) (s : PositionService σ) : SameAt name s s :=
  ⟨rfl, rfl, Iff.rfl⟩

theorem SameAt.trans {name : String} {s t u : PositionService σ} (first : SameAt name s t)
    (second : SameAt name t u) : SameAt name s u :=
  ⟨second.position.trans first.position, second.net.trans first.net,
    second.givenUp.trans first.givenUp⟩

theorem SameAt.trackedAt_iff {name : String} {s t : PositionService σ} (same : SameAt name s t) :
    t.TrackedAt name ↔ s.TrackedAt name := by
  simp only [TrackedAt, held, same.position, same.net, same.givenUp]

section Frame

variable {name other : String} (hother : other ≠ name)
include hother

theorem sameAt_sendExit (venue : Venue σ) (reason : String) (ltp : Option ℚ) (pos : Position)
    (s : PositionService σ) : SameAt other s (sendExit venue name reason ltp pos s).1 := by
  refine ⟨?_, ?_, ?_⟩
  · rw [sendExit_positions]
  · rw [net_sendExit, if_neg hother.symm, sub_zero]
  · rw [sendExit_givenUp]

theorem sameAt_storePosition (pos : Position) (s : PositionService σ) :
    SameAt other s (storePosition name pos s) :=
  ⟨Dict.get?_set_of_ne _ _ hother, rfl, Iff.rfl⟩

theorem sameAt_close (settings : Settings) (reason : String) (pos : Position) (exitPrice : ℚ)
    (s : PositionService σ) : SameAt other s (close settings name reason pos exitPrice s) :=
  ⟨(Dict.get?_erase _ _ _).trans (if_neg hother), rfl, Iff.rfl⟩

theorem sameAt_keepOrGiveUp (settings : Settings) (pos : Position) (s : PositionService σ) :
    SameAt other s (keepOrGiveUp settings name pos s) := by
  unfold keepOrGiveUp
  dsimp only
  split
  · exact ⟨(Dict.get?_erase _ _ _).trans (if_neg hother), rfl, by simp [hother]⟩
  · exact ⟨Dict.get?_set_of_ne _ _ hother, rfl, Iff.rfl⟩

theorem sameAt_exitPosition (settings : Settings) (venue : Venue σ) (reason : String)
    (ltp : Option ℚ) (s : PositionService σ) :
    SameAt other s (exitPosition settings venue name reason ltp s).1 := by
  unfold exitPosition
  split
  · exact .refl other s
  · rename_i pos _
    have hsent := sameAt_sendExit hother venue reason ltp pos s
    dsimp only
    split
    · exact hsent
    · split
      · exact hsent.trans (sameAt_keepOrGiveUp hother settings pos _)
      · exact hsent.trans (sameAt_close hother settings reason pos _ _)

theorem sameAt_enterTrade (venue : Venue σ) (entry : EntryCall) (hname : entry.name = name)
    (s : PositionService σ) : SameAt other s (enterTrade venue entry s).1 := by
  obtain ⟨-, hnothing⟩ | ⟨qty, context, execute, -, -, hsent⟩ := enterTrade_cases venue entry s
  · rw [hnothing]
    exact .refl other s
  · have hsubmitted : SameAt other s (submitOrderUnderLock execute entry qty context s).1 := by
      refine ⟨rfl, ?_, Iff.rfl⟩
      rw [net_submitOrderUnderLock, hname, if_neg hother.symm, add_zero]
    obtain ⟨-, hafter⟩ | ⟨result, -, -, hafter⟩ := hsent
    · rw [hafter]
      exact hsubmitted
    · rw [hafter, hname]
      exact hsubmitted.trans (sameAt_storePosition hother _ _)

theorem sameAt_monitorName (settings : Settings) (venue : Venue σ) (quotes : Quotes) (now : ℚ)
    (s : PositionService σ) : SameAt other s (monitorName settings venue quotes now s name).1 := by
  obtain ⟨-, hskip⟩ | ⟨pos, ltp, -, -, -, hwatched⟩ :=
    monitorName_cases settings venue quotes now s name
  · rw [hskip]
    exact .refl other s
  · have hstored := sameAt_storePosition hother (verdict settings now ltp pos).1 s
    obtain ⟨-, hstays⟩ | ⟨reason, -, hexits⟩ := hwatched
    · rw [hstays]
      exact hstored
    · rw [hexits]
      exact hstored.trans (sameAt_exitPosition hother settings venue reason _ _)

end Frame

/-! ## When a call keeps the quantities in agreement -/

/-- The exit order fills the whole position and is booked; or it fills nothing, and the position
stays or is given up. -/
def ExitExact (settings : Settings) (venue : Venue σ) (name reason : String) (ltp : Option ℚ)
    (s : PositionService σ) : Prop :=
  ∀ pos, s.positions.get? name = some pos →
    let answer := (sendExit venue name reason ltp pos s).2
    ∀ exitPrice, exitPriceOf pos answer = .ok exitPrice →
      if judgedFailed pos reason exitPrice then exitFilled answer = 0 ∨ exhausted settings pos
      else exitFilled answer = pos.qty

/-- The quantity asked for is what was held and what the entry order filled. -/
def EntryExact (venue : Venue σ) (entry : EntryCall) (s : PositionService σ) : Prop :=
  ∀ qty context execute, entry.admission = .admitted qty context → venue = some execute →
    ∀ result, (submitOrderUnderLock execute entry qty context s).2 = .ok result →
      ExecutionService.isFill result → qty = s.held entry.name + result.filledQuantity

theorem exitFilled_of_raised {pos : Position} {answer : Except PyExc (Option OrderResult)}
    {e : PyExc} (h : exitPriceOf pos answer = .error e) : exitFilled answer = 0 := by
  match answer with
  | .ok none => rfl
  | .error _ => rfl
  | .ok (some result) =>
      simp only [exitPriceOf] at h
      split at h <;> cases h

theorem held_close (settings : Settings) (name reason : String) (pos : Position) (exitPrice : ℚ)
    (s : PositionService σ) : (close settings name reason pos exitPrice s).held name = 0 := by
  simp [held, close, Dict.get?_erase]

theorem trackedAt_keepOrGiveUp_iff (settings : Settings) (name : String) (pos : Position)
    (s : PositionService σ) : (keepOrGiveUp settings name pos s).TrackedAt name ↔
      name ∈ s.givenUp ∨ exhausted settings pos = true ∨ pos.qty = s.net name := by
  unfold keepOrGiveUp
  cases hend : exhausted settings pos with
  | true => simp [TrackedAt]
  | false => simp [TrackedAt, held, net]

theorem trackedAt_exitPosition_iff (settings : Settings) (venue : Venue σ) (name reason : String)
    (ltp : Option ℚ) {s : PositionService σ} (htracked : s.TrackedAt name) :
    (exitPosition settings venue name reason ltp s).1.TrackedAt name ↔
      name ∈ s.givenUp ∨ ExitExact settings venue name reason ltp s := by
  unfold exitPosition ExitExact
  cases hpos : s.positions.get? name with
  | none => simp [htracked]
  | some pos =>
      have hheld : s.held name = pos.qty := by simp [held, hpos]
      have hnet := net_sendExit venue name reason ltp pos s name
      have hgiven := sendExit_givenUp venue name reason ltp pos s
      rw [if_pos rfl] at hnet
      unfold TrackedAt at htracked
      rw [hheld] at htracked
      cases hprice : exitPriceOf pos (sendExit venue name reason ltp pos s).2 with
      | error e =>
          rw [exitFilled_of_raised hprice, sub_zero] at hnet
          have hsame : (sendExit venue name reason ltp pos s).1.held name = pos.qty := by
            rw [held, sendExit_positions]
            exact hheld
          simp only [hprice, TrackedAt, hgiven, hsame, hnet, htracked, Option.some.injEq,
            forall_eq', reduceCtorEq, false_implies, implies_true, or_true]
      | ok exitPrice =>
          simp only [hprice, Option.some.injEq, forall_eq', Except.ok.injEq]
          split
          · rw [trackedAt_keepOrGiveUp_iff, hgiven, hnet]
            grind
          · simp only [TrackedAt, held_close]
            have hnet' : (close settings name reason pos exitPrice
                (sendExit venue name reason ltp pos s).1).net name = s.net name -
                  exitFilled (sendExit venue name reason ltp pos s).2 := hnet
            have hgiven' : (close settings name reason pos exitPrice
                (sendExit venue name reason ltp pos s).1).givenUp = s.givenUp := hgiven
            rw [hnet', hgiven']
            grind

theorem trackedAt_enterTrade_iff (venue : Venue σ) (entry : EntryCall) {s : PositionService σ}
    (htracked : s.TrackedAt entry.name) :
    (enterTrade venue entry s).1.TrackedAt entry.name ↔
      entry.name ∈ s.givenUp ∨ EntryExact venue entry s := by
  obtain ⟨hnone, hnothing⟩ | ⟨qty, context, execute, hadmission, hvenue, hsent⟩ :=
    enterTrade_cases venue entry s
  · rw [hnothing]
    refine iff_of_true htracked (.inr ?_)
    intro qty context execute hadmission hvenue
    exact absurd hvenue (hnone qty context execute hadmission)
  · have hnet := net_submitOrderUnderLock execute entry qty context s entry.name
    rw [if_pos rfl] at hnet
    have hexact : EntryExact venue entry s ↔
        ∀ result, (submitOrderUnderLock execute entry qty context s).2 = .ok result →
          ExecutionService.isFill result → qty = s.held entry.name + result.filledQuantity := by
      simp only [EntryExact, hadmission, hvenue, Admission.admitted.injEq, and_imp,
        Option.some.injEq]
      constructor
      · intro h
        exact h qty context execute rfl rfl rfl
      · rintro h _ _ _ rfl rfl rfl
        exact h
    rw [hexact]
    obtain ⟨hunfilled, hafter⟩ | ⟨result, hout, hfill, hafter⟩ := hsent
    · have hzero : filledBy (submitOrderUnderLock execute entry qty context s).2 = 0 := by
        cases hout : (submitOrderUnderLock execute entry qty context s).2 with
        | error e => rfl
        | ok result => exact if_neg (hunfilled result hout)
      have hsame : SameAt entry.name s (submitOrderUnderLock execute entry qty context s).1 :=
        ⟨rfl, by rw [hnet, hzero, add_zero], Iff.rfl⟩
      rw [hafter]
      refine iff_of_true (hsame.trackedAt_iff.mpr htracked) (.inr ?_)
      intro result hout hfill
      exact absurd hfill (hunfilled result hout)
    · have hfilled : filledBy (submitOrderUnderLock execute entry qty context s).2 =
          result.filledQuantity := by
        rw [hout]
        exact if_pos hfill
      have hstored : (enterTrade venue entry s).1.TrackedAt entry.name ↔
          entry.name ∈ s.givenUp ∨ qty = s.net entry.name + result.filledQuantity := by
        rw [hafter, ← hfilled, ← hnet]
        simp only [TrackedAt, held, storePosition, Dict.get?_set_self, Option.elim_some]
        exact Iff.rfl
      rw [hstored]
      simp only [hout, Except.ok.injEq, forall_eq', hfill, forall_const]
      unfold TrackedAt at htracked
      grind

/-- The exit that `monitor_positions` makes of a name, if any, is exact. -/
def NameExact (settings : Settings) (venue : Venue σ) (quotes : Quotes) (now : ℚ)
    (s : PositionService σ) (name : String) : Prop :=
  ∀ pos ltp, s.positions.get? name = some pos → quotes.observed name = some ltp →
    0 < pos.underlyingEntryPrice → ∀ reason, (verdict settings now ltp pos).2 = some reason →
      name ∈ s.givenUp ∨ ExitExact settings venue name reason (quotes.atExit name)
        (storePosition name (verdict settings now ltp pos).1 s)

theorem trackedAt_monitorName_iff (settings : Settings) (venue : Venue σ) (quotes : Quotes)
    (now : ℚ) {s : PositionService σ} {name : String} (htracked : s.TrackedAt name) :
    (monitorName settings venue quotes now s name).1.TrackedAt name ↔
      NameExact settings venue quotes now s name := by
  obtain ⟨hno, hskip⟩ | ⟨pos, ltp, hpos, hltp, hentry, hwatched⟩ :=
    monitorName_cases settings venue quotes now s name
  · rw [hskip]
    refine iff_of_true htracked ?_
    intro pos ltp hpos hltp hentry
    exact absurd (hno pos ltp hpos hltp) (not_le.mpr hentry)
  · have hstored : (storePosition name (verdict settings now ltp pos).1 s).TrackedAt name := by
      obtain ⟨peak, armed, hverdict⟩ := verdict_position settings now ltp pos
      have hheld : (storePosition name (verdict settings now ltp pos).1 s).held name =
          s.held name := by
        simp [held, storePosition, hverdict, hpos]
      unfold TrackedAt
      rw [hheld]
      exact htracked
    have hexact : NameExact settings venue quotes now s name ↔
        ∀ reason, (verdict settings now ltp pos).2 = some reason → name ∈ s.givenUp ∨
          ExitExact settings venue name reason (quotes.atExit name)
            (storePosition name (verdict settings now ltp pos).1 s) := by
      constructor
      · intro h
        exact h pos ltp hpos hltp hentry
      · intro h pos' ltp' hpos' hltp' _
        obtain rfl : pos = pos' := Option.some.inj (hpos.symm.trans hpos')
        obtain rfl : ltp = ltp' := Option.some.inj (hltp.symm.trans hltp')
        exact h
    rw [hexact]
    obtain ⟨hstays, hafter⟩ | ⟨reason, hexits, hafter⟩ := hwatched
    · rw [hafter]
      exact iff_of_true hstored (by simp [hstays])
    · rw [hafter, trackedAt_exitPosition_iff _ _ _ _ _ hstored]
      simp only [hexits, Option.some.injEq, forall_eq']
      exact Iff.rfl

/-! ## Runs -/

/-- The call keeps the quantities of its names in agreement: an entry asks for exactly what is held
and filled together, an exit fills exactly the position it closes and nothing of one it keeps. -/
def Exact (settings : Settings) (s : PositionService σ) (op : Venue σ × PositionCall) : Prop :=
  match op.2 with
  | .enterTrade entry => entry.name ∈ s.givenUp ∨ EntryExact op.1 entry s
  | .monitorPositions quotes now =>
      LoopMeets (monitorName settings op.1 quotes now) (NameExact settings op.1 quotes now) s
        (s.positions.rows.map Prod.fst)
  | .exitPosition name reason ltp => name ∈ s.givenUp ∨ ExitExact settings op.1 name reason ltp s

/-- `_positions` agrees with the fills for every name. -/
def Tracked (s : PositionService σ) : Prop := ∀ name, s.TrackedAt name

/-- A call that concerns one name keeps the agreement where it keeps it at that name. -/
theorem tracked_iff_of_sameAt {name : String} {s t : PositionService σ} (htracked : s.Tracked)
    (frame : ∀ other, other ≠ name → SameAt other s t) : t.Tracked ↔ t.TrackedAt name := by
  constructor
  · intro h
    exact h name
  · intro h other
    by_cases hother : other = name
    · exact hother ▸ h
    · exact (frame other hother).trackedAt_iff.mpr (htracked other)

theorem tracked_step_iff (settings : Settings) {s : PositionService σ} (htracked : s.Tracked)
    (op : Venue σ × PositionCall) :
    (step settings s op).Tracked ↔ Exact settings s op := by
  obtain ⟨venue, call⟩ := op
  cases call with
  | enterTrade entry =>
      have hframe := tracked_iff_of_sameAt htracked fun other hother =>
        sameAt_enterTrade hother venue entry rfl s
      exact hframe.trans (trackedAt_enterTrade_iff venue entry (htracked entry.name))
  | exitPosition name reason ltp =>
      have hframe := tracked_iff_of_sameAt htracked fun other (hother : other ≠ name) =>
        sameAt_exitPosition hother settings venue reason ltp s
      exact hframe.trans
        (trackedAt_exitPosition_iff settings venue name reason ltp (htracked name))
  | monitorPositions quotes now =>
      exact loop_iff_loopMeets s.positions.nodup
        (fun t name ht => trackedAt_monitorName_iff settings venue quotes now ht)
        (fun t name other hother =>
          (sameAt_monitorName hother settings venue quotes now t).trackedAt_iff) htracked

/-- The held quantities are the executed ones throughout a run exactly when each of its calls asks
for, or closes, exactly what is filled. -/
theorem tracked_quantity_iff (settings : Settings) (execution : σ)
    (calls : List (Venue σ × PositionCall)) :
    Always (step settings) Tracked { execution } calls ↔
      StepsMeet (step settings) (Exact settings) { execution } calls := by
  apply always_iff_stepsMeet
  · intro s op _ htracked
    exact tracked_step_iff settings htracked op
  · intro name
    exact .inr rfl

/-- A fill is of at least one lot and at most what was asked for. -/
def fillInRange (o : SentOrder σ) : Bool :=
  match o.outcome with
  | .ok result => ExecutionService.isFill result →
      1 ≤ result.filledQuantity ∧ result.filledQuantity ≤ o.request.lotSize
  | .error _ => true

/-- Two lots asked for and one filled; a second entry; an exit that fills one lot of two. -/
def fillsLost : List (List (Venue Unit × PositionCall)) :=
  [[(answering (sampleFill .partiallyFilled 1 100), .enterTrade (sampleEntry "CALL" 2 "1"))],
    [(answering (sampleFill .filled 2 100), .enterTrade (sampleEntry "CALL" 2 "1")),
      (answering (sampleFill .filled 3 100), .enterTrade (sampleEntry "CALL" 3 "2"))],
    [(answering (sampleFill .filled 2 100), .enterTrade (sampleEntry "CALL" 2 "1")),
      (answering (sampleFill .partiallyFilled 1 110), .exitPosition "NIFTY" "TARGET_HIT" none)]]

/-- In each of the three runs nothing is given up, every fill is in range, and what is held is not
what was executed. -/
theorem fills_lost_from_positions :
    fillsLost.Forall fun calls => ¬ Always (step {})
      (fun s : PositionService Unit => s.givenUp = [] → (∀ o ∈ s.orders, fillInRange o) →
        ∀ name, s.held name = s.net name) { execution := () } calls := by
  have hlost : ∀ calls ∈ fillsLost, ∃ s, run (step {}) { execution := () } calls = s ∧
      s.givenUp = [] ∧ (∀ o ∈ s.orders, fillInRange o) ∧ s.held "NIFTY" ≠ s.net "NIFTY" := by
    simp only [exists_eq_left']
    decide +kernel
  rw [List.forall_iff_forall_mem]
  intro calls hcalls always
  obtain ⟨s, hs, hgiven, hrange, hne⟩ := hlost calls hcalls
  have hfinal := always.final
  rw [hs] at hfinal
  exact hne (hfinal hgiven hrange "NIFTY")

end PositionService

end AutoTrade.Positions
