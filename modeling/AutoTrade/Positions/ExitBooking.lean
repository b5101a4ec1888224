import AutoTrade.Positions.PositionService

/-! # What an exit books

`exit_position` does not look at the status of its order again. It takes the exit
for failed where the booked price is the entry price and the reason is not
`MANUAL`, so a fill at the entry price is tried again and a manual exit that did
not fill is booked. An exception that it does not name leaves the position as it
was, its retries included.
-/

namespace AutoTrade.Positions

open AutoTrade.Library AutoTrade.Execution

/-- One call of `exit_position`, with the execution service that answers it. -/
structure ExitAttempt (σ : Type) where
  venue : Venue σ
  name : String
  reason : String
  ltp : Option ℚ := none

namespace ExitAttempt

variable {σ : Type}

/-- What the attempt's order comes back with. -/
def outcome (a : ExitAttempt σ) (pos : Position) (s : PositionService σ) :
    Except PyExc (Option OrderResult) :=
  (PositionService.sendExit a.venue a.name a.reason a.ltp pos s).2

/-- The order filled, with this result. -/
def fill? : Except PyExc (Option OrderResult) → Option OrderResult
  | .ok (some result) => if ExecutionService.isFill result then some result else none
  | .ok none => none
  | .error _ => none

end ExitAttempt

namespace PositionService

variable {σ : Type}

def attempt (settings : Settings) (s : PositionService σ) (a : ExitAttempt σ) :
    PositionService σ :=
  (exitPosition settings a.venue a.name a.reason a.ltp s).1

/-- The position as one more failed attempt leaves it. -/
def retried (pos : Position) : Position :=
  { pos with exitFailed := true, exitRetries := pos.exitRetries + 1 }

/-- The attempt on this position is booked and ends it if its order filled. Otherwise nothing is
booked, and the position stays with one more retry until the retries are used up. -/
def BooksAs (settings : Settings) (name reason : String) (pos : Position)
    (s s' : PositionService σ) : Option OrderResult → Prop
  | some result =>
      s'.handedOver = s.handedOver ++ handovers settings name reason pos
          (priceOr (some result.averagePrice) pos.entryPrice) ∧
        s'.positions.get? name = none
  | none =>
      s'.handedOver = s.handedOver ∧
        s'.positions.get? name = if exhausted settings pos then none else some (retried pos)

def BooksFill (settings : Settings) (s : PositionService σ) (a : ExitAttempt σ) : Prop :=
  ∀ pos ∈ s.positions.get? a.name,
    BooksAs settings a.name a.reason pos s (attempt settings s a)
      (ExitAttempt.fill? (a.outcome pos s))

/-- The order filled at another price than the entry price or the exit is a manual one; or it did
not fill, the exit is not a manual one, and the exception, if there was one, is handled. -/
def Tells (reason : String) (pos : Position) : Except PyExc (Option OrderResult) → Prop
  | .ok (some result) =>
      if ExecutionService.isFill result then
        (result.averagePrice ≠ 0 ∧ result.averagePrice ≠ pos.entryPrice) ∨ reason = "MANUAL"
      else reason ≠ "MANUAL"
  | .ok none => reason ≠ "MANUAL"
  | .error e => e.caughtBy handledErrors ∧ reason ≠ "MANUAL"

instance (reason : String) (pos : Position) :
    (outcome : Except PyExc (Option OrderResult)) → Decidable (Tells reason pos outcome)
  | .ok (some result) =>
      inferInstanceAs (Decidable (if ExecutionService.isFill result then _ ∨ _ else _))
  | .ok none => inferInstanceAs (Decidable (_ ≠ _))
  | .error _ => inferInstanceAs (Decidable (_ ∧ _))

def OutcomeTells (s : PositionService σ) (a : ExitAttempt σ) : Prop :=
  ∀ pos ∈ s.positions.get? a.name, Tells a.reason pos (a.outcome pos s)

instance (s : PositionService σ) (a : ExitAttempt σ) : Decidable (OutcomeTells s a) :=
  inferInstanceAs (Decidable (∀ pos ∈ s.positions.get? a.name, Tells _ pos _))

/-! ## One attempt -/

/-- What the rest of the call does with the outcome of its order. -/
def conclude (settings : Settings) (name reason : String) (pos : Position)
    (outcome : Except PyExc (Option OrderResult)) (s : PositionService σ) : PositionService σ :=
  match exitPriceOf pos outcome with
  | .error _ => s
  | .ok exitPrice =>
      if judgedFailed pos reason exitPrice then keepOrGiveUp settings name pos s
      else close settings name reason pos exitPrice s

theorem attempt_eq {settings : Settings} {s : PositionService σ} {a : ExitAttempt σ}
    {pos : Position} (held : s.positions.get? a.name = some pos) :
    attempt settings s a = conclude settings a.name a.reason pos (a.outcome pos s)
      (sendExit a.venue a.name a.reason a.ltp pos s).1 := by
  unfold attempt exitPosition conclude ExitAttempt.outcome
  rw [held]
  dsimp only
  cases exitPriceOf pos (sendExit a.venue a.name a.reason a.ltp pos s).2 <;> rfl

/-- Sending the order leaves the positions and the books alone. -/
theorem sendExit_frame (venue : Venue σ) (name reason : String) (ltp : Option ℚ) (pos : Position)
    (s : PositionService σ) :
    (sendExit venue name reason ltp pos s).1.positions = s.positions ∧
      (sendExit venue name reason ltp pos s).1.handedOver = s.handedOver := by
  unfold sendExit
  cases venue with
  | none => exact ⟨rfl, rfl⟩
  | some execute => exact ⟨rfl, rfl⟩

theorem handovers_ne_nil (settings : Settings) (name reason : String) (pos : Position)
    (exitPrice : ℚ) : handovers settings name reason pos exitPrice ≠ [] := by
  unfold handovers
  simp

theorem keepOrGiveUp_books (settings : Settings) (name reason : String) (pos : Position)
    (s : PositionService σ) :
    BooksAs settings name reason pos s (keepOrGiveUp settings name pos s) none := by
  unfold keepOrGiveUp BooksAs retried
  dsimp only
  by_cases hexhausted : exhausted settings pos = true
  · rw [if_pos hexhausted, if_pos hexhausted]
    exact ⟨rfl, (Dict.get?_erase _ _ _).trans (if_pos rfl)⟩
  · rw [if_neg hexhausted, if_neg hexhausted]
    exact ⟨rfl, Dict.get?_set_self _ _ _⟩

theorem close_books {settings : Settings} {name reason : String} {pos : Position}
    {result : OrderResult} (s : PositionService σ) :
    BooksAs settings name reason pos s
      (close settings name reason pos (priceOr (some result.averagePrice) pos.entryPrice) s)
      (some result) :=
  ⟨rfl, (Dict.get?_erase _ _ _).trans (if_pos rfl)⟩

/-- A failed attempt books nothing, so it does not count as a fill. -/
theorem not_books_keepOrGiveUp {settings : Settings} {name reason : String} {pos : Position}
    {s : PositionService σ} (result : OrderResult) :
    ¬ BooksAs settings name reason pos s (keepOrGiveUp settings name pos s) (some result) := by
  intro h
  have hnothing := (keepOrGiveUp_books settings name reason pos s).1
  exact handovers_ne_nil _ _ _ _ _ (List.self_eq_append_right.mp (hnothing.symm.trans h.1))

theorem not_books_close {settings : Settings} {name reason : String} {pos : Position}
    {s : PositionService σ} (exitPrice : ℚ) :
    ¬ BooksAs settings name reason pos s (close settings name reason pos exitPrice s) none := by
  intro h
  exact handovers_ne_nil _ _ _ _ _ (List.self_eq_append_right.mp h.1.symm)

/-- An attempt that ends with an exception adds no retry. -/
theorem not_books_unchanged {settings : Settings} {name reason : String} {pos : Position}
    {s : PositionService σ} (held : s.positions.get? name = some pos) :
    ¬ BooksAs settings name reason pos s s none := by
  intro h
  have hsame := held.symm.trans h.2
  split at hsame
  · cases hsame
  · have hretries := congrArg Position.exitRetries (Option.some.inj hsame)
    exact absurd hretries (by simp [retried])

theorem judgedFailed_entryPrice (pos : Position) (reason : String) :
    judgedFailed pos reason pos.entryPrice = decide (reason ≠ "MANUAL") := by
  simp [judgedFailed]

theorem judgedFailed_averagePrice (pos : Position) (reason : String) (price : ℚ) :
    judgedFailed pos reason (priceOr (some price) pos.entryPrice) = false ↔
      (price ≠ 0 ∧ price ≠ pos.entryPrice) ∨ reason = "MANUAL" := by
  unfold judgedFailed priceOr
  by_cases hzero : price = 0
  · simp [hzero]
  · simp only [if_neg hzero, decide_eq_false_iff_not]
    tauto

/-- What is booked at the entry price. -/
theorem books_entryPrice_iff {settings : Settings} {name reason : String} {pos : Position}
    {s : PositionService σ} :
    BooksAs settings name reason pos s
        (if judgedFailed pos reason pos.entryPrice then keepOrGiveUp settings name pos s
          else close settings name reason pos pos.entryPrice s) none ↔ reason ≠ "MANUAL" := by
  rw [judgedFailed_entryPrice]
  by_cases hmanual : reason = "MANUAL"
  · simp only [hmanual, ne_eq, not_true_eq_false, decide_false, iff_false]
    exact not_books_close _
  · simp only [hmanual, ne_eq, not_false_eq_true, decide_true, if_true, iff_true]
    exact keepOrGiveUp_books _ _ _ _ _

theorem books_conclude_iff {settings : Settings} {name reason : String} {pos : Position}
    {outcome : Except PyExc (Option OrderResult)} {s : PositionService σ}
    (held : s.positions.get? name = some pos) :
    BooksAs settings name reason pos s (conclude settings name reason pos outcome s)
        (ExitAttempt.fill? outcome) ↔ Tells reason pos outcome := by
  unfold conclude exitPriceOf ExitAttempt.fill? Tells
  cases outcome with
  | error e =>
      dsimp only
      by_cases hcaught : e.caughtBy handledErrors = true
      · rw [if_pos hcaught]
        exact books_entryPrice_iff.trans (and_iff_right hcaught).symm
      · rw [if_neg hcaught]
        exact iff_of_false (not_books_unchanged held) fun h => hcaught h.1
  | ok sent =>
      cases sent with
      | none => exact books_entryPrice_iff
      | some result =>
          dsimp only
          by_cases hfill : ExecutionService.isFill result = true
          · simp only [if_pos hfill]
            rw [← judgedFailed_averagePrice]
            cases hjudged : judgedFailed pos reason
                (priceOr (some result.averagePrice) pos.entryPrice) with
            | true => exact iff_of_false (not_books_keepOrGiveUp result) (by simp)
            | false => exact iff_of_true (close_books s) rfl
          · simp only [if_neg hfill]
            exact books_entryPrice_iff

theorem booksFill_iff (settings : Settings) (s : PositionService σ) (a : ExitAttempt σ) :
    BooksFill settings s a ↔ OutcomeTells s a := by
  unfold BooksFill OutcomeTells
  refine forall₂_congr fun pos held => ?_
  obtain ⟨hpositions, hbooks⟩ := sendExit_frame a.venue a.name a.reason a.ltp pos s
  have hsent : (sendExit a.venue a.name a.reason a.ltp pos s).1.positions.get? a.name = some pos :=
    hpositions ▸ held
  rw [← @books_conclude_iff _ settings _ _ _ _ _ hsent, attempt_eq held]
  cases ExitAttempt.fill? (a.outcome pos s) with
  | some result => simp only [BooksAs, hbooks]
  | none => simp only [BooksAs, hbooks]

/-! ## Sequences of attempts -/

/-- An attempt on this name whose order does not fill, and that is told to have failed. -/
def Fails (name : String) (s : PositionService σ) (a : ExitAttempt σ) : Prop :=
  a.name = name ∧ OutcomeTells s a ∧
    ∀ pos ∈ s.positions.get? name, ExitAttempt.fill? (a.outcome pos s) = none

theorem attempt_fails {settings : Settings} {name : String} {s : PositionService σ}
    {a : ExitAttempt σ} (fails : Fails name s a) {pos : Position}
    (held : s.positions.get? name = some pos) :
    (attempt settings s a).handedOver = s.handedOver ∧
      (attempt settings s a).positions.get? name =
        if exhausted settings pos then none else some (retried pos) := by
  obtain ⟨rfl, htells, hunfilled⟩ := fails
  have hbooks := (booksFill_iff settings s a).mpr htells pos held
  rw [hunfilled pos held] at hbooks
  exact hbooks

theorem attempt_absent {settings : Settings} {s : PositionService σ} {a : ExitAttempt σ}
    (h : s.positions.get? a.name = none) : attempt settings s a = s := by
  unfold attempt exitPosition
  rw [h]

theorem run_absent {settings : Settings} {name : String} {s : PositionService σ}
    (h : s.positions.get? name = none) {attempts : List (ExitAttempt σ)}
    (fails : StepsMeet (attempt settings) (Fails name) s attempts) :
    run (attempt settings) s attempts = s := by
  induction attempts with
  | nil => rfl
  | cons a rest ih =>
      have hsame : attempt settings s a = s := attempt_absent (fails.1.1 ▸ h)
      have hrest := fails.2
      rw [hsame] at hrest
      simp only [run, List.foldl_cons, hsame] at ih ⊢
      exact ih hrest

/-- Failed attempts book nothing; they are counted until `EXIT_ORDER_RETRIES` of them have failed,
and then the position is given up. -/
theorem failed_exits_retried {settings : Settings} {name : String} {s : PositionService σ}
    {pos : Position} (held : s.positions.get? name = some pos) {attempts : List (ExitAttempt σ)}
    (some_attempt : attempts ≠ [])
    (fails : StepsMeet (attempt settings) (Fails name) s attempts) :
    (run (attempt settings) s attempts).handedOver = s.handedOver ∧
      (run (attempt settings) s attempts).positions.get? name =
        if pos.exitRetries + attempts.length < settings.exitOrderRetries then
          some { pos with exitFailed := true, exitRetries := pos.exitRetries + attempts.length }
        else none := by
  induction attempts generalizing s pos with
  | nil => exact absurd rfl some_attempt
  | cons a rest ih =>
      obtain ⟨hbooks, hposition⟩ := @attempt_fails _ settings _ _ _ fails.1 _ held
      have hrun : run (attempt settings) s (a :: rest) =
          run (attempt settings) (attempt settings s a) rest := rfl
      rw [hrun]
      by_cases hexhausted : exhausted settings pos = true
      · rw [if_pos hexhausted] at hposition
        have hover : pos.exitRetries + 1 ≥ settings.exitOrderRetries := of_decide_eq_true hexhausted
        rw [run_absent hposition fails.2, hposition, if_neg]
        · exact ⟨hbooks, rfl⟩
        · rw [List.length_cons]
          push_cast
          omega
      · rw [if_neg hexhausted] at hposition
        have hbelow : ¬ pos.exitRetries + 1 ≥ settings.exitOrderRetries := by
          simpa [exhausted] using hexhausted
        cases rest with
        | nil =>
            refine ⟨hbooks, hposition.trans ?_⟩
            rw [if_pos (by simpa using hbelow)]
            rfl
        | cons b more =>
            obtain ⟨hmore, hfinal⟩ := ih hposition (List.cons_ne_nil b more) fails.2
            refine ⟨hmore.trans hbooks, hfinal.trans ?_⟩
            have hcount : (retried pos).exitRetries + (b :: more).length =
                pos.exitRetries + (a :: b :: more).length := by
              simp only [retried, List.length_cons]
              push_cast
              omega
            rw [hcount]
            rfl

/-- In a sequence of attempts each one is booked exactly if its order filled, and counts as a retry
if it did not, just where each outcome can be told from the price and the reason. -/
theorem exits_booked_as_filled (settings : Settings) (s : PositionService σ)
    (attempts : List (ExitAttempt σ)) :
    StepsMeet (attempt settings) (BooksFill settings) s attempts ↔
      StepsMeet (attempt settings) OutcomeTells s attempts :=
  stepsMeet_congr (booksFill_iff settings) s attempts

/-- A service with the sample entry filled at 100. -/
def sampleService : PositionService Unit :=
  (enterTrade (answering (sampleFill .filled 75 100)) (sampleEntry "CALL" 75 "t0")
    { execution := () }).1

/-- A stop filled at the entry price is not booked and the position stays; a manual exit that was
rejected is booked. -/
theorem break_even_exit_not_booked :
    ¬ StepsMeet (attempt {}) (BooksFill {}) sampleService
        [⟨answering (sampleFill .filled 75 100), "NIFTY", "SL_HIT", some 100⟩] ∧
      ¬ StepsMeet (attempt {}) (BooksFill {}) sampleService
        [⟨answering (sampleFill .rejected 0 0), "NIFTY", "MANUAL", some 100⟩] := by
  constructor
  · intro h
    exact absurd ((booksFill_iff _ _ _).mp h.1) (by decide +kernel)
  · intro h
    exact absurd ((booksFill_iff _ _ _).mp h.1) (by decide +kernel)

end PositionService

end AutoTrade.Positions
