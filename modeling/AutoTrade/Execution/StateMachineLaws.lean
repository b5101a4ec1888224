import AutoTrade.Execution.StateMachine

/-! # What a transition attempt can do

`tryTransitionTo_cases` is the only place where the branches of
`validate_transition` are taken apart: an attempt is refused, fails to persist,
raises out of the callback, or succeeds. Everything else about machines is
derived from these four outcomes.
-/

namespace AutoTrade.Execution.ExecutionStateMachine

variable {σ : Type} {hooks : Hooks σ} {ts : Time}

/-- The transition table admits the move. -/
def Allows (m : ExecutionStateMachine) (new : ExecutionState) : Prop :=
  new ≠ m.state ∧ new ∈ validTransitions m.state

instance (m : ExecutionStateMachine) (new : ExecutionState) : Decidable (m.Allows new) :=
  inferInstanceAs (Decidable (_ ∧ _))

/-- What the persistence callback answers to a move, or `ok` where it is not consulted. -/
def persistOutcome (hooks : Hooks σ) (new : ExecutionState) (m : ExecutionStateMachine) (s : σ) :
    Except PyExc Unit × σ :=
  if m.persistenceCallback ∧ new ∈ persistedStates then hooks.persist { m with state := new } s
  else (.ok (), s)

theorem tryTransitionTo_refused {m : ExecutionStateMachine} {new : ExecutionState} {s : σ}
    (h : ¬ m.Allows new) : tryTransitionTo hooks ts new m s = ⟨m, s, .ok false⟩ := by
  unfold tryTransitionTo validateTransition
  by_cases hsame : new = m.state
  · simp [hsame, Except.map]
  · have hnot : new ∉ validTransitions m.state := fun hmem => h ⟨hsame, hmem⟩
    simp [hsame, hnot, Except.map]

theorem tryTransitionTo_of_persist {m : ExecutionStateMachine} {new : ExecutionState} {s s' : σ}
    {outcome : Except PyExc Unit} (h : m.Allows new)
    (hp : persistOutcome hooks new m s = (outcome, s')) :
    tryTransitionTo hooks ts new m s =
      match outcome with
      | .ok _ => ⟨{ m with state := new, updatedAt := ts },
          hooks.transitioned m.state { m with state := new, updatedAt := ts } s', .ok true⟩
      | .error e =>
          if e.caughtBy persistenceErrors then ⟨m, s', .ok false⟩
          else ⟨{ m with state := new }, s', .error e⟩ := by
  unfold persistOutcome at hp
  unfold tryTransitionTo validateTransition
  rw [if_neg h.1, if_neg (not_not.mpr h.2)]
  by_cases hc : m.persistenceCallback ∧ new ∈ persistedStates
  · rw [if_pos hc] at hp ⊢
    rw [hp]
    cases outcome with
    | ok u => simp [succeedTransition, Except.map]
    | error e =>
        by_cases he : e.caughtBy persistenceErrors = true <;> simp [he, Except.map]
  · rw [if_neg hc] at hp ⊢
    cases hp
    simp [succeedTransition, Except.map]

theorem tryTransitionTo_success {m : ExecutionStateMachine} {new : ExecutionState} {s s' : σ}
    (h : m.Allows new) (hp : persistOutcome hooks new m s = (.ok (), s')) :
    tryTransitionTo hooks ts new m s =
      ⟨{ m with state := new, updatedAt := ts },
        hooks.transitioned m.state { m with state := new, updatedAt := ts } s', .ok true⟩ :=
  tryTransitionTo_of_persist h hp

/-- A move into a state outside the persisted ones never consults the callback. -/
theorem tryTransitionTo_unpersisted {m : ExecutionStateMachine} {new : ExecutionState} {s : σ}
    (h : m.Allows new) (hnew : new ∉ persistedStates) :
    tryTransitionTo hooks ts new m s =
      ⟨{ m with state := new, updatedAt := ts },
        hooks.transitioned m.state { m with state := new, updatedAt := ts } s, .ok true⟩ :=
  tryTransitionTo_success h (by simp [persistOutcome, hnew])

theorem tryTransitionTo_cases (hooks : Hooks σ) (ts : Time) (new : ExecutionState)
    (m : ExecutionStateMachine) (s : σ) :
    (¬ m.Allows new ∧ tryTransitionTo hooks ts new m s = ⟨m, s, .ok false⟩) ∨
    (∃ e s', m.Allows new ∧ persistOutcome hooks new m s = (.error e, s') ∧
      e.caughtBy persistenceErrors = true ∧
      tryTransitionTo hooks ts new m s = ⟨m, s', .ok false⟩) ∨
    (∃ e s', m.Allows new ∧ persistOutcome hooks new m s = (.error e, s') ∧
      e.caughtBy persistenceErrors = false ∧
      tryTransitionTo hooks ts new m s = ⟨{ m with state := new }, s', .error e⟩) ∨
    (∃ s', m.Allows new ∧ persistOutcome hooks new m s = (.ok (), s') ∧
      tryTransitionTo hooks ts new m s =
        ⟨{ m with state := new, updatedAt := ts },
          hooks.transitioned m.state { m with state := new, updatedAt := ts } s', .ok true⟩) := by
  by_cases h : m.Allows new
  · cases hp : persistOutcome hooks new m s with
    | mk outcome s' =>
        have hstep : tryTransitionTo hooks ts new m s = _ := tryTransitionTo_of_persist h hp
        cases outcome with
        | ok u => exact .inr (.inr (.inr ⟨s', h, rfl, hstep⟩))
        | error e =>
            cases he : e.caughtBy persistenceErrors with
            | true => exact .inr (.inl ⟨e, s', h, rfl, he, by simpa [he] using hstep⟩)
            | false => exact .inr (.inr (.inl ⟨e, s', h, rfl, he, by simpa [he] using hstep⟩))
  · exact .inl ⟨h, tryTransitionTo_refused h⟩

/-- What holds of a machine, and of it after the move where the table admits it, holds after an
attempt. -/
theorem tryTransitionTo_preserves {P : ExecutionStateMachine → Prop} {m : ExecutionStateMachine}
    {new : ExecutionState} (h : P m)
    (moved : m.Allows new → ∀ updatedAt, P { m with state := new, updatedAt := updatedAt }) (s : σ) :
    P (tryTransitionTo hooks ts new m s).machine := by
  rcases tryTransitionTo_cases hooks ts new m s with
    ⟨_, hstep⟩ | ⟨_, _, _, _, _, hstep⟩ | ⟨_, _, hallow, _, _, hstep⟩ | ⟨_, hallow, _, hstep⟩
  · rw [hstep]
    exact h
  · rw [hstep]
    exact h
  · rw [hstep]
    exact moved hallow m.updatedAt
  · rw [hstep]
    exact moved hallow ts

/-- An attempt writes the state and `updated_at`, nothing else. -/
theorem tryTransitionTo_frame (hooks : Hooks σ) (ts : Time) (new : ExecutionState)
    (m : ExecutionStateMachine) (s : σ) :
    ∃ state updatedAt, (tryTransitionTo hooks ts new m s).machine =
      { m with state := state, updatedAt := updatedAt } ∧ (state = m.state ∨ state = new) := by
  rcases tryTransitionTo_cases hooks ts new m s with
    ⟨_, h⟩ | ⟨_, _, _, _, _, h⟩ | ⟨_, _, _, _, _, h⟩ | ⟨_, _, _, h⟩
  · exact ⟨m.state, m.updatedAt, by rw [h], .inl rfl⟩
  · exact ⟨m.state, m.updatedAt, by rw [h], .inl rfl⟩
  · exact ⟨new, m.updatedAt, by rw [h], .inr rfl⟩
  · exact ⟨new, ts, by rw [h], .inr rfl⟩

theorem not_allows_of_terminal {m : ExecutionStateMachine} (h : m.state ∈ terminalStates)
    (new : ExecutionState) : ¬ m.Allows new := by
  rintro ⟨_, hmem⟩
  cases hs : m.state <;> simp_all [terminalStates, validTransitions]

/-- A machine in a terminal state stays where it is. -/
theorem tryTransitionTo_of_terminal {m : ExecutionStateMachine} (h : m.state ∈ terminalStates)
    (new : ExecutionState) (s : σ) : tryTransitionTo hooks ts new m s = ⟨m, s, .ok false⟩ :=
  tryTransitionTo_refused (not_allows_of_terminal h new)

theorem isTerminal_iff (m : ExecutionStateMachine) :
    m.isTerminal = true ↔ m.state ∈ terminalStates := by
  simp [isTerminal]

/-! ## The totals of a fill -/

@[simp] theorem addFill_state (q : Int) (p : ℚ) (m : ExecutionStateMachine) :
    (addFill ts q p m).state = m.state := rfl

@[simp] theorem addFill_quantity (q : Int) (p : ℚ) (m : ExecutionStateMachine) :
    (addFill ts q p m).quantity = m.quantity := rfl

@[simp] theorem addFill_filledQuantity (q : Int) (p : ℚ) (m : ExecutionStateMachine) :
    (addFill ts q p m).filledQuantity = m.filledQuantity + q := rfl

/-- Outside `ACKNOWLEDGED` and `PARTIAL_FILL` a fill is refused, but its totals stand. -/
theorem recordFill_refused {m : ExecutionStateMachine} (hack : m.state ≠ .acknowledged)
    (hpart : m.state ≠ .partialFill) (q : Int) (p : ℚ) (s : σ) :
    recordFill hooks ts q p m s = ⟨addFill ts q p m, s, .ok false⟩ := by
  simp [recordFill, hack, hpart]

theorem recordFill_acknowledged {m : ExecutionStateMachine} (h : m.state = .acknowledged)
    (q : Int) (p : ℚ) (s : σ) :
    recordFill hooks ts q p m s =
      tryTransitionTo hooks ts (if m.quantity ≤ q then .filled else .partialFill)
        (addFill ts q p m) s := by
  by_cases hq : m.quantity ≤ q <;> simp [recordFill, h, hq]

theorem recordFill_partialFill {m : ExecutionStateMachine} (h : m.state = .partialFill)
    (q : Int) (p : ℚ) (s : σ) :
    recordFill hooks ts q p m s =
      if m.quantity ≤ m.filledQuantity + q then
        tryTransitionTo hooks ts .filled (addFill ts q p m) s
      else ⟨addFill ts q p m, s, .ok true⟩ := by
  simp [recordFill, h]

end AutoTrade.Execution.ExecutionStateMachine
