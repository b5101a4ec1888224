import Mathlib.Data.List.Induction

/-! # Runs of a step function

A run is a list of operations folded through a step function. A condition on
single steps is lifted to a run by `StepsMeet`, which evaluates it at the state
each operation actually starts from, and a state predicate by `Always`, which
covers every state the run passes through, the first and the last included.
The rules below reduce a statement about whole runs to one step.
-/

namespace AutoTrade.Library

section Run

variable {σ ω : Type} (step : σ → ω → σ)

def run (s : σ) (ops : List ω) : σ := ops.foldl step s

/-- Every operation of the run meets `C` at the state it starts from. -/
def StepsMeet (C : σ → ω → Prop) : σ → List ω → Prop
  | _, [] => True
  | s, op :: rest => C s op ∧ StepsMeet C (step s op) rest

/-- `P` holds in every state of the run. -/
def Always (P : σ → Prop) : σ → List ω → Prop
  | s, [] => P s
  | s, op :: rest => P s ∧ Always P (step s op) rest

instance decidableStepsMeet (C : σ → ω → Prop) [∀ s op, Decidable (C s op)] :
    ∀ s ops, Decidable (StepsMeet step C s ops)
  | _, [] => inferInstanceAs (Decidable True)
  | s, op :: rest =>
      have := decidableStepsMeet C (step s op) rest
      inferInstanceAs (Decidable (C s op ∧ StepsMeet step C (step s op) rest))

instance decidableAlways (P : σ → Prop) [DecidablePred P] :
    ∀ s ops, Decidable (Always step P s ops)
  | s, [] => inferInstanceAs (Decidable (P s))
  | s, op :: rest =>
      have := decidableAlways P (step s op) rest
      inferInstanceAs (Decidable (P s ∧ Always step P (step s op) rest))

variable {step}

/-- Only the steps of the run have to preserve the invariant, and only where they meet `C`. -/
theorem always_of_stepsMeet {C : σ → ω → Prop} {I : σ → Prop} {s : σ} {ops : List ω}
    (preserved : ∀ s, ∀ op ∈ ops, I s → C s op → I (step s op))
    (initial : I s) (meet : StepsMeet step C s ops) : Always step I s ops := by
  induction ops generalizing s with
  | nil => exact initial
  | cons op rest ih =>
      have hnext := preserved s op (by simp) initial meet.1
      exact ⟨initial, ih (fun t o ho => preserved t o (by simp [ho])) hnext meet.2⟩

theorem Always.mono {P Q : σ → Prop} (h : ∀ s, P s → Q s) {s : σ} {ops : List ω}
    (always : Always step P s ops) : Always step Q s ops := by
  induction ops generalizing s with
  | nil => exact h s always
  | cons op rest ih => exact ⟨h s always.1, ih always.2⟩

theorem Always.first {P : σ → Prop} {s : σ} {ops : List ω} (always : Always step P s ops) : P s := by
  cases ops with
  | nil => exact always
  | cons op rest => exact always.1

/-- Where a step that meets `C` keeps an invariant, and after one that does not a weaker one already
fails, a run keeps the weaker one throughout exactly when every step of it meets `C`. -/
theorem always_iff_stepsMeet_of_stronger {C : σ → ω → Prop} {I J : σ → Prop} {s : σ}
    {ops : List ω} (stronger : ∀ s, J s → I s)
    (kept : ∀ s, ∀ op ∈ ops, J s → C s op → J (step s op))
    (needed : ∀ s, ∀ op ∈ ops, J s → I (step s op) → C s op) (initial : J s) :
    Always step I s ops ↔ StepsMeet step C s ops := by
  constructor
  · intro always
    induction ops generalizing s with
    | nil => trivial
    | cons op rest ih =>
        have hC : C s op := needed s op (by simp) initial always.2.first
        exact ⟨hC, ih (fun t o ho => kept t o (by simp [ho])) (fun t o ho => needed t o (by simp [ho]))
          (kept s op (by simp) initial hC) always.2⟩
  · intro meet
    exact (always_of_stepsMeet kept initial meet).mono stronger

/-- Where a step keeps the invariant exactly when it meets `C`, the run keeps it throughout exactly
when every step of it does. -/
theorem always_iff_stepsMeet {C : σ → ω → Prop} {I : σ → Prop} {s : σ} {ops : List ω}
    (exact : ∀ s, ∀ op ∈ ops, I s → (I (step s op) ↔ C s op)) (initial : I s) :
    Always step I s ops ↔ StepsMeet step C s ops := by
  refine always_iff_stepsMeet_of_stronger (fun _ hI => hI) ?_ ?_ initial
  · intro s op hop hI hC
    exact (exact s op hop hI).mpr hC
  · intro s op hop hI hnext
    exact (exact s op hop hI).mp hnext

/-- A step that meets `C` keeps the invariant and also meets `D`, so a run of such steps does both. -/
theorem always_and_stepsMeet {C D : σ → ω → Prop} {I : σ → Prop} {s : σ} {ops : List ω}
    (kept : ∀ s, ∀ op ∈ ops, I s → C s op → I (step s op) ∧ D s op) (initial : I s)
    (meet : StepsMeet step C s ops) : Always step I s ops ∧ StepsMeet step D s ops := by
  induction ops generalizing s with
  | nil => exact ⟨initial, trivial⟩
  | cons op rest ih =>
      obtain ⟨hnext, hD⟩ := kept s op (by simp) initial meet.1
      have hrest := ih (fun t o ho => kept t o (by simp [ho])) hnext meet.2
      exact ⟨⟨initial, hrest.1⟩, hD, hrest.2⟩

/-- Where after a step that does not meet `C` a weaker invariant or `D` fails, the run has both exactly
when all its steps meet `C`. -/
theorem always_and_stepsMeet_iff {C D : σ → ω → Prop} {I J : σ → Prop} {s : σ} {ops : List ω}
    (stronger : ∀ s, J s → I s) (kept : ∀ s, ∀ op ∈ ops, J s → C s op → J (step s op) ∧ D s op)
    (needed : ∀ s, ∀ op ∈ ops, J s → I (step s op) → D s op → C s op) (initial : J s) :
    Always step I s ops ∧ StepsMeet step D s ops ↔ StepsMeet step C s ops := by
  constructor
  · rintro ⟨always, meet⟩
    induction ops generalizing s with
    | nil => trivial
    | cons op rest ih =>
        have hC : C s op := needed s op (by simp) initial always.2.first meet.1
        exact ⟨hC, ih (fun t o ho => kept t o (by simp [ho])) (fun t o ho => needed t o (by simp [ho]))
          (kept s op (by simp) initial hC).1 always.2 meet.2⟩
  · intro meet
    obtain ⟨always, hD⟩ := always_and_stepsMeet kept initial meet
    exact ⟨always.mono stronger, hD⟩

theorem Always.final {P : σ → Prop} {s : σ} {ops : List ω} (always : Always step P s ops) :
    P (run step s ops) := by
  induction ops generalizing s with
  | nil => exact always
  | cons op rest ih => exact ih always.2

theorem Always.after_steps {P : σ → Prop} {s : σ} {ops : List ω} (always : Always step P s ops) :
    StepsMeet step (fun s op => P (step s op)) s ops := by
  induction ops generalizing s with
  | nil => trivial
  | cons op rest ih => exact ⟨always.2.first, ih always.2⟩

theorem StepsMeet.and {C D : σ → ω → Prop} {s : σ} {ops : List ω} (hC : StepsMeet step C s ops)
    (hD : StepsMeet step D s ops) : StepsMeet step (fun s op => C s op ∧ D s op) s ops := by
  induction ops generalizing s with
  | nil => trivial
  | cons op rest ih => exact ⟨⟨hC.1, hD.1⟩, ih hC.2 hD.2⟩

theorem StepsMeet.mono {C D : σ → ω → Prop} (h : ∀ s op, C s op → D s op) {s : σ} {ops : List ω}
    (meet : StepsMeet step C s ops) : StepsMeet step D s ops := by
  induction ops generalizing s with
  | nil => trivial
  | cons op rest ih => exact ⟨h s op meet.1, ih meet.2⟩

theorem stepsMeet_append {C : σ → ω → Prop} (s : σ) (ops later : List ω) :
    StepsMeet step C s (ops ++ later) ↔
      StepsMeet step C s ops ∧ StepsMeet step C (run step s ops) later := by
  induction ops generalizing s with
  | nil => simp [StepsMeet, run]
  | cons op rest ih =>
      rw [List.cons_append, StepsMeet, StepsMeet, ih, and_assoc]
      rfl

theorem stepsMeet_true (s : σ) (ops : List ω) : StepsMeet step (fun _ _ => True) s ops := by
  induction ops generalizing s with
  | nil => trivial
  | cons op rest ih => exact ⟨trivial, ih (step s op)⟩

theorem stepsMeet_congr {C D : σ → ω → Prop} (h : ∀ s op, C s op ↔ D s op) (s : σ) (ops : List ω) :
    StepsMeet step C s ops ↔ StepsMeet step D s ops := by
  induction ops generalizing s with
  | nil => exact Iff.rfl
  | cons op rest ih => exact and_congr (h s op) (ih (step s op))

/-- Conditions that agree wherever an invariant of every step holds agree on runs from there. -/
theorem stepsMeet_congr_of_invariant {C D : σ → ω → Prop} {J : σ → Prop}
    (preserved : ∀ s op, J s → J (step s op)) (h : ∀ s op, J s → (C s op ↔ D s op)) {s : σ}
    (initial : J s) (ops : List ω) : StepsMeet step C s ops ↔ StepsMeet step D s ops := by
  induction ops generalizing s with
  | nil => exact Iff.rfl
  | cons op rest ih => exact and_congr (h s op initial) (ih (preserved s op initial))

/-- An invariant of every step is an invariant of every run. -/
theorem run_invariant {I : σ → Prop} (preserved : ∀ s op, I s → I (step s op)) {s : σ}
    (initial : I s) (ops : List ω) : I (run step s ops) :=
  (always_of_stepsMeet (fun s op _ h _ => preserved s op h) initial (stepsMeet_true s ops)).final

/-- What every step that meets `C` leaves related to its state, the rest of a run leaves related to
any state of it. -/
theorem related_of_stepsMeet {C : σ → ω → Prop} {R : σ → σ → Prop} (refl : ∀ s, R s s)
    (trans : ∀ s t u, R s t → R t u → R s u) (one : ∀ s op, C s op → R s (step s op)) {s : σ}
    {ops later : List ω} (meet : StepsMeet step C s (ops ++ later)) :
    R (run step s ops) (run step s (ops ++ later)) := by
  have hlater := ((stepsMeet_append s ops later).mp meet).2
  have hrun : run step s (ops ++ later) = run step (run step s ops) later := List.foldl_append
  rw [hrun]
  exact (always_of_stepsMeet (I := R (run step s ops))
    (fun t op _ h hC => trans _ t _ h (one t op hC)) (refl _) hlater).final

/-- Where an operation reaches the goal or lowers a measure, repeating it reaches the goal. -/
theorem exists_run_of_rank {I goal : σ → Prop} {rank : σ → Nat} {op : ω}
    (progress : ∀ s, I s → goal (step s op) ∨ I (step s op) ∧ rank (step s op) < rank s) {s : σ}
    (initial : I s) : ∃ n, goal (run step s (List.replicate n op)) := by
  induction hrank : rank s using Nat.strongRecOn generalizing s with
  | ind n ih =>
      rcases progress s initial with hgoal | ⟨hnext, hlower⟩
      · exact ⟨1, hgoal⟩
      · obtain ⟨k, hk⟩ := ih _ (hrank ▸ hlower) hnext rfl
        exact ⟨k + 1, hk⟩

/-- A run all of whose steps lower a measure is no longer than the measure is high. -/
theorem length_le_of_stepsMeet {C : σ → ω → Prop} {rank : σ → Nat}
    (lowers : ∀ s op, C s op → rank (step s op) < rank s) {s : σ} {ops : List ω}
    (meet : StepsMeet step C s ops) : ops.length + rank (run step s ops) ≤ rank s := by
  induction ops generalizing s with
  | nil => simp [run]
  | cons op rest ih =>
      have hlow := lowers s op meet.1
      have hrest := ih meet.2
      simp only [run, List.length_cons, List.foldl_cons] at hrest ⊢
      omega

end Run

/-! ## Loops that may raise -/

section Loop

variable {α β ε : Type} (body : α → β → α × Option ε)

/-- Run the body over a list until it raises; what was done so far stands. -/
def loop : α → List β → α × Option ε
  | a, [] => (a, none)
  | a, x :: rest =>
      match body a x with
      | (a', none) => loop a' rest
      | (a', some e) => (a', some e)

/-- The elements at which the body runs: all up to the first that raises. -/
def visited : α → List β → List β
  | _, [] => []
  | a, x :: rest =>
      match body a x with
      | (a', none) => x :: visited a' rest
      | (_, some _) => [x]

/-- Every element at which the body runs meets `C` at the state it is run from. -/
def LoopMeets (C : α → β → Prop) : α → List β → Prop
  | _, [] => True
  | a, x :: rest => C a x ∧ ((body a x).2 = none → LoopMeets C (body a x).1 rest)

variable {body}

theorem mem_of_mem_visited {a : α} {xs : List β} {x : β} (h : x ∈ visited body a xs) : x ∈ xs := by
  induction xs generalizing a with
  | nil => exact h
  | cons y rest ih =>
      unfold visited at h
      split at h
      · cases h with
        | head => exact List.mem_cons_self
        | tail _ hrest => exact List.mem_cons_of_mem y (ih hrest)
      · rw [List.mem_singleton.mp h]
        exact List.mem_cons_self

/-- A loop is a run over the elements at which its body runs. -/
theorem loop_eq_run (a : α) (xs : List β) :
    (loop body a xs).1 = run (fun a x => (body a x).1) a (visited body a xs) := by
  induction xs generalizing a with
  | nil => rfl
  | cons x rest ih =>
      unfold loop visited
      split
      · rename_i a' hbody
        rw [ih a']
        simp [run, hbody]
      · rename_i a' e hbody
        simp [run, hbody]

theorem loopMeets_of_forall {C : α → β → Prop} {xs : List β} (h : ∀ a, ∀ x ∈ xs, C a x) (a : α) :
    LoopMeets body C a xs := by
  induction xs generalizing a with
  | nil => trivial
  | cons x rest ih =>
      exact ⟨h a x List.mem_cons_self, fun _ =>
        ih (fun b y hy => h b y (List.mem_cons_of_mem x hy)) _⟩

theorem loop_invariant {I : α → Prop} {a : α} {xs : List β}
    (preserved : ∀ a, ∀ x ∈ xs, I a → I (body a x).1) (initial : I a) :
    I (loop body a xs).1 := by
  induction xs generalizing a with
  | nil => exact initial
  | cons x rest ih =>
      have hnext := preserved a x (by simp) initial
      unfold loop
      split
      · rename_i a' hbody
        rw [hbody] at hnext
        exact ih (fun b y hy => preserved b y (by simp [hy])) hnext
      · rename_i a' e hbody
        rw [hbody] at hnext
        exact hnext

/-- A fact about one element stands where the body leaves it alone at every other element. -/
theorem loop_frame {I : α → β → Prop} (frame : ∀ a x y, y ≠ x → (I (body a x).1 y ↔ I a y))
    {xs : List β} {y : β} (hy : y ∉ xs) (a : α) : I (loop body a xs).1 y ↔ I a y := by
  induction xs generalizing a with
  | nil => exact Iff.rfl
  | cons x rest ih =>
      have hhead := frame a x y (fun h => hy (h ▸ List.mem_cons_self))
      unfold loop
      split
      · rename_i a' hbody
        rw [hbody] at hhead
        exact (ih (fun h => hy (List.mem_cons_of_mem x h)) a').trans hhead
      · rename_i a' e hbody
        rw [hbody] at hhead
        exact hhead

/-- Where the body keeps the invariant at its element exactly when it meets `C`, and leaves it alone
at every other, the loop over distinct elements keeps the invariant exactly when all of them do. -/
theorem loop_iff_loopMeets {C : α → β → Prop} {I : α → β → Prop} {xs : List β} (hnodup : xs.Nodup)
    (exact : ∀ a x, I a x → (I (body a x).1 x ↔ C a x))
    (frame : ∀ a x y, y ≠ x → (I (body a x).1 y ↔ I a y)) {a : α} (initial : ∀ x, I a x) :
    (∀ x, I (loop body a xs).1 x) ↔ LoopMeets body C a xs := by
  induction xs generalizing a with
  | nil => exact ⟨fun _ => trivial, fun _ => initial⟩
  | cons x rest ih =>
      obtain ⟨hx, hrest⟩ := List.nodup_cons.mp hnodup
      have hhead := exact a x (initial x)
      have hnext : C a x → ∀ y, I (body a x).1 y := by
        intro hC y
        by_cases hy : y = x
        · exact hy ▸ hhead.mpr hC
        · exact (frame a x y hy).mpr (initial y)
      unfold loop LoopMeets
      split
      · rename_i a' hbody
        rw [hbody] at hhead hnext
        rw [hbody]
        simp only [forall_const]
        constructor
        · intro hall
          have hC : C a x := hhead.mp ((loop_frame frame hx a').mp (hall x))
          exact ⟨hC, (ih hrest (hnext hC)).mp hall⟩
        · intro h
          exact (ih hrest (hnext h.1)).mpr h.2
      · rename_i a' e hbody
        rw [hbody] at hhead hnext
        rw [hbody]
        simp only [reduceCtorEq, false_implies, and_true]
        exact ⟨fun hall => hhead.mp (hall x), hnext⟩

/-- Where the body never raises and leaves `C` alone at every other element, the elements of a loop
over distinct ones meet it one after the other when they do so from the start. -/
theorem loopMeets_iff_forall {C : α → β → Prop} {xs : List β} (hnodup : xs.Nodup)
    (quiet : ∀ a x, (body a x).2 = none)
    (frame : ∀ a x y, y ≠ x → (C (body a x).1 y ↔ C a y)) (a : α) :
    LoopMeets body C a xs ↔ ∀ x ∈ xs, C a x := by
  induction xs generalizing a with
  | nil => simp [LoopMeets]
  | cons x rest ih =>
      obtain ⟨hx, hrest⟩ := List.nodup_cons.mp hnodup
      have hlater : (∀ y ∈ rest, C (body a x).1 y) ↔ ∀ y ∈ rest, C a y :=
        forall₂_congr fun y hy => frame a x y fun h => hx (h ▸ hy)
      unfold LoopMeets
      rw [ih hrest, hlater, List.forall_mem_cons]
      simp only [quiet, forall_const]

/-- The body keeps the invariant where it meets `C`, so a loop all of whose elements meet it does. -/
theorem loop_of_loopMeets {C : α → β → Prop} {I : α → Prop}
    (kept : ∀ a x, I a → C a x → I (body a x).1) {a : α} {xs : List β} (initial : I a)
    (meet : LoopMeets body C a xs) : I (loop body a xs).1 := by
  induction xs generalizing a with
  | nil => exact initial
  | cons x rest ih =>
      have hnext := kept a x initial meet.1
      have hrest := meet.2
      unfold loop
      split
      · rename_i a' hbody
        rw [hbody] at hnext hrest
        exact ih hnext (hrest rfl)
      · rename_i a' e hbody
        rw [hbody] at hnext
        exact hnext

/-- What the body leaves at the first element that does not meet `C` lasts to the end of the loop. -/
theorem loop_of_not_loopMeets {C : α → β → Prop} {I J : α → Prop}
    (kept : ∀ a x, I a → C a x → I (body a x).1) (broken : ∀ a x, I a → ¬ C a x → J (body a x).1)
    (lasts : ∀ a x, J a → J (body a x).1) {a : α} {xs : List β} (initial : I a)
    (fails : ¬ LoopMeets body C a xs) : J (loop body a xs).1 := by
  induction xs generalizing a with
  | nil => exact absurd trivial fails
  | cons x rest ih =>
      by_cases hC : C a x
      · have hnext := kept a x initial hC
        have hlater : ¬ ((body a x).2 = none → LoopMeets body C (body a x).1 rest) :=
          fun hrest => fails ⟨hC, hrest⟩
        unfold loop
        split
        · rename_i a' hbody
          rw [hbody] at hnext hlater
          exact ih hnext fun hrest => hlater fun _ => hrest
        · rename_i a' e hbody
          rw [hbody] at hlater
          exact absurd (fun h => nomatch h) hlater
      · have hbroken := broken a x initial hC
        unfold loop
        split
        · rename_i a' hbody
          rw [hbody] at hbroken
          exact loop_invariant (fun b y _ => lasts b y) hbroken
        · rename_i a' e hbody
          rw [hbody] at hbroken
          exact hbroken

/-- A loop whose body acts on the row of its element alone: what the body does to a row it still finds
as the loop read it, the loop does to every row it reads. -/
theorem loop_rows {ρ κ : Type} {key : ρ → κ} (find : α → κ → Option ρ) {body : α → ρ → α × Option ε}
    {C : α → ρ → Prop} {P : ρ → ρ → Prop} {rows : List ρ} (refl : ∀ r, P r r)
    (frame : ∀ a r k, k ≠ key r → find (body a r).1 k = find a k)
    (one : ∀ a, ∀ r ∈ rows, find a (key r) = some r → C a r →
      ∃ r', find (body a r).1 (key r) = some r' ∧ P r r')
    (hnodup : (rows.map key).Nodup) {a : α} (hread : ∀ r ∈ rows, find a (key r) = some r)
    (meet : LoopMeets body C a rows) :
    (∀ r ∈ rows, ∃ r', find (loop body a rows).1 (key r) = some r' ∧ P r r') ∧
      ∀ k ∉ rows.map key, find (loop body a rows).1 k = find a k := by
  induction rows generalizing a with
  | nil => exact ⟨by simp, fun _ _ => rfl⟩
  | cons x rest ih =>
      obtain ⟨hx, hrest⟩ := List.nodup_cons.mp hnodup
      have hone := one a x List.mem_cons_self (hread x List.mem_cons_self) meet.1
      have hapart : ∀ r ∈ rest, key r ≠ key x := fun r hr hk => hx (hk ▸ List.mem_map_of_mem hr)
      have hlater : ∀ r ∈ rest, find (body a x).1 (key r) = some r := fun r hr =>
        (frame a x (key r) (hapart r hr)).trans (hread r (List.mem_cons_of_mem x hr))
      have hmeet := meet.2
      unfold loop
      split
      · rename_i a' hbody
        rw [hbody] at hone hlater hmeet
        obtain ⟨hread', hframe'⟩ := ih (fun b r hr => one b r (List.mem_cons_of_mem x hr)) hrest
          hlater (hmeet rfl)
        refine ⟨?_, ?_⟩
        · intro r hr
          cases hr with
          | head =>
              rw [hframe' (key x) hx]
              exact hone
          | tail _ hr => exact hread' r hr
        · intro k hk
          rw [List.map_cons, List.mem_cons, not_or] at hk
          rw [hframe' k hk.2, ← frame a x k hk.1, hbody]
      · rename_i a' e hbody
        rw [hbody] at hone hlater
        refine ⟨?_, ?_⟩
        · intro r hr
          cases hr with
          | head => exact hone
          | tail _ hr => exact ⟨r, hlater r hr, refl r⟩
        · intro k hk
          rw [List.map_cons, List.mem_cons, not_or] at hk
          rw [← frame a x k hk.1, hbody]

/-- Where the error depends on the element only, the loop ends well exactly when no element raises,
and then it is a plain fold. -/
theorem loop_eq_foldl {err : β → Option ε} (hbody : ∀ a x, (body a x).2 = err x) {xs : List β}
    (h : ∀ x ∈ xs, err x = none) (a : α) :
    loop body a xs = (xs.foldl (fun a x => (body a x).1) a, none) := by
  induction xs generalizing a with
  | nil => rfl
  | cons x rest ih =>
      have hx : body a x = ((body a x).1, none) := by
        rw [← h x (by simp), ← hbody a x]
      unfold loop
      rw [hx]
      exact ih (fun y hy => h y (by simp [hy])) _

theorem loop_raises {err : β → Option ε} (hbody : ∀ a x, (body a x).2 = err x) {xs : List β}
    {x : β} (hx : x ∈ xs) {e : ε} (he : err x = some e) (a : α) :
    ∃ e', (loop body a xs).2 = some e' := by
  induction xs generalizing a with
  | nil => cases hx
  | cons y rest ih =>
      unfold loop
      split
      · rename_i a' hnone
        have hy : err y = none := by rw [← hbody a y, hnone]
        cases hx with
        | head => rw [he] at hy; cases hy
        | tail _ hrest => exact ih hrest a'
      · rename_i a' e' hsome
        exact ⟨e', rfl⟩

end Loop

/-! ## Logs -/

section Entries

variable {ε : Type}

/-- Every entry of the log stands in `Q` to those before it. -/
def EachAfter (Q : List ε → ε → Prop) (log : List ε) : Prop :=
  ∀ pre e post, log = pre ++ e :: post → Q pre e

theorem eachAfter_nil (Q : List ε → ε → Prop) : EachAfter Q [] := by
  intro pre e post h
  simp at h

theorem EachAfter.append {Q : List ε → ε → Prop} {log : List ε} {e : ε} (h : EachAfter Q log)
    (new : Q log e) : EachAfter Q (log ++ [e]) := by
  intro pre x post hsplit
  cases post using List.reverseRecOn with
  | nil =>
      obtain ⟨rfl, hlast⟩ := List.append_inj' hsplit rfl
      obtain rfl : e = x := by simpa using hlast
      exact new
  | append_singleton init last =>
      have hlog : log = pre ++ x :: init := by
        have h : log ++ [e] = (pre ++ x :: init) ++ [last] := by simpa using hsplit
        exact (List.append_inj' h rfl).1
      exact h pre x init hlog

end Entries

/-! ## Repeats in a log

A log lists timed events, the oldest first; `mine` singles out the events of
interest. Inside a window that opens with the first of them, an event of
interest may repeat only after refused ones.
-/

section Log

variable {ε : Type} (mine refused : ε → Prop) [DecidablePred mine] (time : ε → Int)

def firstTime? (log : List ε) : Option Int := (log.find? fun e => decide (mine e)).map time

def RepeatsOnlyAfterRefusal (window : Int) (log : List ε) : Prop :=
  ∀ pre e post, log = pre ++ e :: post → mine e →
    (∀ t ∈ firstTime? mine time pre, time e < t + window) → ∀ d ∈ pre, mine d → refused d

variable {mine refused time}

theorem firstTime?_append (log later : List ε) :
    firstTime? mine time (log ++ later) = (firstTime? mine time log).or
      (firstTime? mine time later) := by
  unfold firstTime?
  rw [List.find?_append]
  cases log.find? fun e => decide (mine e) <;> simp

theorem firstTime?_isSome (mine : ε → Prop) [DecidablePred mine] {log : List ε} {d : ε}
    (hd : d ∈ log) (hm : mine d) :
    ∃ t, firstTime? mine time log = some t := by
  cases hf : log.find? fun e => decide (mine e) with
  | none => simpa [hm] using List.find?_eq_none.mp hf d hd
  | some e => exact ⟨time e, by simp [firstTime?, hf]⟩

theorem repeatsOnlyAfterRefusal_nil (window : Int) :
    RepeatsOnlyAfterRefusal mine refused time window [] :=
  eachAfter_nil _

/-- A log is extended safely when its new event may repeat the old ones. -/
theorem RepeatsOnlyAfterRefusal.append {window : Int} {log : List ε} {e : ε}
    (safe : RepeatsOnlyAfterRefusal mine refused time window log)
    (new : mine e → (∀ t ∈ firstTime? mine time log, time e < t + window) →
      ∀ d ∈ log, mine d → refused d) :
    RepeatsOnlyAfterRefusal mine refused time window (log ++ [e]) :=
  EachAfter.append safe new

end Log

end AutoTrade.Library
