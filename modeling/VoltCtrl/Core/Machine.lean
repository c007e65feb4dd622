/-
Module: VoltCtrl.Core.Machine
Layer: Core
Purpose: Runs of a deterministic machine given by its step function, for machines whose
  nondeterminism (a scheduler, an interrupt, a user) is the list of actions. A run is the fold of the
  step; `EachStep` says that a predicate of the state before a step and of its action holds at every
  step of a run, and serves both for what the environment promises and for what the machine delivers;
  a history variable is a value that is updated beside the machine and never read by it. The rules are
  the invariant rule, its version with a history variable, the rule that turns an invariant into a
  property of every step, the rule for a condition that is exact at each step, the last-value rule, the
  simulation rule and the ranking rule.
Trusted boundary: none
Main exports: run, EachStep, withHistory, history, eachStep_map, run_invariant,
  eachStep_of_invariant, eachStep_exact, last_given, run_simulates, reaches_of_rank,
  history_invariant
-/
import Mathlib.Data.List.Induction

namespace VoltCtrl.Core

variable {σ α γ : Type*}

/-- The state after the actions of a list, taken in order. -/
def run (step : σ → α → σ) (s : σ) (actions : List α) : σ :=
  actions.foldl step s

/-- `P` holds of the state before each step and of the action taken there. -/
def EachStep (step : σ → α → σ) (P : σ → α → Prop) : σ → List α → Prop
  | _, [] => True
  | s, a :: actions => P s a ∧ EachStep step P (step s a) actions

section Run

variable {step : σ → α → σ} {P Q : σ → α → Prop}

@[simp] theorem run_nil (s : σ) : run step s [] = s := rfl

@[simp] theorem run_cons (s : σ) (a : α) (actions : List α) :
    run step s (a :: actions) = run step (step s a) actions := rfl

theorem run_append (s : σ) (first second : List α) :
    run step s (first ++ second) = run step (run step s first) second :=
  List.foldl_append

theorem run_snoc (s : σ) (actions : List α) (a : α) :
    run step s (actions ++ [a]) = step (run step s actions) a := by
  rw [run_append, run_cons, run_nil]

@[simp] theorem eachStep_nil (s : σ) : EachStep step P s [] := trivial

@[simp] theorem eachStep_cons (s : σ) (a : α) (actions : List α) :
    EachStep step P s (a :: actions) ↔ P s a ∧ EachStep step P (step s a) actions := Iff.rfl

theorem eachStep_append (s : σ) (first second : List α) :
    EachStep step P s (first ++ second) ↔
      EachStep step P s first ∧ EachStep step P (run step s first) second := by
  induction first generalizing s with
  | nil => simp
  | cons a first ih => simp [ih, and_assoc]

/-- A run obeys `P` exactly when every step of it, met after the actions before it, does. -/
theorem eachStep_iff (s : σ) (actions : List α) :
    EachStep step P s actions ↔
      ∀ before a after, actions = before ++ a :: after → P (run step s before) a := by
  constructor
  · rintro h before a after rfl
    exact ((eachStep_append s before (a :: after)).1 h).2.1
  · intro h
    induction actions generalizing s with
    | nil => trivial
    | cons a actions ih =>
        refine ⟨h [] a actions rfl, ih (step s a) ?_⟩
        rintro before b after rfl
        exact h (a :: before) b after rfl

/-- What holds of every action of a list holds at every step of its run. -/
theorem eachStep_of_forall {P : α → Prop} {s : σ} {actions : List α} (all : ∀ a ∈ actions, P a) :
    EachStep step (fun _ a => P a) s actions := by
  induction actions generalizing s with
  | nil => trivial
  | cons a actions ih =>
      rcases List.forall_mem_cons.1 all with ⟨first, others⟩
      exact ⟨first, ih others⟩

instance decidableEachStep [decides : ∀ s a, Decidable (P s a)] :
    (s : σ) → (actions : List α) → Decidable (EachStep step P s actions)
  | _, [] => inferInstanceAs (Decidable True)
  | s, a :: actions =>
      have : Decidable (EachStep step P (step s a) actions) :=
        decidableEachStep (step s a) actions
      inferInstanceAs (Decidable (P s a ∧ EachStep step P (step s a) actions))

/-- What holds of one action in every state holds at every step of its repetition. -/
theorem eachStep_replicate {a : α} (always : ∀ s, P s a) (s : σ) (n : Nat) :
    EachStep step P s (List.replicate n a) := by
  induction n generalizing s with
  | zero => trivial
  | succ n ih => exact ⟨always s, ih (step s a)⟩

theorem EachStep.mono {s : σ} {actions : List α} (h : EachStep step P s actions)
    (weaker : ∀ s a, P s a → Q s a) : EachStep step Q s actions := by
  induction actions generalizing s with
  | nil => trivial
  | cons a actions ih => exact ⟨weaker s a h.1, ih h.2⟩

theorem EachStep.and {s : σ} {actions : List α} (left : EachStep step P s actions)
    (right : EachStep step Q s actions) :
    EachStep step (fun s a => P s a ∧ Q s a) s actions := by
  induction actions generalizing s with
  | nil => trivial
  | cons a actions ih => exact ⟨⟨left.1, right.1⟩, ih left.2 right.2⟩

/-- A projection that commutes with the steps carries properties of every step to such properties. -/
theorem eachStep_map {τ : Type*} {step' : τ → α → τ} {f : σ → τ} {P : τ → α → Prop}
    (commutes : ∀ s a, f (step s a) = step' (f s) a) (s : σ) (actions : List α) :
    EachStep step (fun s a => P (f s) a) s actions ↔ EachStep step' P (f s) actions := by
  induction actions generalizing s with
  | nil => rfl
  | cons a actions ih =>
      rw [eachStep_cons, eachStep_cons, ih, commutes]

/-- Invariant rule: what every promised step keeps holds after every promised run. -/
theorem run_invariant (Inv : σ → Prop)
    (keeps : ∀ s a, Inv s → P s a → Inv (step s a)) {s : σ} {actions : List α}
    (start : Inv s) (promised : EachStep step P s actions) :
    Inv (run step s actions) := by
  induction actions generalizing s with
  | nil => exact start
  | cons a actions ih => exact ih (keeps s a start promised.1) promised.2

/-- An invariant that gives `Q` at each promised step gives `Q` along every promised run. -/
theorem eachStep_of_invariant (Inv : σ → Prop)
    (keeps : ∀ s a, Inv s → P s a → Inv (step s a))
    (gives : ∀ s a, Inv s → P s a → Q s a) {s : σ} {actions : List α}
    (start : Inv s) (promised : EachStep step P s actions) :
    EachStep step Q s actions := by
  induction actions generalizing s with
  | nil => trivial
  | cons a actions ih =>
      exact ⟨gives s a start promised.1, ih (keeps s a start promised.1) promised.2⟩

/-- Exactness rule: if a promised step from a good state obeys `P` exactly when it keeps the invariant and
obeys `Q`, a run obeys `P` throughout exactly when every step of it keeps the invariant and obeys `Q`. -/
theorem eachStep_exact {R : σ → α → Prop} (Good Inv : σ → Prop)
    (good : ∀ s a, Good s → Good (step s a))
    (exact : ∀ s a, Good s → Inv s → R s a → (P s a ↔ Q s a ∧ Inv (step s a)))
    {s : σ} {actions : List α} (goodStart : Good s) (start : Inv s)
    (promised : EachStep step R s actions) :
    EachStep step P s actions ↔ EachStep step (fun s a => Q s a ∧ Inv (step s a)) s actions := by
  induction actions generalizing s with
  | nil => rfl
  | cons a actions ih =>
      have here := exact s a goodStart start promised.1
      constructor
      · rintro ⟨first, rest⟩
        have kept := here.1 first
        exact ⟨kept, (ih (good s a goodStart) kept.2 promised.2).1 rest⟩
      · rintro ⟨kept, rest⟩
        exact ⟨here.2 kept, (ih (good s a goodStart) kept.2 promised.2).2 rest⟩

/-- What no step of a run gives a value stays as it is. -/
theorem kept_of_not_given {β : Type*} {f : σ → β} {given : σ → α → Option β}
    (sets : ∀ s a, P s a → f (step s a) = (given s a).getD (f s)) {s : σ} {actions : List α}
    (promised : EachStep step P s actions)
    (never : EachStep step (fun s a => given s a = none) s actions) :
    f (run step s actions) = f s := by
  induction actions generalizing s with
  | nil => rfl
  | cons a actions ih =>
      rw [run_cons, ih promised.2 never.2, sets s a promised.1, never.1, Option.getD_none]

/-- Last-value rule: if each promised step gives `f` a value or leaves it alone, then after a promised run
`f` is untouched or has what the last step to give it a value gave it. -/
theorem last_given {β : Type*} {f : σ → β} {given : σ → α → Option β}
    (sets : ∀ s a, P s a → f (step s a) = (given s a).getD (f s)) {s : σ} {actions : List α}
    (promised : EachStep step P s actions) :
    EachStep step (fun s a => given s a = none) s actions ∨
      ∃ before a after value, actions = before ++ a :: after ∧
        given (run step s before) a = some value ∧
        EachStep step (fun s a => given s a = none) (run step s (before ++ [a])) after ∧
        f (run step s actions) = value := by
  induction actions generalizing s with
  | nil => exact Or.inl trivial
  | cons a actions ih =>
      rcases ih promised.2 with never | ⟨before, b, after, value, rfl, later⟩
      · cases here : given s a with
        | none => exact Or.inl ⟨here, never⟩
        | some value =>
            refine Or.inr ⟨[], a, actions, value, rfl, here, never, ?_⟩
            rw [run_cons, kept_of_not_given sets promised.2 never, sets s a promised.1, here,
              Option.getD_some]
      · exact Or.inr ⟨a :: before, b, after, value, rfl, later⟩

/-- Simulation rule: if every promised step from the invariant is a step of another machine on what `f`
keeps of the state, so is every promised run. -/
theorem run_simulates {τ β : Type*} {step' : τ → β → τ} (f : σ → τ) (g : α → β) (Inv : σ → Prop)
    (keeps : ∀ s a, Inv s → P s a → Inv (step s a))
    (commutes : ∀ s a, Inv s → P s a → f (step s a) = step' (f s) (g a)) {s : σ} {actions : List α}
    (start : Inv s) (promised : EachStep step P s actions) :
    f (run step s actions) = run step' (f s) (actions.map g) := by
  induction actions generalizing s with
  | nil => rfl
  | cons a actions ih =>
      rw [run_cons, ih (keeps s a start promised.1) promised.2, commutes s a start promised.1,
        List.map_cons, run_cons]

/-- Ranking rule: if `a` lowers the rank of every state short of the goal, the goal is reached within as
many times `a` as the rank. -/
theorem reaches_of_rank {Inv Goal : σ → Prop} (rank : σ → Nat) {a : α}
    (lowers : ∀ s, Inv s → Goal s ∨ (Inv (step s a) ∧ rank (step s a) < rank s)) {s : σ}
    (start : Inv s) {n : Nat} (enough : rank s ≤ n) :
    ∃ m ≤ n, Inv (run step s (List.replicate m a)) ∧ Goal (run step s (List.replicate m a)) := by
  induction n generalizing s with
  | zero =>
      rcases lowers s start with reached | ⟨-, lower⟩
      · exact ⟨0, Nat.le_refl 0, start, reached⟩
      · exact absurd (Nat.lt_of_lt_of_le lower enough) (Nat.not_lt_zero _)
  | succ n ih =>
      rcases lowers s start with reached | ⟨kept, lower⟩
      · exact ⟨0, Nat.zero_le _, start, reached⟩
      · obtain ⟨m, most, reached⟩ := ih kept (Nat.le_of_lt_succ (Nat.lt_of_lt_of_le lower enough))
        exact ⟨m + 1, Nat.succ_le_succ most, reached⟩

end Run

/-! ### History variables

A history variable is carried beside the state. The machine never reads it, so the first component of
an instrumented run is the run itself. -/

section History

variable (step : σ → α → σ) (update : γ → σ → α → γ)

/-- The machine instrumented with a history variable. -/
def withHistory (s : σ × γ) (a : α) : σ × γ :=
  (step s.1 a, update s.2 s.1 a)

/-- The value of a history variable after a run that starts with it at `g`. -/
def history (g : γ) (s : σ) (actions : List α) : γ :=
  (run (withHistory step update) (s, g) actions).2

variable {step update}

@[simp] theorem history_nil (g : γ) (s : σ) : history step update g s [] = g := rfl

@[simp] theorem history_cons (g : γ) (s : σ) (a : α) (actions : List α) :
    history step update g s (a :: actions) =
      history step update (update g s a) (step s a) actions := rfl

theorem run_withHistory (g : γ) (s : σ) (actions : List α) :
    run (withHistory step update) (s, g) actions =
      (run step s actions, history step update g s actions) := by
  induction actions generalizing s g with
  | nil => rfl
  | cons a actions ih => exact ih (update g s a) (step s a)

theorem history_append (g : γ) (s : σ) (first second : List α) :
    history step update g s (first ++ second) =
      history step update (history step update g s first) (run step s first) second := by
  induction first generalizing s g with
  | nil => rfl
  | cons a first ih => exact ih (update g s a) (step s a)

theorem history_snoc (g : γ) (s : σ) (actions : List α) (a : α) :
    history step update g s (actions ++ [a]) =
      update (history step update g s actions) (run step s actions) a := by
  rw [history_append, history_cons, history_nil]

/-- Steps of the machine and steps of its instrumented copy obey the same predicates. -/
theorem eachStep_withHistory {P : σ → α → Prop} (g : γ) (s : σ) (actions : List α) :
    EachStep (withHistory step update) (fun s a => P s.1 a) (s, g) actions ↔
      EachStep step P s actions :=
  eachStep_map (fun _ _ => rfl) (s, g) actions

/-- Invariant rule for a state and a history variable together. -/
theorem history_invariant {P : σ → α → Prop} (Inv : σ → γ → Prop)
    (keeps : ∀ s g a, Inv s g → P s a → Inv (step s a) (update g s a))
    {s : σ} {g : γ} {actions : List α} (start : Inv s g) (promised : EachStep step P s actions) :
    Inv (run step s actions) (history step update g s actions) := by
  induction actions generalizing s g with
  | nil => exact start
  | cons a actions ih => exact ih (keeps s g a start promised.1) promised.2

end History

end VoltCtrl.Core
