/-
Module: VoltCtrl.Core.Exceptional
Layer: Core
Purpose: Programs that may raise an exception and keep the state they have reached when they do, as
  statements of an imperative language with `try` and `catch`. A program is an `EStateM`; `attempt` runs
  it under a `catch` that cannot raise, so that the whole is a plain function on states. `Within` is the
  frame rule: every exit of a program, normal or not, is related to its entry.
Trusted boundary: none
Main exports: exec, returns, attempt, onField, Within, Keeps, Within.bind, Within.attempt, attempt_eq,
  exec_onField, rel_foldl
-/
import Mathlib.Order.Defs.Unbundled

namespace VoltCtrl.Core

universe u

variable {ε σ τ α β : Type u}

/-- The state in which a program ends, by returning or by raising. -/
def exec (x : EStateM ε σ α) (s : σ) : σ :=
  match x s with
  | .ok _ t => t
  | .error _ t => t

def returns (x : EStateM ε σ α) (s : σ) : Bool :=
  match x s with
  | .ok _ _ => true
  | .error _ _ => false

/-- `try { x } catch { handler }`. -/
def attempt (x : EStateM ε σ α) (handler : σ → σ) (s : σ) : σ :=
  match x s with
  | .ok _ t => t
  | .error _ t => handler t

/-- A program on a part of a larger state. -/
def onField (get : τ → σ) (set : τ → σ → τ) (x : EStateM ε σ α) : EStateM ε τ α := fun t =>
  match x (get t) with
  | .ok a s => .ok a (set t s)
  | .error e s => .error e (set t s)

/-- Every exit of the program is related to its entry. -/
def Within (R : σ → σ → Prop) (x : EStateM ε σ α) : Prop :=
  ∀ s, R s (exec x s)

/-- A view of the state is the same at the exit as at the entry. -/
def Keeps {γ : Type*} (view : σ → γ) (s t : σ) : Prop :=
  view t = view s

instance {γ : Type*} (view : σ → γ) : Std.Refl (Keeps view) where
  refl _ := rfl

instance {γ : Type*} (view : σ → γ) : IsTrans σ (Keeps view) where
  trans _ _ _ first second := Eq.trans second first

/-! ### Symbolic execution -/

section Execution

variable {x : EStateM ε σ α} {f : α → EStateM ε σ β} {s t : σ}

theorem bind_of_ok {a : α} (first : x s = .ok a t) : (x >>= f) s = f a t := by
  simp only [bind, EStateM.bind, first]

theorem bind_of_error {e : ε} (first : x s = .error e t) : (x >>= f) s = .error e t := by
  simp only [bind, EStateM.bind, first]

theorem exec_of_ok {a : α} (result : x s = .ok a t) : exec x s = t := by
  simp only [exec, result]

theorem exec_of_error {e : ε} (result : x s = .error e t) : exec x s = t := by
  simp only [exec, result]

/-- A `catch` runs exactly when the program raises, in the state reached. -/
theorem attempt_eq (x : EStateM ε σ α) (handler : σ → σ) (s : σ) :
    attempt x handler s = if returns x s then exec x s else handler (exec x s) := by
  cases result : x s with
  | ok a t => simp [attempt, exec, returns, result]
  | error e t => simp [attempt, exec, returns, result]

theorem exec_bind (x : EStateM ε σ α) (f : α → EStateM ε σ β) (s : σ) :
    exec (x >>= f) s =
      match x s with
      | .ok a t => exec (f a) t
      | .error _ t => t := by
  cases result : x s with
  | ok a t => simp only [exec, bind_of_ok result]
  | error e t => simp only [exec, bind_of_error result]

/-- A program on a part moves the part and nothing else. -/
theorem exec_onField (get : τ → σ) (set : τ → σ → τ) (x : EStateM ε σ α) (t : τ) :
    exec (onField get set x) t = set t (exec x (get t)) := by
  cases result : x (get t) with
  | ok a s => simp only [exec, onField, result]
  | error e s => simp only [exec, onField, result]

end Execution

/-! ### Frame rules -/

section Frames

variable {R : σ → σ → Prop}

theorem Within.pure [Std.Refl R] (a : α) : Within R (pure a : EStateM ε σ α) :=
  fun s => refl_of R s

theorem Within.throw [Std.Refl R] (e : ε) : Within R (throw e : EStateM ε σ α) :=
  fun s => refl_of R s

theorem Within.bind [IsTrans σ R] {x : EStateM ε σ α} {f : α → EStateM ε σ β}
    (first : Within R x) (rest : ∀ a, Within R (f a)) : Within R (x >>= f) := by
  intro s
  have before := first s
  rw [exec_bind]
  cases result : x s with
  | ok a t =>
      rw [exec_of_ok result] at before
      exact trans_of R before (rest a t)
  | error e t =>
      rw [exec_of_error result] at before
      exact before

theorem Within.modify {f : σ → σ} (change : ∀ s, R s (f s)) :
    Within R (modify f : EStateM ε σ PUnit) :=
  change

theorem Within.attempt [IsTrans σ R] {x : EStateM ε σ α} {handler : σ → σ} (body : Within R x)
    (caught : ∀ s, R s (handler s)) (s : σ) : R s (attempt x handler s) := by
  rw [attempt_eq]
  split
  · exact body s
  · exact trans_of R (body s) (caught _)

/-- A loop whose rounds stay in a relation stays in it. -/
theorem rel_foldl {ι : Type*} [Std.Refl R] [IsTrans σ R] {round : σ → ι → σ}
    (stays : ∀ s i, R s (round s i)) (indices : List ι) (s : σ) : R s (indices.foldl round s) := by
  induction indices generalizing s with
  | nil => exact refl_of R s
  | cons i rest ih => exact trans_of R (stays s i) (ih (round s i))

theorem Within.mono {S : σ → σ → Prop} {x : EStateM ε σ α} (within : Within R x)
    (weaker : ∀ s t, R s t → S s t) : Within S x :=
  fun s => weaker s _ (within s)

end Frames

end VoltCtrl.Core
