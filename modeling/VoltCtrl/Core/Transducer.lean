/-
Module: VoltCtrl.Core.Transducer
Layer: Core
Purpose: Machines that show an output in every cycle. A machine works as a delay line when what it has
  shown, followed by what it still owes for the inputs taken so far, is what it owed before, followed by
  the answer to these inputs. Such runs follow one another; a machine that answers each item of a
  list in this way answers the whole list, and a machine behind another one answers its answers.
Trusted boundary: none
Main exports: outputs, outputs_append, run_take_succ, stretch, stretch_append, stretch_congr,
  eq_stretch, outputs_eq_stretch, Answers, Answers.trans, Answers.flush, answers_flatMap, cascade, outputs_cascade
-/
import VoltCtrl.Core.Machine
import Mathlib.Data.List.Range

namespace VoltCtrl.Core

variable {σ τ α β γ ι : Type*}

/-- The outputs of a machine, one for each cycle, as they stand before its step. -/
def outputs (step : σ → α → σ) (out : σ → β) : σ → List α → List β
  | _, [] => []
  | s, a :: inputs => out s :: outputs step out (step s a) inputs

section Outputs

variable {step : σ → α → σ} {out : σ → β}

@[simp] theorem outputs_nil (s : σ) : outputs step out s [] = [] := rfl

@[simp] theorem outputs_cons (s : σ) (a : α) (inputs : List α) :
    outputs step out s (a :: inputs) = out s :: outputs step out (step s a) inputs := rfl

theorem outputs_append (s : σ) (first second : List α) :
    outputs step out s (first ++ second) =
      outputs step out s first ++ outputs step out (run step s first) second := by
  induction first generalizing s with
  | nil => rfl
  | cons a first ih =>
      rw [List.cons_append, outputs_cons, outputs_cons, ih, run_cons, List.cons_append]

@[simp] theorem outputs_length (s : σ) (inputs : List α) :
    (outputs step out s inputs).length = inputs.length := by
  induction inputs generalizing s with
  | nil => rfl
  | cons a inputs ih => rw [outputs_cons, List.length_cons, ih, List.length_cons]

theorem run_take_succ (s : σ) {inputs : List α} {n : Nat} {a : α} (input : inputs[n]? = some a) :
    run step s (inputs.take (n + 1)) = step (run step s (inputs.take n)) a := by
  rw [List.take_add_one, input, Option.toList_some, run_snoc]

/-- The output of cycle `n` belongs to the state after the first `n` inputs. -/
theorem outputs_getElem? (s : σ) (inputs : List α) {n : Nat} (inside : n < inputs.length) :
    (outputs step out s inputs)[n]? = some (out (run step s (inputs.take n))) := by
  induction inputs generalizing s n with
  | nil => exact absurd inside (Nat.not_lt_zero n)
  | cons a inputs ih =>
      cases n with
      | zero => rfl
      | succ n =>
          rw [outputs_cons, List.getElem?_cons_succ, List.take_succ_cons, run_cons]
          exact ih (step s a) (Nat.lt_of_succ_lt_succ inside)

end Outputs

/-! ### Stretches of a function of the time -/

/-- The values of `f` at `n` times from `start` on. -/
def stretch (f : Nat → β) (start n : Nat) : List β :=
  (List.range' start n).map f

section Stretch

variable {f g : Nat → β}

@[simp] theorem stretch_length (start n : Nat) : (stretch f start n).length = n := by
  simp [stretch]

theorem stretch_append (start m n : Nat) :
    stretch f start m ++ stretch f (start + m) n = stretch f start (m + n) := by
  rw [stretch, stretch, stretch, ← List.map_append, List.range'_append_1]

theorem stretch_congr {start other n : Nat} (same : ∀ k < n, f (start + k) = g (other + k)) :
    stretch f start n = stretch g other n := by
  rw [stretch, stretch, List.range'_eq_map_range, List.range'_eq_map_range, List.map_map, List.map_map]
  exact List.map_congr_left fun k member => same k (List.mem_range.1 member)

theorem stretch_const {start n : Nat} {b : β} (same : ∀ k < n, f (start + k) = b) :
    stretch f start n = List.replicate n b := by
  have flat : stretch f start n = stretch (fun _ => b) 0 n := stretch_congr same
  rw [flat, stretch, List.map_const', List.length_range']

theorem stretch_getElem? {start n k : Nat} (inside : k < n) :
    (stretch f start n)[k]? = some (f (start + k)) := by
  simp [stretch, inside]

/-- A list is a stretch of the function that gives its entries. -/
theorem eq_stretch {l : List β} {start n : Nat} (length : l.length = n)
    (entry : ∀ k < n, l[k]? = some (f (start + k))) : l = stretch f start n := by
  refine List.ext_getElem? fun k => ?_
  rcases Nat.lt_or_ge k n with inside | outside
  · rw [entry k inside, stretch_getElem? inside]
  · rw [List.getElem?_eq_none (by omega), List.getElem?_eq_none (by simpa using outside)]

theorem outputs_eq_stretch {step : σ → α → σ} {out : σ → β} {s : σ} {inputs : List α} {start : Nat}
    (follows : ∀ n, n < inputs.length → out (run step s (inputs.take n)) = f (start + n)) :
    outputs step out s inputs = stretch f start inputs.length :=
  eq_stretch (outputs_length s inputs) fun n inside => by
    rw [outputs_getElem? s inputs inside, follows n inside]

end Stretch

/-! ### Delay lines -/

/-- From `s`, where `owed` is outstanding, the machine answers the inputs, and `rest` is outstanding
afterwards. -/
def Answers (step : σ → α → σ) (out : σ → β) (s : σ) (owed : List β) (inputs : List α)
    (answer rest : List β) : Prop :=
  outputs step out s inputs ++ rest = owed ++ answer

section Answers

variable {step : σ → α → σ} {out : σ → β}

theorem answers_nil (s : σ) (owed : List β) : Answers step out s owed [] [] owed :=
  (List.append_nil owed).symm

theorem Answers.trans {s : σ} {owed middle rest answer next : List β} {first second : List α}
    (left : Answers step out s owed first answer middle)
    (right : Answers step out (run step s first) middle second next rest) :
    Answers step out s owed (first ++ second) (answer ++ next) rest := by
  calc outputs step out s (first ++ second) ++ rest
      = outputs step out s first ++ (outputs step out (run step s first) second ++ rest) := by
        rw [outputs_append, List.append_assoc]
    _ = outputs step out s first ++ middle ++ next := by rw [right, List.append_assoc]
    _ = owed ++ (answer ++ next) := by rw [left, List.append_assoc]

/-- What is outstanding after the inputs may be left out with as much of the answer. -/
theorem Answers.flush {s : σ} {owed rest answer last : List β} {inputs : List α}
    (answers : Answers step out s owed inputs (answer ++ last) rest)
    (same : rest.length = last.length) : outputs step out s inputs = owed ++ answer := by
  rw [Answers, ← List.append_assoc] at answers
  exact (List.append_inj' answers same).1

/-- A machine that answers each promised item of a list, whatever it owes, answers the list. -/
theorem answers_flatMap (Owes : σ → List β → Prop) (Promised : ι → Prop) (feed : ι → List α)
    (answer : ι → List β)
    (each : ∀ s owed i, Owes s owed → Promised i →
      ∃ rest, Owes (run step s (feed i)) rest ∧ Answers step out s owed (feed i) (answer i) rest)
    {s : σ} {owed : List β} {items : List ι} (start : Owes s owed)
    (promised : ∀ i ∈ items, Promised i) :
    ∃ rest, Owes (run step s (items.flatMap feed)) rest ∧
      Answers step out s owed (items.flatMap feed) (items.flatMap answer) rest := by
  induction items generalizing s owed with
  | nil => exact ⟨owed, start, answers_nil s owed⟩
  | cons i items ih =>
      obtain ⟨here, others⟩ := List.forall_mem_cons.1 promised
      obtain ⟨middle, kept, first⟩ := each s owed i start here
      obtain ⟨rest, owes, second⟩ := ih kept others
      refine ⟨rest, ?_, first.trans second⟩
      rw [List.flatMap_cons, run_append]
      exact owes

end Answers

/-! ### Machines in a row -/

/-- The second machine reads the output of the first in every cycle. -/
def cascade (step : σ → α → σ) (out : σ → β) (next : τ → β → τ) (p : σ × τ) (a : α) : σ × τ :=
  (step p.1 a, next p.2 (out p.1))

section Cascade

variable {step : σ → α → σ} {out : σ → β} {next : τ → β → τ} {last : τ → γ}

theorem outputs_cascade (s : σ) (t : τ) (inputs : List α) :
    outputs (cascade step out next) (fun p => last p.2) (s, t) inputs =
      outputs next last t (outputs step out s inputs) := by
  induction inputs generalizing s t with
  | nil => rfl
  | cons a inputs ih =>
      rw [outputs_cons, outputs_cons, outputs_cons, cascade, ih]

end Cascade

end VoltCtrl.Core
