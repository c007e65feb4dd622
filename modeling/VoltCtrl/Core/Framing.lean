/-
Module: VoltCtrl.Core.Framing
Layer: Core
Purpose: Streams cut into frames by a header: the first symbol of a frame says how many symbols follow
  it. A reader that starts at the front of a stream of whole frames recovers exactly these frames.
Trusted boundary: none
Main exports: WellFramed, splitFrames, splitFrames_append, splitFrames_flatten
-/
import Mathlib.Data.List.Basic

namespace VoltCtrl.Core

variable {α : Type*} (size : α → Nat)

/-- A header and as many symbols as it announces. -/
def WellFramed (frame : List α) : Prop :=
  ∃ header body, frame = header :: body ∧ body.length = size header

/-- The complete frames at the front of a stream, and the symbols left over. -/
def splitFrames : List α → List (List α) × List α
  | [] => ([], [])
  | header :: rest =>
      if size header ≤ rest.length then
        let tail := splitFrames (rest.drop (size header))
        ((header :: rest.take (size header)) :: tail.1, tail.2)
      else ([], header :: rest)
termination_by stream => stream.length
decreasing_by
  rw [List.length_drop, List.length_cons]
  exact Nat.lt_succ_of_le (Nat.sub_le _ _)

variable {size}

/-- A whole frame at the front is the first frame read. -/
theorem splitFrames_append {frame : List α} (whole : WellFramed size frame) (rest : List α) :
    splitFrames size (frame ++ rest) =
      (frame :: (splitFrames size rest).1, (splitFrames size rest).2) := by
  rcases whole with ⟨header, body, rfl, length⟩
  have announced : size header ≤ (body ++ rest).length := by
    rw [← length, List.length_append]
    exact Nat.le_add_right _ _
  rw [List.cons_append, splitFrames, if_pos announced, ← length, List.drop_left, List.take_left]

/-- Reading the concatenation of whole frames gives the frames back, and nothing is left over. -/
theorem splitFrames_flatten {frames : List (List α)}
    (whole : ∀ frame ∈ frames, WellFramed size frame) :
    splitFrames size frames.flatten = (frames, []) := by
  induction frames with
  | nil => rw [List.flatten_nil, splitFrames]
  | cons frame frames ih =>
      rcases List.forall_mem_cons.1 whole with ⟨first, others⟩
      rw [List.flatten_cons, splitFrames_append first, ih others]

end VoltCtrl.Core
