/-
Module: VoltCtrl.Core.Overlay
Layer: Core
Purpose: A buffer that is written from its start by one list after another and never cleared. Writing a
  list overwrites a prefix of the buffer and leaves the rest, so a read of the first `n` entries gives
  the last list alone when that list has at least `n` entries, and a mixture otherwise.
Trusted boundary: none
Main exports: overlay, overlays, window, windows, window_overlay, windows_append
-/
import Mathlib.Data.List.Induction

namespace VoltCtrl.Core

variable {α : Type*}

/-- Write the list `xs` over the first entries of `buffer`. -/
def overlay (buffer : Nat → α) (xs : List α) (i : Nat) : α :=
  xs[i]?.getD (buffer i)

/-- Write the lists one after another. -/
def overlays (buffer : Nat → α) (layers : List (List α)) : Nat → α :=
  layers.foldl overlay buffer

/-- Read the first `n` entries. -/
def window (n : Nat) (buffer : Nat → α) : List α :=
  (List.range n).map buffer

/-- What is read after each of the lists has been written. -/
def windows (n : Nat) : (Nat → α) → List (List α) → List (List α)
  | _, [] => []
  | buffer, xs :: layers => window n (overlay buffer xs) :: windows n (overlay buffer xs) layers

theorem overlay_of_lt {buffer : Nat → α} {xs : List α} {i : Nat} (inside : i < xs.length) :
    overlay buffer xs i = xs[i] := by
  simp [overlay, inside]

theorem overlay_of_le {buffer : Nat → α} {xs : List α} {i : Nat} (outside : xs.length ≤ i) :
    overlay buffer xs i = buffer i := by
  simp [overlay, outside]

@[simp] theorem overlays_snoc (buffer : Nat → α) (layers : List (List α)) (xs : List α) :
    overlays buffer (layers ++ [xs]) = overlay (overlays buffer layers) xs := by
  simp [overlays]

@[simp] theorem window_length (n : Nat) (buffer : Nat → α) : (window n buffer).length = n := by
  simp [window]

theorem window_getElem? (buffer : Nat → α) {n i : Nat} (inside : i < n) :
    (window n buffer)[i]? = some (buffer i) := by
  simp [window, inside]

/-- A list that fills the window is all that is read. -/
theorem window_overlay {n : Nat} {buffer : Nat → α} {xs : List α} (fills : n ≤ xs.length) :
    window n (overlay buffer xs) = xs.take n := by
  apply List.ext_getElem
  · simp [fills]
  · intro i left right
    have inside : i < xs.length := by
      simp only [window_length] at left
      omega
    simp [window, overlay_of_lt inside]

@[simp] theorem windows_length (n : Nat) (buffer : Nat → α) (layers : List (List α)) :
    (windows n buffer layers).length = layers.length := by
  induction layers generalizing buffer with
  | nil => rfl
  | cons xs layers ih => simp [windows, ih]

theorem windows_append (n : Nat) (buffer : Nat → α) (first second : List (List α)) :
    windows n buffer (first ++ second) =
      windows n buffer first ++ windows n (overlays buffer first) second := by
  induction first generalizing buffer with
  | nil => rfl
  | cons xs first ih => simp [windows, overlays, ih]

/-- The last window is the buffer after all the lists. -/
theorem windows_snoc (n : Nat) (buffer : Nat → α) (layers : List (List α)) (xs : List α) :
    windows n buffer (layers ++ [xs]) =
      windows n buffer layers ++ [window n (overlays buffer (layers ++ [xs]))] := by
  rw [windows_append, overlays_snoc]
  rfl

/-- When every list fills the window, the windows are the lists themselves, cut to the window. -/
theorem windows_of_fills (n : Nat) (buffer : Nat → α) (layers : List (List α))
    (fills : ∀ xs ∈ layers, n ≤ xs.length) :
    windows n buffer layers = layers.map (List.take n) := by
  induction layers generalizing buffer with
  | nil => rfl
  | cons xs layers ih =>
      have first := fills xs List.mem_cons_self
      have rest := ih (overlay buffer xs) fun ys member => fills ys (List.mem_cons_of_mem xs member)
      rw [windows, window_overlay first, rest, List.map_cons]

end VoltCtrl.Core
