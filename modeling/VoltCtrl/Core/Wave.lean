/-
Module: VoltCtrl.Core.Wave
Layer: Core
Purpose: The levels of a serial line, one for each clock cycle of its receiver. A wave is a list of
  levels, each held for a number of cycles of its own. A character is ten levels: the start bit, eight
  data bits with the least significant first, and the stop bit, which also covers the idle time up to
  the next start bit. The sender's clock is not the receiver's: the ten durations are free between two
  bounds.
Trusted boundary: none
Main exports: wave, charLevel, TimedChar, TimedChar.steady, TimedChar.paused, TimedChar.levels,
  TimedChar.lasting, TimedChar.HeldWithin, lineOf, TimedChar.levels_getElem?
-/
import Mathlib.Data.List.Flatten
import Mathlib.Order.Monotone.Basic

namespace VoltCtrl.Core

/-- Each level is held for its number of cycles. -/
def wave (segments : List (Bool × Nat)) : List Bool :=
  segments.flatMap fun segment => List.replicate segment.2 segment.1

@[simp] theorem wave_nil : wave [] = [] := rfl

@[simp] theorem wave_cons (segment : Bool × Nat) (segments : List (Bool × Nat)) :
    wave (segment :: segments) = List.replicate segment.2 segment.1 ++ wave segments := rfl

theorem wave_append (first second : List (Bool × Nat)) :
    wave (first ++ second) = wave first ++ wave second :=
  List.flatMap_append

/-! ### Characters -/

/-- Level `i` of a character, from the start bit 0 to the stop bit 9. -/
def charLevel (value : BitVec 8) : Nat → Bool
  | 0 => false
  | i + 1 => if i < 8 then value.getLsbD i else true

/-- A character on a line; level `i` is held for `held i` cycles. -/
structure TimedChar where
  value : BitVec 8
  held : Fin 10 → Nat

/-- A character of a sender whose clock does not drift. -/
def TimedChar.steady (cycles : Nat) (value : BitVec 8) : TimedChar where
  value := value
  held _ := cycles

/-- A character of such a sender that pauses after it. -/
def TimedChar.paused (cycles pause : Nat) (value : BitVec 8) : TimedChar where
  value := value
  held i := if i.val = 9 then cycles + pause else cycles

/-- A character that takes `whole` cycles, of which the start bit and the data bits take `cycles` each. -/
def TimedChar.lasting (cycles whole : Nat) (value : BitVec 8) : TimedChar where
  value := value
  held i := if i.val = 9 then whole - 9 * cycles else cycles

/-- The cycles for which level `i` is held, by number. -/
def TimedChar.cycles (c : TimedChar) (i : Nat) : Nat :=
  if inside : i < 10 then c.held ⟨i, inside⟩ else 0

/-- The first `n` levels of a character. -/
def TimedChar.levels (c : TimedChar) (n : Nat) : List Bool :=
  wave ((List.range n).map fun i => (charLevel c.value i, c.cycles i))

/-- The cycles that the first `n` levels of a character take. -/
def TimedChar.elapsed (c : TimedChar) : Nat → Nat
  | 0 => 0
  | n + 1 => c.elapsed n + c.cycles n

/-- The characters one after another. -/
def lineOf (chars : List TimedChar) : List Bool :=
  chars.flatMap fun c => c.levels 10

/-- Every level is held for at least `low` cycles, and all but the stop bit for at most `high`. -/
structure TimedChar.HeldWithin (low high : Nat) (c : TimedChar) : Prop where
  least (i : Fin 10) : low ≤ c.held i
  most (i : Fin 10) (data : i.val < 9) : c.held i ≤ high

theorem TimedChar.steady_heldWithin {low high cycles : Nat} (slow : low ≤ cycles)
    (fast : cycles ≤ high) (value : BitVec 8) : (steady cycles value).HeldWithin low high where
  least _ := slow
  most _ _ := fast

@[simp] theorem charLevel_start (value : BitVec 8) : charLevel value 0 = false := rfl

@[simp] theorem charLevel_stop (value : BitVec 8) : charLevel value 9 = true := rfl

theorem charLevel_data (value : BitVec 8) {i : Nat} (inside : i < 8) :
    charLevel value (i + 1) = value.getLsbD i := by
  simp [charLevel, inside]

@[simp] theorem lineOf_nil : lineOf [] = [] := rfl

@[simp] theorem lineOf_cons (c : TimedChar) (chars : List TimedChar) :
    lineOf (c :: chars) = c.levels 10 ++ lineOf chars := rfl

section Levels

variable (c : TimedChar)

@[simp] theorem TimedChar.levels_zero : c.levels 0 = [] := rfl

@[simp] theorem TimedChar.elapsed_zero : c.elapsed 0 = 0 := rfl

theorem TimedChar.levels_succ (n : Nat) :
    c.levels (n + 1) = c.levels n ++ List.replicate (c.cycles n) (charLevel c.value n) := by
  simp [levels, List.range_succ, wave_append]

theorem TimedChar.elapsed_succ (n : Nat) : c.elapsed (n + 1) = c.elapsed n + c.cycles n := rfl

theorem TimedChar.levels_length (n : Nat) : (c.levels n).length = c.elapsed n := by
  induction n with
  | zero => rfl
  | succ n ih => rw [levels_succ, List.length_append, ih, List.length_replicate, elapsed_succ]

theorem TimedChar.elapsed_mono : Monotone c.elapsed :=
  monotone_nat_of_le_succ fun n => by
    rw [elapsed_succ]
    exact Nat.le_add_right _ _

variable {c} {low high : Nat}

theorem TimedChar.HeldWithin.least_cycles (within : c.HeldWithin low high) {i : Nat}
    (inside : i < 10) : low ≤ c.cycles i := by
  rw [TimedChar.cycles, dif_pos inside]
  exact within.least ⟨i, inside⟩

theorem TimedChar.HeldWithin.most_cycles (within : c.HeldWithin low high) {i : Nat}
    (data : i < 9) : c.cycles i ≤ high := by
  rw [TimedChar.cycles, dif_pos (by omega)]
  exact within.most ⟨i, by omega⟩ data

/-- A cycle inside the time of level `i` shows level `i`. -/
theorem TimedChar.levels_getElem? {n i t : Nat} (inside : i < n) (after : c.elapsed i ≤ t)
    (before : t < c.elapsed (i + 1)) : (c.levels n)[t]? = some (charLevel c.value i) := by
  induction n with
  | zero => exact absurd inside (Nat.not_lt_zero i)
  | succ n ih =>
      rw [levels_succ]
      rcases Nat.lt_succ_iff_lt_or_eq.1 inside with earlier | rfl
      · have short : t < (c.levels n).length := by
          rw [levels_length]
          exact Nat.lt_of_lt_of_le before (c.elapsed_mono earlier)
        rw [List.getElem?_append_left short]
        exact ih earlier
      · have long : (c.levels i).length ≤ t := by
          rw [levels_length]
          exact after
        rw [elapsed_succ] at before
        rw [List.getElem?_append_right long, levels_length, List.getElem?_replicate,
          if_pos (by omega)]

/-- A pause is the stop bit held on. -/
theorem TimedChar.paused_levels (cycles pause : Nat) (value : BitVec 8) :
    (paused cycles pause value).levels 10 =
      (steady cycles value).levels 10 ++ List.replicate pause true := by
  have same (n : Nat) (data : n ≤ 9) :
      (paused cycles pause value).levels n = (steady cycles value).levels n := by
    induction n with
    | zero => rfl
    | succ n ih =>
        rw [levels_succ, levels_succ, ih (by omega)]
        simp [TimedChar.cycles, paused, steady, show n ≠ 9 by omega]
  have stop : (paused cycles pause value).cycles 9 = cycles + pause := rfl
  have plain : (steady cycles value).cycles 9 = cycles := rfl
  rw [levels_succ _ 9, levels_succ _ 9, same 9 le_rfl, stop, plain, List.append_assoc,
    charLevel_stop, charLevel_stop, List.replicate_append_replicate]

theorem TimedChar.lasting_elapsed (cycles whole : Nat) (value : BitVec 8) {n : Nat} (data : n ≤ 9) :
    (lasting cycles whole value).elapsed n = n * cycles := by
  induction n with
  | zero => rw [elapsed_zero, Nat.zero_mul]
  | succ n ih =>
      have held : (lasting cycles whole value).cycles n = cycles := by
        simp [TimedChar.cycles, lasting, show n < 10 by omega, show n ≠ 9 by omega]
      rw [elapsed_succ, ih (by omega), held, Nat.succ_mul]

theorem TimedChar.lasting_whole {cycles whole : Nat} (value : BitVec 8) (room : 9 * cycles ≤ whole) :
    (lasting cycles whole value).elapsed 10 = whole := by
  have stop : (lasting cycles whole value).cycles 9 = whole - 9 * cycles := rfl
  rw [elapsed_succ, lasting_elapsed cycles whole value le_rfl, stop, Nat.add_sub_cancel' room]

theorem charLevel_idle (value : BitVec 8) {i : Nat} (late : 9 ≤ i) : charLevel value i = true := by
  cases i with
  | zero => exact absurd late (Nat.not_le.2 (Nat.succ_pos 8))
  | succ i => simp [charLevel, show ¬ i < 8 by omega]

theorem TimedChar.lasting_getElem? {cycles whole : Nat} (value : BitVec 8) (positive : 0 < cycles)
    (room : 9 * cycles ≤ whole) {t : Nat} (inside : t < whole) :
    ((lasting cycles whole value).levels 10)[t]? = some (charLevel value (t / cycles)) := by
  have split := Nat.mod_add_div t cycles
  rw [Nat.mul_comm] at split
  have remainder := Nat.mod_lt t positive
  rcases Nat.lt_or_ge t (9 * cycles) with data | idle
  · have early : t / cycles < 9 := (Nat.div_lt_iff_lt_mul positive).2 data
    refine levels_getElem? (by omega) ?_ ?_
    · rw [lasting_elapsed cycles whole value (by omega)]
      omega
    · rw [lasting_elapsed cycles whole value (by omega), Nat.succ_mul]
      omega
  · have late : 9 ≤ t / cycles := (Nat.le_div_iff_mul_le positive).2 idle
    rw [charLevel_idle value late, ← charLevel_stop value]
    refine levels_getElem? (by omega) ?_ ?_
    · rw [lasting_elapsed cycles whole value le_rfl]
      exact idle
    · rw [lasting_whole value room]
      exact inside

end Levels

end VoltCtrl.Core
