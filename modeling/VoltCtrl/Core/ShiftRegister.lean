/-
Module: VoltCtrl.Core.ShiftRegister
Layer: Core
Purpose: A shift register of any width that takes a bit in at its least significant end. What has been
  shifted in stands in the register most recent first; what has not been shifted out yet comes out of
  the top, most significant bit first; a register's width of bits replaces its contents.
Trusted boundary: none
Main exports: shiftIn, msbFirst, msbFirst_append, getLsbD_shiftIn, msb_shiftIn, shiftIn_full,
  shiftIn_msbFirst
-/
import Mathlib.Data.List.Induction
import Mathlib.Data.List.OfFn

namespace VoltCtrl.Core

variable {w : Nat}

/-- The register after the bits of a list, taken in order. -/
def shiftIn (x : BitVec w) (bits : List Bool) : BitVec w :=
  bits.foldl BitVec.shiftConcat x

/-- The bits of a register in the order in which they are shifted out. -/
def msbFirst (x : BitVec w) : List Bool :=
  List.ofFn fun i : Fin w => x.getMsbD i

@[simp] theorem shiftIn_nil (x : BitVec w) : shiftIn x [] = x := rfl

theorem shiftIn_snoc (x : BitVec w) (bits : List Bool) (bit : Bool) :
    shiftIn x (bits ++ [bit]) = (shiftIn x bits).shiftConcat bit := by
  simp [shiftIn]

@[simp] theorem msbFirst_length (x : BitVec w) : (msbFirst x).length = w := by
  simp [msbFirst]

theorem msbFirst_getElem? (x : BitVec w) {i : Nat} (inside : i < w) :
    (msbFirst x)[i]? = some (x.getMsbD i) := by
  simp [msbFirst, inside]

/-- The bits of a wide register are those of its upper part and then those of its lower part. -/
theorem msbFirst_append {v : Nat} (x : BitVec v) (y : BitVec w) :
    msbFirst (x ++ y) = msbFirst x ++ msbFirst y := by
  apply List.ext_getElem?
  intro i
  rcases Nat.lt_or_ge i v with upper | lower
  · rw [List.getElem?_append_left (by rwa [msbFirst_length]), msbFirst_getElem? _ (by omega),
      msbFirst_getElem? _ upper, BitVec.getMsbD_append, if_neg (by omega)]
  · rw [List.getElem?_append_right (by rwa [msbFirst_length]), msbFirst_length]
    rcases Nat.lt_or_ge i (v + w) with inside | outside
    · rw [msbFirst_getElem? _ inside, msbFirst_getElem? _ (by omega), BitVec.getMsbD_append,
        if_pos lower]
    · rw [List.getElem?_eq_none (by rwa [msbFirst_length]),
        List.getElem?_eq_none (by rw [msbFirst_length]; omega)]

/-- The bits that have come in are at the bottom, the last one first. -/
theorem getLsbD_shiftIn (x : BitVec w) (bits : List Bool) {i : Nat} (inside : i < w) :
    (shiftIn x bits).getLsbD i = (bits.reverse[i]?).getD (x.getLsbD (i - bits.length)) := by
  induction bits using List.reverseRecOn generalizing i with
  | nil => simp
  | append_singleton bits bit ih =>
      rw [shiftIn_snoc, BitVec.getLsbD_shiftConcat, decide_eq_true inside, Bool.true_and,
        List.reverse_append, List.reverse_singleton, List.length_append, List.length_singleton]
      cases i with
      | zero => rfl
      | succ i =>
          rw [if_neg (Nat.succ_ne_zero i), Nat.add_sub_cancel, ih (by omega), List.singleton_append,
            List.getElem?_cons_succ, Nat.add_sub_add_right]

/-- The bit at the top is the next one that has not been shifted out. -/
theorem msb_shiftIn (x : BitVec w) {bits : List Bool} (short : bits.length < w) :
    (shiftIn x bits).msb = x.getMsbD bits.length := by
  rw [BitVec.msb_eq_getLsbD_last, getLsbD_shiftIn x bits (by omega),
    List.getElem?_eq_none (by rw [List.length_reverse]; omega), Option.getD_none, BitVec.getMsbD,
    decide_eq_true short, Bool.true_and]

/-- A register's width of bits leaves nothing of what was in it. -/
theorem shiftIn_full (x y : BitVec w) {bits : List Bool} (full : w ≤ bits.length) :
    shiftIn x bits = shiftIn y bits := by
  apply BitVec.eq_of_getLsbD_eq
  intro i inside
  have taken : i < bits.reverse.length := by
    rw [List.length_reverse]
    omega
  rw [getLsbD_shiftIn x bits inside, getLsbD_shiftIn y bits inside,
    List.getElem?_eq_getElem taken]
  rfl

/-- What is shifted out of one register is in the other one. -/
theorem shiftIn_msbFirst (x y : BitVec w) : shiftIn y (msbFirst x) = x := by
  apply BitVec.eq_of_getLsbD_eq
  intro i inside
  rw [getLsbD_shiftIn y _ inside, List.getElem?_reverse (by simpa using inside), msbFirst_length,
    msbFirst_getElem? x (by omega), Option.getD_some, BitVec.getMsbD, decide_eq_true (by omega),
    Bool.true_and]
  congr 1
  omega

end VoltCtrl.Core
