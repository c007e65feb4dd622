/-
Module: VoltCtrl.Firmware.Board
Layer: Firmware
Purpose: The board that the firmware drives: 25 AD5504 chips behind one SPI master, as the comment in
  `main` describes their words. A word reaches the chips whose bit in `PIO_OE` is 0; its top nibble
  says which input registers it sets; the outputs follow the input registers while `LDAC_N` is 0.
Trusted boundary: human-reviewed spec
Main exports: Chip, Board, Board.step, sentWord, selected, patternValue, WellFormedPattern,
  selected_iff
-/
import VoltCtrl.Core.Machine
import VoltCtrl.Firmware.Access
import Mathlib.Logic.Function.Basic

namespace VoltCtrl.Firmware

open VoltCtrl.Core

/-- An AD5504: the input registers and the outputs of its channels A to D. -/
structure Chip where
  input : Fin 4 → Nat
  output : Fin 4 → Nat

/-- The low 12 bits of a 16-bit word sent high byte first. -/
def wordValue (high low : UInt8) : Nat :=
  (high.toNat * 256 + low.toNat) % 4096

/-- Top nibble 1 to 4 sets one input register and 5 sets all four; a control word (7) sets none. -/
def Chip.receive (high low : UInt8) (chip : Chip) : Chip :=
  if channel : 1 ≤ high.toNat / 16 ∧ high.toNat / 16 ≤ 4 then
    { chip with
      input := Function.update chip.input ⟨high.toNat / 16 - 1, by omega⟩ (wordValue high low) }
  else if high.toNat / 16 = 5 then
    { chip with input := fun _ => wordValue high low }
  else chip

def Chip.load (chip : Chip) : Chip :=
  { chip with output := chip.input }

structure Board where
  fw : Fw
  chips : Fin 25 → Chip

/-- The word whose second byte a step shifts out. -/
def sentWord (s : Fw) : Action → Option (UInt8 × UInt8)
  | .main =>
      match s.pc with
      | .loop l offset (.sendLow command high) =>
          match s.spiCommandStringTx[l.address offset command + 1]? with
          | some low => some (high, low)
          | none => none
      | _ => none
  | .uart _ => none

/-- The chip's bit in `PIO_OE` is 0. -/
def selected (oe : UInt32) (d : Fin 25) : Bool :=
  !oe.toNat.testBit d

/-- A chip after the word of a step, if there is one and the chip is selected. -/
def Board.received (b : Board) (a : Action) (d : Fin 25) : Chip :=
  match sentWord b.fw a with
  | some (high, low) =>
      if selected b.fw.pioOe d then (b.chips d).receive high low else b.chips d
  | none => b.chips d

def Board.step (b : Board) (a : Action) : Board where
  fw := Firmware.step b.fw a
  chips d :=
    if (Firmware.step b.fw a).pioLdacN then b.received a d else (b.received a d).load

/-- Chip 9 + `k`, the one of iteration `k`. -/
def chipOf (k : Fin 17) : Fin 25 :=
  ⟨8 + k.val, by omega⟩

/-- The 12-bit value that a pattern has for channel `c` of chip 9 + `k`. -/
def patternValue (pattern : List UInt8) (k : Fin 17) (c : Fin 4) : Nat :=
  wordValue (pattern[8 * k.val + 2 * c.val]?.getD 0) (pattern[8 * k.val + 2 * c.val + 1]?.getD 0)

/-- Word `c` of each group of 8 bytes sets input register `c`. -/
def WellFormedPattern (pattern : List UInt8) : Prop :=
  ∀ (k : Fin 17) (c : Fin 4), ∃ high,
    pattern[8 * k.val + 2 * c.val]? = some high ∧ high.toNat / 16 = c.val + 1

/-! ### Chips -/

theorem receive_channel {high low : UInt8} {c : Fin 4} (chip : Chip)
    (nibble : high.toNat / 16 = c.val + 1) :
    (chip.receive high low).input = Function.update chip.input c (wordValue high low) := by
  have channel : 1 ≤ high.toNat / 16 ∧ high.toNat / 16 ≤ 4 := by omega
  have same : (⟨high.toNat / 16 - 1, by omega⟩ : Fin 4) = c := Fin.ext (by simp [nibble])
  rw [Chip.receive, dif_pos channel, same]

theorem receive_all {high low : UInt8} (chip : Chip) (nibble : high.toNat / 16 = 5) :
    (chip.receive high low).input = fun _ => wordValue high low := by
  have noChannel : ¬ (1 ≤ high.toNat / 16 ∧ high.toNat / 16 ≤ 4) := by omega
  rw [Chip.receive, dif_neg noChannel, if_pos nibble]

/-- Entry `n` of the table selects chip `n` and no other. -/
theorem selected_table : ∀ n d : Fin 25, selected (oeMsk.get n) d = decide (d = n) := by
  decide

theorem selected_iff {n : Nat} {mask : UInt32} (entry : oeMsk[n]? = some mask) (d : Fin 25) :
    selected mask d = true ↔ d.val = n := by
  obtain ⟨inside, value⟩ := List.getElem?_eq_some_iff.1 entry
  have table : selected oeMsk[n] d = decide (d = ⟨n, inside⟩) := selected_table ⟨n, inside⟩ d
  rw [value] at table
  rw [table, decide_eq_true_iff, Fin.ext_iff]

/-! ### Steps of the board -/

@[simp] theorem step_fw (b : Board) (a : Action) : (b.step a).fw = step b.fw a := rfl

theorem step_input (b : Board) (a : Action) (d : Fin 25) :
    ((b.step a).chips d).input = (b.received a d).input := by
  simp only [Board.step]
  split <;> rfl

/-- A step that sends no word leaves the input registers alone. -/
theorem step_input_of_silent {b : Board} {a : Action} (silent : sentWord b.fw a = none)
    (d : Fin 25) : ((b.step a).chips d).input = (b.chips d).input := by
  rw [step_input, Board.received, silent]

/-- When `LDAC_N` falls without a word, the outputs are the input registers. -/
theorem step_output_of_low {b : Board} {a : Action} (silent : sentWord b.fw a = none)
    (low : (step b.fw a).pioLdacN = false) (d : Fin 25) :
    ((b.step a).chips d).output = (b.chips d).input := by
  simp only [Board.step, low, Board.received, silent]
  rfl

/-- A word reaches the selected chip and no other. -/
theorem step_input_of_sent {b : Board} {a : Action} {high low : UInt8} {n : Nat}
    (sent : sentWord b.fw a = some (high, low)) (entry : oeMsk[n]? = some b.fw.pioOe)
    (d : Fin 25) :
    ((b.step a).chips d).input =
      if d.val = n then ((b.chips d).receive high low).input else (b.chips d).input := by
  rw [step_input, Board.received, sent]
  by_cases here : d.val = n
  · simp only [(selected_iff entry d).2 here, here, if_true]
  · have off : selected b.fw.pioOe d = false := by
      rw [← Bool.not_eq_true, selected_iff entry d]
      exact here
    simp only [off, here, if_false]
    rfl

theorem sentWord_of_not_sendLow {s : Fw}
    (other : ∀ l offset command high, s.pc ≠ .loop l offset (.sendLow command high)) :
    sentWord s .main = none := by
  cases pc : s.pc with
  | loop l offset stage =>
      cases stage with
      | sendLow command high => exact absurd pc (other l offset command high)
      | _ => simp only [sentWord, pc]
  | _ => simp only [sentWord, pc]

/-- A word ends with the byte behind the one that has been sent. -/
theorem sentWord_sendLow {s : Fw} {l : Loop} {offset command : Nat} {high low : UInt8}
    (pc : s.pc = .loop l offset (.sendLow command high))
    (byte : s.spiCommandStringTx[l.address offset command + 1]? = some low) :
    sentWord s .main = some (high, low) := by
  simp only [sentWord, pc, byte]

end VoltCtrl.Firmware
