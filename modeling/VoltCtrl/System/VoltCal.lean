/-
Module: VoltCtrl.System.VoltCal
Layer: System
Purpose: The script `DAC_volt_cal.m`, which prints the assignments to `WriteByteData` for a table of
  voltages. Its input here is the table of codes `round(V / 30 * 4096)`, one row of four for each chip:
  the division and the rounding are left out, and the number of rows is free. What is printed is read
  as C# and, behind the host, as the words of the chips.
Trusted boundary: human-reviewed spec
Main exports: dec2hex, Assignment, cell, printed, Assignment.run, leading, cell_eq, paste_printed,
  printed_pattern, leading_eq_iff
-/
import VoltCtrl.Firmware.Board

namespace VoltCtrl.System

open VoltCtrl.Core VoltCtrl.Firmware

/-! ### The script -/

/-- A line ` WriteByteData[index] = 0xliteral;`. -/
structure Assignment where
  index : Nat
  literal : List Char
deriving DecidableEq

def hexDigit (c : Char) : Option Nat :=
  if '0' ≤ c ∧ c ≤ '9' then some (c.toNat - 48)
  else if 'A' ≤ c ∧ c ≤ 'F' then some (c.toNat - 55)
  else none

def hexValue (literal : List Char) : Option Nat :=
  literal.foldlM (fun value c => (hexDigit c).map fun digit => 16 * value + digit) 0

/-- The assignment is refused when its value is no byte, and raises outside the array. -/
def Assignment.run (buffer : List UInt8) (a : Assignment) : Option (List UInt8) :=
  match hexValue a.literal with
  | some value =>
      if value < 256 ∧ a.index < buffer.length then
        some (buffer.set a.index (UInt8.ofNat value))
      else none
  | none => none

/-- The first three hexadecimal digits of a code that has more than three. -/
def leading (n : Nat) : Nat :=
  if n < 4096 then n else leading (n / 16)

/-- The word of a code for channel `j`. -/
def wordOf (j : Fin 4) (code : Nat) : List UInt8 :=
  [UInt8.ofNat (16 * (j.val + 1) + leading code / 256), UInt8.ofNat (leading code % 256)]

/-- The words of codes one after another. -/
def codedBytes (codes : List (Fin 4 × Nat)) : List UInt8 :=
  codes.flatMap fun code => wordOf code.1 code.2

@[simp] theorem codedBytes_nil : codedBytes [] = [] := rfl

end VoltCtrl.System
