/-
Module: VoltCtrl.Firmware.Program
Layer: Firmware
Purpose: The firmware `spi.c` as two parties over shared globals: `main`, cut at its single loads and
  stores, and the UART interrupt handler, which runs to its end between two of them (interrupts do not
  nest). The program point `Pc` names the next access of `main`; a value already loaded is carried in
  the program point. `fault` is the point after an array read outside its bounds, which the C program
  leaves undefined. `usleep` and the SPI status polling change no modelled state and are left out.
Trusted boundary: human-reviewed spec
Main exports: Fw, Pc, Loop, LoopPc, irqUartInterrupts, mainStep, Action, step, powerOn, Fw.pattern
-/
import Mathlib.Data.List.OfFn

namespace VoltCtrl.Firmware

/-- `OE_MSK_1` to `OE_MSK_25`: one chip select low, the other 24 high. -/
def oeMsk : List UInt32 :=
  [0x01FFFFFE, 0x01FFFFFD, 0x01FFFFFB, 0x01FFFFF7, 0x01FFFFEF,
   0x01FFFFDF, 0x01FFFFBF, 0x01FFFF7F, 0x01FFFEFF, 0x01FFFDFF,
   0x01FFFBFF, 0x01FFF7FF, 0x01FFEFFF, 0x01FFDFFF, 0x01FFBFFF,
   0x01FF7FFF, 0x01FEFFFF, 0x01FDFFFF, 0x01FBFFFF, 0x01F7FFFF,
   0x01EFFFFF, 0x01DFFFFF, 0x01BFFFFF, 0x017FFFFF, 0x00FFFFFF]

def oeAllEnable : UInt32 := 0x00000000

/-- The three loops of `main` that walk the select table: power-up (`i`, `oe_cnt`), the latched
pattern (`j`, `oe_cnt1`) and the all-zero command (`k`, `oe_cnt2`). -/
inductive Loop where
  | powerUp
  | pattern
  | zero
deriving DecidableEq, Repr

/-- The next statement inside one iteration. An SPI command of two bytes reads its second byte from
the buffer after the first has been shifted out, so it is two steps; `command` counts the commands of
the iteration. -/
inductive LoopPc where
  | ldacHigh
  | select
  | count
  | sendHigh (command : Nat)
  | sendLow (command : Nat) (high : UInt8)
deriving DecidableEq, Repr

/-- The next shared access of `main`. -/
inductive Pc where
  | loop (l : Loop) (offset : Nat) (stage : LoopPc)
  | enableAll (l : Loop)
  | ldacLow (l : Loop)
  /-- `PIO_LED = 1` after power-up, `oe_cnt1 = 0` and `oe_cnt2 = 0` after the refresh loops. -/
  | finish (l : Loop)
  /-- `while (IsSettingInfo);` -/
  | waitInfo
  /-- `while (UartReceiveCnt < Datalength);`, its two loads. -/
  | outerCnt
  | outerLen (cnt : UInt8)
  /-- `IsSettingInfo = 1;` -/
  | setInfo
  /-- `spi_command_string_tx[18 + i] = rxdata[i];` in `WriteFileData`, load and store. -/
  | copyLoad (i : Fin 136)
  | copyStore (i : Fin 136) (value : UInt8)
  /-- `UartReceiveCnt = 0;` -/
  | resetCnt
  /-- `if (UartReceiveCnt >= Datalength) break;`, its two loads. -/
  | innerCnt
  | innerLen (cnt : UInt8)
  | fault
deriving DecidableEq, Repr

/-- The globals of `spi.c`, the three output ports and the program point of `main`. Only 0 and 1 are
ever stored in `IsSettingInfo`. -/
structure Fw where
  pc : Pc
  uartReceiveCnt : UInt8
  isSettingInfo : Bool
  datalength : UInt8
  rxdata : Vector UInt8 200
  spiCommandStringTx : Vector UInt8 200
  oeCnt : Int
  oeCnt1 : Int
  oeCnt2 : Int
  pioLdacN : Bool
  pioOe : UInt32
  pioLed : Bool
deriving DecidableEq

/-- The counter that a loop pairs with its byte offset. -/
def Fw.oeCount (s : Fw) : Loop → Int
  | .powerUp => s.oeCnt
  | .pattern => s.oeCnt1
  | .zero => s.oeCnt2

def Fw.setOeCount (s : Fw) (l : Loop) (value : Int) : Fw :=
  match l with
  | .powerUp => { s with oeCnt := value }
  | .pattern => { s with oeCnt1 := value }
  | .zero => { s with oeCnt2 := value }

/-! ### The interrupt handler -/

/-- `rxdata[UartReceiveCnt] = rx`. The index is a byte and is not checked. In the linked image
`spi_command_string_tx` follows `rxdata` directly, so an index from 200 on falls into it. -/
def Fw.storeRx (s : Fw) (rx : UInt8) : Fw :=
  if _h : s.uartReceiveCnt.toNat < 200 then
    { s with rxdata := s.rxdata.set s.uartReceiveCnt.toNat rx }
  else
    { s with
      spiCommandStringTx :=
        s.spiCommandStringTx.set (s.uartReceiveCnt.toNat - 200) rx
          (by have := s.uartReceiveCnt.toNat_lt; omega) }

/-- `IRQ_UART_Interrupts`, called with the byte in the receive register. -/
def irqUartInterrupts (rx : UInt8) (s : Fw) : Fw :=
  let s :=
    if !s.isSettingInfo then
      { s.storeRx rx with uartReceiveCnt := s.uartReceiveCnt + 1 }
    else s
  if s.isSettingInfo then
    { s with datalength := rx, isSettingInfo := false }
  else s

/-! ### `main` -/

/-- The index expression `(i - 6 * oe_cnt) / 2 - 1` of the three loops; C division truncates. -/
def selectIndex (offset : Nat) (cnt : Int) : Int :=
  ((offset : Int) - 6 * cnt).tdiv 2 - 1

/-- `oe_msk[index]`, when the index is inside the table. -/
def oeMskAt (index : Int) : Option UInt32 :=
  if 0 ≤ index then oeMsk[index.toNat]? else none

/-- SPI commands sent in one iteration. -/
def Loop.commands : Loop → Nat
  | .powerUp => 1
  | .pattern => 4
  | .zero => 1

/-- Where in `spi_command_string_tx` a command of an iteration starts. -/
def Loop.address (offset command : Nat) : Loop → Nat
  | .powerUp => 0
  | .pattern => offset + 2 * command
  | .zero => 2

/-- `i = i + 8` and the test `i < 149`. -/
def nextIteration (l : Loop) (offset : Nat) : Pc :=
  if offset + 8 < 149 then .loop l (offset + 8) .ldacHigh else .enableAll l

/-- The power-up loop increments its counter before it sends, the others after. -/
def afterSelect (l : Loop) (offset : Nat) : Pc :=
  match l with
  | .powerUp => .loop l offset .count
  | .pattern | .zero => .loop l offset (.sendHigh 0)

def afterCount (l : Loop) (offset : Nat) : Pc :=
  match l with
  | .powerUp => .loop l offset (.sendHigh 0)
  | .pattern | .zero => nextIteration l offset

def afterCommand (l : Loop) (offset command : Nat) : Pc :=
  if command + 1 < l.commands then .loop l offset (.sendHigh (command + 1))
  else
    match l with
    | .powerUp => nextIteration l offset
    | .pattern | .zero => .loop l offset .count

/-- One statement of a loop iteration. -/
def loopStep (l : Loop) (offset : Nat) (stage : LoopPc) (s : Fw) : Fw :=
  match stage with
  | .ldacHigh => { s with pioLdacN := true, pc := .loop l offset .select }
  | .select =>
      match oeMskAt (selectIndex offset (s.oeCount l)) with
      | some mask => { s with pioOe := mask, pc := afterSelect l offset }
      | none => { s with pc := .fault }
  | .count => { s.setOeCount l (s.oeCount l + 1) with pc := afterCount l offset }
  | .sendHigh command =>
      match s.spiCommandStringTx[l.address offset command]? with
      | some high => { s with pc := .loop l offset (.sendLow command high) }
      | none => { s with pc := .fault }
  | .sendLow command _ =>
      match s.spiCommandStringTx[l.address offset command + 1]? with
      | some _ => { s with pc := afterCommand l offset command }
      | none => { s with pc := .fault }

/-- What follows a loop once every chip is enabled and `LDAC_N` is low. -/
def finishStep (l : Loop) (s : Fw) : Fw :=
  match l with
  | .powerUp => { s with pioLed := true, pc := .waitInfo }
  | .pattern => { s with oeCnt1 := 0, pc := .loop .zero 18 .ldacHigh }
  | .zero => { s with oeCnt2 := 0, pc := .innerCnt }

/-- The next statement of `WriteFileData` after the store of entry `i`. -/
def afterCopy (i : Fin 136) : Pc :=
  if next : i.val + 1 < 136 then .copyLoad ⟨i.val + 1, next⟩ else .resetCnt

/-- One load or store of `main`. -/
def mainStep (s : Fw) : Fw :=
  match s.pc with
  | .loop l offset stage => loopStep l offset stage s
  | .enableAll l => { s with pioOe := oeAllEnable, pc := .ldacLow l }
  | .ldacLow l => { s with pioLdacN := false, pc := .finish l }
  | .finish l => finishStep l s
  | .waitInfo => { s with pc := if s.isSettingInfo then .waitInfo else .outerCnt }
  | .outerCnt => { s with pc := .outerLen s.uartReceiveCnt }
  | .outerLen cnt => { s with pc := if cnt < s.datalength then .outerCnt else .setInfo }
  | .setInfo => { s with isSettingInfo := true, pc := .copyLoad 0 }
  | .copyLoad i => { s with pc := .copyStore i (s.rxdata.get ⟨i.val, by omega⟩) }
  | .copyStore i value =>
      { s with
        spiCommandStringTx := s.spiCommandStringTx.set (18 + i.val) value (by omega)
        pc := afterCopy i }
  | .resetCnt => { s with uartReceiveCnt := 0, pc := .innerCnt }
  | .innerCnt => { s with pc := .innerLen s.uartReceiveCnt }
  | .innerLen cnt =>
      { s with pc := if cnt ≥ s.datalength then .outerCnt else .loop .pattern 18 .ldacHigh }
  | .fault => s

/-! ### The interleaving -/

/-- What happens next: `main` takes its next access, or a byte arrives and the handler runs. -/
inductive Action where
  | main
  | uart (rx : UInt8)
deriving DecidableEq, Repr

def step (s : Fw) : Action → Fw
  | .main => mainStep s
  | .uart rx => irqUartInterrupts rx s

/-- The stores of `main` before it enables the interrupt: the power-up word `70 3C`, the all-zero word
`50 00` and two unused zeros. -/
def commandInit : Vector UInt8 200 :=
  ((((((Vector.replicate 200 0).set 0 0x70).set 1 0x3C).set 2 0x50).set 3 0x00).set 4 0x00).set 5 0x00

/-- The state when `IRQ_init` returns, from the static initialisers and the reset values of the
ports. -/
def powerOn : Fw where
  pc := .loop .powerUp 18 .ldacHigh
  uartReceiveCnt := 0
  isSettingInfo := true
  datalength := 0
  rxdata := Vector.replicate 200 0
  spiCommandStringTx := commandInit
  oeCnt := 0
  oeCnt1 := 0
  oeCnt2 := 0
  pioLdacN := false
  pioOe := 0xFFFFFFFF
  pioLed := false

/-- The driven pattern: `spi_command_string_tx[18..153]`. -/
def Fw.pattern (s : Fw) : List UInt8 :=
  List.ofFn fun i : Fin 136 => s.spiCommandStringTx.get ⟨18 + i.val, by omega⟩

/-- A step completes `WriteFileData` when it stores its last entry. -/
def latches (s : Fw) : Action → Bool
  | .main =>
      match s.pc with
      | .copyStore i _ => i.val == 135
      | _ => false
  | .uart _ => false

end VoltCtrl.Firmware
