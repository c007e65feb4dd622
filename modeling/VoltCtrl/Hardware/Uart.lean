/-
Module: VoltCtrl.Hardware.Uart
Layer: Hardware
Purpose: The UART core `nios_uart` of the device, clock cycle by clock cycle: the receiver
  `nios_uart_rx`, the transmitter `nios_uart_tx` and the register file `nios_uart_regs` behind the bus.
  A register holds its value during a cycle and takes the next one at the end of it. The synthesised
  branches are modelled: `source_rxd = rxd`, and 868 is the divisor after reset; `clk_en` is tied to 1.
  The input of the receiver is `sync_rxd`, the output of the synchroniser.
Trusted boundary: human-reviewed spec
Main exports: RxLine, RxLine.step, UartRx, UartTx, UartRegs, UartBus, NiosUart, NiosUart.step,
  NiosUart.reset
-/
import VoltCtrl.Core.Machine

namespace VoltCtrl.Hardware

/-! ### `nios_uart_rx` -/

/-- The registers between `sync_rxd` and `rx_data`. The source delays `sync_rxd` twice, once for
`rxd_falling` and once for `rxd_edge`. -/
structure RxLine where
  delayedSyncRxd1 : Bool
  delayedSyncRxd2 : Bool
  baudRateCounter : Nat
  baudClkEn : Bool
  doStartRx : Bool
  rxdShiftReg : BitVec 10
  delayedRxInProcess : Bool
  rxData : BitVec 8
deriving DecidableEq

namespace RxLine

/-- `shift_reg_start_bit_n`: the start bit has not reached the end of the shift register. -/
def rxInProcess (s : RxLine) : Bool := s.rxdShiftReg.getLsbD 0

def rxdFalling (syncRxd : Bool) (s : RxLine) : Bool := !syncRxd && s.delayedSyncRxd1

def rxdEdge (syncRxd : Bool) (s : RxLine) : Bool := syncRxd ^^ s.delayedSyncRxd2

def sampleEnable (s : RxLine) : Bool := s.baudClkEn && s.rxInProcess

def gotNewChar (s : RxLine) : Bool := !s.rxInProcess && s.delayedRxInProcess

def rawDataIn (s : RxLine) : BitVec 8 := s.rxdShiftReg.extractLsb' 1 8

def stopBit (s : RxLine) : Bool := s.rxdShiftReg.getLsbD 9

def isBreak (s : RxLine) : Bool := s.rxdShiftReg == 0

def isFramingError (s : RxLine) : Bool := !s.stopBit && !s.isBreak

def step (baudDivisor : Nat) (s : RxLine) (syncRxd : Bool) : RxLine where
  delayedSyncRxd1 := syncRxd
  delayedSyncRxd2 := syncRxd
  baudRateCounter :=
    if s.baudRateCounter = 0 ∨ s.rxdEdge syncRxd then
      if s.rxdEdge syncRxd then baudDivisor / 2 else baudDivisor
    else s.baudRateCounter - 1
  baudClkEn := !s.rxdEdge syncRxd && s.baudRateCounter == 0
  doStartRx := !s.rxInProcess && s.rxdFalling syncRxd
  rxdShiftReg :=
    if s.doStartRx then BitVec.allOnes 10
    else if s.sampleEnable then BitVec.cons syncRxd (s.rxdShiftReg.extractLsb' 1 9)
    else s.rxdShiftReg
  delayedRxInProcess := s.rxInProcess
  rxData := if s.gotNewChar then s.rawDataIn else s.rxData

def reset : RxLine where
  delayedSyncRxd1 := false
  delayedSyncRxd2 := false
  baudRateCounter := 0
  baudClkEn := false
  doStartRx := false
  rxdShiftReg := 0
  delayedRxInProcess := false
  rxData := 0

section Shift

variable {divisor : Nat} {level : Bool} {s : RxLine}

theorem shift_start (start : s.doStartRx = true) :
    (s.step divisor level).rxdShiftReg = BitVec.allOnes 10 :=
  if_pos start

theorem shift_keep (start : s.doStartRx = false) (off : s.sampleEnable = false) :
    (s.step divisor level).rxdShiftReg = s.rxdShiftReg := by
  simp [step, start, off]

/-- A sample comes in at the top. -/
theorem shift_sample (start : s.doStartRx = false) (on : s.sampleEnable = true) (j : Nat) :
    (s.step divisor level).rxdShiftReg.getLsbD j =
      if j = 9 then level else s.rxdShiftReg.getLsbD (1 + j) && decide (j < 9) := by
  simp only [step, start, on, Bool.false_eq_true, if_false, if_true, BitVec.getLsbD_cons,
    BitVec.getLsbD_extractLsb']
  split
  · rfl
  · rw [Bool.and_comm]

end Shift

end RxLine

/-- The receiver; `parity_error` is tied to 0. -/
structure UartRx where
  line : RxLine
  framingError : Bool
  breakDetect : Bool
  rxOverrun : Bool
  rxCharReady : Bool
deriving DecidableEq

def UartRx.step (baudDivisor : Nat) (syncRxd rxRdStrobeOnset statusWrStrobe : Bool) (s : UartRx) :
    UartRx where
  line := s.line.step baudDivisor syncRxd
  framingError :=
    if statusWrStrobe then false
    else if s.line.gotNewChar && s.line.isFramingError then true else s.framingError
  breakDetect :=
    if statusWrStrobe then false
    else if s.line.gotNewChar && s.line.isBreak then true else s.breakDetect
  rxOverrun :=
    if statusWrStrobe then false
    else if s.line.gotNewChar && s.rxCharReady then true else s.rxOverrun
  rxCharReady :=
    if rxRdStrobeOnset then false else if s.line.gotNewChar then true else s.rxCharReady

def UartRx.reset : UartRx where
  line := RxLine.reset
  framingError := false
  breakDetect := false
  rxOverrun := false
  rxCharReady := false

/-! ### `nios_uart_tx` -/

structure UartTx where
  doLoadShifter : Bool
  txReady : Bool
  txOverrun : Bool
  txShiftEmpty : Bool
  baudRateCounter : Nat
  baudClkEn : Bool
  preTxd : Bool
  txd : Bool
  txShiftRegisterContents : BitVec 10
deriving DecidableEq

namespace UartTx

def shiftDone (s : UartTx) : Bool := s.txShiftRegisterContents == 0

def doShift (s : UartTx) : Bool := s.baudClkEn && !s.shiftDone && !s.doLoadShifter

/-- `tx_load_val`: the stop bit, the character and the start bit. -/
def txLoadVal (txData : BitVec 8) : BitVec 10 :=
  BitVec.cons true (BitVec.concat txData false)

def step (baudDivisor : Nat) (doForceBreak statusWrStrobe txWrStrobeOnset : Bool)
    (txData : BitVec 8) (s : UartTx) : UartTx where
  doLoadShifter := !s.txReady && s.shiftDone
  txReady := if txWrStrobeOnset then false else if s.doLoadShifter then true else s.txReady
  txOverrun :=
    if statusWrStrobe then false else if !s.txReady && txWrStrobeOnset then true else s.txOverrun
  txShiftEmpty := s.txReady && s.shiftDone
  baudRateCounter :=
    if s.baudRateCounter = 0 ∨ s.doLoadShifter then baudDivisor else s.baudRateCounter - 1
  baudClkEn := s.baudRateCounter == 0
  preTxd := if !s.shiftDone then s.txShiftRegisterContents.getLsbD 0 else s.preTxd
  txd := s.preTxd && !doForceBreak
  txShiftRegisterContents :=
    if s.doLoadShifter then txLoadVal txData
    else if s.doShift then BitVec.cons false (s.txShiftRegisterContents.extractLsb' 1 9)
    else s.txShiftRegisterContents

def reset : UartTx where
  doLoadShifter := false
  txReady := true
  txOverrun := false
  txShiftEmpty := true
  baudRateCounter := 0
  baudClkEn := false
  preTxd := true
  txd := true
  txShiftRegisterContents := 0

end UartTx

/-! ### `nios_uart_regs` -/

/-- The bus signals of one cycle. -/
structure UartBus where
  address : BitVec 3
  begintransfer : Bool
  chipselect : Bool
  readN : Bool
  writeN : Bool
  writedata : BitVec 16
deriving DecidableEq

namespace UartBus

/-- A cycle without an access to the core. -/
def idle : UartBus where
  address := 0
  begintransfer := false
  chipselect := false
  readN := true
  writeN := true
  writedata := 0

def rxRdStrobe (b : UartBus) : Bool := b.chipselect && !b.readN && b.address == 0

def txWrStrobe (b : UartBus) : Bool := b.chipselect && !b.writeN && b.address == 1

def statusWrStrobe (b : UartBus) : Bool := b.chipselect && !b.writeN && b.address == 2

def controlWrStrobe (b : UartBus) : Bool := b.chipselect && !b.writeN && b.address == 3

def divisorWrStrobe (b : UartBus) : Bool := b.chipselect && !b.writeN && b.address == 4

/-- `rx_rd_strobe_onset`: the first cycle of a read of the character. -/
def rxRdStrobeOnset (b : UartBus) : Bool := b.rxRdStrobe && b.begintransfer

def txWrStrobeOnset (b : UartBus) : Bool := b.txWrStrobe && b.begintransfer

end UartBus

/-- The register file; `dataavailable` and `readyfordata` are its delayed ready flags. -/
structure UartRegs where
  readdata : BitVec 16
  irq : Bool
  txData : BitVec 8
  controlReg : BitVec 10
  baudDivisor : BitVec 16
  d1RxCharReady : Bool
  d1TxReady : Bool
deriving DecidableEq

structure NiosUart where
  rx : UartRx
  tx : UartTx
  regs : UartRegs
deriving DecidableEq

namespace NiosUart

def anyError (s : NiosUart) : Bool :=
  s.tx.txOverrun || s.rx.rxOverrun || s.rx.framingError || s.rx.breakDetect

/-- `status_reg` from bit 0, `parity_error`, to bit 12, `eop_status_bit`. -/
def statusReg (s : NiosUart) : BitVec 13 :=
  BitVec.ofBoolListLE
    [false, s.rx.framingError, s.rx.breakDetect, s.rx.rxOverrun, s.tx.txOverrun,
      s.tx.txShiftEmpty, s.tx.txReady, s.rx.rxCharReady, s.anyError, false, false, false, false]

def selectedReadData (b : UartBus) (s : NiosUart) : BitVec 16 :=
  if b.address = 0 then s.rx.line.rxData.setWidth 16
  else if b.address = 1 then s.regs.txData.setWidth 16
  else if b.address = 2 then s.statusReg.setWidth 16
  else if b.address = 3 then s.regs.controlReg.setWidth 16
  else if b.address = 4 then s.regs.baudDivisor
  else 0

/-- Each enabled condition raises the interrupt; bit `i` of `control_reg` enables bit `i` of the
status, and `parity_error` is never set. -/
def qualifiedIrq (s : NiosUart) : Bool :=
  (s.regs.controlReg.getLsbD 8 && s.anyError) ||
    (s.regs.controlReg.getLsbD 5 && s.tx.txShiftEmpty) ||
    (s.regs.controlReg.getLsbD 4 && s.tx.txOverrun) ||
    (s.regs.controlReg.getLsbD 3 && s.rx.rxOverrun) ||
    (s.regs.controlReg.getLsbD 2 && s.rx.breakDetect) ||
    (s.regs.controlReg.getLsbD 1 && s.rx.framingError) ||
    (s.regs.controlReg.getLsbD 7 && s.rx.rxCharReady) ||
    (s.regs.controlReg.getLsbD 6 && s.tx.txReady)

def doForceBreak (s : NiosUart) : Bool := s.regs.controlReg.getLsbD 9

/-- One clock cycle with its level of `sync_rxd` and its bus signals. -/
def step (s : NiosUart) (syncRxd : Bool) (b : UartBus) : NiosUart where
  rx := s.rx.step s.regs.baudDivisor.toNat syncRxd b.rxRdStrobeOnset b.statusWrStrobe
  tx := s.tx.step s.regs.baudDivisor.toNat s.doForceBreak b.statusWrStrobe b.txWrStrobeOnset
    s.regs.txData
  regs :=
    { readdata := s.selectedReadData b
      irq := s.qualifiedIrq
      txData := if b.txWrStrobe then b.writedata.setWidth 8 else s.regs.txData
      controlReg := if b.controlWrStrobe then b.writedata.setWidth 10 else s.regs.controlReg
      baudDivisor := if b.divisorWrStrobe then b.writedata else s.regs.baudDivisor
      d1RxCharReady := s.rx.rxCharReady
      d1TxReady := s.tx.txReady }

def reset : NiosUart where
  rx := UartRx.reset
  tx := UartTx.reset
  regs :=
    { readdata := 0
      irq := false
      txData := 0
      controlReg := 0
      baudDivisor := 868
      d1RxCharReady := false
      d1TxReady := false }

end NiosUart

end VoltCtrl.Hardware
