/-
Module: VoltCtrl.Hardware.Spi
Layer: Hardware
Purpose: The SPI core `nios_spi` of the device, clock cycle by clock cycle: an 8-bit master with one slave
  select, whose `SCLK` changes every four cycles. A register holds its value during a cycle and takes the
  next one at the end of it; where the source assigns a register more than once, the last assignment wins.
  `slowcount` and `state` are numbers, as the first never passes 3 and the second starts again after 17.
Trusted boundary: human-reviewed spec
Main exports: SpiBus, NiosSpi, NiosSpi.step, NiosSpi.reset, SpiPins, NiosSpi.pins
-/
import VoltCtrl.Core.Machine

namespace VoltCtrl.Hardware

/-- The bus signals of one cycle. -/
structure SpiBus where
  spiSelect : Bool
  readN : Bool
  writeN : Bool
  memAddr : BitVec 3
  dataFromCpu : BitVec 16
deriving DecidableEq

/-- A cycle without an access to the core. -/
def SpiBus.idle : SpiBus where
  spiSelect := false
  readN := true
  writeN := true
  memAddr := 0
  dataFromCpu := 0

structure NiosSpi where
  rdStrobe : Bool
  dataRdStrobe : Bool
  wrStrobe : Bool
  dataWrStrobe : Bool
  iEOPReg : Bool
  iEReg : Bool
  iRRDYReg : Bool
  iTRDYReg : Bool
  iTMTReg : Bool
  iTOEReg : Bool
  iROEReg : Bool
  ssoReg : Bool
  irqReg : Bool
  spiSlaveSelectReg : BitVec 16
  spiSlaveSelectHoldingReg : BitVec 16
  slowcount : Nat
  endofpacketvalueReg : BitVec 16
  dataToCpu : BitVec 16
  state : Nat
  stateZero : Bool
  eop : Bool
  roe : Bool
  rrdy : Bool
  toe : Bool
  misoReg : Bool
  rxHoldingReg : BitVec 8
  shiftReg : BitVec 8
  txHoldingReg : BitVec 8
  txHoldingPrimed : Bool
  transmitting : Bool
  sclkReg : Bool
deriving DecidableEq

namespace NiosSpi

/-! ### The wires -/

def p1RdStrobe (s : NiosSpi) (b : SpiBus) : Bool := !s.rdStrobe && b.spiSelect && !b.readN

def p1DataRdStrobe (s : NiosSpi) (b : SpiBus) : Bool := s.p1RdStrobe b && b.memAddr == 0

def p1WrStrobe (s : NiosSpi) (b : SpiBus) : Bool := !s.wrStrobe && b.spiSelect && !b.writeN

def p1DataWrStrobe (s : NiosSpi) (b : SpiBus) : Bool := s.p1WrStrobe b && b.memAddr == 1

def controlWrStrobe (s : NiosSpi) (b : SpiBus) : Bool := s.wrStrobe && b.memAddr == 3

def statusWrStrobe (s : NiosSpi) (b : SpiBus) : Bool := s.wrStrobe && b.memAddr == 2

def slaveselectWrStrobe (s : NiosSpi) (b : SpiBus) : Bool := s.wrStrobe && b.memAddr == 5

def endofpacketvalueWrStrobe (s : NiosSpi) (b : SpiBus) : Bool := s.wrStrobe && b.memAddr == 6

/-- Nothing is being transmitted or waits to be. -/
def tmt (s : NiosSpi) : Bool := !s.transmitting && !s.txHoldingPrimed

def trdy (s : NiosSpi) : Bool := !(s.transmitting && s.txHoldingPrimed)

def e (s : NiosSpi) : Bool := s.roe || s.toe

/-- `spi_status` from bit 0 to bit 9, `EOP`. -/
def spiStatus (s : NiosSpi) : BitVec 16 :=
  BitVec.ofBoolListLE
    [false, false, false, s.roe, s.toe, s.tmt, s.trdy, s.rrdy, s.e, s.eop, false, false, false, false,
      false, false]

/-- `spi_control` from bit 0 to bit 10, `SSO_reg`. -/
def spiControl (s : NiosSpi) : BitVec 16 :=
  BitVec.ofBoolListLE
    [false, false, false, s.iROEReg, s.iTOEReg, false, s.iTRDYReg, s.iRRDYReg, s.iEReg, s.iEOPReg,
      s.ssoReg, false, false, false, false, false]

def slowclock (s : NiosSpi) : Bool := s.slowcount == 3

def p1DataToCpu (s : NiosSpi) (b : SpiBus) : BitVec 16 :=
  if b.memAddr = 2 then s.spiStatus
  else if b.memAddr = 3 then s.spiControl
  else if b.memAddr = 6 then s.endofpacketvalueReg
  else if b.memAddr = 5 then s.spiSlaveSelectReg
  else s.rxHoldingReg.setWidth 16

def enableSS (s : NiosSpi) : Bool := s.transmitting && !s.stateZero

def writeTxHolding (s : NiosSpi) : Bool := s.dataWrStrobe && s.trdy

def writeShiftReg (s : NiosSpi) : Bool := s.txHoldingPrimed && !s.transmitting

/-- The last clock of a character. -/
def lastClock (s : NiosSpi) : Bool := s.slowclock && s.state == 17

/-! ### The registers -/

/-- One clock cycle with its level of `MISO` and its bus signals. -/
def step (s : NiosSpi) (miso : Bool) (b : SpiBus) : NiosSpi where
  rdStrobe := s.p1RdStrobe b
  dataRdStrobe := s.p1DataRdStrobe b
  wrStrobe := s.p1WrStrobe b
  dataWrStrobe := s.p1DataWrStrobe b
  iEOPReg := if s.controlWrStrobe b then b.dataFromCpu.getLsbD 9 else s.iEOPReg
  iEReg := if s.controlWrStrobe b then b.dataFromCpu.getLsbD 8 else s.iEReg
  iRRDYReg := if s.controlWrStrobe b then b.dataFromCpu.getLsbD 7 else s.iRRDYReg
  iTRDYReg := if s.controlWrStrobe b then b.dataFromCpu.getLsbD 6 else s.iTRDYReg
  iTMTReg := if s.controlWrStrobe b then b.dataFromCpu.getLsbD 5 else s.iTMTReg
  iTOEReg := if s.controlWrStrobe b then b.dataFromCpu.getLsbD 4 else s.iTOEReg
  iROEReg := if s.controlWrStrobe b then b.dataFromCpu.getLsbD 3 else s.iROEReg
  ssoReg := if s.controlWrStrobe b then b.dataFromCpu.getLsbD 10 else s.ssoReg
  irqReg := (s.eop && s.iEOPReg) || ((s.toe || s.roe) && s.iEReg) || (s.rrdy && s.iRRDYReg) ||
    (s.trdy && s.iTRDYReg) || (s.toe && s.iTOEReg) || (s.roe && s.iROEReg)
  spiSlaveSelectReg :=
    if s.writeShiftReg || (s.controlWrStrobe b && b.dataFromCpu.getLsbD 10 && !s.ssoReg) then
      s.spiSlaveSelectHoldingReg
    else s.spiSlaveSelectReg
  spiSlaveSelectHoldingReg :=
    if s.slaveselectWrStrobe b then b.dataFromCpu else s.spiSlaveSelectHoldingReg
  slowcount := if s.transmitting && !s.slowclock then s.slowcount + 1 else 0
  endofpacketvalueReg :=
    if s.endofpacketvalueWrStrobe b then b.dataFromCpu else s.endofpacketvalueReg
  dataToCpu := s.p1DataToCpu b
  state :=
    if s.transmitting && s.slowclock then if s.state = 17 then 0 else s.state + 1 else s.state
  stateZero := if s.transmitting && s.slowclock then s.state == 17 else s.stateZero
  eop :=
    if s.statusWrStrobe b then false
    else if (s.p1DataRdStrobe b && s.rxHoldingReg.setWidth 16 == s.endofpacketvalueReg) ||
        (s.p1DataWrStrobe b && (b.dataFromCpu.setWidth 8).setWidth 16 == s.endofpacketvalueReg) then
      true
    else s.eop
  roe :=
    if s.lastClock && s.rrdy then true else if s.statusWrStrobe b then false else s.roe
  rrdy :=
    if s.lastClock then true
    else if s.statusWrStrobe b then false
    else if s.dataRdStrobe then false
    else s.rrdy
  toe :=
    if s.statusWrStrobe b then false else if s.dataWrStrobe && !s.trdy then true else s.toe
  misoReg := if s.slowclock && !s.sclkReg then miso else s.misoReg
  rxHoldingReg := if s.lastClock then s.shiftReg else s.rxHoldingReg
  shiftReg :=
    if s.slowclock && s.sclkReg then s.shiftReg.shiftConcat s.misoReg
    else if s.writeShiftReg then s.txHoldingReg
    else s.shiftReg
  txHoldingReg := if s.writeTxHolding then b.dataFromCpu.setWidth 8 else s.txHoldingReg
  txHoldingPrimed :=
    if s.writeShiftReg && !s.writeTxHolding then false
    else if s.writeTxHolding then true
    else s.txHoldingPrimed
  transmitting :=
    if s.lastClock then false else if s.writeShiftReg then true else s.transmitting
  sclkReg :=
    if s.lastClock then false
    else if s.slowclock && s.state != 0 && s.transmitting then !s.sclkReg
    else s.sclkReg

def reset : NiosSpi where
  rdStrobe := false
  dataRdStrobe := false
  wrStrobe := false
  dataWrStrobe := false
  iEOPReg := false
  iEReg := false
  iRRDYReg := false
  iTRDYReg := false
  iTMTReg := false
  iTOEReg := false
  iROEReg := false
  ssoReg := false
  irqReg := false
  spiSlaveSelectReg := 1
  spiSlaveSelectHoldingReg := 1
  slowcount := 0
  endofpacketvalueReg := 0
  dataToCpu := 0
  state := 0
  stateZero := true
  eop := false
  roe := false
  rrdy := false
  toe := false
  misoReg := false
  rxHoldingReg := 0
  shiftReg := 0
  txHoldingReg := 0
  txHoldingPrimed := false
  transmitting := false
  sclkReg := false

end NiosSpi

/-- The pins of the master. -/
structure SpiPins where
  ssN : Bool
  sclk : Bool
  mosi : Bool
deriving DecidableEq

/-- `SS_n`, `SCLK` and `MOSI`. -/
def NiosSpi.pins (s : NiosSpi) : SpiPins where
  ssN := if s.enableSS || s.ssoReg then !s.spiSlaveSelectReg.getLsbD 0 else true
  sclk := s.sclkReg
  mosi := s.shiftReg.msb

end VoltCtrl.Hardware
