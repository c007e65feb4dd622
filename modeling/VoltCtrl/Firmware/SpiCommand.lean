/-
Module: VoltCtrl.Firmware.SpiCommand
Layer: Firmware
Purpose: The driver `alt_avalon_spi_command` on the SPI core, one bus access at a time, with any number of
  cycles and any levels of `MISO` between its accesses. A phase ties the variables of the driver, the core
  and the window of `SS_n` together and bounds the accesses that the command may still take; there is one
  lemma for the access of each phase.
Trusted boundary: human-reviewed spec
Main exports: Command, Command.access?, Command.next, SpiMaster, SpiMaster.step, AtRest, Variables, Phase
-/
import VoltCtrl.Hardware.SpiAccess

namespace VoltCtrl.Firmware

open VoltCtrl.Core VoltCtrl.Hardware

/-! ### The driver -/

def spiControlSso : BitVec 16 := 0x400

def spiCommandMerge : UInt32 := 0x01

def spiCommandToggleSsN : UInt32 := 0x02

/-- The next bus access of the driver. -/
inductive CommandPc where
  | slaveSel
  | control
  /-- The read of `RXDATA` that discards stale data. -/
  | discard
  | poll
  | txdata (value : UInt8)
  | rxdata
  | waitTmt
  | release
  | returned
deriving DecidableEq

/-- The variables of `alt_avalon_spi_command`: `writeData` is what is left between `write_data` and
`write_end`, and `readData` is what has been stored from `read_data` on. -/
structure Command where
  slave : UInt32
  flags : UInt32
  writeData : List UInt8
  readLength : Nat
  writeZeros : Nat
  readIgnore : Nat
  readData : List UInt8
  credits : Int
  status : BitVec 16
  pc : CommandPc
deriving DecidableEq

namespace Command

def start (slave flags : UInt32) (writeData : List UInt8) (readLength : Nat) : Command where
  slave := slave
  flags := flags
  writeData := writeData
  readLength := readLength
  writeZeros := readLength
  readIgnore := writeData.length
  readData := []
  credits := 1
  status := 0
  pc := .slaveSel

def access? (c : Command) : Option SpiAccess :=
  match c.pc with
  | .slaveSel => some (.write 5 (1#16 <<< c.slave.toNat))
  | .control => some (.write 3 spiControlSso)
  | .discard | .rxdata => some (.read 0)
  | .poll | .waitTmt => some (.read 2)
  | .txdata value => some (.write 1 (value.toBitVec.setWidth 16))
  | .release => some (.write 3 0)
  | .returned => none

/-- What follows the first half of the loop body: `RXDATA` is read when the status says so. -/
def afterTx (c : Command) : Command :=
  { c with pc := if c.status &&& spiStatusRrdy ≠ 0 then .rxdata else .poll }

/-- The condition of the polling loop and the first half of the loop body. -/
def polled (c : Command) (data : BitVec 16) : Command :=
  let c := { c with status := data }
  if (c.status &&& spiStatusTrdy = 0 ∨ c.credits = 0) ∧ c.status &&& spiStatusRrdy = 0 then
    { c with pc := .poll }
  else if c.status &&& spiStatusTrdy ≠ 0 ∧ 0 < c.credits then
    let c := { c with credits := c.credits - 1 }
    match c.writeData with
    | value :: rest => { c with writeData := rest, pc := .txdata value }
    | [] =>
        if 0 < c.writeZeros then { c with writeZeros := c.writeZeros - 1, pc := .txdata 0 }
        else afterTx { c with credits := -1024 }
  else c.afterTx

/-- The second half of the loop body. -/
def received (c : Command) (data : BitVec 16) : Command :=
  let c :=
    if 0 < c.readIgnore then { c with readIgnore := c.readIgnore - 1 }
    else { c with readData := c.readData ++ [UInt8.ofBitVec (data.setWidth 8)] }
  let c := { c with credits := c.credits + 1 }
  { c with
    pc := if c.readIgnore = 0 ∧ c.readData.length = c.readLength then .waitTmt else .poll }

/-- The driver after its access, with what was read. -/
def next (c : Command) (data : BitVec 16) : Command :=
  match c.pc with
  | .slaveSel => { c with pc := if c.flags &&& spiCommandToggleSsN = 0 then .control else .discard }
  | .control => { c with pc := .discard }
  | .discard => { c with pc := .poll }
  | .poll => c.polled data
  | .txdata _ => c.afterTx
  | .rxdata => c.received data
  | .waitTmt =>
      { c with
        status := data
        pc := if data &&& spiStatusTmt = 0 then .waitTmt
          else if c.flags &&& spiCommandMerge = 0 then .release else .returned }
  | .release => { c with pc := .returned }
  | .returned => c

end Command

/-- The core, the slave at its pins and the driver. -/
structure SpiMaster where
  core : NiosSpi
  observer : Observer
  command : Command

/-- The next access of the driver, after some cycles without one. -/
def SpiMaster.step (s : SpiMaster) (slot : SpiSlot) : SpiMaster :=
  match s.command.access? with
  | none => s
  | some access =>
      { core := (slot.ended access (s.core, s.observer)).1
        observer := (slot.ended access (s.core, s.observer)).2
        command := s.command.next (slot.begun access (s.core, s.observer)).1.dataToCpu }

/-- Nothing is transmitted and `SS_n` is released. -/
structure AtRest (s : NiosSpi) (o : Observer) : Prop where
  settled : Settled s o
  waiting : ∃ ready, Waiting ready s
  sso : s.ssoReg = false

/-! ### The phases of a command -/

/-- The bits of a byte on the wire. -/
def wireBits (value : UInt8) : List Bool :=
  msbFirst value.toBitVec

/-- The byte that eight levels of `MISO` are read as. -/
def byteOfBits (bits : List Bool) : UInt8 :=
  UInt8.ofBitVec (shiftIn 0 bits)

section Phases

variable (write : List UInt8) (readLength : Nat)

/-- The bytes of a command on the wire: those written and a zero for each byte to read. -/
def wireBytes : List UInt8 :=
  write ++ List.replicate readLength 0

/-- The window after some bytes and the levels of `MISO` under them. -/
def wireWindow (bytes : Nat) (got : List (List Bool)) : Window where
  rises := ((wireBytes write readLength).take bytes).flatMap wireBits
  falls := ((wireBytes write readLength).take bytes).flatMap wireBits
  misos := got.flatten

/-- The variables of the driver when `given` bytes have been given to the core and those of `got` have
been read. -/
structure Variables (given : Nat) (got : List (List Bool)) (c : Command) : Prop where
  slave : c.slave = 0
  flags : c.flags = 0
  writeData : c.writeData = write.drop given
  length : c.readLength = readLength
  writeZeros : c.writeZeros = readLength - (given - write.length)
  readIgnore : c.readIgnore = write.length - got.length
  readData : c.readData = (got.drop write.length).map byteOfBits
  credits : c.credits = 1 - ((given : Int) - got.length)
  eights : ∀ bits ∈ got, bits.length = 8

/-- The driver holds `SS_n` low. -/
structure Driving (closed : List Window) (s : SpiMaster) : Prop where
  settled : Settled s.core s.observer
  held : Held s.core s.observer
  closed : s.observer.closed = closed

/-- Where a command is, with the number of accesses that it may still take. -/
inductive Phase (closed : List Window) : Nat → SpiMaster → Prop where
  | slaveSel {s : SpiMaster} (pc : s.command.pc = .slaveSel)
      (vars : Variables write readLength 0 [] s.command) (rest : AtRest s.core s.observer)
      (before : s.observer.closed = closed) :
      Phase closed (41 * (write.length + readLength) + 5) s
  | control {s : SpiMaster} (pc : s.command.pc = .control)
      (vars : Variables write readLength 0 [] s.command) (rest : AtRest s.core s.observer)
      (holding : s.core.spiSlaveSelectHoldingReg.getLsbD 0 = true)
      (before : s.observer.closed = closed) :
      Phase closed (41 * (write.length + readLength) + 4) s
  | discard {s : SpiMaster} {ready : Bool} (pc : s.command.pc = .discard)
      (vars : Variables write readLength 0 [] s.command) (driving : Driving closed s)
      (waiting : Waiting ready s.core) (window : s.observer.window = Window.empty) :
      Phase closed (41 * (write.length + readLength) + 3) s
  | ready {s : SpiMaster} (got : List (List Bool)) (pc : s.command.pc = .poll)
      (vars : Variables write readLength got.length got s.command)
      (driving : Driving closed s) (waiting : Waiting false s.core)
      (window : s.observer.window = wireWindow write readLength got.length got)
      (more : got.length < write.length + readLength) :
      Phase closed (41 * (write.length + readLength - got.length) + 2) s
  | txdata {s : SpiMaster} (got : List (List Bool)) (value : UInt8)
      (pc : s.command.pc = .txdata value) (status : s.command.status &&& spiStatusRrdy = 0)
      (vars : Variables write readLength (got.length + 1) got s.command)
      (driving : Driving closed s) (waiting : Waiting false s.core)
      (window : s.observer.window = wireWindow write readLength got.length got)
      (wire : (wireBytes write readLength)[got.length]? = some value) :
      Phase closed (41 * (write.length + readLength - got.length) + 1) s
  | sending {s : SpiMaster} (got : List (List Bool)) (value : UInt8) (left : Nat)
      (pc : s.command.pc = .poll)
      (vars : Variables write readLength (got.length + 1) got s.command)
      (driving : Driving closed s)
      (sending : Sending value.toBitVec (wireWindow write readLength got.length got) left
        s.core s.observer)
      (wire : (wireBytes write readLength)[got.length]? = some value) (most : left ≤ 73) :
      Phase closed (41 * (write.length + readLength - (got.length + 1)) + 4 + (left + 1) / 2) s
  | arrived {s : SpiMaster} (got : List (List Bool)) (value : UInt8) (misos : List Bool)
      (pc : s.command.pc = .poll)
      (vars : Variables write readLength (got.length + 1) got s.command)
      (driving : Driving closed s)
      (received : Received value.toBitVec (wireWindow write readLength got.length got) misos
        s.core s.observer)
      (wire : (wireBytes write readLength)[got.length]? = some value) :
      Phase closed (41 * (write.length + readLength - (got.length + 1)) + 4) s
  | rxdata {s : SpiMaster} (got : List (List Bool)) (value : UInt8) (misos : List Bool)
      (pc : s.command.pc = .rxdata)
      (vars : Variables write readLength (got.length + 1) got s.command)
      (driving : Driving closed s)
      (received : Received value.toBitVec (wireWindow write readLength got.length got) misos
        s.core s.observer)
      (wire : (wireBytes write readLength)[got.length]? = some value) :
      Phase closed (41 * (write.length + readLength - (got.length + 1)) + 3) s
  | waitTmt {s : SpiMaster} (got : List (List Bool)) (pc : s.command.pc = .waitTmt)
      (vars : Variables write readLength got.length got s.command)
      (driving : Driving closed s) (waiting : Waiting false s.core)
      (window : s.observer.window = wireWindow write readLength got.length got)
      (all : got.length = write.length + readLength) : Phase closed 2 s
  | release {s : SpiMaster} (got : List (List Bool)) (pc : s.command.pc = .release)
      (vars : Variables write readLength got.length got s.command)
      (driving : Driving closed s) (waiting : Waiting false s.core)
      (window : s.observer.window = wireWindow write readLength got.length got)
      (all : got.length = write.length + readLength) : Phase closed 1 s
  | returned {s : SpiMaster} (got : List (List Bool)) (pc : s.command.pc = .returned)
      (vars : Variables write readLength got.length got s.command)
      (rest : AtRest s.core s.observer)
      (after : s.observer.closed = closed ++ [wireWindow write readLength got.length got])
      (all : got.length = write.length + readLength) : Phase closed 0 s

end Phases

section Steps

variable {write : List UInt8} {readLength : Nat} {closed : List Window} {s : SpiMaster}
  {slot : SpiSlot}

theorem step_access {access : SpiAccess} (next : s.command.access? = some access) :
    s.step slot =
      { core := (slot.ended access (s.core, s.observer)).1
        observer := (slot.ended access (s.core, s.observer)).2
        command := s.command.next (slot.begun access (s.core, s.observer)).1.dataToCpu } := by
  simp [SpiMaster.step, next]

theorem Driving.ssN (driving : Driving closed s) : s.core.pins.ssN = false :=
  driving.held.ssN

/-- A read leaves `SS_n` low and the window as it is. -/
theorem Driving.read {ready : Bool} (driving : Driving closed s) (slot : SpiSlot)
    (waiting : Waiting ready s.core) (address : BitVec 3) (command : Command) :
    Driving closed
        ⟨(slot.ended (.read address) (s.core, s.observer)).1,
          (slot.ended (.read address) (s.core, s.observer)).2, command⟩ ∧
      (slot.ended (.read address) (s.core, s.observer)).2.window = s.observer.window := by
  have ended := ended_waiting slot (.read address) driving.settled waiting (Or.inl rfl)
  have sso := ended.sso
  have select := ended.select
  have holding := ended.holding
  simp only [SpiAccess.bus, Bool.not_true, Bool.false_and, Bool.false_eq_true, if_false]
    at sso select holding
  have held := ended.settled.held (sso.trans driving.held.sso) (select ▸ driving.held.select)
    (holding ▸ driving.held.holding)
  have window := ended.window
  have closes := ended.closed
  rw [held.ssN, if_neg Bool.false_ne_true] at window
  rw [held.ssN, Bool.and_false, if_neg Bool.false_ne_true] at closes
  exact ⟨⟨ended.settled, held, closes.trans driving.closed⟩, window⟩

theorem wireBytes_length : (wireBytes write readLength).length = write.length + readLength := by
  simp [wireBytes]

/-- The next byte on the wire extends the window. -/
theorem wireWindow_after {got : List (List Bool)} {misos : List Bool} {value : UInt8}
    (wire : (wireBytes write readLength)[got.length]? = some value) :
    (wireWindow write readLength got.length got).after value.toBitVec 8 8 misos =
      wireWindow write readLength (got ++ [misos]).length (got ++ [misos]) := by
  have whole : (msbFirst value.toBitVec).take 8 = wireBits value :=
    List.take_of_length_le (by rw [msbFirst_length])
  have longer : (wireBytes write readLength).take (got.length + 1) =
      (wireBytes write readLength).take got.length ++ [value] := by
    rw [List.take_add_one, wire]
    rfl
  simp only [wireWindow, Window.after, whole, List.length_append, List.length_singleton, longer,
    List.flatMap_append, List.flatMap_singleton, List.flatten_append, List.flatten_singleton]

/-- The variables do not depend on the program point and the status. -/
theorem Variables.moved {given : Nat} {got : List (List Bool)} {c : Command}
    (vars : Variables write readLength given got c) (pc : CommandPc) (status : BitVec 16) :
    Variables write readLength given got { c with pc := pc, status := status } :=
  ⟨vars.slave, vars.flags, vars.writeData, vars.length, vars.writeZeros, vars.readIgnore,
    vars.readData, vars.credits, vars.eights⟩

/-! ### One access -/

theorem slaveSel_step (pc : s.command.pc = .slaveSel)
    (vars : Variables write readLength 0 [] s.command) (rest : AtRest s.core s.observer)
    (before : s.observer.closed = closed) :
    Phase write readLength closed (41 * (write.length + readLength) + 4) (s.step slot) := by
  obtain ⟨settled, ⟨ready, waiting⟩, sso⟩ := rest
  have access : s.command.access? = some (.write 5 1) := by simp [Command.access?, pc, vars.slave]
  have ended := ended_waiting slot (.write 5 1) settled waiting (Or.inr (by decide))
  have high : s.core.pins.ssN = true := by rw [waiting.ssN, sso]; rfl
  have next (data : BitVec 16) : s.command.next data = { s.command with pc := .control } := by
    simp [Command.next, pc, vars.flags]
  rw [step_access access, next]
  refine .control rfl (vars.moved _ _) ⟨ended.settled, ⟨_, ended.waiting⟩, ended.sso.trans sso⟩ ?_ ?_
  · rw [ended.holding]
    simp [SpiAccess.bus]
  · have closes := ended.closed
    rw [high, Bool.not_true, Bool.false_and, if_neg Bool.false_ne_true] at closes
    exact closes.trans before

theorem control_step (pc : s.command.pc = .control)
    (vars : Variables write readLength 0 [] s.command) (rest : AtRest s.core s.observer)
    (holding : s.core.spiSlaveSelectHoldingReg.getLsbD 0 = true)
    (before : s.observer.closed = closed) :
    Phase write readLength closed (41 * (write.length + readLength) + 3) (s.step slot) := by
  obtain ⟨settled, ⟨ready, waiting⟩, sso⟩ := rest
  have access : s.command.access? = some (.write 3 spiControlSso) := by
    simp [Command.access?, pc]
  have ended := ended_waiting slot (.write 3 spiControlSso) settled waiting
    (Or.inr (by decide))
  have high : s.core.pins.ssN = true := by rw [waiting.ssN, sso]; rfl
  have next (data : BitVec 16) : s.command.next data = { s.command with pc := .discard } := by
    simp [Command.next, pc]
  have held : Held (slot.ended (.write 3 spiControlSso) (s.core, s.observer)).1
      (slot.ended (.write 3 spiControlSso) (s.core, s.observer)).2 := by
    refine ended.settled.held ?_ ?_ ?_
    · rw [ended.sso]
      simp [SpiAccess.bus, spiControlSso]
    · rw [ended.select, sso]
      simpa [SpiAccess.bus, spiControlSso] using holding
    · rw [ended.holding]
      simpa [SpiAccess.bus] using holding
  have window := ended.window
  have closes := ended.closed
  rw [held.ssN, if_neg Bool.false_ne_true, settled.window high] at window
  rw [high, Bool.not_true, Bool.false_and, if_neg Bool.false_ne_true] at closes
  rw [step_access access, next]
  exact .discard rfl (vars.moved _ _) ⟨ended.settled, held, closes.trans before⟩ ended.waiting window

theorem discard_step {ready : Bool} (bytes : 0 < write.length + readLength)
    (pc : s.command.pc = .discard) (vars : Variables write readLength 0 [] s.command)
    (driving : Driving closed s) (waiting : Waiting ready s.core)
    (window : s.observer.window = Window.empty) :
    Phase write readLength closed (41 * (write.length + readLength) + 2) (s.step slot) := by
  have access : s.command.access? = some (.read 0) := by simp [Command.access?, pc]
  have ended := ended_waiting slot (.read 0) driving.settled waiting (Or.inl rfl)
  have next (data : BitVec 16) : s.command.next data = { s.command with pc := .poll } := by
    simp [Command.next, pc]
  obtain ⟨driven, same⟩ := driving.read slot waiting 0 { s.command with pc := .poll }
  have clear := ended.waiting
  simp only [SpiAccess.bus, Bool.not_false, Bool.true_and, beq_self_eq_true, Bool.not_true,
    Bool.and_false] at clear
  rw [step_access access, next]
  exact .ready [] rfl (vars.moved _ _) driven clear (same.trans window) bytes

/-- The driver gives the core the next byte. -/
theorem polled_ready {got : List (List Bool)} {c : Command} {data : BitVec 16}
    (vars : Variables write readLength got.length got c)
    (trdy : data &&& spiStatusTrdy ≠ 0) (more : got.length < write.length + readLength) :
    ∃ value, (wireBytes write readLength)[got.length]? = some value ∧
      (c.polled data).pc = .txdata value ∧ (c.polled data).status = data ∧
      Variables write readLength (got.length + 1) got (c.polled data) := by
  have credits : c.credits = 1 := by
    rw [vars.credits]
    omega
  have goes : ¬ ((data &&& spiStatusTrdy = 0 ∨ c.credits = 0) ∧ data &&& spiStatusRrdy = 0) := by
    rintro ⟨off | none, -⟩
    · exact trdy off
    · rw [credits] at none
      cases none
  have gives : data &&& spiStatusTrdy ≠ 0 ∧ 0 < c.credits := ⟨trdy, by omega⟩
  rcases Nat.lt_or_ge got.length write.length with inside | past
  · have rest : c.writeData = write[got.length] :: write.drop (got.length + 1) := by
      rw [vars.writeData, List.drop_eq_getElem_cons inside]
    have result : c.polled data =
        { c with
          status := data, credits := c.credits - 1, writeData := write.drop (got.length + 1)
          pc := .txdata write[got.length] } := by
      simp only [Command.polled]
      rw [if_neg goes, if_pos gives]
      simp only [rest]
    refine ⟨write[got.length], ?_, by rw [result], by rw [result], ?_⟩
    · rw [wireBytes, List.getElem?_append_left inside, List.getElem?_eq_getElem inside]
    · rw [result]
      refine ⟨vars.slave, vars.flags, rfl, vars.length, ?_, vars.readIgnore, vars.readData, ?_,
        vars.eights⟩
      · have zeros := vars.writeZeros
        simp only
        omega
      · simp only [credits]
        omega
  · have rest : c.writeData = [] := by
      rw [vars.writeData, List.drop_eq_nil_of_le past]
    have zeros : 0 < c.writeZeros := by
      rw [vars.writeZeros]
      omega
    have result : c.polled data =
        { c with
          status := data, credits := c.credits - 1, writeZeros := c.writeZeros - 1
          pc := .txdata 0 } := by
      simp only [Command.polled]
      rw [if_neg goes, if_pos gives]
      simp only [rest, if_pos zeros]
    refine ⟨0, ?_, by rw [result], by rw [result], ?_⟩
    · rw [wireBytes, List.getElem?_append_right past, List.getElem?_replicate, if_pos (by omega)]
    · rw [result]
      refine ⟨vars.slave, vars.flags, ?_, vars.length, ?_, vars.readIgnore, vars.readData, ?_,
        vars.eights⟩
      · simp only [rest, List.drop_eq_nil_of_le (by omega : write.length ≤ got.length + 1)]
      · have before := vars.writeZeros
        simp only
        omega
      · simp only [credits]
        omega

/-- With a byte on its way the driver waits for it. -/
theorem polled_waiting {got : List (List Bool)} {c : Command} (data : BitVec 16)
    (vars : Variables write readLength (got.length + 1) got c) :
    c.polled data =
      { c with
        status := data
        pc := if data &&& spiStatusRrdy = 0 then .poll else .rxdata } := by
  have credits : c.credits = 0 := by
    rw [vars.credits]
    omega
  by_cases arrived : data &&& spiStatusRrdy = 0
  · simp only [Command.polled, arrived, credits, or_true, and_self, if_true]
  · have none : ¬ ((data &&& spiStatusTrdy ≠ 0) ∧ (0 : Int) < 0) := fun gives =>
      absurd gives.2 (lt_irrefl _)
    simp only [Command.polled, arrived, credits, and_false, if_false, if_neg none,
      Command.afterTx, ne_eq, not_false_eq_true, if_true]

theorem ready_step {got : List (List Bool)} (pc : s.command.pc = .poll)
    (vars : Variables write readLength got.length got s.command) (driving : Driving closed s)
    (waiting : Waiting false s.core)
    (window : s.observer.window = wireWindow write readLength got.length got)
    (more : got.length < write.length + readLength) :
    Phase write readLength closed (41 * (write.length + readLength - got.length) + 1)
      (s.step slot) := by
  have access : s.command.access? = some (.read 2) := by simp [Command.access?, pc]
  obtain ⟨-, trdy, rrdy⟩ := waiting_status slot driving.settled waiting
  obtain ⟨value, wire, gives, status, given⟩ := polled_ready vars trdy more
  have next (data : BitVec 16) : s.command.next data = s.command.polled data := by
    simp [Command.next, pc]
  have ended := ended_waiting slot (.read 2) driving.settled waiting (Or.inl rfl)
  rw [step_access access, next]
  obtain ⟨driven, same⟩ := driving.read slot waiting 2
    (s.command.polled (slot.begun (.read 2) (s.core, s.observer)).1.dataToCpu)
  exact .txdata got value gives (by rw [status]; exact rrdy.2 rfl) given driven ended.waiting
    (same.trans window) wire

theorem txdata_step {got : List (List Bool)} {value : UInt8} (pc : s.command.pc = .txdata value)
    (status : s.command.status &&& spiStatusRrdy = 0)
    (vars : Variables write readLength (got.length + 1) got s.command) (driving : Driving closed s)
    (waiting : Waiting false s.core)
    (window : s.observer.window = wireWindow write readLength got.length got)
    (wire : (wireBytes write readLength)[got.length]? = some value) :
    Phase write readLength closed (41 * (write.length + readLength - (got.length + 1)) + 41)
      (s.step slot) := by
  have access : s.command.access? = some (.write 1 (value.toBitVec.setWidth 16)) := by
    simp [Command.access?, pc]
  obtain ⟨settled, loading, sso, select, holding, same⟩ :=
    ended_txdata slot driving.settled waiting driving.ssN value.toBitVec
  have next (data : BitVec 16) : s.command.next data = { s.command with pc := .poll } := by
    simp [Command.next, Command.afterTx, pc, status]
  have held := settled.held (sso.trans driving.held.sso) (select ▸ driving.held.select)
    (holding ▸ driving.held.holding)
  rw [window] at loading
  rw [step_access access, next]
  exact .sending got value 73 rfl (vars.moved _ _) ⟨settled, held, same.trans driving.closed⟩
    (Or.inl ⟨rfl, loading⟩) wire le_rfl

theorem sending_step {got : List (List Bool)} {value : UInt8} {left : Nat}
    (pc : s.command.pc = .poll) (vars : Variables write readLength (got.length + 1) got s.command)
    (driving : Driving closed s)
    (sending : Sending value.toBitVec (wireWindow write readLength got.length got) left
      s.core s.observer)
    (wire : (wireBytes write readLength)[got.length]? = some value) (most : left ≤ 73) :
    ∃ rank, rank < 41 * (write.length + readLength - (got.length + 1)) + 4 + (left + 1) / 2 ∧
      Phase write readLength closed rank (s.step slot) := by
  have access : s.command.access? = some (.read 2) := by simp [Command.access?, pc]
  have next (data : BitVec 16) : s.command.next data = s.command.polled data := by
    simp [Command.next, pc]
  obtain ⟨settled, held, same, -, going⟩ :=
    sending_status slot driving.settled driving.held sending
  have positive := sending.positive
  rw [step_access access, next, polled_waiting _ vars]
  rcases going with ⟨none, less, shorter, still⟩ | ⟨misos, received⟩
  · simp only [none, if_true]
    exact ⟨_, by omega, .sending got value less rfl (vars.moved _ _)
      ⟨settled, held, same.trans driving.closed⟩ still wire (by omega)⟩
  · by_cases shown : (slot.begun (.read 2) (s.core, s.observer)).1.dataToCpu &&& spiStatusRrdy = 0
    · simp only [shown, if_true]
      exact ⟨_, by omega, .arrived got value misos rfl (vars.moved _ _)
        ⟨settled, held, same.trans driving.closed⟩ received wire⟩
    · simp only [shown, if_false]
      exact ⟨_, by omega, .rxdata got value misos rfl (vars.moved _ _)
        ⟨settled, held, same.trans driving.closed⟩ received wire⟩

theorem arrived_step {got : List (List Bool)} {value : UInt8} {misos : List Bool}
    (pc : s.command.pc = .poll) (vars : Variables write readLength (got.length + 1) got s.command)
    (driving : Driving closed s)
    (received : Received value.toBitVec (wireWindow write readLength got.length got) misos
      s.core s.observer)
    (wire : (wireBytes write readLength)[got.length]? = some value) :
    Phase write readLength closed (41 * (write.length + readLength - (got.length + 1)) + 3)
      (s.step slot) := by
  have access : s.command.access? = some (.read 2) := by simp [Command.access?, pc]
  have next (data : BitVec 16) : s.command.next data = s.command.polled data := by
    simp [Command.next, pc]
  obtain ⟨-, -, rrdy⟩ := waiting_status slot driving.settled received.waiting
  have shown : ¬ (slot.begun (.read 2) (s.core, s.observer)).1.dataToCpu &&& spiStatusRrdy = 0 :=
    fun clear => absurd (rrdy.1 clear) (by decide)
  have ended := ended_waiting slot (.read 2) driving.settled received.waiting (Or.inl rfl)
  obtain ⟨driven, same⟩ := driving.read slot received.waiting 2
    { s.command with
      status := (slot.begun (.read 2) (s.core, s.observer)).1.dataToCpu, pc := .rxdata }
  rw [step_access access, next, polled_waiting _ vars]
  simp only [shown, if_false]
  exact .rxdata got value misos rfl (vars.moved _ _) driven
    ⟨ended.waiting, received.whole, ended.rxHolding.trans received.value,
      same.trans received.window⟩ wire

/-- The byte that the levels of `MISO` make is stored, or ignored while the bytes are written. -/
theorem received_variables {got : List (List Bool)} {misos : List Bool} {value : UInt8}
    {c : Command} (vars : Variables write readLength (got.length + 1) got c)
    (whole : misos.length = 8) (more : got.length < write.length + readLength) :
    Variables write readLength (got ++ [misos]).length (got ++ [misos])
        (c.received ((shiftIn value.toBitVec misos).setWidth 16)) ∧
      (c.received ((shiftIn value.toBitVec misos).setWidth 16)).pc =
        if got.length + 1 = write.length + readLength then .waitTmt else .poll := by
  have eights : ∀ bits ∈ got ++ [misos], bits.length = 8 := by
    intro bits member
    rcases List.mem_append.1 member with old | new
    · exact vars.eights bits old
    · rw [List.mem_singleton.1 new, whole]
  have count : (got ++ [misos]).length = got.length + 1 := by simp
  have ignore := vars.readIgnore
  have credits := vars.credits
  have length := vars.length
  rw [count]
  rcases Nat.lt_or_ge got.length write.length with ignored | stored
  · have positive : 0 < c.readIgnore := by omega
    have empty : c.readData = [] := by
      rw [vars.readData, List.drop_eq_nil_of_le (by omega), List.map_nil]
    simp only [Command.received, if_pos positive]
    refine ⟨⟨vars.slave, vars.flags, vars.writeData, length, vars.writeZeros, ?_, ?_, ?_, eights⟩,
      ?_⟩
    · dsimp only
      omega
    · dsimp only
      rw [empty, List.drop_eq_nil_of_le (by omega), List.map_nil]
    · dsimp only
      omega
    · congr 1
      rw [empty, List.length_nil, length, eq_iff_iff]
      omega
  · have none : ¬ 0 < c.readIgnore := by omega
    have byte : UInt8.ofBitVec (((shiftIn value.toBitVec misos).setWidth 16).setWidth 8) =
        byteOfBits misos := by
      rw [byteOfBits, shiftIn_full 0 value.toBitVec (Nat.le_of_eq whole.symm),
        BitVec.setWidth_setWidth_of_le _ (by decide), BitVec.setWidth_eq]
    simp only [Command.received, if_neg none, byte]
    refine ⟨⟨vars.slave, vars.flags, vars.writeData, length, vars.writeZeros, ?_, ?_, ?_, eights⟩,
      ?_⟩
    · dsimp only
      omega
    · dsimp only
      rw [vars.readData, List.drop_append_of_le_length stored, List.map_append, List.map_singleton]
    · dsimp only
      omega
    · congr 1
      rw [List.length_append, List.length_singleton, vars.readData, List.length_map,
        List.length_drop, length, eq_iff_iff]
      omega

theorem rxdata_step {got : List (List Bool)} {value : UInt8} {misos : List Bool}
    (pc : s.command.pc = .rxdata) (vars : Variables write readLength (got.length + 1) got s.command)
    (driving : Driving closed s)
    (received : Received value.toBitVec (wireWindow write readLength got.length got) misos
      s.core s.observer)
    (wire : (wireBytes write readLength)[got.length]? = some value) :
    ∃ rank, rank < 41 * (write.length + readLength - (got.length + 1)) + 3 ∧
      Phase write readLength closed rank (s.step slot) := by
  have access : s.command.access? = some (.read 0) := by simp [Command.access?, pc]
  have next (data : BitVec 16) : s.command.next data = s.command.received data := by
    simp [Command.next, pc]
  have more : got.length < write.length + readLength := by
    rw [← wireBytes_length]
    exact (List.getElem?_eq_some_iff.1 wire).1
  have data : (slot.begun (.read 0) (s.core, s.observer)).1.dataToCpu =
      (shiftIn value.toBitVec misos).setWidth 16 := by
    rw [rxdata_begun slot driving.settled received.waiting, received.value]
  obtain ⟨vars', goes⟩ := received_variables vars received.whole more
  have ended := ended_waiting slot (.read 0) driving.settled received.waiting (Or.inl rfl)
  obtain ⟨driven, same⟩ := driving.read slot received.waiting 0
    (s.command.received ((shiftIn value.toBitVec misos).setWidth 16))
  have count : (got ++ [misos]).length = got.length + 1 := by simp
  have window := same.trans (received.window.trans (wireWindow_after wire))
  rw [step_access access, next, data]
  by_cases all : got.length + 1 = write.length + readLength
  · rw [if_pos all] at goes
    exact ⟨2, by omega, .waitTmt _ goes vars' driven ended.waiting window (count.trans all)⟩
  · rw [if_neg all] at goes
    exact ⟨_, by omega, .ready _ goes vars' driven ended.waiting window (by omega)⟩

theorem waitTmt_step {got : List (List Bool)} (pc : s.command.pc = .waitTmt)
    (vars : Variables write readLength got.length got s.command)
    (driving : Driving closed s) (waiting : Waiting false s.core)
    (window : s.observer.window = wireWindow write readLength got.length got)
    (all : got.length = write.length + readLength) :
    Phase write readLength closed 1 (s.step slot) := by
  have access : s.command.access? = some (.read 2) := by simp [Command.access?, pc]
  obtain ⟨tmt, -⟩ := waiting_status slot driving.settled waiting
  have ended := ended_waiting slot (.read 2) driving.settled waiting (Or.inl rfl)
  have next : s.command.next (slot.begun (.read 2) (s.core, s.observer)).1.dataToCpu =
      { s.command with
        status := (slot.begun (.read 2) (s.core, s.observer)).1.dataToCpu, pc := .release } := by
    have alone : s.command.flags &&& spiCommandMerge = 0 := by
      rw [vars.flags]
      decide
    simp only [Command.next, pc, if_neg tmt, if_pos alone]
  rw [step_access access, next]
  obtain ⟨driven, same⟩ := driving.read slot waiting 2 { s.command with
    status := (slot.begun (.read 2) (s.core, s.observer)).1.dataToCpu, pc := .release }
  exact .release got rfl (vars.moved _ _) driven ended.waiting (same.trans window) all

theorem release_step {got : List (List Bool)} (pc : s.command.pc = .release)
    (vars : Variables write readLength got.length got s.command)
    (driving : Driving closed s) (waiting : Waiting false s.core)
    (window : s.observer.window = wireWindow write readLength got.length got)
    (all : got.length = write.length + readLength) :
    Phase write readLength closed 0 (s.step slot) := by
  have access : s.command.access? = some (.write 3 0) := by simp [Command.access?, pc]
  have ended := ended_waiting slot (.write 3 0) driving.settled waiting
    (Or.inr (by decide))
  have next (data : BitVec 16) : s.command.next data = { s.command with pc := .returned } := by
    simp [Command.next, pc]
  have sso : (slot.ended (.write 3 0) (s.core, s.observer)).1.ssoReg = false := ended.sso
  have high : (slot.ended (.write 3 0) (s.core, s.observer)).1.pins.ssN = true := by
    rw [ended.waiting.ssN, sso]
    rfl
  have closes := ended.closed
  rw [driving.ssN, high, Bool.not_false, Bool.true_and, if_pos rfl, driving.closed, window] at closes
  rw [step_access access, next]
  exact .returned got rfl (vars.moved _ _) ⟨ended.settled, ⟨_, ended.waiting⟩, sso⟩ closes all

end Steps

end VoltCtrl.Firmware
