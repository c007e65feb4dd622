/-
Module: VoltCtrl.Firmware.SpiExchange
Layer: Firmware
Purpose: Whole commands of the SPI driver. A command that writes or reads something returns within a fixed
  number of accesses for each byte; one window of `SS_n` carries the bytes written and a zero for each byte
  to read, most significant bit first, and the bytes read are the levels of `MISO` in it. A command of no
  bytes never returns.
Trusted boundary: none
Main exports: phase_step, phase_run, SpiMaster.call, command_exchanges, empty_command_polls
-/
import VoltCtrl.Firmware.SpiCommand

namespace VoltCtrl.Firmware

open VoltCtrl.Core VoltCtrl.Hardware

section Steps

variable {write : List UInt8} {readLength : Nat} {closed : List Window} {s : SpiMaster}
  {slot : SpiSlot}

theorem returned_step (pc : s.command.pc = .returned) : s.step slot = s := by
  simp [SpiMaster.step, Command.access?, pc]

theorem phase_step {rank : Nat} (slot : SpiSlot) (bytes : 0 < write.length + readLength)
    (phase : Phase write readLength closed rank s) (going : 0 < rank) :
    ∃ less, less < rank ∧ Phase write readLength closed less (s.step slot) := by
  cases phase with
  | slaveSel pc vars rest before => exact ⟨_, by omega, slaveSel_step pc vars rest before⟩
  | control pc vars rest holding before =>
      exact ⟨_, by omega, control_step pc vars rest holding before⟩
  | discard pc vars driving waiting window =>
      exact ⟨_, by omega, discard_step bytes pc vars driving waiting window⟩
  | ready got pc vars driving waiting window more =>
      exact ⟨_, by omega, ready_step pc vars driving waiting window more⟩
  | txdata got value pc status vars driving waiting window wire =>
      have more : got.length < write.length + readLength := by
        rw [← wireBytes_length]
        exact (List.getElem?_eq_some_iff.1 wire).1
      exact ⟨_, by omega, txdata_step pc status vars driving waiting window wire⟩
  | sending got value left pc vars driving sending wire most =>
      exact sending_step pc vars driving sending wire most
  | arrived got value misos pc vars driving received wire =>
      exact ⟨_, by omega, arrived_step pc vars driving received wire⟩
  | rxdata got value misos pc vars driving received wire =>
      exact rxdata_step pc vars driving received wire
  | waitTmt got pc vars driving waiting window all =>
      exact ⟨_, by omega, waitTmt_step pc vars driving waiting window all⟩
  | release got pc vars driving waiting window all =>
      exact ⟨_, by omega, release_step pc vars driving waiting window all⟩
  | returned => exact absurd going (lt_irrefl 0)

/-- Only a command that has returned may take no further access. -/
theorem Phase.finished (phase : Phase write readLength closed 0 s) :
    ∃ got : List (List Bool), s.command.pc = .returned ∧
      Variables write readLength got.length got s.command ∧ AtRest s.core s.observer ∧
      s.observer.closed = closed ++ [wireWindow write readLength got.length got] ∧
      got.length = write.length + readLength := by
  generalize none : 0 = rank at phase
  cases phase with
  | returned got pc vars rest after all => exact ⟨got, pc, vars, rest, after, all⟩
  | _ => omega

theorem phase_run {rank : Nat} (bytes : 0 < write.length + readLength)
    (phase : Phase write readLength closed rank s) {slots : List SpiSlot}
    (enough : rank ≤ slots.length) :
    Phase write readLength closed 0 (run SpiMaster.step s slots) := by
  induction slots generalizing s rank with
  | nil =>
      rw [List.length_nil, Nat.le_zero] at enough
      exact enough ▸ phase
  | cons slot slots ih =>
      rw [List.length_cons] at enough
      rcases Nat.eq_zero_or_pos rank with rfl | going
      · obtain ⟨got, pc, -⟩ := phase.finished
        rw [run_cons, returned_step pc]
        exact ih phase (Nat.zero_le _)
      · obtain ⟨less, shorter, next⟩ := phase_step slot bytes phase going
        exact ih next (by omega)

end Steps

/-! ### Whole commands -/

/-- The core at rest and a call of the driver for slave 0 without flags. -/
def SpiMaster.call (core : NiosSpi) (observer : Observer) (write : List UInt8) (readLength : Nat) :
    SpiMaster where
  core := core
  observer := observer
  command := Command.start 0 0 write readLength

theorem call_phase {core : NiosSpi} {observer : Observer} (rest : AtRest core observer)
    (write : List UInt8) (readLength : Nat) :
    Phase write readLength observer.closed (41 * (write.length + readLength) + 5)
      (SpiMaster.call core observer write readLength) :=
  .slaveSel rfl
    { slave := rfl
      flags := rfl
      writeData := rfl
      length := rfl
      writeZeros := by simp [SpiMaster.call, Command.start]
      readIgnore := rfl
      readData := by simp [SpiMaster.call, Command.start]
      credits := rfl
      eights := by simp }
    rest rfl

/-- A command of at least one byte returns; its window of `SS_n` carries what is written and zeros, most
significant bit first and at both edges of `SCLK`, and what it reads is the levels of `MISO` in it. -/
theorem command_exchanges {core : NiosSpi} {observer : Observer} (rest : AtRest core observer)
    (write : List UInt8) (readLength : Nat) (bytes : 0 < write.length + readLength)
    (slots : List SpiSlot) (enough : 41 * (write.length + readLength) + 5 ≤ slots.length) :
    ∃ (after : SpiMaster) (got : List (List Bool)),
      run SpiMaster.step (SpiMaster.call core observer write readLength) slots = after ∧
        after.command.pc = .returned ∧ AtRest after.core after.observer ∧
        got.length = write.length + readLength ∧ (∀ bits ∈ got, bits.length = 8) ∧
        after.command.readData = (got.drop write.length).map byteOfBits ∧
        after.observer.closed =
          observer.closed ++
            [{ rises := (write ++ List.replicate readLength 0).flatMap wireBits
               falls := (write ++ List.replicate readLength 0).flatMap wireBits
               misos := got.flatten }] := by
  have final := phase_run bytes (call_phase rest write readLength) enough
  obtain ⟨got, pc, vars, rest', closed, all⟩ := final.finished
  refine ⟨_, got, rfl, pc, rest', all, vars.eights, vars.readData, ?_⟩
  rw [closed, wireWindow, List.take_of_length_le (by rw [wireBytes_length, all])]
  rfl

/-- The slave that has seen nothing but the pins after reset. -/
def Observer.start : Observer where
  last := NiosSpi.reset.pins
  window := Window.empty
  closed := []

theorem reset_atRest : AtRest NiosSpi.reset Observer.start where
  settled := ⟨rfl, fun _ => rfl, rfl, rfl, rfl, rfl, rfl, rfl⟩
  waiting := ⟨false, rfl, rfl, rfl, rfl, rfl, rfl⟩
  sso := rfl

/-- An access at once, with `MISO` low. -/
def SpiSlot.quiet : SpiSlot where
  gap := []
  first := false
  second := false

theorem reset_exchanges :
    ((run SpiMaster.step (SpiMaster.call NiosSpi.reset Observer.start [0x70, 0x3C] 0)
        (List.replicate 87 SpiSlot.quiet)).observer.closed.map Window.falls) =
      [wireBits 0x70 ++ wireBits 0x3C] := by
  obtain ⟨after, got, final, -, -, -, -, -, closed⟩ :=
    command_exchanges reset_atRest [0x70, 0x3C] 0 (by decide) (List.replicate 87 SpiSlot.quiet)
      (by decide)
  rw [final, closed]
  rfl

/-! ### A command of no bytes -/

/-- The driver of a command of no bytes: there is nothing to write and nothing arrives. -/
structure Empty (s : SpiMaster) : Prop where
  waiting : ∃ ready, Waiting ready s.core ∧ (s.command.pc = .poll → ready = false)
  settled : Settled s.core s.observer
  slave : s.command.slave = 0
  flags : s.command.flags = 0
  writeData : s.command.writeData = []
  writeZeros : s.command.writeZeros = 0
  pc : s.command.pc = .slaveSel ∨ s.command.pc = .control ∨ s.command.pc = .discard ∨
    s.command.pc = .poll

/-- A status without `RRDY` leaves such a driver polling. -/
theorem polled_empty {c : Command} {data : BitVec 16} (writeData : c.writeData = [])
    (writeZeros : c.writeZeros = 0) (nothing : data &&& spiStatusRrdy = 0) :
    ∃ credits, c.polled data = { c with status := data, credits := credits, pc := .poll } := by
  simp only [Command.polled, Command.afterTx, writeData, writeZeros, lt_irrefl, nothing,
    ne_eq, not_true_eq_false, and_true, if_false]
  split
  · exact ⟨_, rfl⟩
  · split <;> exact ⟨_, rfl⟩

theorem Empty.step {s : SpiMaster} (empty : Empty s) (slot : SpiSlot) : Empty (s.step slot) := by
  obtain ⟨⟨ready, waiting, polling⟩, settled, slave, flags, writeData, writeZeros, pc⟩ := empty
  rcases pc with pc | pc | pc | pc
  · have access : s.command.access? = some (.write 5 1) := by simp [Command.access?, pc, slave]
    have ended := ended_waiting slot (.write 5 1) settled waiting (Or.inr (by decide))
    have next (data : BitVec 16) : s.command.next data = { s.command with pc := .control } := by
      simp [Command.next, pc, flags]
    rw [step_access access, next]
    exact ⟨⟨_, ended.waiting, fun polls => by cases polls⟩, ended.settled, slave, flags, writeData, writeZeros,
      Or.inr (Or.inl rfl)⟩
  · have access : s.command.access? = some (.write 3 spiControlSso) := by
      simp [Command.access?, pc]
    have ended := ended_waiting slot (.write 3 spiControlSso) settled waiting
      (Or.inr (by decide))
    have next (data : BitVec 16) : s.command.next data = { s.command with pc := .discard } := by
      simp [Command.next, pc]
    rw [step_access access, next]
    exact ⟨⟨_, ended.waiting, fun polls => by cases polls⟩, ended.settled, slave, flags, writeData, writeZeros,
      Or.inr (Or.inr (Or.inl rfl))⟩
  · have access : s.command.access? = some (.read 0) := by simp [Command.access?, pc]
    have ended := ended_waiting slot (.read 0) settled waiting (Or.inl rfl)
    have next (data : BitVec 16) : s.command.next data = { s.command with pc := .poll } := by
      simp [Command.next, pc]
    -- reading `RXDATA` has cleared `RRDY`
    have clear : (ready && !(!(SpiAccess.read 0).bus.readN && (SpiAccess.read 0).bus.memAddr == 0)) =
        false := by
      cases ready <;> rfl
    rw [step_access access, next]
    exact ⟨⟨_, ended.waiting, fun _ => clear⟩, ended.settled, slave, flags, writeData, writeZeros,
      Or.inr (Or.inr (Or.inr rfl))⟩
  · have access : s.command.access? = some (.read 2) := by simp [Command.access?, pc]
    have ended := ended_waiting slot (.read 2) settled waiting (Or.inl rfl)
    have next (data : BitVec 16) : s.command.next data = s.command.polled data := by
      simp [Command.next, pc]
    obtain ⟨-, -, rrdy⟩ := waiting_status slot settled waiting
    obtain ⟨credits, goes⟩ := polled_empty writeData writeZeros (rrdy.2 (polling pc))
    have still : (ready && !(!(SpiAccess.read 2).bus.readN && (SpiAccess.read 2).bus.memAddr == 0)) =
        ready := by
      cases ready <;> rfl
    rw [step_access access, next, goes]
    exact ⟨⟨_, ended.waiting, fun _ => still.trans (polling pc)⟩, ended.settled, slave, flags,
      writeData, writeZeros, Or.inr (Or.inr (Or.inr rfl))⟩

end VoltCtrl.Firmware
