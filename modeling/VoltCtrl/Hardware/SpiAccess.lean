/-
Module: VoltCtrl.Hardware.SpiAccess
Layer: Hardware
Purpose: The accesses of the processor to the SPI core, each after any number of cycles without one. An
  access takes two cycles: the strobe of a write is raised in the second one, and what is read is in
  `data_to_cpu` in the second one. For each register that the driver uses there is one lemma that says
  what the access leaves, at the pins and in the core.
Trusted boundary: none
Main exports: SpiAccess, SpiSlot, SpiSlot.begun, SpiSlot.ended, Settled, Ended, ended_waiting,
  ended_txdata, waiting_status, sending_status
-/
import VoltCtrl.Hardware.SpiByte

namespace VoltCtrl.Hardware

open VoltCtrl.Core

inductive SpiAccess where
  | read (address : BitVec 3)
  | write (address : BitVec 3) (data : BitVec 16)
deriving DecidableEq

def SpiAccess.bus : SpiAccess → SpiBus
  | .read address =>
      { spiSelect := true, readN := false, writeN := true, memAddr := address, dataFromCpu := 0 }
  | .write address data =>
      { spiSelect := true, readN := true, writeN := false, memAddr := address, dataFromCpu := data }

/-- The levels of `MISO` in the cycles before an access and in its two cycles. -/
structure SpiSlot where
  gap : List Bool
  first : Bool
  second : Bool

/-- The cycles before an access. -/
def SpiSlot.idle (slot : SpiSlot) : List SpiCycle :=
  slot.gap.map (⟨·, SpiBus.idle⟩)

/-- The core and the slave in the second cycle of an access. -/
def SpiSlot.begun (slot : SpiSlot) (access : SpiAccess) (s : NiosSpi × Observer) :
    NiosSpi × Observer :=
  watched s (slot.idle ++ [⟨slot.first, access.bus⟩])

/-- The core and the slave after an access. -/
def SpiSlot.ended (slot : SpiSlot) (access : SpiAccess) (s : NiosSpi × Observer) :
    NiosSpi × Observer :=
  watched s (slot.idle ++ [⟨slot.first, access.bus⟩, ⟨slot.second, access.bus⟩])

/-- The core between two accesses, without errors. A window is open only while `SS_n` is low. -/
structure Settled (s : NiosSpi) (o : Observer) : Prop where
  seen : o.last = s.pins
  window : s.pins.ssN = true → o.window = Window.empty
  roe : s.roe = false
  toe : s.toe = false
  rdStrobe : s.rdStrobe = false
  dataRdStrobe : s.dataRdStrobe = false
  wrStrobe : s.wrStrobe = false
  dataWrStrobe : s.dataWrStrobe = false

/-- Nothing has been written and nothing taken. -/
structure Same (s t : NiosSpi) (o p : Observer) : Prop where
  rxHolding : t.rxHoldingReg = s.rxHoldingReg
  sso : t.ssoReg = s.ssoReg
  select : t.spiSlaveSelectReg = s.spiSlaveSelectReg
  holding : t.spiSlaveSelectHoldingReg = s.spiSlaveSelectHoldingReg
  window : p.window = o.window
  closed : p.closed = o.closed

theorem Same.refl (s : NiosSpi) (o : Observer) : Same s s o o := ⟨rfl, rfl, rfl, rfl, rfl, rfl⟩

theorem Same.trans {s t u : NiosSpi} {o p q : Observer} (first : Same s t o p)
    (second : Same t u p q) : Same s u o q where
  rxHolding := second.rxHolding.trans first.rxHolding
  sso := second.sso.trans first.sso
  select := second.select.trans first.select
  holding := second.holding.trans first.holding
  window := second.window.trans first.window
  closed := second.closed.trans first.closed

/-! ### Cycles of a core that transmits nothing -/

section Cycles

variable {s : NiosSpi} {o : Observer} {ready : Bool} {c : SpiCycle}

theorem Waiting.wires (waiting : Waiting ready s) :
    s.slowclock = false ∧ s.lastClock = false ∧ s.writeShiftReg = false ∧ s.trdy = true ∧
      s.enableSS = false := by
  simp [NiosSpi.slowclock, NiosSpi.lastClock, NiosSpi.writeShiftReg, NiosSpi.trdy, NiosSpi.enableSS,
    waiting.slowcount, waiting.primed, waiting.transmitting]

theorem Waiting.ssN (waiting : Waiting ready s) :
    s.pins.ssN = !(s.ssoReg && s.spiSlaveSelectReg.getLsbD 0) := by
  obtain ⟨-, -, -, -, off⟩ := waiting.wires
  cases sso : s.ssoReg <;> simp [NiosSpi.pins, off, sso]

/-- The character interface, when no character and no write of the status is strobed. -/
theorem waiting_cycle (waiting : Waiting ready s) (none : s.dataWrStrobe = false)
    (status : s.statusWrStrobe c.bus = false) :
    Waiting (ready && !s.dataRdStrobe) (s.cycle c) ∧
      (s.cycle c).rxHoldingReg = s.rxHoldingReg ∧ (s.cycle c).roe = s.roe ∧
      (s.cycle c).toe = s.toe := by
  obtain ⟨slow, last, write, -, -⟩ := waiting.wires
  have holding : s.writeTxHolding = false := by simp [NiosSpi.writeTxHolding, none]
  refine ⟨⟨?_, ?_, ?_, ?_, ?_, ?_⟩, ?_, ?_, ?_⟩
  · simp [NiosSpi.cycle, NiosSpi.step, last, write, waiting.transmitting]
  · simp [NiosSpi.cycle, NiosSpi.step, write, holding, waiting.primed]
  · simp [NiosSpi.cycle, NiosSpi.step, waiting.transmitting]
  · simp [NiosSpi.cycle, NiosSpi.step, waiting.transmitting, waiting.state]
  · simp [NiosSpi.cycle, NiosSpi.step, last, slow, waiting.sclk]
  · cases read : s.dataRdStrobe <;>
      simp [NiosSpi.cycle, NiosSpi.step, last, status, read, waiting.rrdy]
  · simp [NiosSpi.cycle, NiosSpi.step, last]
  · simp [NiosSpi.cycle, NiosSpi.step, last, status]
  · simp [NiosSpi.cycle, NiosSpi.step, status, none]

/-- The registers that a write of the processor may change. -/
theorem write_cycle (s : NiosSpi) (c : SpiCycle) :
    (s.cycle c).ssoReg =
        (if s.controlWrStrobe c.bus then c.bus.dataFromCpu.getLsbD 10 else s.ssoReg) ∧
      (s.cycle c).spiSlaveSelectHoldingReg =
        (if s.slaveselectWrStrobe c.bus then c.bus.dataFromCpu
          else s.spiSlaveSelectHoldingReg) ∧
      (s.cycle c).spiSlaveSelectReg =
        if s.writeShiftReg || (s.controlWrStrobe c.bus && c.bus.dataFromCpu.getLsbD 10 && !s.ssoReg)
          then s.spiSlaveSelectHoldingReg
        else s.spiSlaveSelectReg :=
  ⟨rfl, rfl, rfl⟩

/-- What the slave sees while `SCLK` is low. -/
theorem low_watch (seen : o.last = s.pins) (low : s.sclkReg = false)
    (next : (s.cycle c).sclkReg = false) :
    (watch o s c).window = (if (s.cycle c).pins.ssN then Window.empty else o.window) ∧
      (watch o s c).closed =
        if !s.pins.ssN && (s.cycle c).pins.ssN then o.closed ++ [o.window] else o.closed := by
  have before : s.pins.sclk = false := low
  have after : (s.cycle c).pins.sclk = false := next
  constructor
  · simp [watch, Observer.see, seen, before, after]
  · simp [watch, Observer.see, seen]

/-- The core in the second cycle of an access, `t`, after the first one. -/
structure Begun (access : SpiAccess) (s t : NiosSpi) : Prop where
  rdStrobe : t.rdStrobe = !access.bus.readN
  dataRdStrobe : t.dataRdStrobe = (!access.bus.readN && access.bus.memAddr == 0)
  wrStrobe : t.wrStrobe = !access.bus.writeN
  dataWrStrobe : t.dataWrStrobe = (!access.bus.writeN && access.bus.memAddr == 1)
  data : t.dataToCpu = s.p1DataToCpu access.bus

theorem Settled.begun (settled : Settled s o) (access : SpiAccess) (miso : Bool) :
    Begun access s (s.cycle ⟨miso, access.bus⟩) := by
  have on : access.bus.spiSelect = true := by cases access <;> rfl
  constructor
  · simp [NiosSpi.cycle, NiosSpi.step, NiosSpi.p1RdStrobe, settled.rdStrobe, on]
  · simp [NiosSpi.cycle, NiosSpi.step, NiosSpi.p1DataRdStrobe, NiosSpi.p1RdStrobe,
      settled.rdStrobe, on]
  · simp [NiosSpi.cycle, NiosSpi.step, NiosSpi.p1WrStrobe, settled.wrStrobe, on]
  · simp [NiosSpi.cycle, NiosSpi.step, NiosSpi.p1DataWrStrobe, NiosSpi.p1WrStrobe,
      settled.wrStrobe, on]
  · rfl

/-- A cycle without an access, or the first one of an access. -/
theorem Settled.cycle (settled : Settled s o) (waiting : Waiting ready s) :
    Waiting ready (s.cycle c) ∧ Same s (s.cycle c) o (watch o s c) ∧
      (s.cycle c).roe = false ∧ (s.cycle c).toe = false ∧
      ((s.cycle c).pins.ssN = true → (watch o s c).window = Window.empty) := by
  obtain ⟨next, rx, roe, toe⟩ := waiting_cycle (c := c) waiting settled.dataWrStrobe
    (by simp [NiosSpi.statusWrStrobe, settled.wrStrobe])
  rw [settled.dataRdStrobe, Bool.not_false, Bool.and_true] at next
  obtain ⟨sso, holding, select⟩ := write_cycle s c
  simp only [NiosSpi.controlWrStrobe, NiosSpi.slaveselectWrStrobe, settled.wrStrobe,
    waiting.wires.2.2.1, Bool.false_and, Bool.or_self, Bool.false_eq_true, if_false]
    at sso holding select
  have ssN : (s.cycle c).pins.ssN = s.pins.ssN := by rw [next.ssN, waiting.ssN, sso, select]
  obtain ⟨window, closed⟩ := low_watch settled.seen waiting.sclk next.sclk
  have kept : (watch o s c).window = o.window := by
    rw [window, ssN]
    split
    · rename_i high
      exact (settled.window high).symm
    · rfl
  refine ⟨next, ⟨rx, sso, select, holding, kept, ?_⟩, roe.trans settled.roe, toe.trans settled.toe,
    ?_⟩
  · rw [closed, ssN]
    cases s.pins.ssN <;> rfl
  · intro high
    rw [kept]
    exact settled.window (ssN ▸ high)

/-- The second cycle of an access that gives the core no character. -/
theorem Begun.cycle {access : SpiAccess} {t : NiosSpi} (begun : Begun access s t)
    (noChar : t.dataWrStrobe = false) (noStatus : access.bus.memAddr ≠ 2 ∨ t.wrStrobe = false)
    (waiting : Waiting ready t) (seen : o.last = t.pins) (roe : t.roe = false)
    (toe : t.toe = false) (miso : Bool) :
    Waiting (ready && !t.dataRdStrobe) (t.cycle ⟨miso, access.bus⟩) ∧
      (t.cycle ⟨miso, access.bus⟩).rxHoldingReg = t.rxHoldingReg ∧
      Settled (t.cycle ⟨miso, access.bus⟩) (watch o t ⟨miso, access.bus⟩) := by
  have status : t.statusWrStrobe access.bus = false := by
    rcases noStatus with other | read
    · simp only [NiosSpi.statusWrStrobe, Bool.and_eq_false_iff, beq_eq_false_iff_ne]
      exact Or.inr other
    · simp [NiosSpi.statusWrStrobe, read]
  obtain ⟨next, rx, sameRoe, sameToe⟩ :=
    waiting_cycle (c := ⟨miso, access.bus⟩) waiting noChar status
  obtain ⟨window, -⟩ := low_watch seen waiting.sclk next.sclk
  refine ⟨next, rx, rfl, ?_, sameRoe.trans roe, sameToe.trans toe, ?_, ?_, ?_, ?_⟩
  · intro high
    rw [window, if_pos high]
  · cases read : access.bus.readN <;>
      simp [NiosSpi.cycle, NiosSpi.step, NiosSpi.p1RdStrobe, begun.rdStrobe, read]
  · cases read : access.bus.readN <;>
      simp [NiosSpi.cycle, NiosSpi.step, NiosSpi.p1DataRdStrobe, NiosSpi.p1RdStrobe, begun.rdStrobe,
        read]
  · cases write : access.bus.writeN <;>
      simp [NiosSpi.cycle, NiosSpi.step, NiosSpi.p1WrStrobe, begun.wrStrobe, write]
  · cases write : access.bus.writeN <;>
      simp [NiosSpi.cycle, NiosSpi.step, NiosSpi.p1DataWrStrobe, NiosSpi.p1WrStrobe, begun.wrStrobe,
        write]

end Cycles

/-! ### Whole accesses -/

section Slots

variable {s : NiosSpi} {o : Observer} {ready : Bool} (slot : SpiSlot)

theorem SpiSlot.idle_harmless (slot : SpiSlot) : ∀ c ∈ slot.idle, c.Harmless := by
  intro c member
  obtain ⟨level, -, rfl⟩ := List.mem_map.1 member
  exact Or.inl rfl

/-- The cycles before an access leave the strobes low. -/
theorem idle_rdStrobe (gap : List Bool) (s : NiosSpi) (o : Observer) (before : s.rdStrobe = false) :
    (watched (s, o) (gap.map (⟨·, SpiBus.idle⟩))).1.rdStrobe = false := by
  induction gap generalizing s o with
  | nil => exact before
  | cons level gap ih => exact ih _ _ (by simp [NiosSpi.cycle, NiosSpi.step, NiosSpi.p1RdStrobe, SpiBus.idle])

/-- The cycles before an access to a core that transmits nothing. -/
theorem idle_waiting (gap : List Bool) (settled : Settled s o) (waiting : Waiting ready s) :
    Settled (watched (s, o) (gap.map (⟨·, SpiBus.idle⟩))).1
        (watched (s, o) (gap.map (⟨·, SpiBus.idle⟩))).2 ∧
      Waiting ready (watched (s, o) (gap.map (⟨·, SpiBus.idle⟩))).1 ∧
      Same s (watched (s, o) (gap.map (⟨·, SpiBus.idle⟩))).1 o
        (watched (s, o) (gap.map (⟨·, SpiBus.idle⟩))).2 := by
  induction gap generalizing s o with
  | nil => exact ⟨settled, waiting, Same.refl s o⟩
  | cons level gap ih =>
      obtain ⟨next, same, roe, toe, window⟩ := settled.cycle (c := ⟨level, SpiBus.idle⟩) waiting
      have still : Settled (s.cycle ⟨level, SpiBus.idle⟩) (watch o s ⟨level, SpiBus.idle⟩) := by
        refine ⟨rfl, window, roe, toe, ?_, ?_, ?_, ?_⟩
        · simp [NiosSpi.cycle, NiosSpi.step, NiosSpi.p1RdStrobe, SpiBus.idle]
        · simp [NiosSpi.cycle, NiosSpi.step, NiosSpi.p1DataRdStrobe, NiosSpi.p1RdStrobe, SpiBus.idle]
        · simp [NiosSpi.cycle, NiosSpi.step, NiosSpi.p1WrStrobe, SpiBus.idle]
        · simp [NiosSpi.cycle, NiosSpi.step, NiosSpi.p1DataWrStrobe, NiosSpi.p1WrStrobe, SpiBus.idle]
      obtain ⟨final, stays, sames⟩ := ih still next
      exact ⟨final, stays, same.trans sames⟩

/-- The core in the second cycle of an access when nothing is transmitted. -/
structure InSecond (access : SpiAccess) (ready : Bool) (s t : NiosSpi) (o p : Observer) : Prop where
  begun : ∃ before, Begun access before t ∧ Waiting ready before ∧
    before.rxHoldingReg = s.rxHoldingReg
  waiting : Waiting ready t
  same : Same s t o p
  seen : p.last = t.pins
  roe : t.roe = false
  toe : t.toe = false

theorem begun_waiting (access : SpiAccess) (settled : Settled s o) (waiting : Waiting ready s) :
    InSecond access ready s (slot.begun access (s, o)).1 o (slot.begun access (s, o)).2 := by
  obtain ⟨still, stays, same⟩ := idle_waiting slot.gap settled waiting
  have split : slot.begun access (s, o) =
      withHistory NiosSpi.cycle watch (watched (s, o) slot.idle) ⟨slot.first, access.bus⟩ :=
    run_snoc _ _ _
  rw [split]
  obtain ⟨next, sames, roe, toe, -⟩ := still.cycle (c := ⟨slot.first, access.bus⟩) stays
  exact ⟨⟨_, still.begun access slot.first, stays, same.rxHolding⟩, next, same.trans sames, rfl, roe,
    toe⟩

theorem ended_eq (access : SpiAccess) (s : NiosSpi × Observer) :
    slot.ended access s =
      withHistory NiosSpi.cycle watch (slot.begun access s) ⟨slot.second, access.bus⟩ := by
  have whole : slot.idle ++ [⟨slot.first, access.bus⟩, ⟨slot.second, access.bus⟩] =
      slot.idle ++ [⟨slot.first, access.bus⟩] ++ [⟨slot.second, access.bus⟩] := by simp
  rw [SpiSlot.ended, whole]
  exact run_snoc _ _ _

/-- A core that transmits nothing after an access that gives it no character. -/
structure Ended (access : SpiAccess) (ready : Bool) (s u : NiosSpi) (o p : Observer) : Prop where
  settled : Settled u p
  waiting : Waiting (ready && !(!access.bus.readN && access.bus.memAddr == 0)) u
  rxHolding : u.rxHoldingReg = s.rxHoldingReg
  sso : u.ssoReg =
    if !access.bus.writeN && access.bus.memAddr == 3 then access.bus.dataFromCpu.getLsbD 10
    else s.ssoReg
  holding : u.spiSlaveSelectHoldingReg =
    if !access.bus.writeN && access.bus.memAddr == 5 then access.bus.dataFromCpu
    else s.spiSlaveSelectHoldingReg
  select : u.spiSlaveSelectReg =
    if !access.bus.writeN && access.bus.memAddr == 3 && access.bus.dataFromCpu.getLsbD 10 &&
        !s.ssoReg then s.spiSlaveSelectHoldingReg
    else s.spiSlaveSelectReg
  window : p.window = if u.pins.ssN then Window.empty else o.window
  closed : p.closed = if !s.pins.ssN && u.pins.ssN then o.closed ++ [o.window] else o.closed

section Second

variable {access : SpiAccess} {t : NiosSpi} {p : Observer}

theorem InSecond.plain (second : InSecond access ready s t o p) (waiting : Waiting ready s)
    (plain : access.bus.writeN = true ∨ (access.bus.memAddr ≠ 1 ∧ access.bus.memAddr ≠ 2))
    (miso : Bool) :
    Ended access ready s (t.cycle ⟨miso, access.bus⟩) o (watch p t ⟨miso, access.bus⟩) := by
  obtain ⟨⟨before, begun, -, -⟩, now, same, seen, roe, toe⟩ := second
  have noChar : t.dataWrStrobe = false := by
    rw [begun.dataWrStrobe, Bool.and_eq_false_iff, Bool.not_eq_false', beq_eq_false_iff_ne]
    exact plain.imp_right And.left
  have noStatus : access.bus.memAddr ≠ 2 ∨ t.wrStrobe = false := by
    rcases plain with read | ⟨-, other⟩
    · exact Or.inr (by rw [begun.wrStrobe, read]; rfl)
    · exact Or.inl other
  obtain ⟨next, rx, settled'⟩ := begun.cycle noChar noStatus now seen roe toe miso
  obtain ⟨sso, holding, select⟩ := write_cycle t ⟨miso, access.bus⟩
  obtain ⟨window, closed⟩ := low_watch seen now.sclk next.sclk
  have ssN : t.pins.ssN = s.pins.ssN := by
    rw [now.ssN, waiting.ssN, same.sso, same.select]
  refine ⟨settled', begun.dataRdStrobe ▸ next, rx.trans same.rxHolding, ?_, ?_, ?_, ?_, ?_⟩
  · rw [← same.sso, ← begun.wrStrobe]
    exact sso
  · rw [← same.holding, ← begun.wrStrobe]
    exact holding
  · rw [← same.holding, ← same.select, ← same.sso, ← begun.wrStrobe]
    rw [now.wires.2.2.1, Bool.false_or] at select
    exact select
  · rw [← same.window]
    exact window
  · rw [← same.window, ← same.closed, ← ssN]
    exact closed

/-- A character is given to a core that transmits nothing and whose `SS_n` is low. -/
theorem InSecond.txdata {value : BitVec 8}
    (second : InSecond (.write 1 (value.setWidth 16)) false s t o p) (waiting : Waiting false s)
    (low : s.pins.ssN = false) (miso : Bool) {c : SpiCycle}
    (bus : c = ⟨miso, (SpiAccess.write 1 (value.setWidth 16)).bus⟩) :
    Settled (t.cycle c) (watch p t c) ∧ Loading value o.window (t.cycle c) (watch p t c) ∧
      (t.cycle c).ssoReg = s.ssoReg ∧ (t.cycle c).spiSlaveSelectReg = s.spiSlaveSelectReg ∧
      (t.cycle c).spiSlaveSelectHoldingReg = s.spiSlaveSelectHoldingReg ∧
      (watch p t c).closed = o.closed := by
  obtain ⟨⟨before, begun, -, -⟩, now, same, seen, roe, toe⟩ := second
  obtain ⟨slow, last, write, trdy, -⟩ := now.wires
  have strobe : t.dataWrStrobe = true := begun.dataWrStrobe
  have wrStrobe : t.wrStrobe = true := begun.wrStrobe
  have rdStrobe : t.rdStrobe = false := begun.rdStrobe
  have dataRdStrobe : t.dataRdStrobe = false := begun.dataRdStrobe
  have char : t.writeTxHolding = true := by simp [NiosSpi.writeTxHolding, trdy, strobe]
  have control : t.controlWrStrobe c.bus = false := by
    simp [NiosSpi.controlWrStrobe, bus, SpiAccess.bus]
  have status : t.statusWrStrobe c.bus = false := by
    simp [NiosSpi.statusWrStrobe, bus, SpiAccess.bus]
  have slave : t.slaveselectWrStrobe c.bus = false := by
    simp [NiosSpi.slaveselectWrStrobe, bus, SpiAccess.bus]
  have transmitting : (t.cycle c).transmitting = false := by
    simp [NiosSpi.cycle, NiosSpi.step, last, write, now.transmitting]
  have sclk : (t.cycle c).sclkReg = false := by
    simp [NiosSpi.cycle, NiosSpi.step, last, slow, now.sclk]
  have sso : (t.cycle c).ssoReg = t.ssoReg := by simp [NiosSpi.cycle, NiosSpi.step, control]
  have select : (t.cycle c).spiSlaveSelectReg = t.spiSlaveSelectReg := by
    simp [NiosSpi.cycle, NiosSpi.step, control, write]
  have holding : (t.cycle c).spiSlaveSelectHoldingReg = t.spiSlaveSelectHoldingReg := by
    simp [NiosSpi.cycle, NiosSpi.step, slave]
  have ssN : t.pins.ssN = false := by rw [now.ssN, same.sso, same.select, ← waiting.ssN, low]
  have stays : (t.cycle c).pins.ssN = false := by
    have off : (t.cycle c).enableSS = false := by simp [NiosSpi.enableSS, transmitting]
    rw [← ssN, now.ssN, NiosSpi.pins, off, sso, select]
    cases t.ssoReg <;> simp
  obtain ⟨window, closed⟩ := low_watch seen now.sclk sclk
  rw [stays, if_neg Bool.false_ne_true, same.window] at window
  rw [stays, Bool.and_false, if_neg Bool.false_ne_true, same.closed] at closed
  refine ⟨⟨rfl, ?_, ?_, ?_, ?_, ?_, ?_, ?_⟩, ⟨transmitting, ?_, ?_, ?_, sclk, ?_, ?_, window⟩,
    sso.trans same.sso, select.trans same.select, holding.trans same.holding, closed⟩
  · intro high
    rw [stays] at high
    cases high
  · simp [NiosSpi.cycle, NiosSpi.step, last, status, roe]
  · simp [NiosSpi.cycle, NiosSpi.step, status, trdy, toe]
  · simp [NiosSpi.cycle, NiosSpi.step, NiosSpi.p1RdStrobe, bus, SpiAccess.bus]
  · simp [NiosSpi.cycle, NiosSpi.step, NiosSpi.p1DataRdStrobe, NiosSpi.p1RdStrobe, bus, SpiAccess.bus]
  · simp [NiosSpi.cycle, NiosSpi.step, NiosSpi.p1WrStrobe, wrStrobe]
  · simp [NiosSpi.cycle, NiosSpi.step, NiosSpi.p1DataWrStrobe, NiosSpi.p1WrStrobe, wrStrobe]
  · simp [NiosSpi.cycle, NiosSpi.step, write, char]
  · simp [NiosSpi.cycle, NiosSpi.step, now.transmitting]
  · simp [NiosSpi.cycle, NiosSpi.step, now.transmitting, now.state]
  · simp [NiosSpi.cycle, NiosSpi.step, last, status, dataRdStrobe, now.rrdy]
  · simp [NiosSpi.cycle, NiosSpi.step, char, bus, SpiAccess.bus]

end Second

theorem ended_waiting (access : SpiAccess) (settled : Settled s o) (waiting : Waiting ready s)
    (plain : access.bus.writeN = true ∨ (access.bus.memAddr ≠ 1 ∧ access.bus.memAddr ≠ 2)) :
    Ended access ready s (slot.ended access (s, o)).1 o (slot.ended access (s, o)).2 := by
  rw [ended_eq]
  exact (begun_waiting slot access settled waiting).plain waiting plain slot.second

theorem ended_txdata (settled : Settled s o) (waiting : Waiting false s) (low : s.pins.ssN = false)
    (value : BitVec 8) :
    Settled (slot.ended (.write 1 (value.setWidth 16)) (s, o)).1
        (slot.ended (.write 1 (value.setWidth 16)) (s, o)).2 ∧
      Loading value o.window (slot.ended (.write 1 (value.setWidth 16)) (s, o)).1
        (slot.ended (.write 1 (value.setWidth 16)) (s, o)).2 ∧
      (slot.ended (.write 1 (value.setWidth 16)) (s, o)).1.ssoReg = s.ssoReg ∧
      (slot.ended (.write 1 (value.setWidth 16)) (s, o)).1.spiSlaveSelectReg =
        s.spiSlaveSelectReg ∧
      (slot.ended (.write 1 (value.setWidth 16)) (s, o)).1.spiSlaveSelectHoldingReg =
        s.spiSlaveSelectHoldingReg ∧
      (slot.ended (.write 1 (value.setWidth 16)) (s, o)).2.closed = o.closed := by
  rw [ended_eq]
  exact (begun_waiting slot (.write 1 (value.setWidth 16)) settled waiting).txdata waiting low slot.second
    rfl

/-! ### Reads of the status -/

def spiStatusTmt : BitVec 16 := 0x20

def spiStatusTrdy : BitVec 16 := 0x40

def spiStatusRrdy : BitVec 16 := 0x80

theorem spiStatus_masks (s : NiosSpi) :
    (s.spiStatus &&& spiStatusTmt = 0 ↔ s.tmt = false) ∧
      (s.spiStatus &&& spiStatusTrdy = 0 ↔ s.trdy = false) ∧
      (s.spiStatus &&& spiStatusRrdy = 0 ↔ s.rrdy = false) := by
  rw [NiosSpi.spiStatus]
  generalize s.roe = roe, s.toe = toe, s.tmt = tmt, s.trdy = trdy, s.rrdy = rrdy, s.e = e,
    s.eop = eop
  revert roe toe tmt trdy rrdy e eop
  decide

/-- The status that a read shows is that of the cycle in which it begins. -/
theorem status_begun (s : NiosSpi × Observer) :
    (slot.begun (.read 2) s).1.dataToCpu = (watched s slot.idle).1.spiStatus := by
  have split : slot.begun (.read 2) s =
      withHistory NiosSpi.cycle watch (watched s slot.idle) ⟨slot.first, (SpiAccess.read 2).bus⟩ :=
    run_snoc _ _ _
  rw [split]
  rfl

theorem rxdata_begun (settled : Settled s o) (waiting : Waiting ready s) :
    (slot.begun (.read 0) (s, o)).1.dataToCpu = s.rxHoldingReg.setWidth 16 := by
  obtain ⟨⟨before, begun, -, same⟩, -⟩ := begun_waiting slot (.read 0) settled waiting
  rw [begun.data, ← same]
  rfl

/-- A core that transmits nothing. -/
theorem waiting_status (settled : Settled s o) (waiting : Waiting ready s) :
    (slot.begun (.read 2) (s, o)).1.dataToCpu &&& spiStatusTmt ≠ 0 ∧
      (slot.begun (.read 2) (s, o)).1.dataToCpu &&& spiStatusTrdy ≠ 0 ∧
      ((slot.begun (.read 2) (s, o)).1.dataToCpu &&& spiStatusRrdy = 0 ↔ ready = false) := by
  obtain ⟨-, stays, -⟩ := idle_waiting slot.gap settled waiting
  have same : slot.idle = slot.gap.map (⟨·, SpiBus.idle⟩) := rfl
  rw [status_begun, same]
  generalize (watched (s, o) (slot.gap.map (⟨·, SpiBus.idle⟩))).1 = t at stays
  obtain ⟨tmt, trdy, rrdy⟩ := spiStatus_masks t
  refine ⟨?_, ?_, ?_⟩
  · rw [Ne, tmt, NiosSpi.tmt, stays.transmitting, stays.primed]
    decide
  · rw [Ne, trdy, stays.wires.2.2.2.1]
    decide
  · rw [rrdy, stays.rrdy]

theorem Sending.status {b : BitVec 8} {base : Window} {left : Nat}
    (sending : Sending b base left s o) : s.trdy = true ∧ s.rrdy = false := by
  rcases sending with ⟨-, loading⟩ | ⟨j, q, -, -, -, inByte⟩
  · exact ⟨by simp [NiosSpi.trdy, loading.transmitting], loading.rrdy⟩
  · exact ⟨by simp [NiosSpi.trdy, inByte.primed], inByte.rrdy⟩

theorem Settled.held (settled : Settled s o) (sso : s.ssoReg = true)
    (select : s.spiSlaveSelectReg.getLsbD 0 = true)
    (holding : s.spiSlaveSelectHoldingReg.getLsbD 0 = true) : Held s o :=
  ⟨sso, select, holding, settled.seen, settled.roe, settled.toe, settled.wrStrobe,
    settled.dataWrStrobe, settled.dataRdStrobe⟩

theorem Held.settled (held : Held s o) (rdStrobe : s.rdStrobe = false) : Settled s o where
  seen := held.seen
  window high := by
    rw [held.ssN] at high
    cases high
  roe := held.roe
  toe := held.toe
  rdStrobe := rdStrobe
  dataRdStrobe := held.dataRdStrobe
  wrStrobe := held.wrStrobe
  dataWrStrobe := held.dataWrStrobe

/-- The strobe of a read is low again after it. -/
theorem read_rdStrobe (settled : Settled s o) (address : BitVec 3) :
    (slot.ended (.read address) (s, o)).1.rdStrobe = false := by
  have split : slot.begun (.read address) (s, o) =
      withHistory NiosSpi.cycle watch (watched (s, o) slot.idle)
        ⟨slot.first, (SpiAccess.read address).bus⟩ := run_snoc _ _ _
  have before : (watched (s, o) slot.idle).1.rdStrobe = false :=
    idle_rdStrobe slot.gap s o settled.rdStrobe
  have raised : (slot.begun (.read address) (s, o)).1.rdStrobe = true := by
    rw [split]
    simp [withHistory, NiosSpi.cycle, NiosSpi.step, NiosSpi.p1RdStrobe, before, SpiAccess.bus]
  rw [ended_eq]
  simp [withHistory, NiosSpi.cycle, NiosSpi.step, NiosSpi.p1RdStrobe, raised]

/-- A read of the status during a character: the character goes on, or it has been received. -/
theorem sending_status {b : BitVec 8} {base : Window} {left : Nat} (settled : Settled s o)
    (held : Held s o) (sending : Sending b base left s o) :
    Settled (slot.ended (.read 2) (s, o)).1 (slot.ended (.read 2) (s, o)).2 ∧
      Held (slot.ended (.read 2) (s, o)).1 (slot.ended (.read 2) (s, o)).2 ∧
      (slot.ended (.read 2) (s, o)).2.closed = o.closed ∧
      (slot.begun (.read 2) (s, o)).1.dataToCpu &&& spiStatusTrdy ≠ 0 ∧
      (((slot.begun (.read 2) (s, o)).1.dataToCpu &&& spiStatusRrdy = 0 ∧
          ∃ less, less + 2 ≤ left ∧
            Sending b base less (slot.ended (.read 2) (s, o)).1 (slot.ended (.read 2) (s, o)).2) ∨
        ∃ misos, Received b base misos (slot.ended (.read 2) (s, o)).1
          (slot.ended (.read 2) (s, o)).2) := by
  have harmless : ∀ c ∈ slot.idle ++
      [⟨slot.first, (SpiAccess.read 2).bus⟩, ⟨slot.second, (SpiAccess.read 2).bus⟩],
      c.Harmless := by
    intro c member
    rcases List.mem_append.1 member with idle | access
    · exact slot.idle_harmless c idle
    · simp only [List.mem_cons, List.not_mem_nil, or_false] at access
      rcases access with rfl | rfl <;> exact Or.inr ⟨rfl, rfl⟩
  obtain ⟨stays, closed, final⟩ := sending_run held sending harmless
  have settled' := stays.settled (read_rdStrobe slot settled 2)
  refine ⟨settled', stays, closed, ?_⟩
  rw [status_begun]
  obtain ⟨-, trdy, rrdy⟩ := spiStatus_masks (watched (s, o) slot.idle).1
  obtain ⟨-, -, now⟩ := sending_run held sending slot.idle_harmless
  constructor
  · rw [Ne, trdy]
    rcases now with ⟨-, going⟩ | ⟨-, misos, received⟩
    · rw [going.status.1]
      decide
    · rw [received.waiting.wires.2.2.2.1]
      decide
  · rw [List.length_append, List.length_cons, List.length_singleton] at final
    rcases final with ⟨inside, going⟩ | ⟨-, misos, received⟩
    · refine Or.inl ⟨?_, _, ?_, going⟩
      · rcases now with ⟨-, going⟩ | ⟨late, -⟩
        · exact rrdy.2 going.status.2
        · omega
      · omega
    · exact Or.inr ⟨misos, received⟩

end Slots

end VoltCtrl.Hardware
