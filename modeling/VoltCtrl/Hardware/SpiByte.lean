/-
Module: VoltCtrl.Hardware.SpiByte
Layer: Hardware
Purpose: What one character of the SPI core does at its pins. A slave beside the pins takes `MOSI` at the
  edges of `SCLK` while `SS_n` is low, the level of the cycle before the edge, at rising and at falling
  edges alike; a window is what it has taken when `SS_n` rises. While the software holds `SS_n` low, a
  character takes 73 cycles from `tx_holding_reg` on, its bits are taken most significant first at both
  kinds of edges, and the levels of `MISO` before the rising edges are what it leaves in `rx_holding_reg`.
Trusted boundary: human-reviewed spec
Main exports: Window, Observer, SpiCycle, NiosSpi.cycle, watch, Held, Waiting, Loading, InByte, Sending,
  Received, sending_run
-/
import VoltCtrl.Core.ShiftRegister
import VoltCtrl.Hardware.Spi

namespace VoltCtrl.Hardware

open VoltCtrl.Core

/-! ### The slave beside the pins -/

/-- What a slave has taken since `SS_n` fell: `MOSI` before rising edges and before falling edges of
`SCLK`, and the levels of `MISO` before rising edges. -/
structure Window where
  rises : List Bool
  falls : List Bool
  misos : List Bool
deriving DecidableEq

def Window.empty : Window where
  rises := []
  falls := []
  misos := []

structure Observer where
  last : SpiPins
  window : Window
  closed : List Window

/-- The pins of the next cycle, after a cycle with a level of `MISO`. -/
def Observer.see (o : Observer) (miso : Bool) (pins : SpiPins) : Observer where
  last := pins
  window :=
    if pins.ssN then Window.empty
    else
      { rises :=
          if !o.last.sclk && pins.sclk then o.window.rises ++ [o.last.mosi] else o.window.rises
        falls :=
          if o.last.sclk && !pins.sclk then o.window.falls ++ [o.last.mosi] else o.window.falls
        misos := if !o.last.sclk && pins.sclk then o.window.misos ++ [miso] else o.window.misos }
  closed := if !o.last.ssN && pins.ssN then o.closed ++ [o.window] else o.closed

/-- One clock cycle of the core: the level of `MISO` and the signals of the bus. -/
structure SpiCycle where
  miso : Bool
  bus : SpiBus

def NiosSpi.cycle (s : NiosSpi) (c : SpiCycle) : NiosSpi :=
  s.step c.miso c.bus

def watch (o : Observer) (s : NiosSpi) (c : SpiCycle) : Observer :=
  o.see c.miso (s.cycle c).pins

/-! ### The phases of a character -/

/-- No access to the core, or a read of its status. -/
def SpiCycle.Harmless (c : SpiCycle) : Prop :=
  c.bus.spiSelect = false ∨ (c.bus.writeN = true ∧ c.bus.memAddr = 2)

/-- `SS_n` is held low, no access is in its second cycle and there has been no error. -/
structure Held (s : NiosSpi) (o : Observer) : Prop where
  sso : s.ssoReg = true
  select : s.spiSlaveSelectReg.getLsbD 0 = true
  holding : s.spiSlaveSelectHoldingReg.getLsbD 0 = true
  seen : o.last = s.pins
  roe : s.roe = false
  toe : s.toe = false
  wrStrobe : s.wrStrobe = false
  dataWrStrobe : s.dataWrStrobe = false
  dataRdStrobe : s.dataRdStrobe = false

/-- Nothing is being transmitted. -/
structure Waiting (ready : Bool) (s : NiosSpi) : Prop where
  transmitting : s.transmitting = false
  primed : s.txHoldingPrimed = false
  slowcount : s.slowcount = 0
  state : s.state = 0
  sclk : s.sclkReg = false
  rrdy : s.rrdy = ready

/-- A character waits in `tx_holding_reg`. -/
structure Loading (b : BitVec 8) (base : Window) (s : NiosSpi) (o : Observer) : Prop where
  transmitting : s.transmitting = false
  primed : s.txHoldingPrimed = true
  slowcount : s.slowcount = 0
  state : s.state = 0
  sclk : s.sclkReg = false
  rrdy : s.rrdy = false
  value : s.txHoldingReg = b
  window : o.window = base

/-- A window after a character's bits at some rising and falling edges. -/
def Window.after (base : Window) (b : BitVec 8) (rises falls : Nat) (misos : List Bool) : Window where
  rises := base.rises ++ (msbFirst b).take rises
  falls := base.falls ++ (msbFirst b).take falls
  misos := base.misos ++ misos

/-- Cycle `q` of clock `j` of a character. `SCLK` is high in the clocks 2, 4, .., 16. -/
structure InByte (b : BitVec 8) (base : Window) (j q : Nat) (s : NiosSpi) (o : Observer) : Prop where
  transmitting : s.transmitting = true
  primed : s.txHoldingPrimed = false
  slowcount : s.slowcount = q
  state : s.state = j
  sclk : s.sclkReg = decide (j ≠ 0 ∧ j % 2 = 0)
  rrdy : s.rrdy = false
  taken : ∃ misos, misos.length = j / 2 ∧ s.shiftReg = shiftIn b (misos.take ((j - 1) / 2)) ∧
    (s.sclkReg = true → misos = misos.take ((j - 1) / 2) ++ [s.misoReg]) ∧
    o.window = base.after b (j / 2) ((j - 1) / 2) misos

/-- A character has been exchanged and can be read. -/
structure Received (b : BitVec 8) (base : Window) (misos : List Bool) (s : NiosSpi) (o : Observer) :
    Prop where
  waiting : Waiting true s
  whole : misos.length = 8
  value : s.rxHoldingReg = shiftIn b misos
  window : o.window = base.after b 8 8 misos

/-- `left` cycles of a character are left. -/
def Sending (b : BitVec 8) (base : Window) (left : Nat) (s : NiosSpi) (o : Observer) : Prop :=
  (left = 73 ∧ Loading b base s o) ∨
    ∃ j q, j < 18 ∧ q < 4 ∧ left + (4 * j + q) = 72 ∧ InByte b base j q s o

section Steps

variable {s : NiosSpi} {o : Observer} {c : SpiCycle} {b : BitVec 8} {base : Window}

/-! ### A cycle without an access -/

theorem Held.wires (held : Held s o) :
    s.controlWrStrobe c.bus = false ∧ s.statusWrStrobe c.bus = false ∧
      s.slaveselectWrStrobe c.bus = false ∧ s.writeTxHolding = false := by
  simp [NiosSpi.controlWrStrobe, NiosSpi.statusWrStrobe, NiosSpi.slaveselectWrStrobe,
    NiosSpi.writeTxHolding, held.wrStrobe, held.dataWrStrobe]

theorem SpiCycle.Harmless.strobes (harmless : c.Harmless) (s : NiosSpi) :
    s.p1WrStrobe c.bus = false ∧ s.p1DataWrStrobe c.bus = false ∧
      s.p1DataRdStrobe c.bus = false := by
  rcases harmless with off | ⟨read, address⟩
  · simp [NiosSpi.p1WrStrobe, NiosSpi.p1DataWrStrobe, NiosSpi.p1DataRdStrobe, NiosSpi.p1RdStrobe,
      off]
  · simp [NiosSpi.p1WrStrobe, NiosSpi.p1DataWrStrobe, NiosSpi.p1DataRdStrobe, read, address]

/-- `SS_n` stays low. -/
theorem Held.ssN (held : Held s o) : s.pins.ssN = false := by
  simp [NiosSpi.pins, held.sso, held.select]

theorem Held.step (held : Held s o) (harmless : c.Harmless)
    (taken : s.lastClock = true → s.rrdy = false) : Held (s.cycle c) (watch o s c) := by
  obtain ⟨control, status, select, holding⟩ := held.wires (c := c)
  obtain ⟨write, dataWrite, dataRead⟩ := harmless.strobes s
  refine ⟨?_, ?_, ?_, rfl, ?_, ?_, write, dataWrite, dataRead⟩
  · simp [NiosSpi.cycle, NiosSpi.step, control, held.sso]
  · simp only [NiosSpi.cycle, NiosSpi.step]
    split
    · exact held.holding
    · exact held.select
  · simp [NiosSpi.cycle, NiosSpi.step, select, held.holding]
  · have clear : (s.lastClock && s.rrdy) = false := by
      cases last : s.lastClock with
      | false => rfl
      | true => exact taken last
    simp [NiosSpi.cycle, NiosSpi.step, clear, status, held.roe]
  · simp [NiosSpi.cycle, NiosSpi.step, status, held.dataWrStrobe, held.toe]

/-- What the slave takes in a cycle in which `SS_n` stays low. -/
theorem watch_window (held : Held s o) (next : (s.cycle c).pins.ssN = false) :
    (watch o s c).window =
        { rises :=
            if !s.sclkReg && (s.cycle c).sclkReg then o.window.rises ++ [s.shiftReg.msb]
            else o.window.rises
          falls :=
            if s.sclkReg && !(s.cycle c).sclkReg then o.window.falls ++ [s.shiftReg.msb]
            else o.window.falls
          misos :=
            if !s.sclkReg && (s.cycle c).sclkReg then o.window.misos ++ [c.miso]
            else o.window.misos } ∧
      (watch o s c).closed = o.closed := by
  have low := held.ssN
  simp only [watch, Observer.see, next, held.seen, low]
  exact ⟨rfl, rfl⟩

/-- Without an edge of `SCLK` the window stays as it is. -/
theorem watch_quiet (held : Held s o) (next : (s.cycle c).pins.ssN = false)
    (same : (s.cycle c).sclkReg = s.sclkReg) :
    (watch o s c).window = o.window ∧ (watch o s c).closed = o.closed := by
  obtain ⟨window, closed⟩ := watch_window held next
  refine ⟨?_, closed⟩
  rw [window, same]
  cases s.sclkReg <;> rfl

theorem Held.rrdy_step (held : Held s o) (last : s.lastClock = false) :
    (s.cycle c).rrdy = s.rrdy := by
  have status := held.wires (c := c) |>.2.1
  simp [NiosSpi.cycle, NiosSpi.step, last, status, held.dataRdStrobe]

/-! ### The phases one after another -/

theorem Loading.step (held : Held s o) (harmless : c.Harmless) (loading : Loading b base s o) :
    InByte b base 0 0 (s.cycle c) (watch o s c) := by
  have holding := held.wires (c := c) |>.2.2.2
  have slow : s.slowclock = false := by simp [NiosSpi.slowclock, loading.slowcount]
  have last : s.lastClock = false := by simp [NiosSpi.lastClock, slow]
  have write : s.writeShiftReg = true := by
    simp [NiosSpi.writeShiftReg, loading.primed, loading.transmitting]
  have sclk : (s.cycle c).sclkReg = false := by
    simp [NiosSpi.cycle, NiosSpi.step, last, slow, loading.sclk]
  have low := (held.step harmless (by simp [last])).ssN
  obtain ⟨window, -⟩ := watch_quiet held low (sclk.trans loading.sclk.symm)
  refine ⟨?_, ?_, ?_, ?_, sclk, (held.rrdy_step last).trans loading.rrdy, [], rfl, ?_, ?_, ?_⟩
  · simp [NiosSpi.cycle, NiosSpi.step, last, write]
  · simp [NiosSpi.cycle, NiosSpi.step, write, holding]
  · simp [NiosSpi.cycle, NiosSpi.step, loading.transmitting]
  · simp [NiosSpi.cycle, NiosSpi.step, loading.transmitting, loading.state]
  · simp [NiosSpi.cycle, NiosSpi.step, slow, write, loading.value]
  · rw [sclk]
    intro high
    cases high
  · rw [window, loading.window]
    simp [Window.after]

/-- A cycle inside a clock. -/
theorem InByte.step {j q : Nat} (held : Held s o) (harmless : c.Harmless)
    (inByte : InByte b base j q s o) (inside : q < 3) :
    InByte b base j (q + 1) (s.cycle c) (watch o s c) := by
  obtain ⟨misos, count, shifted, sampled, seen⟩ := inByte.taken
  have holding := held.wires (c := c) |>.2.2.2
  have slow : s.slowclock = false := by
    simp [NiosSpi.slowclock, inByte.slowcount]
    omega
  have last : s.lastClock = false := by simp [NiosSpi.lastClock, slow]
  have write : s.writeShiftReg = false := by simp [NiosSpi.writeShiftReg, inByte.primed]
  have sclk : (s.cycle c).sclkReg = s.sclkReg := by
    simp [NiosSpi.cycle, NiosSpi.step, last, slow]
  have low := (held.step harmless (by simp [last])).ssN
  obtain ⟨window, -⟩ := watch_quiet held low sclk
  refine ⟨?_, ?_, ?_, ?_, sclk.trans inByte.sclk, (held.rrdy_step last).trans inByte.rrdy, misos,
    count, ?_, ?_, window.trans seen⟩
  · simp [NiosSpi.cycle, NiosSpi.step, last, write, inByte.transmitting]
  · simp [NiosSpi.cycle, NiosSpi.step, write, holding, inByte.primed]
  · simp [NiosSpi.cycle, NiosSpi.step, slow, inByte.transmitting, inByte.slowcount]
  · simp [NiosSpi.cycle, NiosSpi.step, slow, inByte.state]
  · simp [NiosSpi.cycle, NiosSpi.step, slow, write, shifted]
  · rw [sclk]
    simpa [NiosSpi.cycle, NiosSpi.step, slow] using sampled

/-- The bit that is at the top of the shift register. -/
theorem InByte.msb {j q : Nat} (inByte : InByte b base j q s o) (inside : (j - 1) / 2 < 8) :
    (msbFirst b).take ((j - 1) / 2) ++ [s.shiftReg.msb] = (msbFirst b).take ((j - 1) / 2 + 1) := by
  obtain ⟨misos, count, shifted, -⟩ := inByte.taken
  have length : (misos.take ((j - 1) / 2)).length = (j - 1) / 2 := by
    rw [List.length_take]
    omega
  have bit : s.shiftReg.msb = b.getMsbD ((j - 1) / 2) := by
    rw [shifted, msb_shiftIn b (by omega), length]
  rw [bit, List.take_add_one, msbFirst_getElem? b inside]
  rfl

/-- The last cycle of a clock that is not the last one. -/
theorem InByte.clock {j : Nat} (held : Held s o) (harmless : c.Harmless)
    (inByte : InByte b base j 3 s o) (more : j < 17) :
    InByte b base (j + 1) 0 (s.cycle c) (watch o s c) := by
  obtain ⟨misos, count, shifted, sampled, seen⟩ := inByte.taken
  have holding := held.wires (c := c) |>.2.2.2
  have slow : s.slowclock = true := by simp [NiosSpi.slowclock, inByte.slowcount]
  have last : s.lastClock = false := by
    simp [NiosSpi.lastClock, inByte.state]
    omega
  have write : s.writeShiftReg = false := by simp [NiosSpi.writeShiftReg, inByte.primed]
  have sclk : (s.cycle c).sclkReg = if j = 0 then false else !s.sclkReg := by
    have low : j = 0 → s.sclkReg = false := by
      rintro rfl
      exact inByte.sclk
    by_cases first : j = 0
    · simp [NiosSpi.cycle, NiosSpi.step, last, slow, inByte.state, first, low first]
    · simp [NiosSpi.cycle, NiosSpi.step, last, slow, inByte.state, first, inByte.transmitting]
  have low := (held.step harmless (by simp [last])).ssN
  obtain ⟨window, -⟩ := watch_window held low
  have common : (s.cycle c).transmitting = true ∧ (s.cycle c).txHoldingPrimed = false ∧
      (s.cycle c).slowcount = 0 ∧ (s.cycle c).state = j + 1 := by
    refine ⟨?_, ?_, ?_, ?_⟩
    · simp [NiosSpi.cycle, NiosSpi.step, last, write, inByte.transmitting]
    · simp [NiosSpi.cycle, NiosSpi.step, write, holding, inByte.primed]
    · simp [NiosSpi.cycle, NiosSpi.step, slow]
    · have different : j ≠ 17 := by omega
      simp [NiosSpi.cycle, NiosSpi.step, slow, inByte.transmitting, inByte.state, different]
  obtain ⟨transmitting, primed, slowcount, state⟩ := common
  have rrdy := (held.rrdy_step (c := c) last).trans inByte.rrdy
  rcases Nat.eq_zero_or_pos j with rfl | later
  · -- the clock before the first edge
    have now : s.sclkReg = false := inByte.sclk
    rw [if_pos rfl] at sclk
    refine ⟨transmitting, primed, slowcount, state, sclk, rrdy, misos, count, ?_, ?_, ?_⟩
    · simpa [NiosSpi.cycle, NiosSpi.step, slow, now, write] using shifted
    · rw [sclk]
      intro high
      cases high
    · rw [window, now, sclk]
      exact seen
  · rw [if_neg (by omega)] at sclk
    rcases Nat.mod_two_eq_zero_or_one j with even | odd
    · -- a falling edge: the register shifts
      have now : s.sclkReg = true := by
        rw [inByte.sclk]
        exact decide_eq_true ⟨by omega, even⟩
      have whole := sampled now
      rw [now] at sclk
      have next : (s.cycle c).sclkReg = decide (j + 1 ≠ 0 ∧ (j + 1) % 2 = 0) := by
        rw [sclk, Bool.not_true, eq_comm, decide_eq_false_iff_not]
        omega
      have places : (j + 1 - 1) / 2 = (j - 1) / 2 + 1 := by omega
      refine ⟨transmitting, primed, slowcount, state, next, rrdy, misos, by omega, ?_, ?_, ?_⟩
      · rw [List.take_of_length_le (by omega : misos.length ≤ (j + 1 - 1) / 2), whole, shiftIn_snoc,
          ← shifted]
        simp [NiosSpi.cycle, NiosSpi.step, slow, now]
      · rw [sclk]
        intro high
        cases high
      · rw [window, now, sclk, seen]
        simp only [Window.after, Bool.not_true, Bool.not_false, Bool.and_self,
          Bool.false_eq_true, if_false, if_true, List.append_assoc, inByte.msb (by omega), places,
          show (j + 1) / 2 = j / 2 by omega]
    · -- a rising edge: `MISO` is sampled
      have now : s.sclkReg = false := by
        rw [inByte.sclk, decide_eq_false_iff_not]
        omega
      rw [now] at sclk
      have next : (s.cycle c).sclkReg = decide (j + 1 ≠ 0 ∧ (j + 1) % 2 = 0) := by
        rw [sclk, Bool.not_false, eq_comm, decide_eq_true_iff]
        omega
      have places : (j + 1 - 1) / 2 = (j - 1) / 2 := by omega
      have length : misos.length = (j - 1) / 2 := by omega
      have sample : (s.cycle c).misoReg = c.miso := by
        simp [NiosSpi.cycle, NiosSpi.step, slow, now]
      refine ⟨transmitting, primed, slowcount, state, next, rrdy, misos ++ [c.miso], ?_, ?_, ?_, ?_⟩
      · rw [List.length_append, List.length_singleton]
        omega
      · rw [places, List.take_append_of_le_length (by omega), ← shifted]
        simp [NiosSpi.cycle, NiosSpi.step, slow, now, write]
      · intro _
        rw [sample, places, List.take_append_of_le_length (by omega),
          List.take_of_length_le (by omega)]
      · have bits := inByte.msb (by omega)
        rw [window, now, sclk, seen]
        simp only [Window.after, Bool.not_true, Bool.not_false, Bool.and_self,
          Bool.false_eq_true, if_false, if_true, List.append_assoc, places,
          show j / 2 = (j - 1) / 2 by omega, bits, show (j + 1) / 2 = (j - 1) / 2 + 1 by omega]

/-- The last cycle of a character. -/
theorem InByte.last (held : Held s o) (harmless : c.Harmless) (inByte : InByte b base 17 3 s o) :
    ∃ misos, Received b base misos (s.cycle c) (watch o s c) := by
  obtain ⟨misos, count, shifted, -, seen⟩ := inByte.taken
  have holding := held.wires (c := c) |>.2.2.2
  have slow : s.slowclock = true := by simp [NiosSpi.slowclock, inByte.slowcount]
  have last : s.lastClock = true := by simp [NiosSpi.lastClock, slow, inByte.state]
  have write : s.writeShiftReg = false := by simp [NiosSpi.writeShiftReg, inByte.primed]
  have now : s.sclkReg = false := inByte.sclk
  have sclk : (s.cycle c).sclkReg = false := by simp [NiosSpi.cycle, NiosSpi.step, last]
  have low := (held.step harmless fun _ => inByte.rrdy).ssN
  obtain ⟨window, -⟩ := watch_quiet held low (sclk.trans now.symm)
  refine ⟨misos, ⟨?_, ?_, ?_, ?_, sclk, ?_⟩, count, ?_, window.trans seen⟩
  · simp [NiosSpi.cycle, NiosSpi.step, last]
  · simp [NiosSpi.cycle, NiosSpi.step, write, holding, inByte.primed]
  · simp [NiosSpi.cycle, NiosSpi.step, slow]
  · simp [NiosSpi.cycle, NiosSpi.step, slow, inByte.transmitting, inByte.state]
  · simp [NiosSpi.cycle, NiosSpi.step, last]
  · rw [List.take_of_length_le (by omega)] at shifted
    simp [NiosSpi.cycle, NiosSpi.step, last, shifted]

/-- Nothing happens while nothing is transmitted. -/
theorem Waiting.step {ready : Bool} (held : Held s o) (harmless : c.Harmless)
    (waiting : Waiting ready s) :
    Waiting ready (s.cycle c) ∧ (s.cycle c).rxHoldingReg = s.rxHoldingReg ∧
      Held (s.cycle c) (watch o s c) ∧ (watch o s c).window = o.window ∧
      (watch o s c).closed = o.closed := by
  have holding := held.wires (c := c) |>.2.2.2
  have slow : s.slowclock = false := by simp [NiosSpi.slowclock, waiting.slowcount]
  have last : s.lastClock = false := by simp [NiosSpi.lastClock, slow]
  have write : s.writeShiftReg = false := by simp [NiosSpi.writeShiftReg, waiting.primed]
  have sclk : (s.cycle c).sclkReg = s.sclkReg := by simp [NiosSpi.cycle, NiosSpi.step, last, slow]
  have next := held.step harmless (by simp [last])
  refine ⟨⟨?_, ?_, ?_, ?_, sclk.trans waiting.sclk, (held.rrdy_step last).trans waiting.rrdy⟩, ?_,
    next, watch_quiet held next.ssN sclk⟩
  · simp [NiosSpi.cycle, NiosSpi.step, last, write, waiting.transmitting]
  · simp [NiosSpi.cycle, NiosSpi.step, write, holding, waiting.primed]
  · simp [NiosSpi.cycle, NiosSpi.step, waiting.transmitting]
  · simp [NiosSpi.cycle, NiosSpi.step, waiting.transmitting, waiting.state]
  · simp [NiosSpi.cycle, NiosSpi.step, last]

theorem Sending.positive {left : Nat} (sending : Sending b base left s o) : 0 < left := by
  rcases sending with ⟨rfl, -⟩ | ⟨j, q, inside, cycle, place, -⟩
  · decide
  · omega

/-- One cycle of a character. -/
theorem Sending.step {left : Nat} (held : Held s o) (harmless : c.Harmless)
    (sending : Sending b base left s o) :
    Held (s.cycle c) (watch o s c) ∧ (watch o s c).closed = o.closed ∧
      (1 < left → Sending b base (left - 1) (s.cycle c) (watch o s c)) ∧
      (left = 1 → ∃ misos, Received b base misos (s.cycle c) (watch o s c)) := by
  have rrdy : s.rrdy = false := by
    rcases sending with ⟨-, loading⟩ | ⟨j, q, -, -, -, inByte⟩
    · exact loading.rrdy
    · exact inByte.rrdy
  have next := held.step harmless fun _ => rrdy
  refine ⟨next, (watch_window held next.ssN).2, ?_⟩
  rcases sending with ⟨rfl, loading⟩ | ⟨j, q, inside, cycle, place, inByte⟩
  · refine ⟨fun _ => Or.inr ⟨0, 0, by omega, by omega, rfl, loading.step held harmless⟩, ?_⟩
    intro contrary
    omega
  · by_cases more : q < 3
    · refine ⟨fun _ => Or.inr ⟨j, q + 1, inside, by omega, by omega,
        inByte.step held harmless more⟩, ?_⟩
      intro contrary
      omega
    · have third : q = 3 := by omega
      subst third
      by_cases clock : j < 17
      · refine ⟨fun _ => Or.inr ⟨j + 1, 0, by omega, by omega, by omega,
          inByte.clock held harmless clock⟩, ?_⟩
        intro contrary
        omega
      · have final : j = 17 := by omega
        subst final
        exact ⟨fun contrary => by omega, fun _ => inByte.last held harmless⟩

end Steps

/-! ### Cycles without an access -/

section Runs

variable {s : NiosSpi} {o : Observer} {b : BitVec 8} {base : Window} {cycles : List SpiCycle}

/-- The core and the slave beside it after some cycles. -/
def watched (s : NiosSpi × Observer) (cycles : List SpiCycle) : NiosSpi × Observer :=
  run (withHistory NiosSpi.cycle watch) s cycles

theorem waiting_run {ready : Bool} (held : Held s o) (waiting : Waiting ready s)
    (harmless : ∀ c ∈ cycles, c.Harmless) :
    Waiting ready (watched (s, o) cycles).1 ∧
      (watched (s, o) cycles).1.rxHoldingReg = s.rxHoldingReg ∧
      Held (watched (s, o) cycles).1 (watched (s, o) cycles).2 ∧
      (watched (s, o) cycles).2.window = o.window ∧
      (watched (s, o) cycles).2.closed = o.closed := by
  induction cycles generalizing s o with
  | nil => exact ⟨waiting, rfl, held, rfl, rfl⟩
  | cons c cycles ih =>
      obtain ⟨first, others⟩ := List.forall_mem_cons.1 harmless
      obtain ⟨next, value, still, window, closed⟩ := waiting.step held first
      obtain ⟨final, values, stays, windows, closeds⟩ := ih still next others
      exact ⟨final, values.trans value, stays, windows.trans window, closeds.trans closed⟩

theorem received_run {misos : List Bool} (held : Held s o) (received : Received b base misos s o)
    (harmless : ∀ c ∈ cycles, c.Harmless) :
    Received b base misos (watched (s, o) cycles).1 (watched (s, o) cycles).2 ∧
      Held (watched (s, o) cycles).1 (watched (s, o) cycles).2 ∧
      (watched (s, o) cycles).2.closed = o.closed := by
  obtain ⟨final, value, stays, window, closed⟩ := waiting_run held received.waiting harmless
  exact ⟨⟨final, received.whole, value.trans received.value, window.trans received.window⟩, stays,
    closed⟩

/-- A character goes on for the cycles that it needs and then waits to be read. -/
theorem sending_run {left : Nat} (held : Held s o) (sending : Sending b base left s o)
    (harmless : ∀ c ∈ cycles, c.Harmless) :
    Held (watched (s, o) cycles).1 (watched (s, o) cycles).2 ∧
      (watched (s, o) cycles).2.closed = o.closed ∧
      ((cycles.length < left ∧
          Sending b base (left - cycles.length) (watched (s, o) cycles).1
            (watched (s, o) cycles).2) ∨
        (left ≤ cycles.length ∧ ∃ misos,
          Received b base misos (watched (s, o) cycles).1 (watched (s, o) cycles).2)) := by
  induction cycles generalizing s o left with
  | nil => exact ⟨held, rfl, Or.inl ⟨sending.positive, sending⟩⟩
  | cons c cycles ih =>
      obtain ⟨first, others⟩ := List.forall_mem_cons.1 harmless
      obtain ⟨next, closed, more, last⟩ := sending.step held first
      rcases Nat.lt_or_ge 1 left with longer | shorter
      · obtain ⟨stays, closeds, final⟩ := ih next (more longer) others
        refine ⟨stays, closeds.trans closed, ?_⟩
        rw [List.length_cons]
        rcases final with ⟨inside, going⟩ | ⟨late, misos, received⟩
        · refine Or.inl ⟨by omega, ?_⟩
          rw [show left - (cycles.length + 1) = left - 1 - cycles.length by omega]
          exact going
        · exact Or.inr ⟨by omega, misos, received⟩
      · have one : left = 1 := by
          have positive := sending.positive
          omega
        obtain ⟨misos, received⟩ := last one
        obtain ⟨final, stays, closeds⟩ := received_run next received others
        exact ⟨stays, closeds.trans closed, Or.inr ⟨by rw [one, List.length_cons]; omega, misos, final⟩⟩

end Runs

end VoltCtrl.Hardware
