/-
Module: VoltCtrl.System.Device
Layer: System
Purpose: The device from the level of its serial line on, clock cycle by clock cycle: the UART core, the
  writes of `IRQ_init` to it, and the firmware, whose handler is called on the interrupt of the core and
  reads the character over the bus. An access takes two cycles and `begintransfer` marks the first; what
  is read is in `readdata` in the second. While the processor serves the interrupt in time, the device
  is the firmware at the end of an ideal line of bytes.
Trusted boundary: human-reviewed spec
Main exports: Access, irqInit, Choice, Device, Device.step, Seen, Timely, Tracked, tracked_run,
  OnLine, onLine_of_arrivals, device_refines_link, all_bytes_arrive
-/
import VoltCtrl.Hardware.Service
import VoltCtrl.System.HostToDevice

namespace VoltCtrl.System

open VoltCtrl.Core VoltCtrl.Firmware VoltCtrl.Hardware

/-! ### The bus of the processor -/

/-- An access of the processor to the registers of the core. -/
inductive Access where
  | write (address : BitVec 3) (data : BitVec 16)
  | readRxdata
deriving DecidableEq

def Access.bus (begintransfer : Bool) : Access → UartBus
  | .write address data =>
      { address, begintransfer, chipselect := true, readN := true, writeN := false, writedata := data }
  | .readRxdata =>
      { address := 0, begintransfer, chipselect := true, readN := false, writeN := true, writedata := 0 }

/-- The writes of `IRQ_init`: the status, the control register with the interrupt of a received
character, and the divisor. -/
def irqInit : List Access :=
  [.write 2 0, .write 3 0x80, .write 4 0x0364]

/-! ### The device -/

/-- What the processor does in a cycle in which no access is under way: nothing for the device, the next
access of `main`, or the interrupt handler. -/
inductive Choice where
  | wait
  | main
  | serve
deriving DecidableEq

structure Cycle where
  syncRxd : Bool
  choice : Choice

/-- The core, the firmware, the writes of `IRQ_init` still to come and the access in its second cycle. -/
structure Device where
  uart : NiosUart
  fw : Fw
  setup : List Access
  access : Option Access

namespace Device

def start : Device where
  uart := NiosUart.reset
  fw := powerOn
  setup := irqInit
  access := none

/-- The access that begins in a cycle. -/
def begins (d : Device) (choice : Choice) : Option Access :=
  match d.access, choice with
  | some _, _ => none
  | none, .wait => none
  | none, .main => d.setup.head?
  | none, .serve => some .readRxdata

def bus (d : Device) (choice : Choice) : UartBus :=
  match d.access, d.begins choice with
  | some access, _ => access.bus false
  | none, some access => access.bus true
  | none, none => UartBus.idle

/-- `IORD_ALTERA_AVALON_UART_RXDATA`, converted to `alt_u8`. -/
def rxByte (d : Device) : UInt8 :=
  UInt8.ofBitVec (d.uart.regs.readdata.setWidth 8)

/-- The step of the firmware in a cycle: the handler goes on with the byte when it has been read. -/
def action? (d : Device) (choice : Choice) : Option Firmware.Action :=
  match d.access, choice with
  | some .readRxdata, _ => some (.uart d.rxByte)
  | none, .main => if d.setup = [] then some .main else none
  | _, _ => none

def step (d : Device) (c : Cycle) : Device where
  uart := d.uart.step c.syncRxd (d.bus c.choice)
  fw := match d.action? c.choice with
    | some action => Firmware.step d.fw action
    | none => d.fw
  setup := match d.access, c.choice with
    | none, .main => d.setup.tail
    | _, _ => d.setup
  access := d.begins c.choice

end Device

/-! ### What is seen of a run -/

/-- The levels of the line, what has happened at the core, and the steps of the firmware. -/
structure Seen where
  levels : List Bool
  trace : Trace
  actions : List Firmware.Action

def Seen.start : Seen where
  levels := []
  trace := Trace.start
  actions := []

def Seen.update (seen : Seen) (d : Device) (c : Cycle) : Seen where
  levels := seen.levels ++ [c.syncRxd]
  trace := seen.trace.update d.uart ⟨c.syncRxd, d.bus c.choice⟩
  actions := seen.actions ++ (d.action? c.choice).toList

/-- The handler runs on the interrupt, which is registered after the writes of `IRQ_init`, and no
character waits longer than the receiver needs for another one. -/
structure Timely (s : Device × Seen) (c : Cycle) : Prop where
  serves : c.choice = .serve → s.1.access = none → s.1.setup = [] ∧ s.1.uart.regs.irq = true
  prompt : s.1.uart.rx.rxCharReady = true → s.2.trace.waited ≤ patience 868

/-- The state of the device and what has been seen of its run after the cycles. -/
def Device.observe (cycles : List Cycle) : Device × Seen :=
  run (withHistory Device.step Seen.update) (Device.start, Seen.start) cycles

def Device.Served (cycles : List Cycle) : Prop :=
  EachStep (withHistory Device.step Seen.update) Timely (Device.start, Seen.start) cycles

/-- The bytes that the handler has been given. -/
def arrivals (actions : List Firmware.Action) : List UInt8 :=
  actions.filterMap fun
    | .uart rx => some rx
    | .main => none

/-- The byte that has been read and not yet been handled. -/
def Device.underWay (d : Device) : List UInt8 :=
  if d.access = some .readRxdata then [d.rxByte] else []

/-- The invariant of a device that is served in time. -/
structure Tracked (s : Device × Seen) : Prop where
  attended : Attended 868 (s.1.uart, s.2.trace)
  received : (s.1.uart.rx.line, s.2.trace.reports) = receive 868 (RxLine.reset, []) s.2.levels
  setup : ∀ access ∈ s.1.setup, access ∈ irqInit
  control : s.1.uart.regs.controlReg = 0 ∨ s.1.uart.regs.controlReg = 0x80
  access : ∀ access, s.1.access = some access → access = .readRxdata ∨ access ∈ irqInit
  irq : s.1.uart.regs.irq = true →
    s.1.access = some .readRxdata ∨ s.1.uart.rx.rxCharReady = true
  bytes : arrivals s.2.actions ++ s.1.underWay = s.2.trace.reads.map UInt8.ofBitVec
  fw : s.1.fw = run Firmware.step powerOn s.2.actions

/-! ### One cycle -/

/-- What an access of the device puts on the bus. -/
theorem bus_access {access : Access} (known : access = .readRxdata ∨ access ∈ irqInit)
    (first : Bool) :
    (access.bus first).rxRdStrobeOnset = (first && access == .readRxdata) ∧
      ((access.bus first).controlWrStrobe = true →
        (access.bus first).writedata.setWidth 10 = 0x80#10) ∧
      ((access.bus first).divisorWrStrobe = true → (access.bus first).writedata.toNat = 868) := by
  simp only [irqInit, List.mem_cons, List.not_mem_nil, or_false] at known
  rcases known with rfl | rfl | rfl | rfl <;> cases first <;> decide

section Cycles

variable {s : Device × Seen} {c : Cycle}

/-- The access on the bus in a cycle. -/
theorem Tracked.bus (tracked : Tracked s) :
    (s.1.bus c.choice = UartBus.idle ∧ s.1.access = none ∧ s.1.begins c.choice = none) ∨
      ∃ access, (access = .readRxdata ∨ access ∈ irqInit) ∧
        ((s.1.bus c.choice = access.bus false ∧ s.1.access = some access) ∨
          (s.1.bus c.choice = access.bus true ∧ s.1.access = none ∧
            s.1.begins c.choice = some access)) := by
  cases under : s.1.access with
  | some access =>
      exact Or.inr ⟨access, tracked.access access under, Or.inl ⟨by simp [Device.bus, under], rfl⟩⟩
  | none =>
      cases begun : s.1.begins c.choice with
      | none => exact Or.inl ⟨by simp [Device.bus, under, begun], rfl, rfl⟩
      | some access =>
          refine Or.inr ⟨access, ?_, Or.inr ⟨by simp [Device.bus, under, begun], rfl, rfl⟩⟩
          cases choice : c.choice with
          | wait => simp [Device.begins, under, choice] at begun
          | main =>
              simp only [Device.begins, under, choice] at begun
              exact Or.inr (tracked.setup access (List.mem_of_head? begun))
          | serve =>
              simp only [Device.begins, under, choice, Option.some.injEq] at begun
              exact Or.inl begun.symm

/-- The read of a character is what the handler begins. -/
theorem Tracked.onset (tracked : Tracked s) :
    (s.1.bus c.choice).rxRdStrobeOnset = true ↔ s.1.begins c.choice = some .readRxdata := by
  rcases tracked.bus (c := c) with ⟨bus, -, begins⟩ | ⟨access, known, second | first⟩
  · rw [bus, begins]
    decide
  · rw [second.1, (bus_access known false).1]
    simp [Device.begins, second.2]
  · rw [first.1, (bus_access known true).1, first.2.2]
    simp

/-- The handler begins only in the interrupt. -/
theorem Tracked.ready (tracked : Tracked s) (timely : Timely s c)
    (begins : s.1.begins c.choice = some .readRxdata) : s.1.uart.rx.rxCharReady = true := by
  have free : s.1.access = none := by
    cases under : s.1.access with
    | none => rfl
    | some access => simp [Device.begins, under] at begins
  cases choice : c.choice with
  | wait => simp [Device.begins, free, choice] at begins
  | main =>
      simp only [Device.begins, free, choice] at begins
      have setup := tracked.setup _ (List.mem_of_head? begins)
      exact absurd setup (by decide)
  | serve =>
      have interrupt := (timely.serves choice free).2
      rcases tracked.irq interrupt with reading | ready
      · rw [free] at reading
        cases reading
      · exact ready

/-- What the device asks of the core is what `Served` asks of a processor. -/
theorem Tracked.served (tracked : Tracked s) (timely : Timely s c) :
    Served 868 (s.1.uart, s.2.trace) ⟨c.syncRxd, s.1.bus c.choice⟩ where
  reads onset := tracked.ready timely (tracked.onset.1 onset)
  prompt := timely.prompt
  keeps strobe := by
    rcases tracked.bus (c := c) with ⟨bus, -⟩ | ⟨access, known, ⟨bus, -⟩ | ⟨bus, -⟩⟩
    · rw [bus] at strobe
      cases strobe
    · rw [bus] at strobe ⊢
      exact (bus_access known false).2.2 strobe
    · rw [bus] at strobe ⊢
      exact (bus_access known true).2.2 strobe

/-- Only the interrupt of a received character is ever enabled. -/
theorem Tracked.controlReg (tracked : Tracked s) :
    (s.1.step c).uart.regs.controlReg =
      if (s.1.bus c.choice).controlWrStrobe then 0x80 else s.1.uart.regs.controlReg := by
  simp only [Device.step, NiosUart.step]
  split
  case isFalse => rfl
  case isTrue strobe =>
    rcases tracked.bus (c := c) with ⟨bus, -⟩ | ⟨access, known, ⟨bus, -⟩ | ⟨bus, -⟩⟩
    · rw [bus] at strobe
      cases strobe
    · rw [bus] at strobe ⊢
      exact (bus_access known false).2.1 strobe
    · rw [bus] at strobe ⊢
      exact (bus_access known true).2.1 strobe

theorem Tracked.control_step (tracked : Tracked s) :
    (s.1.step c).uart.regs.controlReg = 0 ∨ (s.1.step c).uart.regs.controlReg = 0x80 := by
  rw [tracked.controlReg]
  split
  · exact Or.inr rfl
  · exact tracked.control

/-- Only a character that is ready raises the interrupt. -/
theorem Tracked.qualifiedIrq (tracked : Tracked s) (interrupt : s.1.uart.qualifiedIrq = true) :
    s.1.uart.rx.rxCharReady = true := by
  rcases tracked.control with zero | enabled
  · simp [NiosUart.qualifiedIrq, zero] at interrupt
  · simpa [NiosUart.qualifiedIrq, enabled] using interrupt

/-- The interrupt falls when its character is read. -/
theorem Tracked.irq_step (tracked : Tracked s) (interrupt : (s.1.step c).uart.regs.irq = true) :
    (s.1.step c).access = some .readRxdata ∨ (s.1.step c).uart.rx.rxCharReady = true := by
  have ready : s.1.uart.rx.rxCharReady = true := tracked.qualifiedIrq interrupt
  cases onset : (s.1.bus c.choice).rxRdStrobeOnset with
  | true => exact Or.inl (tracked.onset.1 onset)
  | false => exact Or.inr (by simp [Device.step, NiosUart.step, UartRx.step, onset, ready])

theorem arrivals_append (first second : List Firmware.Action) :
    arrivals (first ++ second) = arrivals first ++ arrivals second :=
  List.filterMap_append

/-- A byte is read once and handled once, in the second cycle of its read. -/
theorem Tracked.bytes_step (tracked : Tracked s) :
    arrivals (s.2.update s.1 c).actions ++ (s.1.step c).underWay =
      (s.2.update s.1 c).trace.reads.map UInt8.ofBitVec := by
  have before := tracked.bytes
  simp only [Seen.update, Trace.update, arrivals_append]
  cases begun : (s.1.bus c.choice).rxRdStrobeOnset with
  | true =>
      have begins := tracked.onset.1 begun
      have free : s.1.access = none := by
        cases under : s.1.access with
        | none => rfl
        | some access => simp [Device.begins, under] at begins
      have none : arrivals (s.1.action? c.choice).toList = [] := by
        cases choice : c.choice with
        | wait => simp [Device.action?, free, arrivals]
        | serve => simp [Device.action?, free, arrivals]
        | main =>
            simp only [Device.action?, free]
            split <;> rfl
      have value : (s.1.step c).rxByte = UInt8.ofBitVec s.1.uart.rx.line.rxData := by
        have address : (s.1.bus c.choice).address = 0 := by
          simp [Device.bus, free, begins, Access.bus]
        simp [Device.rxByte, Device.step, NiosUart.step, NiosUart.selectedReadData, address]
      have reading : (s.1.step c).access = some .readRxdata := begins
      rw [Device.underWay, free, if_neg (by simp), List.append_nil] at before
      rw [Device.underWay, if_pos reading, value, none, List.append_nil, before, if_pos rfl,
        List.map_append]
      rfl
  | false =>
      have idle : (s.1.step c).underWay = [] := by
        rw [Device.underWay, if_neg]
        intro reading
        rw [tracked.onset.2 reading] at begun
        cases begun
      rw [idle, List.append_nil, if_neg (by simp), ← before, Device.underWay]
      congr 1
      cases under : s.1.access with
      | none =>
          cases choice : c.choice with
          | wait => simp [Device.action?, under, arrivals]
          | serve => simp [Device.action?, under, arrivals]
          | main =>
              simp only [Device.action?, under]
              split <;> rfl
      | some access =>
          cases access with
          | write address data => simp [Device.action?, under, arrivals]
          | readRxdata => simp [Device.action?, under, arrivals]

theorem Tracked.step (tracked : Tracked s) (timely : Timely s c) :
    Tracked (withHistory Device.step Seen.update s c) where
  attended := tracked.attended.step (by decide) (tracked.served timely)
  received := by
    have divisor : s.1.uart.regs.baudDivisor.toNat = 868 := tracked.attended.configured
    simp only [withHistory, Seen.update, Trace.update, Device.step, NiosUart.step, UartRx.step,
      receive_append, ← tracked.received, receive_cons, receive_nil, logChar_eq, divisor]
  setup access member := by
    simp only [withHistory, Device.step] at member
    split at member
    · exact tracked.setup access (List.mem_of_mem_tail member)
    · exact tracked.setup access member
  control := tracked.control_step
  access access begun := by
    rcases tracked.bus (c := c) with ⟨-, -, begins⟩ | ⟨other, known, second | first⟩
    · rw [withHistory, Device.step, begins] at begun
      cases begun
    · simp [withHistory, Device.step, Device.begins, second.2] at begun
    · rw [withHistory, Device.step, first.2.2, Option.some.injEq] at begun
      exact begun ▸ known
  irq := tracked.irq_step
  bytes := tracked.bytes_step
  fw := by
    simp only [withHistory, Device.step, Seen.update, run_append, ← tracked.fw]
    split <;> rename_i action <;> simp [action]

end Cycles

theorem tracked_start : Tracked (Device.start, Seen.start) where
  attended := attended_start (s := NiosUart.reset) rfl
  received := rfl
  setup _ member := member
  control := Or.inl rfl
  access _ none := by cases none
  irq interrupt := by cases interrupt
  bytes := rfl
  fw := rfl

theorem tracked_run {cycles : List Cycle} (served : Device.Served cycles) :
    Tracked (Device.observe cycles) :=
  run_invariant Tracked (fun _ _ tracked timely => tracked.step timely) tracked_start served

/-! ### The ideal line -/

/-- The turn of the ideal line that a step of the firmware is. -/
def turnOf : Firmware.Action → Turn
  | .uart _ => .arrival
  | .main => .main

/-- The bytes of a line that have not arrived. -/
def remaining (s : Link) : List UInt8 :=
  s.current ++ s.waiting.flatten

/-- The pattern after each completed `WriteFileData`, in a run of the firmware. -/
def logPattern (log : List (List UInt8)) (s : Fw) (a : Firmware.Action) : List (List UInt8) :=
  if latches s a then log ++ [(Firmware.step s a).pattern] else log

/-- The next byte of a line of frames that are not empty is the first one that has not arrived. -/
theorem next_of_remaining {s : Link} {rx : UInt8} {rest : List UInt8}
    (frames : ∀ frame ∈ s.waiting, frame ≠ []) (line : remaining s = rx :: rest) :
    ∃ t : Link, s.next? = some (rx, t) ∧ remaining t = rest ∧ ∀ frame ∈ t.waiting, frame ≠ [] := by
  cases current : s.current with
  | cons byte more =>
      simp only [remaining, current, List.cons_append, List.cons.injEq] at line
      obtain ⟨rfl, rfl⟩ := line
      exact ⟨{ s with current := more }, by simp [Link.next?, current], rfl, frames⟩
  | nil =>
      cases waiting : s.waiting with
      | nil => simp [remaining, current, waiting] at line
      | cons frame others =>
          rw [waiting, List.forall_mem_cons] at frames
          cases frame with
          | nil => exact absurd rfl frames.1
          | cons byte more =>
              simp only [remaining, current, waiting, List.nil_append, List.flatten_cons,
                List.cons_append, List.cons.injEq] at line
              obtain ⟨rfl, rfl⟩ := line
              exact ⟨{ s with
                begun := s.begun ++ [byte :: more], current := more, waiting := others },
                by simp [Link.next?, current, waiting], rfl, frames.2⟩

/-- The ideal line after some steps of a firmware that is given its next bytes. -/
structure OnLine (s : Link) (log : List (List UInt8)) (actions : List Firmware.Action) : Prop where
  fw : (run Link.step s (actions.map turnOf)).fw = run Firmware.step s.fw actions
  latched : history Link.step logLatched log s (actions.map turnOf) =
    history Firmware.step logPattern log s.fw actions
  line : arrivals actions ++ remaining (run Link.step s (actions.map turnOf)) = remaining s
  frames : ∀ frame ∈ (run Link.step s (actions.map turnOf)).waiting, frame ≠ []

theorem onLine_of_arrivals {s : Link} {actions : List Firmware.Action} (log : List (List UInt8))
    (frames : ∀ frame ∈ s.waiting, frame ≠ []) (line : arrivals actions <+: remaining s) :
    OnLine s log actions := by
  induction actions generalizing s log with
  | nil => exact ⟨rfl, rfl, rfl, frames⟩
  | cons action actions ih =>
      cases action with
      | main =>
          obtain ⟨fw, latched, left, others⟩ := ih (s := s.step .main) (logLatched log s .main) frames line
          exact ⟨fw, latched, left, others⟩
      | uart rx =>
          obtain ⟨rest, split⟩ : ∃ rest, remaining s = rx :: rest := by
            obtain ⟨after, split⟩ := line
            exact ⟨_, split.symm⟩
          obtain ⟨t, next, left, others⟩ := next_of_remaining frames split
          have stepped : s.step .arrival =
              { t with fw := Firmware.step s.fw (.uart rx), armed := false, cleared := false } := by
            simp [Link.step, next]
          have first : arrivals (.uart rx :: actions) = rx :: arrivals actions := rfl
          have same : remaining (s.step .arrival) = rest := by
            rw [stepped, ← left]
            rfl
          rw [split, first, List.cons_prefix_cons] at line
          obtain ⟨fw, latched, rule, later⟩ :=
            ih (s := s.step .arrival) log (by rwa [stepped]) (by rw [same]; exact line.2)
          have stepFw : (s.step .arrival).fw = Firmware.step s.fw (.uart rx) := by rw [stepped]
          rw [stepFw] at fw latched
          refine ⟨fw, latched, ?_, later⟩
          rw [first, split, ← same, ← rule]
          rfl

/-! ### The device on a line of characters -/

/-- The turns of the ideal line in a run of the device. -/
def Device.turns (cycles : List Cycle) : List Turn :=
  (Device.observe cycles).2.actions.map turnOf

/-- The patterns that the firmware of the device latches in a run. -/
def Device.latched (cycles : List Cycle) : List (List UInt8) :=
  history Firmware.step logPattern [] powerOn (Device.observe cycles).2.actions

theorem observe_snoc (cycles : List Cycle) (c : Cycle) :
    Device.observe (cycles ++ [c]) = withHistory Device.step Seen.update (Device.observe cycles) c :=
  run_snoc _ cycles c

theorem observe_levels (cycles : List Cycle) :
    (Device.observe cycles).2.levels = cycles.map Cycle.syncRxd := by
  induction cycles using List.reverseRecOn with
  | nil => rfl
  | append_singleton cycles c ih =>
      rw [observe_snoc, List.map_append, ← ih]
      rfl

/-- A report is not taken back. -/
theorem receive_log_prefix (divisor : Nat) (s : RxLine) (log : List Report) (line : List Bool) :
    log <+: (receive divisor (s, log) line).2 := by
  induction line generalizing s log with
  | nil => exact List.prefix_rfl
  | cons level line ih =>
      rw [receive_cons]
      exact (List.prefix_append log s.pending).trans (ih _ _)

/-- The bytes of the characters of a line. -/
def bytesOf (chars : List TimedChar) : List UInt8 :=
  chars.map fun c => UInt8.ofBitVec c.value

/-- The line from the reset of the device on: idle, the characters, and one more cycle. -/
def lineFrom (idle : Nat) (chars : List TimedChar) (after : Bool) : List Bool :=
  List.replicate (idle + 1) true ++ lineOf chars ++ [after]

section Line

variable {cycles : List Cycle} {low high idle : Nat} {chars : List TimedChar} {after : Bool}

/-- What has been reported up to some cycle of a line within the tolerance. -/
theorem reported_so_far (tolerance : Tolerance 868 low high) (served : Device.Served cycles)
    (within : ∀ c ∈ chars, c.HeldWithin low high)
    (line : cycles.map Cycle.syncRxd <+: lineFrom idle chars after) :
    (Device.observe cycles).2.trace.reports <+: chars.map soundReport := by
  have received := (tracked_run served).received
  rw [observe_levels] at received
  obtain ⟨rest, split⟩ := line
  have whole := receives_line tolerance idle within after
  rw [← lineFrom, ← split, receive_append, ← received] at whole
  rw [← whole]
  exact receive_log_prefix _ _ _ rest

/-- The bytes that the handler has been given, the one under way and the one that waits are the first
bytes of the line. -/
theorem arrived_so_far (tolerance : Tolerance 868 low high) (served : Device.Served cycles)
    (within : ∀ c ∈ chars, c.HeldWithin low high)
    (line : cycles.map Cycle.syncRxd <+: lineFrom idle chars after) :
    arrivals (Device.observe cycles).2.actions <+: bytesOf chars := by
  have tracked := tracked_run served
  have reports := (reported_so_far tolerance served within line).map Report.char
  have bytes : bytesOf chars = ((chars.map soundReport).map Report.char).map UInt8.ofBitVec := by
    simp [bytesOf, soundReport]
  have reads : (Device.observe cycles).2.trace.reads <+:
      (Device.observe cycles).2.trace.reports.map Report.char := ⟨_, tracked.attended.reads⟩
  have given : arrivals (Device.observe cycles).2.actions <+:
      (Device.observe cycles).2.trace.reads.map UInt8.ofBitVec := ⟨_, tracked.bytes⟩
  rw [bytes]
  exact given.trans ((reads.trans reports).map UInt8.ofBitVec)

/-- On a line whose characters are within the tolerance of the receiver and carry the bytes of some
frames, a device that is served in time refines the firmware at the end of an ideal line: it is in the
state of the ideal one after the same steps, has latched the same patterns, and no character has been
overrun. -/
theorem device_refines_link {frames : List (List UInt8)} (nonempty : ∀ frame ∈ frames, frame ≠ [])
    (tolerance : Tolerance 868 low high) (within : ∀ c ∈ chars, c.HeldWithin low high)
    (carries : bytesOf chars = frames.flatten) (served : Device.Served cycles)
    (line : cycles.map Cycle.syncRxd <+: lineFrom idle chars after) :
    (Device.observe cycles).1.fw = (run Link.step (Link.start frames) (Device.turns cycles)).fw ∧
      Device.latched cycles = latchedPatterns frames (Device.turns cycles) ∧
      (Device.observe cycles).1.uart.rx.rxOverrun = false := by
  have tracked := tracked_run served
  have arrived := arrived_so_far tolerance served within line
  rw [carries] at arrived
  have onLine := onLine_of_arrivals (s := Link.start frames) [] nonempty arrived
  exact ⟨tracked.fw.trans onLine.fw.symm, onLine.latched.symm, tracked.attended.overrun⟩

/-- When the whole line has been received and nothing waits to be read, the handler has been given every
byte of the line once, in order. -/
theorem all_bytes_arrive (tolerance : Tolerance 868 low high)
    (within : ∀ c ∈ chars, c.HeldWithin low high) (served : Device.Served cycles)
    (line : cycles.map Cycle.syncRxd = lineFrom idle chars after)
    (unread : (Device.observe cycles).1.uart.rx.rxCharReady = false)
    (free : (Device.observe cycles).1.access = none) :
    arrivals (Device.observe cycles).2.actions = bytesOf chars := by
  have tracked := tracked_run served
  have reported : (Device.observe cycles).2.trace.reports = chars.map soundReport := by
    have received := congrArg Prod.snd tracked.received
    rw [observe_levels, line] at received
    exact received.trans (receives_line tolerance idle within after)
  have reads := tracked.attended.reads
  simp only [unread, Bool.false_eq_true, if_false, List.append_nil, reported] at reads
  have bytes := tracked.bytes
  rw [Device.underWay, free, if_neg (by simp), List.append_nil, reads] at bytes
  rw [bytes]
  simp [bytesOf, soundReport]

end Line

/-! ### A processor that serves at once

With a processor that does nothing else in an interrupt than to serve it, the promise holds on every
line, noise included. -/

def Device.prompt (d : Device) : Choice :=
  if d.access = none ∧ d.setup = [] ∧ d.uart.regs.irq = true then .serve else .main

/-- The cycles of such a processor on a line. -/
def promptCycles (d : Device) : List Bool → List Cycle
  | [] => []
  | level :: levels => ⟨level, d.prompt⟩ :: promptCycles (d.step ⟨level, d.prompt⟩) levels

/-- The cycles that the writes of `IRQ_init` and the access under way still take. -/
def Device.busy (d : Device) : Nat :=
  2 * d.setup.length + if d.access.isSome then 1 else 0

/-- The invariant of such a processor: a ready character waits for the accesses under way and for the
interrupt. -/
structure AtOnce (s : Device × Seen) : Prop where
  tracked : Tracked s
  enabled : .write 3 0x80 ∈ s.1.setup ∨ s.1.uart.regs.controlReg = 0x80
  busy : s.1.busy ≤ 6
  soon : s.1.uart.rx.rxCharReady = true →
    s.2.trace.waited + 2 * s.1.busy + (if s.1.uart.regs.irq then 0 else 1) ≤ 14

theorem promptCycles_levels (d : Device) (levels : List Bool) :
    (promptCycles d levels).map Cycle.syncRxd = levels := by
  induction levels generalizing d with
  | nil => rfl
  | cons level levels ih => rw [promptCycles, List.map_cons, ih]

section AtOnce

variable {s : Device × Seen} {level : Bool}

theorem busy_step (d : Device) (level : Bool) (busy : 0 < d.busy) :
    (d.step ⟨level, d.prompt⟩).busy + 1 = d.busy := by
  cases under : d.access with
  | some access => simp [Device.busy, Device.step, Device.begins, under]
  | none =>
      cases setup : d.setup with
      | nil => simp [Device.busy, under, setup] at busy
      | cons access others =>
          have choice : d.prompt = .main := by simp [Device.prompt, setup]
          simp only [Device.busy, Device.step, Device.begins, under, setup, choice, List.tail_cons,
            List.head?_cons, Option.isSome_some, Option.isSome_none, if_true, Bool.false_eq_true,
            if_false, List.length_cons]
          omega

/-- With nothing under way an interrupt is served, and without one nothing begins. -/
theorem free_step (d : Device) (level : Bool) (free : d.busy = 0) :
    d.access = none ∧ d.setup = [] ∧
      (d.step ⟨level, d.prompt⟩).busy = if d.uart.regs.irq then 1 else 0 := by
  have setup : d.setup = [] := by
    rw [← List.length_eq_zero_iff]
    unfold Device.busy at free
    omega
  have none : d.access = none := by
    cases under : d.access with
    | none => rfl
    | some access => simp [Device.busy, under] at free
  refine ⟨none, setup, ?_⟩
  cases irq : d.uart.regs.irq <;>
    simp [Device.busy, Device.step, Device.begins, Device.prompt, none, setup, irq]

theorem AtOnce.timely (atOnce : AtOnce s) : Timely s ⟨level, s.1.prompt⟩ where
  serves serve _ := by
    simp only [Device.prompt] at serve
    split at serve
    · rename_i interrupt
      exact interrupt.2
    · cases serve
  prompt ready := by
    have soon := atOnce.soon ready
    have wide : patience 868 = 3924 := by decide
    omega

theorem AtOnce.enabled_step (atOnce : AtOnce s) :
    .write 3 0x80 ∈ (s.1.step ⟨level, s.1.prompt⟩).setup ∨
      (s.1.step ⟨level, s.1.prompt⟩).uart.regs.controlReg = 0x80 := by
  rw [atOnce.tracked.controlReg]
  rcases atOnce.enabled with coming | done
  · cases under : s.1.access with
    | some access =>
        left
        simpa [Device.step, under] using coming
    | none =>
        cases setup : s.1.setup with
        | nil => simp [setup] at coming
        | cons access others =>
            have choice : s.1.prompt = .main := by simp [Device.prompt, setup]
            rw [setup, List.mem_cons] at coming
            rcases coming with rfl | later
            · right
              have bus : s.1.bus s.1.prompt = (Access.write 3 0x80).bus true := by
                simp [Device.bus, Device.begins, under, setup, choice]
              rw [bus]
              rfl
            · left
              simpa [Device.step, under, setup, choice] using later
  · right
    rw [done, ite_self]

theorem AtOnce.soon_step (atOnce : AtOnce s)
    (next : (s.1.step ⟨level, s.1.prompt⟩).uart.rx.rxCharReady = true) :
    (s.2.update s.1 ⟨level, s.1.prompt⟩).trace.waited +
        2 * (s.1.step ⟨level, s.1.prompt⟩).busy +
        (if (s.1.step ⟨level, s.1.prompt⟩).uart.regs.irq then 0 else 1) ≤ 14 := by
  have few := atOnce.busy
  have bit : (if (s.1.step ⟨level, s.1.prompt⟩).uart.regs.irq then 0 else 1) ≤ 1 := by
    split <;> omega
  simp only [Seen.update, Trace.update]
  cases ready : s.1.uart.rx.rxCharReady with
  | false =>
      have more : (s.1.step ⟨level, s.1.prompt⟩).busy ≤ 6 := by
        rcases Nat.eq_zero_or_pos s.1.busy with free | busy
        · rw [(free_step s.1 level free).2.2]
          split <;> omega
        · have less := busy_step s.1 level busy
          omega
      simp only [Bool.false_eq_true, if_false]
      omega
  | true =>
      have before := atOnce.soon ready
      rcases Nat.eq_zero_or_pos s.1.busy with free | busy
      · obtain ⟨none, setup, left⟩ := free_step s.1 level free
        cases irq : s.1.uart.regs.irq with
        | true =>
            -- the read begins now
            have serve : s.1.begins s.1.prompt = some .readRxdata := by
              simp [Device.begins, Device.prompt, none, setup, irq]
            have onset := (atOnce.tracked.onset (c := ⟨level, s.1.prompt⟩)).2 serve
            simp [Device.step, NiosUart.step, UartRx.step, onset] at next
        | false =>
            have control : s.1.uart.regs.controlReg = 0x80 :=
              atOnce.enabled.resolve_left (by simp [setup])
            have raised : (s.1.step ⟨level, s.1.prompt⟩).uart.regs.irq = true := by
              simp [Device.step, NiosUart.step, NiosUart.qualifiedIrq, control, ready]
            simp only [irq, Bool.false_eq_true, if_false] at before left
            simp only [raised, if_true, left]
            omega
      · have less := busy_step s.1 level busy
        simp only [if_true]
        omega

theorem AtOnce.step (atOnce : AtOnce s) :
    AtOnce (withHistory Device.step Seen.update s ⟨level, s.1.prompt⟩) where
  tracked := atOnce.tracked.step atOnce.timely
  enabled := atOnce.enabled_step
  busy := by
    have few := atOnce.busy
    change (s.1.step ⟨level, s.1.prompt⟩).busy ≤ 6
    rcases Nat.eq_zero_or_pos s.1.busy with free | busy
    · rw [(free_step s.1 level free).2.2]
      split <;> omega
    · have less := busy_step s.1 level busy
      omega
  soon := atOnce.soon_step

end AtOnce

theorem atOnce_start : AtOnce (Device.start, Seen.start) where
  tracked := tracked_start
  enabled := Or.inl (by decide)
  busy := by decide
  soon ready := by cases ready

/-- On any line, a processor that serves every interrupt at once keeps the promise. -/
theorem prompt_served (levels : List Bool) : Device.Served (promptCycles Device.start levels) := by
  have kept (s : Device × Seen) (atOnce : AtOnce s) :
      EachStep (withHistory Device.step Seen.update) Timely s (promptCycles s.1 levels) := by
    induction levels generalizing s with
    | nil => trivial
    | cons level levels ih => exact ⟨atOnce.timely, ih _ atOnce.step⟩
  exact kept (Device.start, Seen.start) atOnce_start

/-- Two characters that carry a frame of one byte, at 868 cycles a bit. -/
def shortLine : List TimedChar :=
  [TimedChar.steady 868 1, TimedChar.steady 868 7]

theorem short_line_refines :
    (Device.observe (promptCycles Device.start (lineFrom 6 shortLine true))).1.fw =
        (run Link.step (Link.start [[1, 7]])
          (Device.turns (promptCycles Device.start (lineFrom 6 shortLine true)))).fw ∧
      Device.latched (promptCycles Device.start (lineFrom 6 shortLine true)) =
        latchedPatterns [[1, 7]]
          (Device.turns (promptCycles Device.start (lineFrom 6 shortLine true))) ∧
      (Device.observe (promptCycles Device.start (lineFrom 6 shortLine true))).1.uart.rx.rxOverrun =
        false :=
  have within : ∀ c ∈ shortLine, c.HeldWithin 821 917 :=
    List.forall_mem_cons.2 ⟨TimedChar.steady_heldWithin (by decide) (by decide) _,
      List.forall_mem_singleton.2 (TimedChar.steady_heldWithin (by decide) (by decide) _)⟩
  device_refines_link (by decide) tolerance_868 within (by decide) (prompt_served _)
    (by rw [promptCycles_levels])

end VoltCtrl.System
