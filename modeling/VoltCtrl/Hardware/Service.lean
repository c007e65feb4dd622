/-
Module: VoltCtrl.Hardware.Service
Layer: Hardware
Purpose: A processor that reads each received character in time loses none. The receiver takes ten
  samples for a character and two samples are at least half a bit apart, on any line, noise included:
  so two reports are at least `patience` cycles apart. A character that is read within that time is
  read before the next one is reported; what has been read is what has been reported, each once and in
  order, and `rx_overrun` stays clear.
Trusted boundary: none
Main exports: UartCycle, NiosUart.cycle, Pace, pace_step, patience, Trace, Served, Attended,
  attended_run, served_reads_all
-/
import VoltCtrl.Hardware.Reception

namespace VoltCtrl.Hardware

open VoltCtrl.Core

/-! ### The pace of the receiver -/

/-- The cycles until the next sample, if the line shows no edge. -/
def RxLine.untilSample (s : RxLine) : Nat :=
  if s.baudClkEn then 0 else s.baudRateCounter + 1

/-- What `age` cycles after a report are enough for, whatever the line shows. A character with `k`
samples taken still has ones in its last `10 - k` places. -/
structure Pace (divisor age : Nat) (s : RxLine) : Prop where
  counter : s.baudClkEn = true → s.baudRateCounter = divisor
  process : s.rxInProcess = true → ∃ k ≤ 9, (∀ j < 10 - k, s.rxdShiftReg.getLsbD j = true) ∧
    (divisor / 2 + 2) * k ≤ age + (divisor / 2 + 1) ∧
    (divisor / 2 + 2) * k ≤ age + s.untilSample
  reported : s.gotNewChar = true → (divisor / 2 + 2) * 9 < age

section Pace

variable {divisor age : Nat} {level : Bool} {s : RxLine}

/-- The bit clock after a cycle: half a bit after an edge, a bit after a sample. -/
theorem untilSample_step (level : Bool) (positive : 0 < divisor)
    (counter : s.baudClkEn = true → s.baudRateCounter = divisor) :
    divisor / 2 + 1 ≤ (s.step divisor level).untilSample ∨
      (s.baudClkEn = false ∧ s.untilSample = (s.step divisor level).untilSample + 1) := by
  cases edge : s.rxdEdge level with
  | true =>
      left
      simp [RxLine.untilSample, RxLine.step, edge]
  | false =>
      cases on : s.baudClkEn with
      | true =>
          left
          simp only [RxLine.untilSample, RxLine.step, edge, Bool.not_false, Bool.true_and,
            Bool.false_eq_true, or_false, if_false, counter on, beq_iff_eq]
          rw [if_neg (by omega), if_neg (by omega)]
          omega
      | false =>
          right
          refine ⟨rfl, ?_⟩
          by_cases zero : s.baudRateCounter = 0
          · simp [RxLine.untilSample, RxLine.step, edge, on, zero]
          · simp [RxLine.untilSample, RxLine.step, edge, on, zero]
            omega

theorem counter_step (counter : (s.step divisor level).baudClkEn = true) :
    (s.step divisor level).baudRateCounter = divisor := by
  simp only [RxLine.step, Bool.and_eq_true, Bool.not_eq_true', beq_iff_eq] at counter ⊢
  simp [counter.1, counter.2]

/-- A receiver in which no start bit is taken up does not begin to receive. -/
theorem rxInProcess_step (next : (s.step divisor level).rxInProcess = true) :
    s.doStartRx = true ∨ s.rxInProcess = true := by
  by_contra neither
  simp only [not_or, Bool.not_eq_true] at neither
  have same : (s.step divisor level).rxdShiftReg = s.rxdShiftReg :=
    RxLine.shift_keep neither.1 (by simp [RxLine.sampleEnable, neither.2])
  rw [RxLine.rxInProcess, same] at next
  exact absurd next (by rw [Bool.not_eq_true]; exact neither.2)

/-- A cycle in which the receiver stays in process. -/
theorem Pace.process_step (positive : 0 < divisor) (pace : Pace divisor age s)
    (next : (s.step divisor level).rxInProcess = true) :
    ∃ k ≤ 9, (∀ j < 10 - k, (s.step divisor level).rxdShiftReg.getLsbD j = true) ∧
      (divisor / 2 + 2) * k ≤ age + 1 + (divisor / 2 + 1) ∧
      (divisor / 2 + 2) * k ≤ age + 1 + (s.step divisor level).untilSample := by
  have clock := untilSample_step level positive pace.counter
  cases start : s.doStartRx with
  | true =>
      refine ⟨0, by omega, ?_, by omega, by omega⟩
      intro j inside
      rw [RxLine.shift_start start, BitVec.getLsbD_allOnes]
      exact decide_eq_true inside
  | false =>
      have before : s.rxInProcess = true :=
        (rxInProcess_step next).resolve_left (by simp [start])
      obtain ⟨k, most, ones, slack, ahead⟩ := pace.process before
      cases on : s.baudClkEn with
      | false =>
          have same : (s.step divisor level).rxdShiftReg = s.rxdShiftReg :=
            RxLine.shift_keep start (by simp [RxLine.sampleEnable, on])
          rw [same]
          refine ⟨k, most, ones, by omega, ?_⟩
          rcases clock with late | ⟨-, earlier⟩
          · omega
          · omega
      | true =>
          -- a sample: one more of the ten, except that the tenth is not counted
          have now : s.untilSample = 0 := by simp [RxLine.untilSample, on]
          have late := clock.resolve_right (by simp [on])
          have shifted (j : Nat) : (s.step divisor level).rxdShiftReg.getLsbD j =
              if j = 9 then level else s.rxdShiftReg.getLsbD (1 + j) && decide (j < 9) :=
            RxLine.shift_sample start (by simp [RxLine.sampleEnable, on, before]) j
          rcases Nat.lt_or_ge k 9 with more | last
          · refine ⟨k + 1, more, ?_, ?_, ?_⟩
            · intro j inside
              rw [shifted, if_neg (by omega), decide_eq_true (by omega), Bool.and_true]
              exact ones (1 + j) (by omega)
            · rw [Nat.mul_succ]
              omega
            · rw [Nat.mul_succ]
              omega
          · have nine : k = 9 := by omega
            subst nine
            refine ⟨9, le_rfl, ?_, by omega, by omega⟩
            intro j inside
            have first : j = 0 := by omega
            rw [first]
            exact next

/-- The receiver keeps its pace: a report starts the count again. -/
theorem pace_step (level : Bool) (positive : 0 < divisor) (pace : Pace divisor age s) :
    Pace divisor (if s.gotNewChar then 0 else age + 1) (s.step divisor level) := by
  refine ⟨counter_step, ?_, ?_⟩
  · intro next
    cases got : s.gotNewChar with
    | false => exact pace.process_step positive next
    | true =>
        -- a start bit is taken up in the cycle of the report
        have idle : s.rxInProcess = false := by
          simp only [RxLine.gotNewChar, Bool.and_eq_true, Bool.not_eq_true'] at got
          exact got.1
        have start : s.doStartRx = true := (rxInProcess_step next).resolve_right (by simp [idle])
        refine ⟨0, by omega, ?_, by omega, by omega⟩
        intro j inside
        rw [RxLine.shift_start start, BitVec.getLsbD_allOnes]
        exact decide_eq_true inside
  · intro report
    simp only [RxLine.gotNewChar, Bool.and_eq_true, Bool.not_eq_true'] at report
    obtain ⟨ended, was⟩ := report
    have before : s.rxInProcess = true := was
    have quiet : s.gotNewChar = false := by simp [RxLine.gotNewChar, before]
    obtain ⟨k, most, ones, -, ahead⟩ := pace.process before
    have start : s.doStartRx = false := by
      by_contra begun
      rw [Bool.not_eq_false] at begun
      rw [RxLine.rxInProcess, RxLine.shift_start begun] at ended
      exact absurd ended (by decide)
    have sampled : s.sampleEnable = true := by
      by_contra off
      rw [Bool.not_eq_true] at off
      rw [RxLine.rxInProcess, RxLine.shift_keep start off] at ended
      exact absurd before (by rw [Bool.not_eq_true]; exact ended)
    have on : s.baudClkEn = true := by
      simp only [RxLine.sampleEnable, Bool.and_eq_true] at sampled
      exact sampled.1
    -- the start bit can only be at the end after the tenth sample
    have nine : k = 9 := by
      by_contra fewer
      rw [RxLine.rxInProcess, RxLine.shift_sample start sampled, if_neg (by omega),
        decide_eq_true (by omega), Bool.and_true, ones (1 + 0) (by omega)] at ended
      cases ended
    have now : s.untilSample = 0 := by simp [RxLine.untilSample, on]
    rw [nine, now] at ahead
    rw [quiet]
    exact Nat.lt_succ_of_le ahead

end Pace

/-- The cycles after a report in which no other character can be reported. -/
def patience (divisor : Nat) : Nat := (divisor / 2 + 2) * 9

/-! ### Reads of the received character -/

/-- One clock cycle of the core: the level of the line and the signals of the bus. -/
structure UartCycle where
  syncRxd : Bool
  bus : UartBus

def NiosUart.cycle (s : NiosUart) (c : UartCycle) : NiosUart :=
  s.step c.syncRxd c.bus

/-- What has happened beside the core: for how many cycles the character has been ready, what has been
read, and what the receiver has reported. -/
structure Trace where
  waited : Nat
  reads : List (BitVec 8)
  reports : List Report

def Trace.start : Trace where
  waited := 0
  reads := []
  reports := []

/-- A read takes the value that `readdata` will show. -/
def Trace.update (t : Trace) (s : NiosUart) (c : UartCycle) : Trace where
  waited := if s.rx.rxCharReady then t.waited + 1 else 0
  reads := if c.bus.rxRdStrobeOnset then t.reads ++ [s.rx.line.rxData] else t.reads
  reports := logChar t.reports s.rx.line c.syncRxd

/-- The processor begins a read only when a character is ready, lets none wait longer than
`patience`, and writes no other divisor. -/
structure Served (divisor : Nat) (s : NiosUart × Trace) (c : UartCycle) : Prop where
  reads : c.bus.rxRdStrobeOnset = true → s.1.rx.rxCharReady = true
  prompt : s.1.rx.rxCharReady = true → s.2.waited ≤ patience divisor
  keeps : c.bus.divisorWrStrobe = true → c.bus.writedata.toNat = divisor

/-- The invariant of a core that is served in time. -/
structure Attended (divisor : Nat) (s : NiosUart × Trace) : Prop where
  configured : s.1.regs.baudDivisor.toNat = divisor
  pace : ∃ age, Pace divisor age s.1.rx.line ∧ (s.1.rx.rxCharReady = true → s.2.waited = age)
  reads : s.2.reads ++ (if s.1.rx.rxCharReady then [s.1.rx.line.rxData] else []) =
    s.2.reports.map Report.char
  overrun : s.1.rx.rxOverrun = false

theorem logChar_eq (log : List Report) (s : RxLine) (level : Bool) :
    logChar log s level = log ++ s.pending := by
  unfold logChar RxLine.pending
  split <;> simp

section Service

variable {divisor : Nat} {s : NiosUart × Trace} {c : UartCycle}

/-- No character is reported while another one is unread. -/
theorem Attended.unread (attended : Attended divisor s) (served : Served divisor s c)
    (ready : s.1.rx.rxCharReady = true) : s.1.rx.line.gotNewChar = false := by
  by_contra got
  rw [Bool.not_eq_false] at got
  obtain ⟨age, pace, waited⟩ := attended.pace
  have prompt := served.prompt ready
  have late := pace.reported got
  rw [waited ready] at prompt
  exact absurd late (Nat.not_lt.2 prompt)

theorem Attended.step (positive : 0 < divisor) (attended : Attended divisor s)
    (served : Served divisor s c) :
    Attended divisor (withHistory NiosUart.cycle Trace.update s c) := by
  have unread := attended.unread served
  obtain ⟨core, trace⟩ := s
  obtain ⟨level, bus⟩ := c
  constructor
  · simp only [withHistory, NiosUart.cycle, NiosUart.step]
    split
    · exact served.keeps ‹_›
    · exact attended.configured
  · obtain ⟨age, pace, waited⟩ := attended.pace
    refine ⟨if core.rx.line.gotNewChar then 0 else age + 1, ?_, ?_⟩
    · have kept := pace_step level positive pace
      rw [← attended.configured] at kept ⊢
      exact kept
    · intro next
      cases ready : core.rx.rxCharReady with
      | true =>
          have quiet := unread ready
          have counted : trace.waited = age := waited ready
          simp [withHistory, Trace.update, ready, quiet, counted]
      | false =>
          have got : core.rx.line.gotNewChar = true := by
            by_contra quiet
            rw [Bool.not_eq_true] at quiet
            simp [withHistory, NiosUart.cycle, NiosUart.step, UartRx.step, ready, quiet] at next
          simp [withHistory, Trace.update, ready, got]
  · have before := attended.reads
    cases onset : bus.rxRdStrobeOnset with
    | true =>
        have ready : core.rx.rxCharReady = true := served.reads onset
        have quiet := unread ready
        simp only [ready, if_true] at before
        simpa [withHistory, Trace.update, NiosUart.cycle, NiosUart.step, UartRx.step, onset,
          logChar_eq, RxLine.pending, quiet] using before
    | false =>
        cases got : core.rx.line.gotNewChar with
        | true =>
            have waiting : core.rx.rxCharReady = false := by
              by_contra ready
              rw [Bool.not_eq_false] at ready
              exact absurd got (by simp [unread ready])
            simp only [waiting, Bool.false_eq_true, if_false, List.append_nil] at before
            simp [withHistory, Trace.update, NiosUart.cycle, NiosUart.step, UartRx.step,
              RxLine.step, onset, logChar_eq, RxLine.pending, got, before, RxLine.report]
        | false =>
            simpa [withHistory, Trace.update, NiosUart.cycle, NiosUart.step, UartRx.step,
              RxLine.step, onset, logChar_eq, RxLine.pending, got] using before
  · have clear : core.rx.rxOverrun = false := attended.overrun
    have never : (core.rx.line.gotNewChar && core.rx.rxCharReady) = false := by
      cases ready : core.rx.rxCharReady with
      | true => simp [unread ready]
      | false => simp
    simp [withHistory, NiosUart.cycle, NiosUart.step, UartRx.step, never, clear]

end Service

/-- The receiver as reset leaves it has nothing to read. -/
theorem attended_start {s : NiosUart} (receiver : s.rx = UartRx.reset) :
    Attended s.regs.baudDivisor.toNat (s, Trace.start) where
  configured := rfl
  pace := by
    rw [receiver]
    refine ⟨0, ⟨?_, ?_, ?_⟩, ?_⟩
    · intro on
      cases on
    · intro process
      cases process
    · intro got
      cases got
    · intro ready
      cases ready
  reads := by
    rw [receiver]
    rfl
  overrun := by rw [receiver]; rfl

theorem attended_run {s : NiosUart} (receiver : s.rx = UartRx.reset)
    (positive : 0 < s.regs.baudDivisor.toNat) {cycles : List UartCycle}
    (served : EachStep (withHistory NiosUart.cycle Trace.update)
      (Served s.regs.baudDivisor.toNat) (s, Trace.start) cycles) :
    Attended s.regs.baudDivisor.toNat
      (run (withHistory NiosUart.cycle Trace.update) (s, Trace.start) cycles) :=
  run_invariant (Attended s.regs.baudDivisor.toNat)
    (fun _ _ attended served => attended.step positive served) (attended_start receiver) served

/-- On any line, with any accesses of the processor between its reads: when each character is read
within `patience` cycles, what has been read, with the character that is ready, is what the receiver has
reported, and no character has been overrun. -/
theorem served_reads_all {s : NiosUart} (receiver : s.rx = UartRx.reset)
    (positive : 0 < s.regs.baudDivisor.toNat) (cycles : List UartCycle)
    (served : EachStep (withHistory NiosUart.cycle Trace.update)
      (Served s.regs.baudDivisor.toNat) (s, Trace.start) cycles) :
    (history NiosUart.cycle Trace.update Trace.start s cycles).reads ++
        (if (run NiosUart.cycle s cycles).rx.rxCharReady then
          [(run NiosUart.cycle s cycles).rx.line.rxData] else []) =
      (history NiosUart.cycle Trace.update Trace.start s cycles).reports.map Report.char ∧
    (run NiosUart.cycle s cycles).rx.rxOverrun = false := by
  have attended := attended_run receiver positive served
  rw [run_withHistory] at attended
  exact ⟨attended.reads, attended.overrun⟩

instance (divisor : Nat) (s : NiosUart × Trace) (c : UartCycle) : Decidable (Served divisor s c) :=
  decidable_of_iff
    ((c.bus.rxRdStrobeOnset = true → s.1.rx.rxCharReady = true) ∧
      (s.1.rx.rxCharReady = true → s.2.waited ≤ patience divisor) ∧
      (c.bus.divisorWrStrobe = true → c.bus.writedata.toNat = divisor))
    ⟨fun served => ⟨served.1, served.2.1, served.2.2⟩,
      fun served => ⟨served.reads, served.prompt, served.keeps⟩⟩

/-- A core whose divisor is 8, for bits of 9 cycles. -/
def fastCore : NiosUart :=
  { NiosUart.reset with regs := { NiosUart.reset.regs with baudDivisor := 8 } }

/-- Two characters on a line that was idle; each is read after its stop bit, in two bus cycles. -/
def twoReads : List UartCycle :=
  ⟨true, UartBus.idle⟩ :: [0x41, 0x42].flatMap fun rx =>
    (lineOf [TimedChar.paused 9 8 rx]).map (⟨·, UartBus.idle⟩) ++
      [⟨true, { UartBus.idle with begintransfer := true, chipselect := true, readN := false }⟩,
        ⟨true, { UartBus.idle with chipselect := true, readN := false }⟩]

theorem two_reads_all :
    (history NiosUart.cycle Trace.update Trace.start fastCore twoReads).reads = [0x41, 0x42] ∧
    ((history NiosUart.cycle Trace.update Trace.start fastCore twoReads).reads ++
        (if (run NiosUart.cycle fastCore twoReads).rx.rxCharReady then
          [(run NiosUart.cycle fastCore twoReads).rx.line.rxData] else []) =
      (history NiosUart.cycle Trace.update Trace.start fastCore twoReads).reports.map Report.char ∧
    (run NiosUart.cycle fastCore twoReads).rx.rxOverrun = false) :=
  ⟨by decide +kernel, served_reads_all rfl (by decide) _ (by decide +kernel)⟩

end VoltCtrl.Hardware
