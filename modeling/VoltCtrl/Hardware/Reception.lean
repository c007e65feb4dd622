/-
Module: VoltCtrl.Hardware.Reception
Layer: Hardware
Purpose: What the receiver of the UART core makes of a line. The counter is loaded with half a bit at
  every edge of the line and samples once a bit until the next edge, so the sender's clock may drift
  only for the length of a run of equal levels, nine bits at most. When every bit is held within the
  tolerance that follows from this, each character is reported once and in order, for any divisor and
  with any idle times between the characters.
Trusted boundary: none
Main exports: Report, logChar, receive, Due, Receiving, Tolerance, Ready, receives_char, receives_line
-/
import VoltCtrl.Core.Wave
import VoltCtrl.Hardware.Uart
import Mathlib.Tactic.IntervalCases

namespace VoltCtrl.Hardware

open VoltCtrl.Core

/-- What the receiver says of a character in the cycle of `got_new_char`. -/
structure Report where
  char : BitVec 8
  framingError : Bool
  isBreak : Bool
deriving DecidableEq

def RxLine.report (s : RxLine) : Report where
  char := s.rawDataIn
  framingError := s.isFramingError
  isBreak := s.isBreak

/-- The characters that the receiver has reported. -/
def logChar (log : List Report) (s : RxLine) (_ : Bool) : List Report :=
  if s.gotNewChar then log ++ [s.report] else log

/-- A character without a fault. -/
def soundReport (c : TimedChar) : Report where
  char := c.value
  framingError := false
  isBreak := false

/-- The receiver with its log after the levels of a line. -/
def receive (divisor : Nat) (s : RxLine × List Report) (line : List Bool) :
    RxLine × List Report :=
  run (withHistory (RxLine.step divisor) logChar) s line

/-- The next sample is `n` cycles away, as long as the line keeps its level. -/
structure Due (divisor : Nat) (level : Bool) (n : Nat) (s : RxLine) : Prop where
  delayed1 : s.delayedSyncRxd1 = level
  delayed2 : s.delayedSyncRxd2 = level
  now : n = 0 → s.baudClkEn = true ∧ s.baudRateCounter = divisor
  later : n ≠ 0 → s.baudClkEn = false ∧ s.baudRateCounter + 1 = n

/-- The first `i` levels of a character have been shifted in behind the ones of the start. -/
structure Receiving (value : BitVec 8) (i : Nat) (s : RxLine) : Prop where
  started : s.doStartRx = false
  taken : ∀ j, j < i → s.rxdShiftReg.getLsbD (10 - i + j) = charLevel value j
  ones : ∀ j, j < 10 - i → s.rxdShiftReg.getLsbD j = true

/-- The bounds on the duration of a bit: a run of nine levels is sampled nine times. -/
structure Tolerance (divisor low high : Nat) : Prop where
  positive : 0 < divisor
  start : divisor / 2 + 3 ≤ low
  fast : divisor / 2 + 3 + 8 * (divisor + 1) ≤ 9 * low
  slow : 9 * high ≤ divisor / 2 + 1 + 9 * (divisor + 1)

/-- The receiver waits for a start bit. -/
structure Ready (s : RxLine) : Prop where
  delayed1 : s.delayedSyncRxd1 = true
  delayed2 : s.delayedSyncRxd2 = true
  started : s.doStartRx = false
  idle : s.rxInProcess = false

/-- The character that is reported in this cycle. -/
def RxLine.pending (s : RxLine) : List Report :=
  if s.gotNewChar then [s.report] else []

@[simp] theorem receive_nil (divisor : Nat) (s : RxLine × List Report) :
    receive divisor s [] = s := rfl

theorem receive_append (divisor : Nat) (s : RxLine × List Report) (first second : List Bool) :
    receive divisor s (first ++ second) = receive divisor (receive divisor s first) second :=
  run_append s first second

theorem receive_cons (divisor : Nat) (s : RxLine) (log : List Report) (level : Bool)
    (line : List Bool) :
    receive divisor (s, log) (level :: line) =
      receive divisor (s.step divisor level, log ++ s.pending) line := by
  have logged : logChar log s level = log ++ s.pending := by
    unfold logChar RxLine.pending
    split <;> simp
  rw [← logged]
  rfl

section Samples

variable {divisor n i : Nat} {level : Bool} {value : BitVec 8} {s : RxLine}

/-! ### The bit clock -/

theorem Due.step (due : Due divisor level (n + 1) s) : Due divisor level n (s.step divisor level) := by
  obtain ⟨off, counter⟩ := due.later (Nat.succ_ne_zero n)
  have steady : s.rxdEdge level = false := by simp [RxLine.rxdEdge, due.delayed2]
  refine ⟨rfl, rfl, ?_, ?_⟩
  · rintro rfl
    have zero : s.baudRateCounter = 0 := by omega
    simp [RxLine.step, steady, zero]
  · intro more
    have positive : s.baudRateCounter ≠ 0 := by omega
    refine ⟨by simp [RxLine.step, steady, positive], ?_⟩
    simp only [RxLine.step, steady, positive, Bool.false_eq_true, or_self, if_false]
    omega

/-- A sample is followed by the next one after `divisor + 1` cycles. -/
theorem Due.sample (due : Due divisor level 0 s) (positive : 0 < divisor) :
    Due divisor level divisor (s.step divisor level) := by
  obtain ⟨on, counter⟩ := due.now rfl
  have steady : s.rxdEdge level = false := by simp [RxLine.rxdEdge, due.delayed2]
  have running : s.baudRateCounter ≠ 0 := by omega
  refine ⟨rfl, rfl, fun zero => absurd zero (by omega), fun _ => ⟨?_, ?_⟩⟩
  · simp [RxLine.step, steady, running]
  · simp only [RxLine.step, steady, running, Bool.false_eq_true, or_self, if_false]
    omega

/-- An edge puts the next sample into the middle of the bit. -/
theorem due_edge (other : s.delayedSyncRxd2 = !level) :
    Due divisor level (divisor / 2 + 1) (s.step divisor level) := by
  have edge : s.rxdEdge level = true := by simp [RxLine.rxdEdge, other]
  refine ⟨rfl, rfl, fun zero => absurd zero (Nat.succ_ne_zero _), fun _ => ⟨?_, ?_⟩⟩
  · simp [RxLine.step, edge]
  · simp [RxLine.step, edge]

/-! ### The shift register -/

theorem Receiving.inProcess (receiving : Receiving value i s) (inside : i < 10) :
    s.rxInProcess = true :=
  receiving.ones 0 (by omega)

theorem Receiving.pending (receiving : Receiving value i s) (inside : i < 10) : s.pending = [] := by
  simp [RxLine.pending, RxLine.gotNewChar, receiving.inProcess inside]

/-- A cycle without a sample. -/
theorem Receiving.keep (receiving : Receiving value i s) (inside : i < 10)
    (off : s.baudClkEn = false) : Receiving value i (s.step divisor level) := by
  have same : (s.step divisor level).rxdShiftReg = s.rxdShiftReg :=
    RxLine.shift_keep receiving.started (by simp [RxLine.sampleEnable, off])
  refine ⟨?_, ?_, ?_⟩
  · simp [RxLine.step, receiving.inProcess inside]
  · rw [same]
    exact receiving.taken
  · rw [same]
    exact receiving.ones

/-- A sample of level `i`. -/
theorem Receiving.sample (receiving : Receiving value i s) (inside : i < 10)
    (on : s.baudClkEn = true) (shown : charLevel value i = level) :
    Receiving value (i + 1) (s.step divisor level) := by
  have shifted (j : Nat) : (s.step divisor level).rxdShiftReg.getLsbD j =
      if j = 9 then level else s.rxdShiftReg.getLsbD (1 + j) && decide (j < 9) :=
    RxLine.shift_sample receiving.started
      (by simp [RxLine.sampleEnable, on, receiving.inProcess inside]) j
  refine ⟨?_, ?_, ?_⟩
  · simp [RxLine.step, receiving.inProcess inside]
  · intro j before
    rw [shifted]
    rcases Nat.lt_succ_iff_lt_or_eq.1 before with earlier | rfl
    · rw [if_neg (by omega), decide_eq_true (by omega), Bool.and_true, ← receiving.taken j earlier]
      congr 1
      omega
    · rw [if_pos (by omega), shown]
  · intro j before
    rw [shifted, if_neg (by omega), decide_eq_true (by omega), Bool.and_true]
    exact receiving.ones (1 + j) (by omega)

/-! ### One bit -/

/-- Cycles without a sample. -/
theorem receive_wait (wait : Nat) (due : Due divisor level (n + wait) s)
    (receiving : Receiving value i s) (inside : i < 10) (log : List Report) :
    ∃ t, receive divisor (s, log) (List.replicate wait level) = (t, log) ∧
      Due divisor level n t ∧ Receiving value i t := by
  induction wait generalizing s with
  | zero => exact ⟨s, rfl, due, receiving⟩
  | succ wait ih =>
      have off := (due.later (by omega)).1
      obtain ⟨t, reached, rest⟩ := ih due.step (receiving.keep inside off)
      refine ⟨t, ?_, rest⟩
      rw [List.replicate_succ, receive_cons, receiving.pending inside, List.append_nil, reached]

/-- The cycles of a level up to its sample. -/
theorem receive_sample (positive : 0 < divisor) (due : Due divisor level n s)
    (receiving : Receiving value i s) (inside : i < 10) (shown : charLevel value i = level)
    (log : List Report) :
    ∃ t, receive divisor (s, log) (List.replicate (n + 1) level) = (t, log) ∧
      Due divisor level divisor t ∧ Receiving value (i + 1) t ∧ t.delayedRxInProcess = true := by
  obtain ⟨u, reached, now, held⟩ := receive_wait (n := 0) n (by rwa [Nat.zero_add]) receiving inside log
  refine ⟨u.step divisor level, ?_, now.sample positive, held.sample inside (now.now rfl).1 shown,
    held.inProcess inside⟩
  rw [List.replicate_succ', receive_append, reached, receive_cons, held.pending inside,
    List.append_nil, receive_nil]

/-- A data bit on a line that has its level already. -/
theorem receive_steady (held : Nat) (positive : 0 < divisor) (due : Due divisor level n s)
    (receiving : Receiving value i s) (inside : i < 9) (shown : charLevel value i = level)
    (early : n < held) (late : held ≤ n + divisor) (log : List Report) :
    ∃ t, receive divisor (s, log) (List.replicate held level) = (t, log) ∧
      Due divisor level (n + (divisor + 1) - held) t ∧ Receiving value (i + 1) t := by
  obtain ⟨u, sampled, next, taken, -⟩ :=
    receive_sample positive due receiving (by omega) shown log
  obtain ⟨t, waited, rest⟩ := receive_wait (n := n + (divisor + 1) - held) (held - (n + 1))
    (by rwa [show n + (divisor + 1) - held + (held - (n + 1)) = divisor by omega]) taken
    (by omega) log
  refine ⟨t, ?_, rest⟩
  rw [show held = n + 1 + (held - (n + 1)) by omega, ← List.replicate_append_replicate,
    receive_append, sampled, waited]

/-- The first cycle of a level that differs from the one before. -/
theorem receive_edge (due : Due divisor (!level) n s) (off : n ≠ 0)
    (receiving : Receiving value i s) (inside : i < 10) (log : List Report) :
    ∃ t, receive divisor (s, log) [level] = (t, log) ∧ Due divisor level (divisor / 2 + 1) t ∧
      Receiving value i t := by
  refine ⟨s.step divisor level, ?_, due_edge due.delayed2,
    receiving.keep inside (due.later off).1⟩
  rw [receive_cons, receiving.pending inside, List.append_nil, receive_nil]

end Samples

/-! ### A run of equal levels -/

section Run

variable {divisor low high : Nat}

/-- The sample after `r` samples of a run is not late for the next bit. -/
theorem Tolerance.early (tolerance : Tolerance divisor low high) {r : Nat} (short : r ≤ 8) :
    divisor / 2 + 3 + r * (divisor + 1) ≤ (r + 1) * low := by
  have start := tolerance.start
  have fast := tolerance.fast
  interval_cases r <;> omega

/-- The sample after `r` samples of a run is not inside the run. -/
theorem Tolerance.late (tolerance : Tolerance divisor low high) {r : Nat} (positive : 1 ≤ r)
    (short : r ≤ 9) : r * high ≤ divisor / 2 + 1 + r * (divisor + 1) := by
  have slow := tolerance.slow
  interval_cases r <;> omega

/-- Levels 0 to `i` have been sampled once each; the last `r` of them are equal and have taken `held`
cycles, and the next sample is that far behind `r` bits of the receiver. -/
structure InStep (divisor low high : Nat) (value : BitVec 8) (i : Nat) (s : RxLine) : Prop where
  receiving : Receiving value (i + 1) s
  run : ∃ r n held, 1 ≤ r ∧ r ≤ i + 1 ∧ (charLevel value i = true → r ≤ i) ∧
    r * low ≤ held ∧ held ≤ r * high ∧ 0 < n ∧
    n + held = divisor / 2 + 2 + r * (divisor + 1) ∧ Due divisor (charLevel value i) n s

variable {value : BitVec 8} {s : RxLine} (tolerance : Tolerance divisor low high)
include tolerance

/-- The start bit: the falling edge, the loading of the shift register and the first sample. -/
theorem receives_start (ready : Ready s) {held : Nat} (least : low ≤ held) (most : held ≤ high)
    (log : List Report) :
    ∃ t, receive divisor (s, log) (List.replicate held false) = (t, log ++ s.pending) ∧
      InStep divisor low high value 0 t := by
  have start := tolerance.start
  have bound := tolerance.late le_rfl (by omega : 1 ≤ 9)
  have edge : Due divisor false (divisor / 2 + 1) (s.step divisor false) :=
    due_edge (by rw [ready.delayed2]; rfl)
  have quiet : (s.step divisor false).pending = [] := by
    have before : (s.step divisor false).delayedRxInProcess = false := ready.idle
    simp [RxLine.pending, RxLine.gotNewChar, before]
  have begins : (s.step divisor false).doStartRx = true := by
    simp [RxLine.step, ready.idle, RxLine.rxdFalling, ready.delayed1]
  have receiving : Receiving value 0 ((s.step divisor false).step divisor false) := by
    have ones : ((s.step divisor false).step divisor false).rxdShiftReg = BitVec.allOnes 10 :=
      RxLine.shift_start begins
    refine ⟨?_, ?_, ?_⟩
    · have settled : (s.step divisor false).delayedSyncRxd1 = false := rfl
      rw [RxLine.step]
      simp [RxLine.rxdFalling, settled]
    · intro j before
      exact absurd before (Nat.not_lt_zero j)
    · intro j before
      rw [ones, BitVec.getLsbD_allOnes]
      exact decide_eq_true before
  obtain ⟨t, reached, due, taken⟩ := receive_steady (held - 2) tolerance.positive edge.step
    receiving (by omega) (charLevel_start value) (by omega) (by omega) (log ++ s.pending)
  refine ⟨t, ?_, taken, 1, _, held, le_rfl, le_rfl, ?_, by omega, by omega, ?_, ?_, due⟩
  · rw [show held = held - 2 + 1 + 1 by omega, List.replicate_succ, List.replicate_succ,
      receive_cons, receive_cons, quiet, List.append_nil, ← reached]
  · intro contrary
    cases contrary
  · omega
  · omega

/-- A data bit keeps the receiver in step, with or without an edge before it. -/
theorem receives_data {i : Nat} (inStep : InStep divisor low high value i s) (data : i + 1 < 9)
    {held : Nat} (least : low ≤ held) (most : held ≤ high) (log : List Report) :
    ∃ t, receive divisor (s, log) (List.replicate held (charLevel value (i + 1))) = (t, log) ∧
      InStep divisor low high value (i + 1) t := by
  obtain ⟨receiving, r, n, before, positive, inside, ones, slow, fast, ahead, place, due⟩ := inStep
  by_cases same : charLevel value (i + 1) = charLevel value i
  · -- the run goes on, and the receiver counts on
    have early := tolerance.early (r := r) (by omega)
    have late := tolerance.late (r := r + 1) (by omega) (by omega)
    rw [Nat.add_mul, Nat.one_mul] at early late
    rw [Nat.add_mul, Nat.one_mul] at late
    rw [← same] at due
    obtain ⟨t, reached, next, taken⟩ := receive_steady held tolerance.positive due receiving
      (by omega) rfl (by omega) (by omega) log
    refine ⟨t, reached, taken, r + 1, _, before + held, by omega, by omega, ?_, ?_, ?_, ?_, ?_, next⟩
    · intro level
      exact Nat.succ_le_succ (ones (same ▸ level))
    · rw [Nat.add_mul]
      omega
    · rw [Nat.add_mul]
      omega
    · omega
    · rw [Nat.add_mul]
      omega
  · -- an edge starts a new run
    have start := tolerance.start
    have late := tolerance.late le_rfl (by omega : 1 ≤ 9)
    have flipped : charLevel value i = !charLevel value (i + 1) := by
      cases left : charLevel value (i + 1) <;> cases right : charLevel value i <;> simp_all
    rw [flipped] at due
    obtain ⟨u, turned, middle, kept⟩ := receive_edge due (by omega) receiving (by omega) log
    obtain ⟨t, reached, next, taken⟩ := receive_steady (held - 1) tolerance.positive middle
      kept (by omega) rfl (by omega) (by omega) log
    refine ⟨t, ?_, taken, 1, _, held, le_rfl, by omega, fun _ => by omega, by omega, by omega, ?_,
      ?_, next⟩
    · rw [show held = 1 + (held - 1) by omega, ← List.replicate_append_replicate, receive_append]
      rw [show List.replicate 1 (charLevel value (i + 1)) = [charLevel value (i + 1)] from rfl,
        turned, reached]
    · omega
    · omega

omit tolerance in
/-- The stop bit has been sampled: the character is reported in the next cycle. -/
theorem ready_of_sampled {level : Bool} {n : Nat} (due : Due divisor level n s) (high : level = true)
    (receiving : Receiving value 10 s) (before : s.delayedRxInProcess = true) :
    Ready s ∧ s.pending = [⟨value, false, false⟩] := by
  have idle : s.rxInProcess = false := receiving.taken 0 (by omega)
  have stop : s.rxdShiftReg.getLsbD 9 = true := receiving.taken 9 (by omega)
  have whole : s.rxdShiftReg ≠ 0#10 := by
    intro zero
    rw [zero] at stop
    cases stop
  have raw : s.rawDataIn = value := by
    apply BitVec.eq_of_getLsbD_eq
    intro j inside
    have shifted := receiving.taken (j + 1) (by omega)
    rw [charLevel_data value inside] at shifted
    rw [RxLine.rawDataIn, BitVec.getLsbD_extractLsb', decide_eq_true inside, Bool.true_and, ← shifted]
    congr 1
    omega
  refine ⟨⟨due.delayed1.trans high, due.delayed2.trans high, receiving.started, idle⟩, ?_⟩
  simp [RxLine.pending, RxLine.gotNewChar, RxLine.report, RxLine.isFramingError, RxLine.isBreak,
    RxLine.stopBit, idle, before, raw, stop, whole]

omit tolerance in
/-- An idle cycle leaves nothing due. -/
theorem Ready.step (ready : Ready s) (divisor : Nat) :
    Ready (s.step divisor true) ∧ (s.step divisor true).pending = [] := by
  have before : (s.step divisor true).delayedRxInProcess = false := ready.idle
  refine ⟨⟨rfl, rfl, ?_, ?_⟩, by simp [RxLine.pending, RxLine.gotNewChar, before]⟩
  · simp [RxLine.step, RxLine.rxdFalling]
  · have same : (s.step divisor true).rxdShiftReg = s.rxdShiftReg :=
      RxLine.shift_keep ready.started (by simp [RxLine.sampleEnable, ready.idle])
    rw [RxLine.rxInProcess, same]
    exact ready.idle

omit tolerance in
/-- Idle cycles report what was due, and nothing else. -/
theorem receives_idle (divisor : Nat) (ready : Ready s) (held : Nat) (log : List Report) :
    ∃ t log', receive divisor (s, log) (List.replicate held true) = (t, log') ∧ Ready t ∧
      log' ++ t.pending = log ++ s.pending := by
  induction held generalizing s log with
  | zero => exact ⟨s, log, rfl, ready, rfl⟩
  | succ held ih =>
      obtain ⟨next, quiet⟩ := ready.step divisor
      obtain ⟨t, log', reached, waiting, logged⟩ := ih next (log ++ s.pending)
      refine ⟨t, log', ?_, waiting, ?_⟩
      · rw [List.replicate_succ, receive_cons, reached]
      · rw [logged, quiet, List.append_nil]

/-- The stop bit, however long. -/
theorem receives_stop (inStep : InStep divisor low high value 8 s) {held : Nat} (least : low ≤ held)
    (log : List Report) :
    ∃ t log', receive divisor (s, log) (List.replicate held true) = (t, log') ∧ Ready t ∧
      log' ++ t.pending = log ++ [⟨value, false, false⟩] := by
  -- the cycles up to the sample of the stop bit, whether an edge stands before it or not
  have sampled : ∃ n u, n ≤ held ∧ receive divisor (s, log) (List.replicate n true) = (u, log) ∧
      Ready u ∧ u.pending = [⟨value, false, false⟩] := by
    obtain ⟨receiving, r, n, before, positive, inside, ones, slow, fast, ahead, place, due⟩ := inStep
    cases level : charLevel value 8 with
    | true =>
        have early := tolerance.early (ones level)
        rw [Nat.add_mul, Nat.one_mul] at early
        obtain ⟨u, reached, next, taken, was⟩ := receive_sample tolerance.positive due receiving
          (by omega) ((charLevel_stop value).trans level.symm) log
        rw [level] at reached
        exact ⟨n + 1, u, by omega, reached, ready_of_sampled next level taken was⟩
    | false =>
        have start := tolerance.start
        rw [level, show false = !true from rfl] at due
        obtain ⟨u, turned, middle, kept⟩ := receive_edge due (by omega) receiving (by omega) log
        obtain ⟨t, reached, next, taken, was⟩ := receive_sample tolerance.positive middle kept
          (by omega) (charLevel_stop value) log
        refine ⟨1 + (divisor / 2 + 1 + 1), t, by omega, ?_, ready_of_sampled next rfl taken was⟩
        rw [← List.replicate_append_replicate, receive_append]
        rw [show List.replicate 1 true = [true] from rfl, turned, reached]
  obtain ⟨n, u, inside, reached, ready, pending⟩ := sampled
  obtain ⟨t, log', waited, idle, logged⟩ := receives_idle divisor ready (held - n) log
  refine ⟨t, log', ?_, idle, ?_⟩
  · rw [show held = n + (held - n) by omega, ← List.replicate_append_replicate, receive_append,
      reached, waited]
  · rw [logged, pending]

/-! ### Characters and lines -/

theorem receives_levels {c : TimedChar} (within : c.HeldWithin low high) (ready : Ready s)
    (log : List Report) {i : Nat} (data : i < 9) :
    ∃ t, receive divisor (s, log) (c.levels (i + 1)) = (t, log ++ s.pending) ∧
      InStep divisor low high c.value i t := by
  induction i with
  | zero =>
      rw [TimedChar.levels_succ, TimedChar.levels_zero, List.nil_append]
      exact receives_start tolerance ready (within.least_cycles (by omega))
        (within.most_cycles data) log
  | succ i ih =>
      obtain ⟨u, reached, inStep⟩ := ih (by omega)
      obtain ⟨t, next, taken⟩ := receives_data tolerance inStep data
        (within.least_cycles (by omega)) (within.most_cycles data) (log ++ s.pending)
      refine ⟨t, ?_, taken⟩
      rw [TimedChar.levels_succ, receive_append, reached, next]

/-- A character within the tolerance is reported, after what was due before. -/
theorem receives_char {c : TimedChar} (within : c.HeldWithin low high) (ready : Ready s)
    (log : List Report) :
    ∃ t log', receive divisor (s, log) (c.levels 10) = (t, log') ∧ Ready t ∧
      log' ++ t.pending = log ++ s.pending ++ [soundReport c] := by
  obtain ⟨u, reached, inStep⟩ := receives_levels tolerance within ready log (i := 8) (by omega)
  obtain ⟨t, log', stopped, idle, logged⟩ := receives_stop tolerance inStep
    (within.least_cycles (i := 9) (by omega)) (log ++ s.pending)
  refine ⟨t, log', ?_, idle, logged⟩
  rw [TimedChar.levels_succ, charLevel_stop, receive_append, reached, stopped]

theorem receives_chars {chars : List TimedChar} (within : ∀ c ∈ chars, c.HeldWithin low high)
    (ready : Ready s) (log : List Report) :
    ∃ t log', receive divisor (s, log) (lineOf chars) = (t, log') ∧ Ready t ∧
      log' ++ t.pending = log ++ s.pending ++ chars.map soundReport := by
  induction chars generalizing s log with
  | nil => exact ⟨s, log, rfl, ready, (List.append_nil _).symm⟩
  | cons c chars ih =>
      obtain ⟨first, others⟩ := List.forall_mem_cons.1 within
      obtain ⟨u, middle, reached, waiting, logged⟩ := receives_char tolerance first ready log
      obtain ⟨t, log', rest, idle, final⟩ := ih others waiting middle
      refine ⟨t, log', ?_, idle, ?_⟩
      · rw [lineOf_cons, receive_append, reached, rest]
      · rw [final, logged, List.map_cons, List.append_assoc, List.append_assoc, List.append_assoc]
        rfl

end Run

/-- After reset, one idle cycle arms the receiver. -/
theorem ready_of_idle (divisor idle : Nat) :
    ∃ t, receive divisor (RxLine.reset, []) (List.replicate (idle + 1) true) = (t, []) ∧ Ready t ∧
      t.pending = [] := by
  have off : RxLine.reset.rxInProcess = false := by decide
  have first : Ready (RxLine.reset.step divisor true) :=
    ⟨rfl, rfl, rfl, by simp [RxLine.rxInProcess, RxLine.step, RxLine.reset, RxLine.sampleEnable]⟩
  have quiet : (RxLine.reset.step divisor true).pending = [] := by
    have before : (RxLine.reset.step divisor true).delayedRxInProcess = false := off
    simp [RxLine.pending, RxLine.gotNewChar, before]
  obtain ⟨t, log, reached, ready, logged⟩ := receives_idle divisor first idle []
  rw [quiet, List.append_nil, List.append_eq_nil_iff] at logged
  obtain ⟨rfl, nothing⟩ := logged
  refine ⟨t, ?_, ready, nothing⟩
  have none : RxLine.reset.pending = [] := by decide
  rw [List.replicate_succ, receive_cons, none, List.append_nil, reached]

/-- From reset, a line that is idle for a cycle and then carries characters within the tolerance has
them reported, each once and in order, at the latest in the cycle after its last one. -/
theorem receives_line {divisor low high : Nat} (tolerance : Tolerance divisor low high) (idle : Nat)
    {chars : List TimedChar} (within : ∀ c ∈ chars, c.HeldWithin low high) (after : Bool) :
    (receive divisor (RxLine.reset, [])
      (List.replicate (idle + 1) true ++ lineOf chars ++ [after])).2 =
        chars.map soundReport := by
  obtain ⟨s, armed, ready, none⟩ := ready_of_idle divisor idle
  obtain ⟨t, log, reached, -, logged⟩ := receives_chars tolerance within ready []
  rw [receive_append, receive_append, armed, reached, receive_cons, receive_nil, logged, none]
  rfl

/-- The tolerance of the divisor 868: from 821 to 917 cycles a bit. -/
theorem tolerance_868 : Tolerance 868 821 917 :=
  ⟨by decide, by decide, by decide, by decide⟩

/-- Two characters without a pause, from a sender whose bit is a cycle shorter than the receiver's. -/
theorem receives_two :
    (receive 868 (RxLine.reset, [])
      (List.replicate (0 + 1) true ++
        lineOf [TimedChar.steady 868 0x55, TimedChar.steady 868 0x00] ++ [true])).2 =
        [TimedChar.steady 868 0x55, TimedChar.steady 868 0x00].map soundReport :=
  receives_line tolerance_868 0
    (List.forall_mem_cons.2 ⟨TimedChar.steady_heldWithin (by decide) (by decide) _,
      List.forall_mem_singleton.2 (TimedChar.steady_heldWithin (by decide) (by decide) _)⟩) true

end VoltCtrl.Hardware
