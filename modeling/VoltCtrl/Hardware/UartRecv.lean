/-
Module: VoltCtrl.Hardware.UartRecv
Layer: Hardware
Purpose: What `uart_recv` makes of a line. Its counters start at the falling edge of a start bit and run
  to the middle of the stop bit whatever the line does, so each data bit is taken at a fixed time after
  that edge. When every bit covers the time at which it is taken, the receiver shows each character
  once, for half a bit, and nothing else.
Trusted boundary: none
Main exports: strobe, strobes, Sampled, UartRecv.Position, Position.step, UartRecv.Waits,
  waits_char, waits_line, shows_line, sampled_of_heldWithin, lasting_sampled
-/
import VoltCtrl.Hardware.UartTop
import Mathlib.Tactic.IntervalCases

namespace VoltCtrl.Hardware

open VoltCtrl.Core

/-- `uart_done` and `uart_data`, `p` cycles after the start of the counters. -/
def strobe (bps : Nat) (value : BitVec 8) (p : Nat) : Bool × BitVec 8 :=
  if 9 * bps < p ∧ p ≤ stopMiddle bps + 2 then (true, value) else (false, 0)

/-- A character as the receiver shows it in as many cycles as the character takes. -/
def strobes (bps : Nat) (c : TimedChar) : List (Bool × BitVec 8) :=
  List.replicate (bps / 2 + 2) (true, c.value) ++
    List.replicate (c.elapsed 10 - (bps / 2 + 2)) (false, 0)

/-- Every data bit covers the time at which it is taken, and the character outlasts the receiver. -/
structure Sampled (bps : Nat) (c : TimedChar) : Prop where
  begins : 0 < c.cycles 0
  early (j : Nat) (data : j < 8) : c.elapsed (j + 1) ≤ (j + 1) * bps + bps / 2
  late (j : Nat) (data : j < 8) : (j + 1) * bps + bps / 2 < c.elapsed (j + 2)
  ends : 0 < c.cycles 9
  whole : stopMiddle bps + 2 ≤ c.elapsed 10

theorem strobe_quiet {bps p : Nat} (value : BitVec 8) (quiet : ¬ (9 * bps < p ∧ p ≤ stopMiddle bps + 2)) :
    strobe bps value p = (false, 0) :=
  if_neg quiet

theorem strobes_eq_stretch {bps : Nat} {c : TimedChar} (long : bps / 2 + 2 ≤ c.elapsed 10) :
    strobes bps c = stretch (strobe bps c.value) (9 * bps + 1) (c.elapsed 10) := by
  have on : stretch (strobe bps c.value) (9 * bps + 1) (bps / 2 + 2) =
      List.replicate (bps / 2 + 2) (true, c.value) :=
    stretch_const fun k inside => if_pos (by rw [stopMiddle]; omega)
  have off : stretch (strobe bps c.value) (9 * bps + 1 + (bps / 2 + 2))
      (c.elapsed 10 - (bps / 2 + 2)) =
        List.replicate (c.elapsed 10 - (bps / 2 + 2)) (false, 0) :=
    stretch_const fun k inside => strobe_quiet _ (by rw [stopMiddle]; omega)
  rw [strobes, ← on, ← off, stretch_append]
  congr 1
  omega

namespace UartRecv

/-- The receiver `p` cycles after the start of its counters, also when it has ended since. -/
structure Position (bps : Nat) (value : BitVec 8) (p : Nat) (s : UartRecv) : Prop where
  flag : s.rxFlag = decide (p ≤ stopMiddle bps)
  clock : s.clock = BitClock.after bps p
  bits : p ≤ stopMiddle bps + 1 → ∀ j < 8, (j + 1) * bps + bps / 2 < p →
    s.rxdata.getLsbD j = value.getLsbD j
  shown : 0 < p → s.wires = strobe bps value p

section Position

variable {bps p : Nat} {value : BitVec 8} {s : UartRecv} (divides : Divides bps)
include divides

/-- The outputs of the next cycle do not depend on the line. -/
theorem Position.wires_step (position : Position bps value p s) (level : Bool) :
    (s.step bps level).wires = strobe bps value (p + 1) := by
  have last : s.clock.bitCnt = 9 ↔ 9 * bps ≤ p ∧ p ≤ stopMiddle bps + 1 := by
    rw [position.clock, BitClock.after_bitCnt divides]
  have least := divides.least
  by_cases stop : s.clock.bitCnt = 9
  · obtain ⟨low, high⟩ := last.1 stop
    have whole : s.rxdata = value := by
      refine BitVec.eq_of_getLsbD_eq fun j inside => position.bits high j inside ?_
      have most : (j + 1) * bps ≤ 8 * bps := Nat.mul_le_mul_right bps (by omega)
      omega
    have shown : strobe bps value (p + 1) = (true, value) := if_pos (by omega)
    rw [shown, wires, step, if_pos stop, whole, stop]
    rfl
  · have shown : strobe bps value (p + 1) = (false, 0) := if_neg (by omega)
    rw [shown, wires, step, if_neg stop, beq_false_of_ne stop]

/-- One cycle, unless the line falls after the middle of the stop bit. -/
theorem Position.step (position : Position bps value p s) (level : Bool)
    (sampled : ∀ j < 8, p = (j + 1) * bps + bps / 2 → s.uartRxdD1 = value.getLsbD j)
    (quiet : stopMiddle bps ≤ p → s.startFlag = false) :
    Position bps value (p + 1) (s.step bps level) where
  flag := by
    rw [UartRecv.step, position.clock, position.flag]
    dsimp only
    cases start : s.startFlag with
    | true =>
        have before : ¬ stopMiddle bps ≤ p := fun late => by
          rw [quiet late] at start
          exact Bool.false_ne_true start
        rw [if_pos rfl, decide_eq_true (by omega)]
    | false =>
        exact BitClock.after_flag divides p
  clock := by
    rw [← BitClock.after_step divides p, ← position.flag, ← position.clock]
    rfl
  bits running j inside taken := by
    have on : s.rxFlag = true := by
      rw [position.flag, decide_eq_true (by omega)]
    have least := divides.least
    have middle (i : Nat) : s.clock.bitCnt = i ∧ s.clock.clkCnt = bps / 2 ↔ p = i * bps + bps / 2 := by
      rw [position.clock]
      exact BitClock.after_iff divides (by omega) (by omega)
    have old (other : p ≠ (j + 1) * bps + bps / 2) : s.rxdata.getLsbD j = value.getLsbD j :=
      position.bits (by omega) j inside (by omega)
    rw [UartRecv.step]
    dsimp only
    rw [if_pos on]
    by_cases half : s.clock.clkCnt = bps / 2
    · rw [if_pos half, getLsbD_capture _ _ _ inside]
      by_cases here : s.clock.bitCnt = j + 1
      · rw [if_pos here]
        exact sampled j inside ((middle (j + 1)).1 ⟨here, half⟩)
      · rw [if_neg here]
        exact old fun now => here ((middle (j + 1)).2 now).1
    · rw [if_neg half]
      exact old fun now => half ((middle (j + 1)).2 now).2
  shown _ := position.wires_step divides level

omit divides in
/-- A falling edge of the line starts the counters of a receiver that has ended. -/
theorem Position.start (position : Position bps value p s) (ended : stopMiddle bps < p)
    (falling : s.startFlag = true) (next : BitVec 8) (level : Bool) :
    Position bps next 0 (s.step bps level) where
  flag := by simp [UartRecv.step, falling]
  clock := by
    rw [UartRecv.step, position.flag, decide_eq_false (by omega), BitClock.step_off,
      BitClock.after_zero]
  bits _ j _ taken := absurd taken (Nat.not_lt_zero _)
  shown positive := absurd positive (Nat.lt_irrefl 0)

end Position

/-! ### One character -/

/-- The receiver `p` cycles after the start of its counters has taken `p + 2` levels of the character. -/
structure Follows (bps : Nat) (c : TimedChar) (p : Nat) (s : UartRecv) : Prop where
  position : Position bps c.value p s
  older : (c.levels 10)[p]? = some s.uartRxdD1
  newer : (c.levels 10)[p + 1]? = some s.uartRxdD0

/-- The receiver at the end of a character, with the outputs that are still to come. -/
def Waits (bps : Nat) (s : UartRecv) (owed : List (Bool × BitVec 8)) : Prop :=
  ∃ value p, stopMiddle bps ≤ p ∧ s.uartRxdD0 = true ∧ Position bps value p s ∧
    owed = stretch (strobe bps value) p (9 * bps + 3)

section Character

variable {bps p : Nat} {c : TimedChar} {s : UartRecv}

/-- A line does not fall after the last data bit has begun. -/
theorem levels_rise {older newer : Bool} (data : c.elapsed 8 ≤ p)
    (first : (c.levels 10)[p]? = some older) (second : (c.levels 10)[p + 1]? = some newer) :
    (older && !newer) = false := by
  have inside : p + 1 < c.elapsed 10 := by
    rw [← c.levels_length]
    exact (List.getElem?_eq_some_iff.1 second).1
  rcases Nat.lt_or_ge (p + 1) (c.elapsed 9) with before | after
  · have data_level (t : Nat) (low : p ≤ t) (high : t < c.elapsed 9) :
        (c.levels 10)[t]? = some (charLevel c.value 8) :=
      TimedChar.levels_getElem? (by omega) (Nat.le_trans data low) high
    rw [data_level p le_rfl (by omega)] at first
    rw [data_level (p + 1) (by omega) before] at second
    cases first
    cases second
    exact Bool.and_not_self _
  · rw [TimedChar.levels_getElem? (by omega : 9 < 10) after inside] at second
    cases second
    exact Bool.and_false _

theorem Follows.step (divides : Divides bps) (sampled : Sampled bps c) (follows : Follows bps c p s)
    {level : Bool} (input : (c.levels 10)[p + 2]? = some level) :
    Follows bps c (p + 1) (s.step bps level) where
  position := by
    refine follows.position.step divides level (fun j inside now => ?_) fun late => ?_
    · have taken := TimedChar.levels_getElem? (c := c) (n := 10) (i := j + 1) (by omega)
        (now ▸ sampled.early j inside) (now ▸ sampled.late j inside)
      rw [follows.older, charLevel_data _ inside] at taken
      exact Option.some.inj taken
    · have data : c.elapsed 8 ≤ 8 * bps + bps / 2 := sampled.early 7 (by omega)
      rw [stopMiddle] at late
      exact levels_rise (by omega) follows.older follows.newer
  older := follows.newer
  newer := input

/-- A character that falls on a waiting receiver. -/
theorem follows_start (divides : Divides bps) (sampled : Sampled bps c) {value : BitVec 8}
    (position : Position bps value p s) (ended : stopMiddle bps ≤ p) (high : s.uartRxdD0 = true)
    {level : Bool} (input : (c.levels 10)[1]? = some level) :
    Position bps value (p + 1) (s.step bps false) ∧
      Follows bps c 0 ((s.step bps false).step bps level) := by
  have quiet : s.startFlag = false := by simp [startFlag, high]
  have falling : (s.step bps false).startFlag = true := by simp [startFlag, UartRecv.step, high]
  have next : Position bps value (p + 1) (s.step bps false) := by
    refine position.step divides false (fun j inside now => ?_) fun _ => quiet
    have most : (j + 1) * bps ≤ 8 * bps := Nat.mul_le_mul_right bps (by omega)
    have least := divides.least
    rw [stopMiddle] at ended
    omega
  refine ⟨next, next.start (by omega) falling c.value level, ?_, input⟩
  exact TimedChar.levels_getElem? (i := 0) (by omega) le_rfl
    (by simpa [TimedChar.elapsed_succ] using sampled.begins)

theorem follows_run (divides : Divides bps) (sampled : Sampled bps c)
    (start : Follows bps c 0 (run (UartRecv.step bps) s ((c.levels 10).take 2)))
    (inside : p + 2 ≤ c.elapsed 10) :
    Follows bps c p (run (UartRecv.step bps) s ((c.levels 10).take (p + 2))) := by
  induction p with
  | zero => exact start
  | succ p ih =>
      have before : p + 2 < (c.levels 10).length := by
        rw [c.levels_length]
        omega
      have input := List.getElem?_eq_getElem before
      rw [run_take_succ s input]
      exact (ih (by omega)).step divides sampled input

/-- A receiver that waits shows the character that comes, behind what it owes. -/
theorem waits_char (divides : Divides bps) (sampled : Sampled bps c) {owed : List (Bool × BitVec 8)}
    (waits : Waits bps s owed) :
    ∃ rest, Waits bps (run (UartRecv.step bps) s (c.levels 10)) rest ∧
      Answers (UartRecv.step bps) wires s owed (c.levels 10) (strobes bps c) rest := by
  obtain ⟨value, p, ended, high, position, rfl⟩ := waits
  have least := divides.least
  have whole := sampled.whole
  have middle : stopMiddle bps = 9 * bps + bps / 2 := rfl
  have length : (c.levels 10).length = c.elapsed 10 := c.levels_length 10
  obtain ⟨first, input⟩ : ∃ level, (c.levels 10)[1]? = some level :=
    ⟨_, List.getElem?_eq_getElem (by omega)⟩
  have begins : (c.levels 10)[0]? = some false :=
    TimedChar.levels_getElem? (i := 0) (by omega) le_rfl
      (by simpa [TimedChar.elapsed_succ] using sampled.begins)
  have one : run (UartRecv.step bps) s ((c.levels 10).take 1) = s.step bps false := by
    rw [run_take_succ s begins]
    rfl
  have two : run (UartRecv.step bps) s ((c.levels 10).take 2) = (s.step bps false).step bps first := by
    rw [run_take_succ s input, one]
  obtain ⟨next, start⟩ := follows_start divides sampled position ended high input
  rw [← two] at start
  -- the outputs from the start of the character on, as far as they are settled by its end
  let shown (k : Nat) := if k < 3 then strobe bps value (p + k) else strobe bps c.value (k - 2)
  have follows (n : Nat) (inside : n < (c.levels 10).length) :
      (run (UartRecv.step bps) s ((c.levels 10).take n)).wires = shown (0 + n) := by
    rw [Nat.zero_add]
    match n with
    | 0 => exact position.shown (by omega)
    | 1 =>
        rw [one]
        exact next.shown (by omega)
    | 2 =>
        rw [two]
        exact next.wires_step divides first
    | n + 3 =>
        exact (follows_run divides sampled start (p := n + 1) (by omega)).position.shown (by omega)
  have finished := follows_run divides sampled start (p := c.elapsed 10 - 2)
    (by omega)
  refine ⟨stretch (strobe bps c.value) (c.elapsed 10 - 2) (9 * bps + 3), ?_, ?_⟩
  · have stop : c.elapsed 10 = c.elapsed 9 + c.cycles 9 := rfl
    have ends := sampled.ends
    have last : (c.levels 10)[c.elapsed 10 - 2 + 1]? = some true :=
      TimedChar.levels_getElem? (by omega : 9 < 10) (by omega)
        (show _ < c.elapsed 10 by omega)
    rw [show c.elapsed 10 - 2 + 2 = (c.levels 10).length by omega, List.take_length] at finished
    have high := finished.newer
    rw [last] at high
    exact ⟨c.value, c.elapsed 10 - 2, by omega, (Option.some.inj high).symm, finished.position, rfl⟩
  · have owed : stretch (strobe bps value) p (9 * bps + 3) = stretch shown 0 (9 * bps + 3) := by
      refine stretch_congr fun k inside => ?_
      by_cases early : k < 3
      · simp [shown, early]
      · simp only [shown, Nat.zero_add, if_neg early]
        rw [strobe_quiet _ (by omega), strobe_quiet _ (by omega)]
    have answer : strobes bps c = stretch shown (9 * bps + 3) (c.elapsed 10) := by
      rw [strobes_eq_stretch (by omega)]
      refine stretch_congr fun k _ => ?_
      rw [show 9 * bps + 1 + k = 9 * bps + 3 + k - 2 by omega]
      exact (if_neg (by omega)).symm
    have rest : stretch (strobe bps c.value) (c.elapsed 10 - 2) (9 * bps + 3) =
        stretch shown (c.elapsed 10) (9 * bps + 3) := by
      refine stretch_congr fun k _ => ?_
      rw [show c.elapsed 10 - 2 + k = c.elapsed 10 + k - 2 by omega]
      exact (if_neg (by omega)).symm
    have shows : outputs (UartRecv.step bps) wires s (c.levels 10) = stretch shown 0 (c.elapsed 10) := by
      rw [outputs_eq_stretch follows, length]
    have ahead := stretch_append (f := shown) 0 (c.elapsed 10) (9 * bps + 3)
    have behind := stretch_append (f := shown) 0 (9 * bps + 3) (c.elapsed 10)
    rw [Nat.zero_add] at ahead behind
    rw [Answers, shows, rest, owed, answer, ahead, behind, Nat.add_comm]

end Character

/-! ### A line -/

section Line

variable {bps : Nat} {s : UartRecv} {owed : List (Bool × BitVec 8)}

theorem Waits.owed_length (waits : Waits bps s owed) : owed.length = 9 * bps + 3 := by
  obtain ⟨value, p, -, -, -, rfl⟩ := waits
  exact stretch_length _ _

theorem waits_line (divides : Divides bps) {chars : List TimedChar}
    (sampled : ∀ c ∈ chars, Sampled bps c) (waits : Waits bps s owed) :
    ∃ rest, Waits bps (run (UartRecv.step bps) s (lineOf chars)) rest ∧
      Answers (UartRecv.step bps) wires s owed (lineOf chars) (chars.flatMap (strobes bps)) rest :=
  answers_flatMap (Waits bps) (Sampled bps) (fun c => c.levels 10) (strobes bps)
    (fun _ _ _ waits sampled => waits_char divides sampled waits) waits sampled

/-- A cycle of the idle line. -/
theorem waits_idle (divides : Divides bps) (waits : Waits bps s owed) :
    ∃ rest, Waits bps (run (UartRecv.step bps) s [true]) rest ∧
      Answers (UartRecv.step bps) wires s owed [true] [(false, 0)] rest := by
  obtain ⟨value, p, ended, high, position, rfl⟩ := waits
  have least := divides.least
  have middle : stopMiddle bps = 9 * bps + bps / 2 := rfl
  have next : Position bps value (p + 1) (s.step bps true) := by
    refine position.step divides true (fun j inside now => ?_) fun _ => by simp [startFlag, high]
    have most : (j + 1) * bps ≤ 8 * bps := Nat.mul_le_mul_right bps (by omega)
    omega
  refine ⟨stretch (strobe bps value) (p + 1) (9 * bps + 3), ⟨value, p + 1, by omega, rfl, next, rfl⟩, ?_⟩
  have now : outputs (UartRecv.step bps) wires s [true] = stretch (strobe bps value) p 1 := by
    rw [outputs_cons, outputs_nil, position.shown (by omega)]
    rfl
  have last : stretch (strobe bps value) (p + (9 * bps + 3)) 1 = [(false, 0)] :=
    stretch_const fun k _ => strobe_quiet value (by omega)
  rw [Answers, now, ← last, stretch_append, stretch_append, Nat.add_comm]

theorem waits_pause (divides : Divides bps) (waits : Waits bps s owed) (n : Nat) :
    ∃ rest, Waits bps (run (UartRecv.step bps) s (List.replicate n true)) rest ∧
      Answers (UartRecv.step bps) wires s owed (List.replicate n true)
        (List.replicate n (false, 0)) rest := by
  induction n generalizing s owed with
  | zero => exact ⟨owed, waits, answers_nil s owed⟩
  | succ n ih =>
      obtain ⟨middle, kept, first⟩ := waits_idle divides waits
      obtain ⟨rest, owes, second⟩ := ih kept
      exact ⟨rest, owes, first.trans second⟩

/-- The first cycle after the reset. -/
theorem waits_reset (divides : Divides bps) :
    Waits bps (reset.step bps true) (List.replicate (9 * bps + 3) (false, 0)) := by
  have middle : stopMiddle bps = 9 * bps + bps / 2 := rfl
  have idle : Position bps 0 (stopMiddle bps + 3) reset := by
    refine ⟨?_, ?_, fun running => ?_, fun _ => ?_⟩
    · rw [decide_eq_false (by omega)]
      rfl
    · rw [BitClock.after_ended (by omega)]
      rfl
    · omega
    · rw [strobe_quiet 0 (by omega)]
      rfl
  refine ⟨0, stopMiddle bps + 4, by omega, rfl, ?_, ?_⟩
  · refine idle.step divides true (fun j inside now => ?_) fun _ => rfl
    have most : (j + 1) * bps ≤ 8 * bps := Nat.mul_le_mul_right bps (by omega)
    omega
  · exact (stretch_const fun k _ => strobe_quiet 0 (by omega)).symm

/-- From the reset on, the receiver shows the characters of a line after `9 * bps + 3` cycles. -/
theorem shows_line (divides : Divides bps) {chars : List TimedChar}
    (sampled : ∀ c ∈ chars, Sampled bps c) (idle quiet : Nat) :
    outputs (UartRecv.step bps) wires reset
        (List.replicate (idle + 1) true ++ lineOf chars ++
          List.replicate (quiet + (9 * bps + 3)) true) =
      List.replicate (9 * bps + 3 + (idle + 1)) (false, 0) ++ chars.flatMap (strobes bps) ++
        List.replicate quiet (false, 0) := by
  obtain ⟨lead, started, first⟩ := waits_pause divides (waits_reset divides) idle
  obtain ⟨middle, line, second⟩ := waits_line divides sampled started
  obtain ⟨rest, last, third⟩ := waits_pause divides line (quiet + (9 * bps + 3))
  rw [← run_append] at last third
  rw [← List.replicate_append_replicate (a := (false, (0 : BitVec 8)))] at third
  have whole := first.trans second |>.trans third
  rw [← List.append_assoc] at whole
  have flushed := whole.flush (by rw [last.owed_length, List.length_replicate])
  calc outputs (UartRecv.step bps) wires reset
        (List.replicate (idle + 1) true ++ lineOf chars ++
          List.replicate (quiet + (9 * bps + 3)) true)
      = (false, 0) :: outputs (UartRecv.step bps) wires (reset.step bps true)
          (List.replicate idle true ++ lineOf chars ++
            List.replicate (quiet + (9 * bps + 3)) true) := rfl
    _ = (false, 0) :: (List.replicate (9 * bps + 3) (false, 0) ++
          (List.replicate idle (false, 0) ++ chars.flatMap (strobes bps) ++
            List.replicate quiet (false, 0))) := by rw [flushed]
    _ = List.replicate (9 * bps + 3 + (idle + 1)) (false, 0) ++ chars.flatMap (strobes bps) ++
          List.replicate quiet (false, 0) := by
        rw [← List.append_assoc, ← List.append_assoc, List.replicate_append_replicate,
          ← List.cons_append, ← List.cons_append, ← List.replicate_succ, Nat.add_assoc]

end Line

end UartRecv

/-! ### Lines that the receiver reads -/

section Sampled

variable {bps low high : Nat}

/-- Bits that are neither too short nor too long. -/
theorem sampled_of_heldWithin {c : TimedChar} (within : c.HeldWithin low high) (positive : 0 < low)
    (slow : 8 * high ≤ 8 * bps + bps / 2) (fast : 8 * bps + bps / 2 < 9 * low)
    (stop : stopMiddle bps + 2 ≤ 10 * low) : Sampled bps c := by
  have least (n : Nat) (inside : n ≤ 10) : n * low ≤ c.elapsed n := by
    induction n with
    | zero => omega
    | succ n ih =>
        have held := within.least_cycles (i := n) (by omega)
        rw [TimedChar.elapsed_succ, Nat.succ_mul]
        exact Nat.add_le_add (ih (by omega)) held
  have most (n : Nat) (inside : n ≤ 9) : c.elapsed n ≤ n * high := by
    induction n with
    | zero => exact Nat.zero_le _
    | succ n ih =>
        have held := within.most_cycles (i := n) (by omega)
        rw [TimedChar.elapsed_succ, Nat.succ_mul]
        exact Nat.add_le_add (ih (by omega)) held
  refine ⟨?_, fun j data => ?_, fun j data => ?_, ?_, Nat.le_trans stop (least 10 le_rfl)⟩
  · exact Nat.lt_of_lt_of_le positive (within.least_cycles (by omega))
  · refine Nat.le_trans (most (j + 1) (by omega)) ?_
    interval_cases j <;> omega
  · refine Nat.lt_of_lt_of_le ?_ (least (j + 2) (by omega))
    interval_cases j <;> omega
  · exact Nat.lt_of_lt_of_le positive (within.least_cycles (by omega))

end Sampled

end VoltCtrl.Hardware
