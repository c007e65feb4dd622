/-
Module: VoltCtrl.System.Prompt
Layer: System
Purpose: A line that pauses after each frame, into a processor that serves every interrupt at once. When
  the line falls idle, everything is read within a few cycles and `main` has all the others; a pause of
  that length after each frame therefore keeps all the promises under which a line carries frames.
Trusted boundary: none
Main exports: promptRun, Quiet, unrest, idle_run, pausedChars, frame_run, Between, prompt_carries
-/
import VoltCtrl.System.LineToLatch

namespace VoltCtrl.System

open VoltCtrl.Core VoltCtrl.Firmware VoltCtrl.Hardware

/-! ### Runs of the prompt processor -/

/-- The device and what is seen of it after some levels of the line. -/
def promptRun (s : Device × Seen) (levels : List Bool) : Device × Seen :=
  run (withHistory Device.step Seen.update) s (promptCycles s.1 levels)

theorem promptRun_cons (s : Device × Seen) (level : Bool) (levels : List Bool) :
    promptRun s (level :: levels) =
      promptRun (withHistory Device.step Seen.update s ⟨level, s.1.prompt⟩) levels := rfl

theorem promptRun_append (s : Device × Seen) (first second : List Bool) :
    promptRun s (first ++ second) = promptRun (promptRun s first) second := by
  induction first generalizing s with
  | nil => rfl
  | cons level first ih => rw [List.cons_append, promptRun_cons, ih, promptRun_cons]

theorem AtOnce.run {s : Device × Seen} (atOnce : AtOnce s) (levels : List Bool) :
    AtOnce (promptRun s levels) := by
  induction levels generalizing s with
  | nil => exact atOnce
  | cons level levels ih => exact ih atOnce.step

/-- What the receiver does in such a run. -/
theorem promptRun_received {s : Device × Seen} (atOnce : AtOnce s) (levels : List Bool) :
    ((promptRun s levels).1.uart.rx.line, (promptRun s levels).2.trace.reports) =
      receive 868 (s.1.uart.rx.line, s.2.trace.reports) levels := by
  induction levels generalizing s with
  | nil => rfl
  | cons level levels ih =>
      have divisor : s.1.uart.regs.baudDivisor.toNat = 868 := atOnce.tracked.attended.configured
      rw [promptRun_cons, ih atOnce.step, receive_cons]
      simp only [withHistory, Seen.update, Trace.update, Device.step, NiosUart.step, UartRx.step,
        logChar_eq, divisor]

/-! ### A line that falls idle -/

/-- The receiver is idle and has nothing to report. -/
structure Quiet (s : Device × Seen) : Prop where
  ready : Ready s.1.uart.rx.line
  pending : s.1.uart.rx.line.pending = []

/-- The cycles until everything has been read, on an idle line. -/
def unrest (s : Device × Seen) : Nat :=
  if s.1.uart.rx.rxCharReady then 7 + (14 - s.2.trace.waited) else s.1.busy

section Idle

variable {s : Device × Seen}

theorem unrest_le (atOnce : AtOnce s) : unrest s ≤ 21 := by
  have few := atOnce.busy
  unfold unrest
  split <;> omega

/-- An idle cycle leaves nothing to report. -/
theorem quiet_step (ready : Ready s.1.uart.rx.line) (atOnce : AtOnce s) :
    Quiet (withHistory Device.step Seen.update s ⟨true, s.1.prompt⟩) := by
  have divisor : s.1.uart.regs.baudDivisor.toNat = 868 := atOnce.tracked.attended.configured
  obtain ⟨next, pending⟩ := ready.step 868
  constructor
  · simpa [withHistory, Device.step, NiosUart.step, UartRx.step, divisor] using next
  · simpa [withHistory, Device.step, NiosUart.step, UartRx.step, divisor] using pending

theorem Quiet.gotNewChar (quiet : Quiet s) : s.1.uart.rx.line.gotNewChar = false := by
  have pending := quiet.pending
  unfold RxLine.pending at pending
  split at pending
  · cases pending
  · exact Bool.not_eq_true _ ▸ ‹_›

/-- On an idle line each cycle brings the device nearer to rest. -/
theorem unrest_step (atOnce : AtOnce s) (quiet : Quiet s) (busy : 0 < unrest s) :
    unrest (withHistory Device.step Seen.update s ⟨true, s.1.prompt⟩) < unrest s := by
  have few : (withHistory Device.step Seen.update s ⟨true, s.1.prompt⟩).1.busy ≤ 6 :=
    atOnce.step.busy
  have none := quiet.gotNewChar
  cases ready : s.1.uart.rx.rxCharReady with
  | false =>
      have still : (s.1.step ⟨true, s.1.prompt⟩).uart.rx.rxCharReady = false := by
        simp [Device.step, NiosUart.step, UartRx.step, none, ready]
      simp only [unrest, ready, Bool.false_eq_true, if_false] at busy ⊢
      have less := busy_step s.1 true busy
      simp only [withHistory, still, Bool.false_eq_true, if_false]
      omega
  | true =>
      cases next : (s.1.step ⟨true, s.1.prompt⟩).uart.rx.rxCharReady with
      | false =>
          simp only [unrest, withHistory, next, ready, Bool.false_eq_true, if_false, if_true]
          simp only [withHistory] at few
          omega
      | true =>
          have soon := atOnce.soon_step next
          have waited : (s.2.update s.1 ⟨true, s.1.prompt⟩).trace.waited = s.2.trace.waited + 1 := by
            simp [Seen.update, Trace.update, ready]
          simp only [unrest, withHistory, next, ready, if_true, waited]
          omega

/-- At rest nothing waits to be read and no access is under way. -/
theorem rested_free (rest : unrest s = 0) :
    s.1.uart.rx.rxCharReady = false ∧ s.1.busy = 0 ∧ s.1.access = none := by
  have ready : s.1.uart.rx.rxCharReady = false := by
    cases ready : s.1.uart.rx.rxCharReady with
    | false => rfl
    | true => simp [unrest, ready] at rest
  have free : s.1.busy = 0 := by simpa [unrest, ready] using rest
  exact ⟨ready, free, (free_step s.1 true free).1⟩

/-- A device at rest on an idle line gives `main` the cycle and stays at rest. -/
theorem rest_step (atOnce : AtOnce s) (quiet : Quiet s) (rest : unrest s = 0) :
    unrest (withHistory Device.step Seen.update s ⟨true, s.1.prompt⟩) = 0 ∧
      (withHistory Device.step Seen.update s ⟨true, s.1.prompt⟩).2.actions =
        s.2.actions ++ [.main] := by
  have none := quiet.gotNewChar
  obtain ⟨ready, free, -⟩ := rested_free rest
  obtain ⟨access, setup, left⟩ := free_step s.1 true free
  have irq : s.1.uart.regs.irq = false := by
    by_contra raised
    rw [Bool.not_eq_false] at raised
    rcases atOnce.tracked.irq raised with reading | waiting
    · rw [access] at reading
      cases reading
    · rw [ready] at waiting
      cases waiting
  rw [irq, if_neg Bool.false_ne_true] at left
  have still : (s.1.step ⟨true, s.1.prompt⟩).uart.rx.rxCharReady = false := by
    simp [Device.step, NiosUart.step, UartRx.step, none, ready]
  constructor
  · simpa [unrest, withHistory, still] using left
  · simp [withHistory, Seen.update, Device.action?, Device.prompt, access, setup, irq]

/-- The levels of an idle line. -/
theorem rest_run (atOnce : AtOnce s) (quiet : Quiet s) (rest : unrest s = 0) (n : Nat) :
    Quiet (promptRun s (List.replicate n true)) ∧
      unrest (promptRun s (List.replicate n true)) = 0 ∧
      (promptRun s (List.replicate n true)).2.actions = s.2.actions ++ List.replicate n .main := by
  induction n generalizing s with
  | zero => exact ⟨quiet, rest, (List.append_nil _).symm⟩
  | succ n ih =>
      obtain ⟨next, acted⟩ := rest_step atOnce quiet rest
      obtain ⟨still, rested, actions⟩ := ih atOnce.step (quiet_step quiet.ready atOnce) next
      refine ⟨still, rested, ?_⟩
      rw [List.replicate_succ, promptRun_cons, actions, acted, List.append_assoc]
      rfl

/-- An idle line brings the device to rest; the cycles that are left are all for `main`. -/
theorem idle_run (atOnce : AtOnce s) (quiet : Quiet s) {n : Nat} (long : unrest s ≤ n) :
    Quiet (promptRun s (List.replicate n true)) ∧
      unrest (promptRun s (List.replicate n true)) = 0 ∧
      ∃ others, (promptRun s (List.replicate n true)).2.actions =
        s.2.actions ++ others ++ List.replicate (n - unrest s) .main := by
  induction n generalizing s with
  | zero =>
      have rest : unrest s = 0 := Nat.le_zero.1 long
      exact ⟨quiet, rest, [], by simp [promptRun, promptCycles]⟩
  | succ n ih =>
      rcases Nat.eq_zero_or_pos (unrest s) with rest | busy
      · obtain ⟨still, rested, actions⟩ := rest_run atOnce quiet rest (n + 1)
        exact ⟨still, rested, [], by rw [actions, rest, List.append_nil, Nat.sub_zero]⟩
      · have less := unrest_step atOnce quiet busy
        obtain ⟨still, rested, others, actions⟩ := ih atOnce.step (quiet_step quiet.ready atOnce) (by omega)
        refine ⟨still, rested, (s.1.action? s.1.prompt).toList ++ others ++
          List.replicate (n - unrest (withHistory Device.step Seen.update s ⟨true, s.1.prompt⟩) -
            (n + 1 - unrest s)) .main, ?_⟩
        rw [List.replicate_succ, promptRun_cons, actions]
        have split : List.replicate
              (n - unrest (withHistory Device.step Seen.update s ⟨true, s.1.prompt⟩))
              Firmware.Action.main =
            List.replicate (n - unrest (withHistory Device.step Seen.update s ⟨true, s.1.prompt⟩) -
              (n + 1 - unrest s)) .main ++ List.replicate (n + 1 - unrest s) .main := by
          rw [List.replicate_append_replicate]
          congr 1
          omega
        rw [split]
        simp [withHistory, Seen.update]

end Idle

/-- At rest the handler has been given what has been reported. -/
theorem rested_arrivals {s : Device × Seen} (atOnce : AtOnce s) (rest : unrest s = 0) :
    arrivals s.2.actions = (s.2.trace.reports.map Report.char).map UInt8.ofBitVec := by
  obtain ⟨ready, -, access⟩ := rested_free rest
  have reads := atOnce.tracked.attended.reads
  simp only [ready, Bool.false_eq_true, if_false, List.append_nil] at reads
  have bytes := atOnce.tracked.bytes
  rw [Device.underWay, access, if_neg (by simp), List.append_nil] at bytes
  rw [bytes, reads]

theorem arrivals_mains (n : Nat) : arrivals (List.replicate n .main) = [] := by
  simp [arrivals]

theorem promptRun_actions (s : Device × Seen) (levels : List Bool) :
    ∃ others, (promptRun s levels).2.actions = s.2.actions ++ others := by
  induction levels generalizing s with
  | nil => exact ⟨[], (List.append_nil _).symm⟩
  | cons level levels ih =>
      obtain ⟨others, actions⟩ := ih (withHistory Device.step Seen.update s ⟨level, s.1.prompt⟩)
      exact ⟨_, actions.trans (List.append_assoc _ _ _)⟩

/-- The bytes that are handed over arrive on the ideal line. -/
theorem count_turnOf (actions : List Firmware.Action) :
    (actions.map turnOf).count Turn.arrival = (arrivals actions).length := by
  induction actions with
  | nil => rfl
  | cons action actions ih =>
      cases action with
      | main => simpa [turnOf, arrivals] using ih
      | uart rx => simpa [turnOf, arrivals] using ih

/-! ### Frames with pauses -/

/-- The characters of a frame at 868 cycles a bit, with a pause after the last one. -/
def pausedChars (pause : Nat) : List UInt8 → List TimedChar
  | [] => []
  | [rx] => [TimedChar.paused 868 pause rx.toBitVec]
  | rx :: next :: frame => TimedChar.steady 868 rx.toBitVec :: pausedChars pause (next :: frame)

/-- The pause follows the characters of the frame. -/
theorem pausedChars_line (pause : Nat) {frame : List UInt8} (some : frame ≠ []) :
    lineOf (pausedChars pause frame) =
      lineOf (frame.map fun rx => TimedChar.steady 868 rx.toBitVec) ++ List.replicate pause true := by
  induction frame using pausedChars.induct with
  | case1 => exact absurd rfl some
  | case2 rx => simp [pausedChars, TimedChar.paused_levels]
  | case3 rx next frame ih =>
      rw [pausedChars, lineOf_cons, ih (List.cons_ne_nil _ _)]
      exact (List.append_assoc _ _ _).symm

/-- The device at rest between two frames, `waiting` still to come. -/
structure Between (frames waiting : List (List UInt8)) (s : Device × Seen) : Prop where
  atOnce : AtOnce s
  quiet : Quiet s
  rested : unrest s = 0
  paced : EachStep (withHistory Link.step sinceArrival) Paced (Link.start frames, 0)
    (s.2.actions.map turnOf)
  current : (run Link.step (Link.start frames) (s.2.actions.map turnOf)).current = []
  waiting : (run Link.step (Link.start frames) (s.2.actions.map turnOf)).waiting = waiting

section Frames

variable {s : Device × Seen}

/-- Characters and one idle cycle: all of them have been reported. -/
theorem chars_run (atOnce : AtOnce s) (quiet : Quiet s) {chars : List TimedChar}
    (within : ∀ c ∈ chars, c.HeldWithin 821 917) :
    Quiet (promptRun s (lineOf chars ++ [true])) ∧
      (promptRun s (lineOf chars ++ [true])).2.trace.reports =
        s.2.trace.reports ++ chars.map soundReport := by
  obtain ⟨line, log, reached, ready, logged⟩ :=
    receives_chars tolerance_868 within quiet.ready s.2.trace.reports
  rw [quiet.pending, List.append_nil] at logged
  have received := promptRun_received atOnce (lineOf chars)
  rw [reached, Prod.mk.injEq] at received
  rw [promptRun_append]
  refine ⟨quiet_step (received.1 ▸ ready) (atOnce.run _), ?_⟩
  rw [← logged, ← received.1, ← received.2]
  exact logChar_eq _ _ true

/-- An idle line reports nothing. -/
theorem idle_reports (atOnce : AtOnce s) (quiet : Quiet s) (n : Nat) :
    (promptRun s (List.replicate n true)).2.trace.reports = s.2.trace.reports := by
  induction n generalizing s with
  | zero => rfl
  | succ n ih =>
      rw [List.replicate_succ, promptRun_cons, ih atOnce.step (quiet_step quiet.ready atOnce)]
      simp [withHistory, Seen.update, Trace.update, logChar_eq, quiet.pending]

/-- A frame and the pause after it: its bytes are handed over and `main` has the rest of the pause. -/
theorem frame_run (atOnce : AtOnce s) (quiet : Quiet s) (rested : unrest s = 0) {frame : List UInt8}
    (some : frame ≠ []) {pause k : Nat} (long : k + 22 ≤ pause) :
    Quiet (promptRun s (lineOf (pausedChars pause frame))) ∧
      unrest (promptRun s (lineOf (pausedChars pause frame))) = 0 ∧
      ∃ actions, (promptRun s (lineOf (pausedChars pause frame))).2.actions =
          s.2.actions ++ actions ++ List.replicate k .main ∧ arrivals actions = frame := by
  have within : ∀ c ∈ frame.map fun rx => TimedChar.steady 868 rx.toBitVec,
      c.HeldWithin 821 917 := by
    intro c member
    obtain ⟨rx, -, rfl⟩ := List.mem_map.1 member
    exact TimedChar.steady_heldWithin (by decide) (by decide) _
  obtain ⟨quiet', reports⟩ := chars_run atOnce quiet within
  obtain ⟨early, actions⟩ := promptRun_actions s
    (lineOf (frame.map fun rx => TimedChar.steady 868 rx.toBitVec) ++ [true])
  have atOnce' := atOnce.run (lineOf (frame.map fun rx => TimedChar.steady 868 rx.toBitVec) ++ [true])
  have split : lineOf (pausedChars pause frame) =
      lineOf (frame.map fun rx => TimedChar.steady 868 rx.toBitVec) ++ [true] ++
        List.replicate (pause - 1) true := by
    rw [pausedChars_line pause some, List.append_assoc, List.singleton_append,
      ← List.replicate_succ, show pause - 1 + 1 = pause by omega]
  rw [split, promptRun_append]
  generalize promptRun s (lineOf (frame.map fun rx => TimedChar.steady 868 rx.toBitVec) ++ [true]) =
    u at quiet' reports actions atOnce'
  have few := unrest_le atOnce'
  obtain ⟨still, rested', others, final⟩ := idle_run atOnce' quiet' (n := pause - 1) (by omega)
  refine ⟨still, rested', early ++ others ++ List.replicate (pause - 1 - unrest u - k) .main, ?_, ?_⟩
  · have mains : List.replicate (pause - 1 - unrest u) Firmware.Action.main =
        List.replicate (pause - 1 - unrest u - k) .main ++ List.replicate k .main := by
      rw [List.replicate_append_replicate, Nat.sub_add_cancel (by omega)]
    rw [final, actions, mains]
    simp only [List.append_assoc]
  · have after := rested_arrivals (atOnce'.run (List.replicate (pause - 1) true)) rested'
    have before := rested_arrivals atOnce rested
    rw [final, idle_reports atOnce' quiet', reports, actions, List.map_append, List.map_append,
      ← before, arrivals_append, arrivals_append, arrivals_append, List.append_assoc,
      List.append_assoc, List.append_right_inj, arrivals_mains, List.append_nil] at after
    have bytes : (((frame.map fun rx => TimedChar.steady 868 rx.toBitVec).map soundReport).map
        Report.char).map UInt8.ofBitVec = frame := by
      simp [soundReport, TimedChar.steady, Function.comp_def]
    rw [arrivals_append, arrivals_append, arrivals_mains, List.append_nil, after, bytes]

/-- A frame brings the device from one pause to the next. -/
theorem Between.frame {frames rest : List (List UInt8)} {frame : List UInt8}
    (between : Between frames (frame :: rest) s) (some : frame ≠ []) {pause k : Nat}
    (long : k + 22 ≤ pause)
    (waited : (run Link.step (Link.start frames) (s.2.actions.map turnOf)).begun ≠ [] → latency ≤
      history Link.step sinceArrival 0 (Link.start frames) (s.2.actions.map turnOf)) :
    Between frames rest (promptRun s (lineOf (pausedChars pause frame))) ∧
      k ≤ history Link.step sinceArrival 0 (Link.start frames)
        ((promptRun s (lineOf (pausedChars pause frame))).2.actions.map turnOf) := by
  obtain ⟨quiet, rested, actions, split, bytes⟩ :=
    frame_run between.atOnce between.quiet between.rested some long
  have count : ((actions ++ List.replicate k Firmware.Action.main).map turnOf).count Turn.arrival =
      frame.length := by
    rw [count_turnOf, arrivals_append, arrivals_mains, List.append_nil, bytes]
  obtain ⟨paced, current, waiting, -⟩ :=
    paced_frame between.current between.waiting some count waited
  rw [List.append_assoc] at split
  refine ⟨⟨between.atOnce.run _, quiet, rested, ?_, ?_, ?_⟩, ?_⟩
  · rw [split, List.map_append, eachStep_append, run_withHistory]
    exact ⟨between.paced, paced⟩
  · rw [split, List.map_append, run_append]
    exact current
  · rw [split, List.map_append, run_append]
    exact waiting
  · rw [split, ← List.append_assoc, List.map_append, List.map_replicate, turnOf]
    exact since_mains _ _ _ _

end Frames

end VoltCtrl.System
