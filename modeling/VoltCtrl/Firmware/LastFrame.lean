/-
Module: VoltCtrl.Firmware.LastFrame
Layer: Firmware
Purpose: Whether the pattern after a latch is a function of the frame latched last. `WriteFileData`
  always copies 136 bytes out of a buffer that is never cleared, so a frame with fewer payload bytes
  leaves the end of an earlier frame in the pattern. That this really happens needs runs in which the
  frames are latched: from power-on, `main` alone gets to the wait for a length byte, and once a frame
  has arrived whole `main` alone gets to `UartReceiveCnt = 0`.
Trusted boundary: none
Main exports: latchedFrames, SpacedLine, SamePatternAfter, Reaches, exists_latched,
  pattern_of_last_frame_iff
-/
import VoltCtrl.Firmware.Delivery
import Mathlib.Logic.Function.Iterate

namespace VoltCtrl.Firmware

open VoltCtrl.Core

/-- The frames latched so far: each completed `WriteFileData` latches the next one. -/
def latchedFrames (frames : List (List UInt8)) (turns : List Turn) : List (List UInt8) :=
  frames.take (latchedPatterns frames turns).length

/-- A line of spaced frames with at least one payload byte each. -/
structure SpacedLine (frames : List (List UInt8)) (turns : List Turn) : Prop where
  valid : ∀ frame ∈ frames, IsFrame 1 frame
  spaced : EachStep Link.step Spaced (Link.start frames) turns

/-- Any two runs whose last latched frame is `frame` have the same pattern after that latch. -/
def SamePatternAfter (frame : List UInt8) : Prop :=
  ∀ frames turns frames' turns',
    SpacedLine frames turns → SpacedLine frames' turns' →
    (latchedFrames frames turns).getLast? = some frame →
    (latchedFrames frames' turns').getLast? = some frame →
    (latchedPatterns frames turns).getLast? = (latchedPatterns frames' turns').getLast?

/-! ### What the latched frames give -/

/-- The patterns latched are those of the frames latched. -/
theorem SpacedLine.latched {frames : List (List UInt8)} {turns : List Turn}
    (line : SpacedLine frames turns) :
    latchedPatterns frames turns = patternsOf (latchedFrames frames turns) := by
  obtain ⟨seen, -, initial, latched⟩ := latched_windows line.valid line.spaced
  have count : (latchedPatterns frames turns).length = seen.length := by
    rw [latched, patternsOf, windows_length, List.length_map]
  rw [latchedFrames, count, ← List.prefix_iff_eq_take.1 initial]
  exact latched

/-- The pattern of the last frame is read from the buffer under all the frames. -/
theorem patternsOf_getLast? (frames : List (List UInt8)) (frame : List UInt8) :
    (patternsOf (frames ++ [frame])).getLast? =
      some (window 136 (overlay (bufferAfter frames) frame.tail)) := by
  rw [patternsOf_concat, bufferAfter_concat, List.getLast?_concat]

/-- A frame of at least 136 payload bytes leaves nothing of the frames before it. -/
theorem SpacedLine.pattern_of_long {frames : List (List UInt8)} {turns : List Turn}
    (line : SpacedLine frames turns) {frame : List UInt8} (long : 136 ≤ frame.tail.length)
    (last : (latchedFrames frames turns).getLast? = some frame) :
    (latchedPatterns frames turns).getLast? = some (frame.tail.take 136) := by
  obtain ⟨earlier, split⟩ := List.getLast?_eq_some_iff.1 last
  rw [line.latched, split, patternsOf_getLast?, window_overlay long]

/-! ### `main` alone -/

/-- `main` gets to a program point when no byte arrives. -/
def Reaches (s : Fw) (target : Pc) : Prop :=
  ∃ n, (mainStep^[n] s).pc = target

theorem reaches_of_step {s : Fw} {target : Pc} (reaches : Reaches (mainStep s) target) :
    Reaches s target := by
  obtain ⟨n, there⟩ := reaches
  refine ⟨n + 1, ?_⟩
  rwa [Function.iterate_succ_apply]

theorem reaches_here {s : Fw} {target : Pc} (here : s.pc = target) : Reaches s target :=
  ⟨0, here⟩

/-- One iteration of the power-up loop: five accesses, and the counter goes up by one. -/
theorem powerUp_iteration {s : Fw} {k : Nat} (inside : k < 17)
    (pc : s.pc = .loop .powerUp (18 + 8 * k) .ldacHigh) (counter : s.oeCnt = k) :
    (mainStep^[5] s).pc = nextIteration .powerUp (18 + 8 * k) ∧
      (mainStep^[5] s).oeCnt = (k + 1 : Nat) := by
  change (mainStep (mainStep (mainStep (mainStep (mainStep s))))).pc = _ ∧
    (mainStep (mainStep (mainStep (mainStep (mainStep s))))).oeCnt = _
  have high := mainStep_ldacHigh pc
  have atSelect : (mainStep s).pc = .loop .powerUp (18 + 8 * k) .select := by rw [high]
  have same : (mainStep s).oeCount .powerUp = k := by
    rw [high]
    exact counter
  obtain ⟨mask, -, select⟩ := mainStep_select inside atSelect same
  have atCount : (mainStep (mainStep s)).pc = .loop .powerUp (18 + 8 * k) .count := by
    rw [select]
    rfl
  have count := mainStep_count atCount
  have counted : (mainStep (mainStep (mainStep s))).oeCnt = (k + 1 : Nat) := by
    rw [count, select, high]
    simpa [Fw.setOeCount, Fw.oeCount] using counter
  have atHigh : (mainStep (mainStep (mainStep s))).pc =
      .loop .powerUp (18 + 8 * k) (.sendHigh 0) := by
    rw [count]
    rfl
  generalize mainStep (mainStep (mainStep s)) = t at counted atHigh
  obtain ⟨byte, -, first⟩ := mainStep_sendHigh atHigh (by simp [Loop.address])
  have atLow : (mainStep t).pc = .loop .powerUp (18 + 8 * k) (.sendLow 0 byte) := by rw [first]
  rw [mainStep_sendLow atLow (by simp [Loop.address]), first]
  exact ⟨rfl, counted⟩

theorem reaches_waitInfo {s : Fw} {k : Nat} (inside : k < 17)
    (pc : s.pc = .loop .powerUp (18 + 8 * k) .ldacHigh) (counter : s.oeCnt = k) :
    Reaches s .waitInfo := by
  -- induction on the number of iterations after this one
  induction left : 16 - k generalizing s k with
  | zero =>
      obtain ⟨next, -⟩ := powerUp_iteration inside pc counter
      have last : ¬ 18 + 8 * k + 8 < 149 := by omega
      rw [nextIteration, if_neg last] at next
      refine ⟨8, ?_⟩
      rw [Function.iterate_add_apply mainStep 3 5]
      generalize mainStep^[5] s = t at next
      simp [mainStep, next, finishStep]
  | succ left ih =>
      obtain ⟨next, counted⟩ := powerUp_iteration inside pc counter
      have more : 18 + 8 * k + 8 < 149 := by omega
      rw [nextIteration, if_pos more] at next
      obtain ⟨n, there⟩ := ih (k := k + 1) (by omega) next counted (by omega)
      refine ⟨n + 5, ?_⟩
      rwa [Function.iterate_add_apply]

theorem reaches_copied {s : Fw} {i : Fin 136} (pc : s.pc = .copyLoad i) :
    Reaches s .resetCnt := by
  -- induction on the number of entries after this one
  induction left : 135 - i.val generalizing s i with
  | zero =>
      have last : ¬ i.val + 1 < 136 := by omega
      apply reaches_of_step
      apply reaches_of_step
      apply reaches_here
      simp [mainStep, pc, afterCopy, last]
  | succ left ih =>
      have more : i.val + 1 < 136 := by omega
      apply reaches_of_step
      apply reaches_of_step
      apply ih (i := ⟨i.val + 1, more⟩)
      · simp [mainStep, pc, afterCopy, more]
      · simp only
        omega

/-- A complete count takes `main` from the outer loop through the copy. -/
theorem reaches_outer {s : Fw} (pc : s.pc = .outerCnt)
    (complete : s.datalength ≤ s.uartReceiveCnt) : Reaches s .resetCnt := by
  have enough : ¬ s.uartReceiveCnt < s.datalength := UInt8.not_lt.2 complete
  apply reaches_of_step
  apply reaches_of_step
  apply reaches_of_step
  apply reaches_copied (i := 0)
  simp [mainStep, pc, enough]

/-- Wherever `main` waits for a frame, a complete one takes it to `UartReceiveCnt = 0`. -/
theorem reaches_reset {s : Fw} (waits : s.pc = .waitInfo ∨ s.pc = .innerCnt)
    (info : s.isSettingInfo = false) (complete : s.datalength ≤ s.uartReceiveCnt) :
    Reaches s .resetCnt := by
  rcases waits with wait | refresh
  · apply reaches_of_step
    apply reaches_outer
    · simp [mainStep, wait, info]
    · simpa [mainStep, wait] using complete
  · apply reaches_of_step
    apply reaches_of_step
    apply reaches_outer
    · simp [mainStep, refresh, complete]
    · simpa [mainStep, refresh] using complete

/-! ### A line whose frames are all latched -/

/-- Turns of `main` alone move the firmware and not the line. -/
theorem run_mains (s : Link) (n : Nat) :
    EachStep Link.step Spaced s (List.replicate n .main) ∧
      (run Link.step s (List.replicate n .main)).fw = mainStep^[n] s.fw ∧
      (run Link.step s (List.replicate n .main)).current = s.current ∧
      (run Link.step s (List.replicate n .main)).waiting = s.waiting ∧
      (s.cleared = true → (run Link.step s (List.replicate n .main)).cleared = true) := by
  induction n generalizing s with
  | zero => exact ⟨trivial, rfl, rfl, rfl, id⟩
  | succ n ih =>
      obtain ⟨spaced, fw, current, waiting, cleared⟩ := ih (s.step .main)
      rw [List.replicate_succ, run_cons, Function.iterate_succ_apply]
      refine ⟨⟨trivial, spaced⟩, fw, current, waiting, fun before => cleared ?_⟩
      simp [Link.step, before]

/-- The rest of the frame under way arrives. -/
theorem run_payload (s : Link) (current : List UInt8) (under : s.current = current) :
    ∃ turns, EachStep Link.step Spaced s turns ∧
      (run Link.step s turns).fw.pc = s.fw.pc ∧
      (run Link.step s turns).current = [] ∧
      (run Link.step s turns).waiting = s.waiting ∧
      (s.armed = false → (run Link.step s turns).armed = false) := by
  induction current generalizing s with
  | nil => exact ⟨[], trivial, rfl, under, rfl, id⟩
  | cons rx rest ih =>
      have next : s.step .arrival =
          { s with
            fw := irqUartInterrupts rx s.fw, current := rest, armed := false,
            cleared := false } := by
        simp [Link.step, Link.next?, under, step]
      obtain ⟨turns, spaced, pc, done, waiting, unarmed⟩ := ih (s.step .arrival) (by rw [next])
      refine ⟨.arrival :: turns, ⟨?_, spaced⟩, ?_, done, ?_, fun _ => unarmed (by rw [next])⟩
      · intro none
        rw [under] at none
        cases none
      · rw [run_cons, pc, next, irq_pc]
      · rw [run_cons, waiting, next]

/-- `main` waits for a frame, the first or a later one. -/
structure Ready (s : Link) : Prop where
  cleared : s.cleared = true
  current : s.current = []
  waits : s.fw.pc = .waitInfo ∨ s.fw.pc = .innerCnt

/-- After `UartReceiveCnt = 0` the line is ready for the next frame. -/
theorem ready_of_reset {s : Link} (reset : s.fw.pc = .resetCnt) (done : s.current = []) :
    Ready (s.step .main) ∧ (s.step .main).waiting = s.waiting := by
  refine ⟨⟨?_, done, Or.inr ?_⟩, rfl⟩
  · simp [Link.step, reset]
  · simp [Link.step, step, mainStep, reset]

/-- When `main` waits, the next frame can arrive and be latched. -/
theorem next_frame {frames : List (List UInt8)} (valid : ∀ frame ∈ frames, IsFrame 1 frame)
    {s : Link} (reached : ∃ log latched, Delivered frames s log latched) (ready : Ready s)
    {frame : List UInt8} {waiting : List (List UInt8)} (head : s.waiting = frame :: waiting) :
    ∃ turns, EachStep Link.step Spaced s turns ∧ Ready (run Link.step s turns) ∧
      (run Link.step s turns).waiting = waiting := by
  obtain ⟨log, latched, inv⟩ := reached
  have member : frame ∈ frames := by
    rw [← inv.aligned.order, head]
    exact List.mem_append_right _ List.mem_cons_self
  obtain ⟨payload, rfl, -, -⟩ := valid frame member
  -- the whole frame arrives
  have first : s.step .arrival =
      { s with
        fw := irqUartInterrupts (UInt8.ofNat payload.length) s.fw
        begun := s.begun ++ [UInt8.ofNat payload.length :: payload], current := payload,
        waiting := waiting, armed := false, cleared := false } := by
    simp [Link.step, Link.next?, ready.current, head, step]
  have firstSpaced : Spaced s .arrival := fun _ _ => ready.cleared
  obtain ⟨arrivals, spaced, pc, done, rest, unarmed⟩ :=
    run_payload (s.step .arrival) payload (by rw [first])
  have sameWaiting : (run Link.step s (.arrival :: arrivals)).waiting = waiting := by
    rw [run_cons, rest, first]
  have samePc : (run Link.step s (.arrival :: arrivals)).fw.pc = s.fw.pc := by
    rw [run_cons, pc, first, irq_pc]
  have arrivedSpaced : EachStep Link.step Spaced s (.arrival :: arrivals) := ⟨firstSpaced, spaced⟩
  have inv' : ∃ log latched,
      Delivered frames (run Link.step s (.arrival :: arrivals)) log latched :=
    delivered_of_reached valid ⟨log, latched, inv⟩ arrivedSpaced
  have notArmed : (run Link.step s (.arrival :: arrivals)).armed = false :=
    unarmed (by rw [first])
  have allArrived : (run Link.step s (.arrival :: arrivals)).current = [] := done
  -- `main` alone copies it and clears the counter
  obtain ⟨log', latched', inv'⟩ := inv'
  obtain ⟨info, last, -, -, counted⟩ := inv'.aligned.receiving notArmed
  have complete := inv'.complete_count valid notArmed allArrived
  have waits : (run Link.step s (.arrival :: arrivals)).fw.pc = .waitInfo ∨
      (run Link.step s (.arrival :: arrivals)).fw.pc = .innerCnt := by
    rw [samePc]
    exact ready.waits
  obtain ⟨n, reset⟩ := reaches_reset waits info complete
  obtain ⟨mainSpaced, fw, current, kept, -⟩ :=
    run_mains (run Link.step s (.arrival :: arrivals)) n
  obtain ⟨nextReady, sameLine⟩ := ready_of_reset (fw ▸ reset) (current.trans allArrived)
  refine ⟨.arrival :: arrivals ++ List.replicate n .main ++ [.main], ?_, ?_, ?_⟩
  · rw [eachStep_append, eachStep_append]
    exact ⟨⟨arrivedSpaced, mainSpaced⟩, trivial, trivial⟩
  · rw [run_snoc, run_append]
    exact nextReady
  · rw [run_snoc, run_append, sameLine, kept, sameWaiting]

/-- Every list of frames has a spaced run that latches all of them. -/
theorem exists_latched {frames : List (List UInt8)} (valid : ∀ frame ∈ frames, IsFrame 1 frame) :
    ∃ turns, SpacedLine frames turns ∧ latchedFrames frames turns = frames := by
  have drained (waiting : List (List UInt8)) {s : Link}
      (reached : ∃ log latched, Delivered frames s log latched) (ready : Ready s)
      (rest : s.waiting = waiting) :
      ∃ turns, EachStep Link.step Spaced s turns ∧ Ready (run Link.step s turns) ∧
        (run Link.step s turns).waiting = [] := by
    induction waiting generalizing s with
    | nil => exact ⟨[], trivial, ready, rest⟩
    | cons frame waiting ih =>
        obtain ⟨turns, spaced, next, left⟩ := next_frame valid reached ready rest
        obtain ⟨more, spaced', ready', none⟩ :=
          ih (delivered_of_reached valid reached spaced) next left
        refine ⟨turns ++ more, (eachStep_append _ _ _).2 ⟨spaced, spaced'⟩, ?_, ?_⟩
        · rwa [run_append]
        · rwa [run_append]
  -- `main` powers the chips up before the first frame
  obtain ⟨n, wait⟩ := reaches_waitInfo (s := powerOn) (k := 0) (by decide) rfl rfl
  obtain ⟨spaced, fw, current, waiting, cleared⟩ := run_mains (Link.start frames) n
  have ready : Ready (run Link.step (Link.start frames) (List.replicate n .main)) :=
    ⟨cleared rfl, current, Or.inl (by rw [fw]; exact wait)⟩
  obtain ⟨turns, spaced', ready', none⟩ := drained frames
    (delivered_of_reached valid ⟨_, _, delivered_start frames⟩ spaced) ready waiting
  have line : SpacedLine frames (List.replicate n .main ++ turns) :=
    ⟨valid, (eachStep_append _ _ _).2 ⟨spaced, spaced'⟩⟩
  refine ⟨_, line, ?_⟩
  obtain ⟨log, inv⟩ := delivered_run valid line.spaced
  rw [run_append] at inv
  generalize run Link.step (run Link.step (Link.start frames) (List.replicate n .main)) turns = t
    at inv ready' none
  have outside : t.fw.pc.rearming = false := by
    rcases ready'.waits with pc | pc <;> rw [pc] <;> rfl
  have all : t.settled = frames := by
    have order := inv.aligned.order
    rw [none, List.append_nil] at order
    rw [Link.settled, (inv.refreshing ready'.cleared).1, if_pos rfl, order]
  have latched := inv.latched_settled outside
  rw [all] at latched
  rw [latchedFrames, latched, patternsOf, windows_length, List.length_map, List.take_length]

/-! ### The last frame alone -/

/-- A frame of 136 ones. -/
def onesFrame : List UInt8 :=
  UInt8.ofNat 136 :: List.replicate 136 1

theorem onesFrame_isFrame : IsFrame 1 onesFrame :=
  ⟨List.replicate 136 1, by simp [onesFrame], by simp, by simp⟩

theorem bufferAfter_onesFrame {i : Nat} (inside : i < 136) :
    bufferAfter [onesFrame] i = 1 := by
  have long : i < (List.replicate 136 (1 : UInt8)).length := by simpa using inside
  simp only [bufferAfter, overlays, onesFrame, List.map_cons, List.map_nil, List.foldl_cons,
    List.foldl_nil, List.tail_cons]
  rw [overlay_of_lt long, List.getElem_replicate]

/-- Behind a short frame the pattern shows the frame before it: the frame alone and the frame after 136
ones give different patterns. -/
theorem not_samePattern_of_short {frame : List UInt8} (valid : IsFrame 1 frame)
    (short : frame.tail.length < 136) : ¬ SamePatternAfter frame := by
  intro same
  have alone : ∀ f ∈ [frame], IsFrame 1 f := by simpa using valid
  have after : ∀ f ∈ [onesFrame, frame], IsFrame 1 f := by
    simpa using ⟨onesFrame_isFrame, valid⟩
  obtain ⟨turns, line, all⟩ := exists_latched alone
  obtain ⟨turns', line', all'⟩ := exists_latched after
  have equal := same _ _ _ _ line line' (by rw [all]; rfl) (by rw [all']; rfl)
  have first : (latchedPatterns [frame] turns).getLast? =
      some (window 136 (overlay (bufferAfter []) frame.tail)) := by
    rw [line.latched, all]
    exact patternsOf_getLast? [] frame
  have second : (latchedPatterns [onesFrame, frame] turns').getLast? =
      some (window 136 (overlay (bufferAfter [onesFrame]) frame.tail)) := by
    rw [line'.latched, all']
    exact patternsOf_getLast? [onesFrame] frame
  rw [first, second, Option.some.injEq] at equal
  -- the first entry behind the frame
  have entry := congrArg (fun pattern => pattern[frame.tail.length]?) equal
  simp only [window_getElem? _ short, Option.some.injEq] at entry
  rw [overlay_of_le (Nat.le_refl _), overlay_of_le (Nat.le_refl _),
    bufferAfter_onesFrame short] at entry
  have zero : (0 : UInt8) = 1 := entry
  exact absurd zero (by decide)

/-- Two runs whose last latched frame is the same always have the same pattern after that latch exactly
when the frame has at least 136 payload bytes. -/
theorem pattern_of_last_frame_iff (frame : List UInt8) (valid : IsFrame 1 frame) :
    SamePatternAfter frame ↔ 136 ≤ frame.tail.length := by
  constructor
  · intro same
    by_contra short
    exact not_samePattern_of_short valid (not_le.1 short) same
  · intro long frames turns frames' turns' line line' last last'
    rw [line.pattern_of_long long last, line'.pattern_of_long long last']

theorem onesFrame_pattern : SamePatternAfter onesFrame :=
  (pattern_of_last_frame_iff onesFrame onesFrame_isFrame).2 (by simp [onesFrame])

/-- A one-byte frame sets one byte of the pattern; the other 135 are those of the frame before it. -/
theorem one_byte_frame_mixes : IsFrame 1 [1, 7] ∧ ¬ SamePatternAfter [1, 7] :=
  have valid : IsFrame 1 [1, 7] := ⟨[7], rfl, by decide, by decide⟩
  ⟨valid, not_samePattern_of_short valid (by decide)⟩

end VoltCtrl.Firmware
