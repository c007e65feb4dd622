/-
Module: VoltCtrl.Firmware.Progress
Layer: Firmware
Purpose: How long `main` takes to latch a frame. The counters and the byte offsets of its loops keep
  step, so no index leaves an array and every loop ends; the accesses that are left until `main` stores
  `UartReceiveCnt = 0` for a complete frame are then a number that each access lowers by one, at most
  `latency`. A line that pauses for `latency` accesses of `main` between its frames is therefore spaced,
  and every frame on it is latched.
Trusted boundary: none
Main exports: OnTrack, OnTrack.main, indices_inside, Pc.work, latency, OnTrack.work, sinceArrival, Paced,
  Attentive, paced_spaced, paced_latched, latched_within, pausedTurns, paused_line, paused_latched
-/
import VoltCtrl.Firmware.Delivery
import VoltCtrl.Firmware.Refresh

namespace VoltCtrl.Firmware

open VoltCtrl.Core

/-! ### The loops stay on track -/

/-- The command of an iteration that a statement is about. -/
def LoopPc.command? : LoopPc → Option Nat
  | .sendHigh command | .sendLow command _ => some command
  | .ldacHigh | .select | .count => none

/-- The byte offset of a loop and its counter are those of one iteration, and the counters of the
refresh loops are 0 outside their loops. -/
structure OnTrack (s : Fw) : Prop where
  loop : ∀ l offset stage, s.pc = .loop l offset stage → ∃ k < 17, offset = 18 + 8 * k ∧
    s.oeCount l = l.counterAt k stage ∧ ∀ command ∈ stage.command?, command < l.commands
  counters : ∀ l, l ≠ .powerUp → s.pc.loop? ≠ some l → s.oeCount l = 0
  inside : s.pc ≠ .fault

theorem onTrack_powerOn : OnTrack powerOn where
  loop l offset stage pc := by
    cases pc
    exact ⟨0, by decide, rfl, rfl, by simp [LoopPc.command?]⟩
  counters l _ _ := by cases l <;> rfl
  inside := by decide

section Track

variable {s t : Fw} {l : Loop} {k : Nat}

/-- A program point outside the iterations of the loops. -/
theorem OnTrack.of_outside (outside : ∀ l offset stage, s.pc ≠ .loop l offset stage)
    (inside : s.pc ≠ .fault)
    (counters : ∀ l, l ≠ .powerUp → s.pc.loop? ≠ some l → s.oeCount l = 0) : OnTrack s where
  loop l offset stage pc := absurd pc (outside l offset stage)
  counters := counters
  inside := inside

/-- A statement of iteration `k` after a statement of the same loop. -/
theorem OnTrack.of_iteration (track : OnTrack s) (stage : LoopPc) (here : s.pc.loop? = some l)
    (others : ∀ other, other ≠ l → t.oeCount other = s.oeCount other)
    (pc : t.pc = .loop l (18 + 8 * k) stage) (below : k < 17)
    (counter : t.oeCount l = l.counterAt k stage)
    (command : ∀ command ∈ stage.command?, command < l.commands) : OnTrack t where
  loop l' offset stage' same := by
    rw [pc, Pc.loop.injEq] at same
    obtain ⟨rfl, rfl, rfl⟩ := same
    exact ⟨k, below, rfl, counter, command⟩
  counters other refreshes outside := by
    have different : other ≠ l := by
      rintro rfl
      exact outside (by rw [pc]; rfl)
    rw [others other different]
    exact track.counters other refreshes (by rw [here]; simpa using different.symm)
  inside := by rw [pc]; simp

/-- What follows iteration `k`. -/
theorem OnTrack.of_next (track : OnTrack s) (here : s.pc.loop? = some l)
    (others : ∀ other, other ≠ l → t.oeCount other = s.oeCount other)
    (pc : t.pc = nextIteration l (18 + 8 * k)) (counter : t.oeCount l = (k + 1 : Nat)) :
    OnTrack t := by
  by_cases more : 18 + 8 * k + 8 < 149
  · rw [nextIteration, if_pos more] at pc
    refine track.of_iteration (k := k + 1) _ here others pc (by omega) ?_ (by simp [LoopPc.command?])
    rw [counter]
    cases l <;> rfl
  · rw [nextIteration, if_neg more] at pc
    refine .of_outside (by simp [pc]) (by simp [pc]) ?_
    intro other refreshes outside
    have different : other ≠ l := by
      rintro rfl
      exact outside (by rw [pc]; rfl)
    rw [others other different]
    exact track.counters other refreshes (by rw [here]; simpa using different.symm)

/-- A statement of a loop, with the counter that the iteration goes on with. -/
theorem OnTrack.loop_main {offset : Nat} {stage : LoopPc} (track : OnTrack s)
    (pc : s.pc = .loop l offset stage) : OnTrack (mainStep s) := by
  obtain ⟨k, below, rfl, counter, command⟩ := track.loop l offset stage pc
  have here : s.pc.loop? = some l := by rw [pc]; rfl
  have others (other : Loop) (different : other ≠ l) :
      (mainStep s).oeCount other = s.oeCount other := by
    have frame := loopStep_oeCount_other l (18 + 8 * k) stage s different
    simpa [mainStep, pc] using frame
  cases stage with
  | ldacHigh =>
      have next := mainStep_ldacHigh pc
      refine track.of_iteration .select here others (by rw [next]) below ?_
        (by simp [LoopPc.command?])
      rw [next]
      cases l <;> exact counter
  | select =>
      have same : s.oeCount l = k := by
        rw [counter]
        cases l <;> rfl
      obtain ⟨mask, -, next⟩ := mainStep_select below pc same
      have kept : (mainStep s).oeCount l = k := by
        rw [next, ← same]
        cases l <;> rfl
      cases l with
      | powerUp =>
          exact track.of_iteration .count here others (by rw [next]; rfl) below kept
            (by simp [LoopPc.command?])
      | pattern | zero =>
          exact track.of_iteration (.sendHigh 0) here others (by rw [next]; rfl) below kept
            (by simp [LoopPc.command?, Loop.commands])
  | count =>
      have next := mainStep_count pc
      have counted : (mainStep s).oeCount l = (k + 1 : Nat) := by
        have before : s.oeCount l = k := by
          rw [counter]
          cases l <;> rfl
        rw [next]
        cases l <;> simpa [Fw.setOeCount, Fw.oeCount] using before
      cases l with
      | powerUp =>
          exact track.of_iteration (.sendHigh 0) here others (by rw [next]; rfl) below
            counted (by simp [LoopPc.command?, Loop.commands])
      | pattern | zero => exact track.of_next here others (by rw [next]; rfl) counted
  | sendHigh number =>
      have few : number < l.commands := command number rfl
      obtain ⟨high, -, next⟩ := mainStep_sendHigh pc (address_lt below few).1
      refine track.of_iteration (.sendLow number high) here others (by rw [next]) below ?_
        (by simpa [LoopPc.command?] using few)
      rw [next]
      cases l <;> exact counter
  | sendLow number high =>
      have few : number < l.commands := command number rfl
      have next := mainStep_sendLow pc (address_lt below few).2
      by_cases more : number + 1 < l.commands
      · refine track.of_iteration (.sendHigh (number + 1)) here others
          (by simp [next, afterCommand, more]) below ?_ (by simpa [LoopPc.command?] using more)
        rw [next]
        cases l <;> exact counter
      · cases l with
        | powerUp =>
            refine track.of_next (k := k) here others (by simp [next, afterCommand, more]) ?_
            rw [next]
            exact counter
        | pattern | zero =>
            refine track.of_iteration .count here others
              (by simp [next, afterCommand, more]) below ?_ (by simp [LoopPc.command?])
            rw [next]
            exact counter

/-- An access that leaves the counters alone, outside the loops or at the begin of one. -/
theorem OnTrack.of_same (track : OnTrack s) (counts : ∀ l, t.oeCount l = s.oeCount l)
    (here : s.pc.loop? = none) (outside : ∀ l offset stage, t.pc = .loop l offset stage →
      l ≠ .powerUp ∧ offset = 18 ∧ stage = .ldacHigh) (inside : t.pc ≠ .fault) : OnTrack t where
  loop l offset stage pc := by
    obtain ⟨refreshes, rfl, rfl⟩ := outside l offset stage pc
    refine ⟨0, by decide, rfl, ?_, by simp [LoopPc.command?]⟩
    rw [counts, track.counters l refreshes (by simp [here])]
    cases l <;> rfl
  counters l refreshes _ := by
    rw [counts]
    exact track.counters l refreshes (by simp [here])
  inside := inside

theorem OnTrack.finish_main (track : OnTrack s) (pc : s.pc = .finish l) : OnTrack (mainStep s) := by
  have clear (other : Loop) (refreshes : other ≠ .powerUp) (different : l ≠ other) :
      s.oeCount other = 0 :=
    track.counters other refreshes (by rw [pc]; simpa [Pc.loop?] using different)
  have next : mainStep s = finishStep l s := by simp [mainStep, pc]
  have counters (other : Loop) (refreshes : other ≠ .powerUp) :
      (finishStep l s).oeCount other = 0 := by
    by_cases same : l = other
    · subst same
      cases l with
      | powerUp => exact absurd rfl refreshes
      | pattern | zero => rfl
    · have before := clear other refreshes same
      cases l <;> cases other <;>
        first | exact before | exact absurd rfl refreshes | exact absurd rfl same
  rw [next]
  cases l with
  | powerUp | zero =>
      exact .of_outside (by simp [finishStep]) (by simp [finishStep])
        fun other refreshes _ => counters other refreshes
  | pattern =>
      refine ⟨?_, fun other refreshes _ => counters other refreshes, by simp [finishStep]⟩
      intro l' offset stage begun
      simp only [finishStep, Pc.loop.injEq] at begun
      obtain ⟨rfl, rfl, rfl⟩ := begun
      refine ⟨0, by decide, rfl, ?_, by simp [LoopPc.command?]⟩
      rw [counters .zero (by simp)]
      rfl

/-- No access of `main` leaves the loops' track. -/
theorem OnTrack.main (track : OnTrack s) : OnTrack (mainStep s) := by
  cases pc : s.pc with
  | loop l offset stage => exact track.loop_main pc
  | finish l => exact track.finish_main pc
  | fault => exact absurd pc track.inside
  | enableAll l | ldacLow l =>
      refine .of_outside (by simp [mainStep, pc]) (by simp [mainStep, pc]) ?_
      intro other refreshes outside
      have before := track.counters other refreshes
        (by rw [pc]; simpa [mainStep, pc, Pc.loop?] using outside)
      cases other <;> simpa [mainStep, pc, Fw.oeCount] using before
  | waitInfo =>
      refine track.of_same (by intro l; cases l <;> simp [mainStep, pc, Fw.oeCount])
        (by rw [pc]; rfl) ?_ ?_ <;> cases info : s.isSettingInfo <;> simp [mainStep, pc, info]
  | outerLen cnt =>
      refine track.of_same (by intro l; cases l <;> simp [mainStep, pc, Fw.oeCount])
        (by rw [pc]; rfl) ?_ ?_ <;> by_cases short : cnt < s.datalength <;>
          simp [mainStep, pc, short]
  | innerLen cnt =>
      refine track.of_same (by intro l; cases l <;> simp [mainStep, pc, Fw.oeCount])
        (by rw [pc]; rfl) ?_ ?_ <;> by_cases done : s.datalength ≤ cnt <;>
          simp +contextual [mainStep, pc, done]
  | copyStore i value =>
      refine track.of_same (by intro l; cases l <;> simp [mainStep, pc, Fw.oeCount])
        (by rw [pc]; rfl) ?_ ?_ <;> by_cases more : i.val + 1 < 136 <;>
          simp [mainStep, pc, afterCopy, more]
  | outerCnt | setInfo | copyLoad i | resetCnt | innerCnt =>
      exact track.of_same (by intro l; cases l <;> simp [mainStep, pc, Fw.oeCount])
        (by rw [pc]; rfl) (by simp [mainStep, pc]) (by simp [mainStep, pc])

/-- The handler touches no counter. -/
theorem irq_oeCount (rx : UInt8) (s : Fw) (l : Loop) :
    (irqUartInterrupts rx s).oeCount l = s.oeCount l := by
  cases info : s.isSettingInfo with
  | true =>
      rw [irq_length rx info]
      cases l <;> rfl
  | false =>
      rw [irq_data rx info, Fw.storeRx]
      split <;> cases l <;> rfl

theorem OnTrack.arrival (track : OnTrack s) (rx : UInt8) : OnTrack (irqUartInterrupts rx s) where
  loop l offset stage pc := by
    rw [irq_pc] at pc
    rw [irq_oeCount]
    exact track.loop l offset stage pc
  counters l refreshes outside := by
    rw [irq_pc] at outside
    rw [irq_oeCount]
    exact track.counters l refreshes outside
  inside := by
    rw [irq_pc]
    exact track.inside

end Track

/-- In every run, whatever arrives and however long the frames are, the loops of `main` keep their track:
no index leaves the select table or the command buffer. -/
theorem onTrack_run (actions : List Action) : OnTrack (run step powerOn actions) :=
  run_invariant (P := fun _ _ => True) OnTrack
    (fun s a track _ => by
      cases a with
      | main => exact track.main
      | uart rx => exact track.arrival rx)
    onTrack_powerOn (eachStep_of_forall fun _ _ => trivial)

/-- So every index that `main` computes is inside its array, even after a frame that was too long. -/
theorem indices_inside (actions : List Action) : (run step powerOn actions).pc ≠ .fault :=
  (onTrack_run actions).inside

/-! ### The accesses that are left -/

/-- The accesses of an iteration from a statement on. -/
def LoopPc.left (l : Loop) : LoopPc → Nat
  | .ldacHigh => 2 * l.commands + 3
  | .select => 2 * l.commands + 2
  | .count =>
      match l with
      | .powerUp => 3
      | .pattern | .zero => 1
  | .sendHigh command =>
      match l with
      | .powerUp => 2 * (l.commands - command)
      | .pattern | .zero => 2 * (l.commands - command) + 1
  | .sendLow command _ =>
      match l with
      | .powerUp => 2 * (l.commands - command) - 1
      | .pattern | .zero => 2 * (l.commands - command)

/-- The accesses after a loop and its closing statements: through the zero loop if it was the pattern
loop, then the loads of the lengths, the 136 entries and the store of the counter. -/
def Loop.after : Loop → Nat
  | .powerUp => 277
  | .pattern => 366
  | .zero => 278

/-- The accesses of `main` up to and including its store `UartReceiveCnt = 0`, when the count is complete.
A count that was loaded before is compared first. -/
def Pc.work (datalength : UInt8) : Pc → Nat
  | .loop l offset stage => stage.left l + (146 - offset) / 8 * (2 * l.commands + 3) + 3 + l.after
  | .enableAll l => 3 + l.after
  | .ldacLow l => 2 + l.after
  | .finish l => 1 + l.after
  | .waitInfo => 277
  | .outerCnt => 276
  | .outerLen cnt => if cnt < datalength then 277 else 275
  | .setInfo => 274
  | .copyLoad i => 2 * (136 - i.val) + 1
  | .copyStore i _ => 2 * (136 - i.val)
  | .resetCnt => 1
  | .innerCnt => 278
  | .innerLen cnt => if datalength ≤ cnt then 277 else 557
  | .fault => 0

def Fw.work (s : Fw) : Nat := s.pc.work s.datalength

/-- The accesses within which `main` latches a complete frame and is ready for the next one. -/
def latency : Nat := 557

section Work

variable {s : Fw} {l : Loop} {k : Nat}

theorem work_nextIteration (below : k < 17) (datalength : UInt8) :
    (nextIteration l (18 + 8 * k)).work datalength =
      (16 - k) * (2 * l.commands + 3) + 3 + l.after := by
  by_cases more : 18 + 8 * k + 8 < 149
  · have place : (146 - (18 + 8 * k + 8)) / 8 = 15 - k := by omega
    rw [nextIteration, if_pos more, Pc.work, LoopPc.left, place]
    cases l <;> simp only [Loop.commands] <;> omega
  · have last : k = 16 := by omega
    rw [nextIteration, if_neg more, Pc.work, last]
    omega

/-- A statement of a loop is one access less. -/
theorem OnTrack.loop_work {offset : Nat} {stage : LoopPc} (track : OnTrack s)
    (pc : s.pc = .loop l offset stage) : (mainStep s).work + 1 = s.work := by
  obtain ⟨k, below, rfl, counter, command⟩ := track.loop l offset stage pc
  have place : (146 - (18 + 8 * k)) / 8 = 16 - k := by omega
  have next := work_nextIteration (l := l) below s.datalength
  have before : s.work =
      stage.left l + (16 - k) * (2 * l.commands + 3) + 3 + l.after := by
    rw [Fw.work, pc, Pc.work, place]
  rw [before, Fw.work, mainStep_datalength]
  cases stage with
  | ldacHigh =>
      rw [mainStep_ldacHigh pc, Pc.work, place]
      simp only [LoopPc.left]
      omega
  | select =>
      have same : s.oeCount l = k := by
        rw [counter]
        cases l <;> rfl
      obtain ⟨mask, -, step⟩ := mainStep_select below pc same
      rw [step]
      cases l <;> simp only [afterSelect, Pc.work, place, LoopPc.left, Loop.commands] <;> omega
  | count =>
      rw [mainStep_count pc]
      cases l with
      | powerUp =>
          simp only [afterCount, Pc.work, place, LoopPc.left, Loop.commands]
          omega
      | pattern | zero =>
          simp only [afterCount, LoopPc.left]
          rw [next]
          omega
  | sendHigh number =>
      have few : number < l.commands := command number rfl
      obtain ⟨high, -, step⟩ := mainStep_sendHigh pc (address_lt below few).1
      rw [step, Pc.work, place]
      cases l <;> simp only [LoopPc.left] <;> omega
  | sendLow number high =>
      have few : number < l.commands := command number rfl
      rw [mainStep_sendLow pc (address_lt below few).2]
      by_cases more : number + 1 < l.commands
      · simp only [afterCommand, if_pos more, Pc.work, place]
        cases l <;> simp only [LoopPc.left] <;> omega
      · have last : l.commands - number = 1 := by omega
        cases l with
        | powerUp =>
            simp only [afterCommand, if_neg more, next, LoopPc.left, last]
            omega
        | pattern | zero =>
            simp only [afterCommand, if_neg more, Pc.work, place, LoopPc.left, last]
            omega

/-- Each access of `main` is one less, when the count is complete. -/
theorem OnTrack.work (track : OnTrack s) (notReset : s.pc ≠ .resetCnt)
    (complete : s.pc.rearming = false → s.isSettingInfo = false ∧ s.datalength ≤ s.uartReceiveCnt) :
    (mainStep s).work + 1 = s.work := by
  cases pc : s.pc with
  | loop l offset stage => exact track.loop_work pc
  | fault => exact absurd pc track.inside
  | resetCnt => exact absurd pc notReset
  | enableAll l | ldacLow l =>
      simp only [Fw.work, mainStep, pc, Pc.work]
      omega
  | finish l => cases l <;> simp [Fw.work, mainStep, pc, finishStep, Pc.work, LoopPc.left, Loop.after, Loop.commands]
  | waitInfo =>
      have info := (complete (by rw [pc]; rfl)).1
      simp [Fw.work, mainStep, pc, info, Pc.work]
  | outerCnt =>
      have enough := (complete (by rw [pc]; rfl)).2
      simp [Fw.work, mainStep, pc, Pc.work, enough]
  | innerCnt =>
      have enough := (complete (by rw [pc]; rfl)).2
      simp [Fw.work, mainStep, pc, Pc.work, enough]
  | outerLen cnt =>
      by_cases short : cnt < s.datalength <;> simp [Fw.work, mainStep, pc, Pc.work, short]
  | innerLen cnt =>
      by_cases done : s.datalength ≤ cnt <;>
        simp [Fw.work, mainStep, pc, Pc.work, done, LoopPc.left, Loop.after, Loop.commands]
  | setInfo => simp [Fw.work, mainStep, pc, Pc.work]
  | copyLoad i =>
      simp only [Fw.work, mainStep, pc, Pc.work]
  | copyStore i value =>
      by_cases more : i.val + 1 < 136
      · simp only [Fw.work, mainStep, pc, afterCopy, more, dif_pos, Pc.work]
        omega
      · simp only [Fw.work, mainStep, pc, afterCopy, more, dif_neg, not_false_eq_true, Pc.work]
        omega

theorem OnTrack.work_le (track : OnTrack s) : 1 ≤ s.work ∧ s.work ≤ latency := by
  cases pc : s.pc with
  | loop l offset stage =>
      obtain ⟨k, below, rfl, -, command⟩ := track.loop l offset stage pc
      have place : (146 - (18 + 8 * k)) / 8 = 16 - k := by omega
      rw [Fw.work, pc, Pc.work, place, latency]
      cases l <;> cases stage <;> simp only [LoopPc.left, Loop.commands, Loop.after] <;> omega
  | fault => exact absurd pc track.inside
  | enableAll l | ldacLow l | finish l =>
      rw [Fw.work, pc, Pc.work, latency]
      cases l <;> simp [Loop.after]
  | outerLen cnt | innerLen cnt =>
      rw [Fw.work, pc, Pc.work, latency]
      split <;> omega
  | copyLoad i | copyStore i value =>
      rw [Fw.work, pc, Pc.work, latency]
      omega
  | _ =>
      rw [Fw.work, pc, Pc.work, latency]
      decide

end Work

/-! ### A line that pauses between its frames -/

theorem OnTrack.turn {s : Link} (track : OnTrack s.fw) (turn : Turn) : OnTrack (s.step turn).fw := by
  cases turn with
  | main => exact track.main
  | arrival =>
      cases next : s.next? with
      | none => simpa [Link.step, next] using track
      | some byte => simpa [Link.step, next, step] using track.arrival byte.1

/-- The accesses of `main` since the last byte arrived. -/
def sinceArrival (n : Nat) (_ : Link) : Turn → Nat
  | .main => n + 1
  | .arrival => 0

/-- A frame begins only when `main` has had `latency` accesses since the last byte of the frame before
it. -/
def Paced (s : Link × Nat) : Turn → Prop
  | .main => True
  | .arrival => s.1.current = [] → s.1.waiting ≠ [] → s.1.begun ≠ [] → latency ≤ s.2

/-- The invariant of a paced line: until `main` has re-armed for a complete frame, the accesses since its
last byte and those that are left are at most `latency`. -/
structure Attentive (frames : List (List UInt8)) (s : Link × Nat) : Prop where
  delivered : ∃ log latched, Delivered frames s.1 log latched
  track : OnTrack s.1.fw
  working : s.1.cleared = false → s.1.current = [] → s.2 + s.1.fw.work ≤ latency

section Paced

variable {frames : List (List UInt8)} {s : Link × Nat} {turn : Turn}

theorem attentive_start (frames : List (List UInt8)) : Attentive frames (Link.start frames, 0) where
  delivered := ⟨[], [], delivered_start frames⟩
  track := onTrack_powerOn
  working cleared := by cases cleared

/-- After `latency` accesses `main` has re-armed for the frame begun last. -/
theorem Attentive.cleared (attentive : Attentive frames s) (done : s.1.current = [])
    (waited : s.1.begun ≠ [] → latency ≤ s.2) : s.1.cleared = true := by
  by_contra notYet
  rw [Bool.not_eq_true] at notYet
  obtain ⟨log, latched, inv⟩ := attentive.delivered
  have begun : s.1.begun ≠ [] := by
    cases armed : s.1.armed with
    | true => exact (inv.rearming armed notYet).1
    | false =>
        obtain ⟨-, last, -⟩ := inv.aligned.receiving armed
        intro none
        simp [none] at last
  have left := attentive.working notYet done
  have some := attentive.track.work_le.1
  have long := waited begun
  omega

theorem Attentive.spaced (attentive : Attentive frames s) (paced : Paced s turn) :
    Spaced s.1 turn := by
  cases turn with
  | main => trivial
  | arrival => exact fun done more => attentive.cleared done fun begun => paced done more begun

/-- An access of `main` while a complete frame waits for it. -/
theorem Attentive.working_main (valid : ∀ frame ∈ frames, IsFrame 1 frame)
    (attentive : Attentive frames s) (notYet : (s.1.step .main).cleared = false)
    (done : s.1.current = []) : s.2 + 1 + (mainStep s.1.fw).work ≤ latency := by
  obtain ⟨log, latched, inv⟩ := attentive.delivered
  simp only [Link.step, Bool.or_eq_false_iff, beq_eq_false_iff_ne] at notYet
  have before := attentive.working notYet.1 done
  have less := attentive.track.work notYet.2 fun outside => by
    have unarmed : s.1.armed = false := by
      cases armed : s.1.armed with
      | false => rfl
      | true =>
          have inside := (inv.rearming armed notYet.1).2
          rw [outside] at inside
          cases inside
    exact ⟨(inv.aligned.receiving unarmed).1, inv.complete_count valid unarmed done⟩
  omega

theorem Attentive.step (valid : ∀ frame ∈ frames, IsFrame 1 frame)
    (attentive : Attentive frames s) (paced : Paced s turn) :
    Attentive frames (withHistory Link.step sinceArrival s turn) := by
  have delivered : ∃ log latched, Delivered frames (s.1.step turn) log latched := by
    obtain ⟨log, latched, inv⟩ := attentive.delivered
    exact ⟨_, _, inv.turn valid turn (attentive.spaced paced)⟩
  cases turn with
  | main => exact ⟨delivered, attentive.track.main, attentive.working_main valid⟩
  | arrival =>
      have track : OnTrack (s.1.step .arrival).fw := attentive.track.turn .arrival
      refine ⟨delivered, track, fun _ _ => ?_⟩
      have most := track.work_le.2
      change 0 + (s.1.step .arrival).fw.work ≤ latency
      omega

variable {turns : List Turn}

theorem attentive_run (valid : ∀ frame ∈ frames, IsFrame 1 frame)
    (paced : EachStep (withHistory Link.step sinceArrival) Paced (Link.start frames, 0) turns) :
    Attentive frames (run (withHistory Link.step sinceArrival) (Link.start frames, 0) turns) :=
  run_invariant (Attentive frames) (fun _ _ attentive paced => attentive.step valid paced)
    (attentive_start frames) paced

/-- A paced line is spaced. -/
theorem paced_spaced (valid : ∀ frame ∈ frames, IsFrame 1 frame)
    (paced : EachStep (withHistory Link.step sinceArrival) Paced (Link.start frames, 0) turns) :
    EachStep Link.step Spaced (Link.start frames) turns :=
  (eachStep_withHistory 0 (Link.start frames) turns).1
    (eachStep_of_invariant (Attentive frames) (fun _ _ attentive paced => attentive.step valid paced)
      (fun _ _ attentive paced => attentive.spaced paced) (attentive_start frames) paced)

/-- Once the accesses after the last byte are over, `main` has re-armed for every frame that has begun. -/
theorem paced_cleared (valid : ∀ frame ∈ frames, IsFrame 1 frame)
    (paced : EachStep (withHistory Link.step sinceArrival) Paced (Link.start frames, 0) turns)
    (done : (run Link.step (Link.start frames) turns).current = [])
    (waited : (run Link.step (Link.start frames) turns).begun ≠ [] →
      latency ≤ history Link.step sinceArrival 0 (Link.start frames) turns) :
    (run Link.step (Link.start frames) turns).cleared = true := by
  have attentive := attentive_run valid paced
  rw [run_withHistory] at attentive
  exact attentive.cleared done waited

/-- What a line that `main` has re-armed for holds. -/
theorem Delivered.rearmed {s : Link} {log : List Stored} {latched : List (List UInt8)}
    (inv : Delivered frames s log latched) (cleared : s.cleared = true) :
    s.fw.isSettingInfo = true ∧ s.fw.uartReceiveCnt = 0 ∧ latched = patternsOf s.begun := by
  obtain ⟨armed, phase⟩ := inv.refreshing cleared
  have outside : s.fw.pc.rearming = false :=
    phase.elim (fun first => first.2.not_rearming) (fun later => later.2.not_rearming)
  obtain ⟨-, info, clear⟩ := inv.aligned.idle armed
  refine ⟨info, clear outside, ?_⟩
  rw [inv.latched_settled outside, Link.settled, armed]
  rfl

/-- On a paced line every frame is latched within `latency` accesses of `main` after its last byte: once
they are over, the patterns latched are those of all the frames that have begun. -/
theorem paced_latched (valid : ∀ frame ∈ frames, IsFrame 1 frame)
    (paced : EachStep (withHistory Link.step sinceArrival) Paced (Link.start frames, 0) turns)
    (done : (run Link.step (Link.start frames) turns).current = [])
    (waited : (run Link.step (Link.start frames) turns).begun ≠ [] →
      latency ≤ history Link.step sinceArrival 0 (Link.start frames) turns) :
    latchedPatterns frames turns = patternsOf (run Link.step (Link.start frames) turns).begun := by
  obtain ⟨log, inv⟩ := delivered_run valid (paced_spaced valid paced)
  exact (inv.rearmed (paced_cleared valid paced done waited)).2.2

/-- `main` alone keeps any pace. -/
theorem paced_mains (s : Link × Nat) (n : Nat) :
    EachStep (withHistory Link.step sinceArrival) Paced s (List.replicate n .main) ∧
      (run (withHistory Link.step sinceArrival) s (List.replicate n .main)).1.current =
        s.1.current ∧
      (run (withHistory Link.step sinceArrival) s (List.replicate n .main)).2 = s.2 + n := by
  induction n generalizing s with
  | zero => exact ⟨trivial, rfl, rfl⟩
  | succ n ih =>
      obtain ⟨paced, current, since⟩ := ih (withHistory Link.step sinceArrival s .main)
      refine ⟨⟨trivial, paced⟩, current, since.trans ?_⟩
      change s.2 + 1 + n = s.2 + (n + 1)
      omega

/-- The accesses of `main` at the end of a run. -/
theorem since_mains (s : Link) (n : Nat) (turns : List Turn) (k : Nat) :
    k ≤ history Link.step sinceArrival n s (turns ++ List.replicate k .main) := by
  rw [history_append]
  obtain ⟨-, -, since⟩ := paced_mains (run Link.step s turns, history Link.step sinceArrival n s turns) k
  rw [run_withHistory] at since
  simp only at since
  omega

/-- Accesses of `main` move nothing on the line. -/
theorem mains_line (s : Link) (n : Nat) :
    (run Link.step s (List.replicate n .main)).current = s.current ∧
      (run Link.step s (List.replicate n .main)).begun = s.begun := by
  induction n generalizing s with
  | zero => exact ⟨rfl, rfl⟩
  | succ n ih => exact ih (s.step .main)

end Paced

/-! ### A pause after each frame -/

section Pauses

variable {s : Link} {n : Nat} {turns : List Turn}

/-- The rest of a frame needs no pace. -/
theorem paced_inside (count : turns.count .arrival = s.current.length) :
    EachStep (withHistory Link.step sinceArrival) Paced (s, n) turns ∧
      (run Link.step s turns).current = [] ∧ (run Link.step s turns).waiting = s.waiting ∧
      (run Link.step s turns).begun = s.begun := by
  induction turns generalizing s n with
  | nil => exact ⟨trivial, List.length_eq_zero_iff.1 count.symm, rfl, rfl⟩
  | cons turn turns ih =>
      cases turn with
      | main =>
          rw [List.count_cons_of_ne (by decide)] at count
          obtain ⟨paced, same⟩ := ih (s := s.step .main) (n := n + 1) count
          exact ⟨⟨trivial, paced⟩, same⟩
      | arrival =>
          rw [List.count_cons_self] at count
          cases current : s.current with
          | nil => simp [current] at count
          | cons byte more =>
              have next : s.next? = some (byte, { s with current := more }) := by
                simp [Link.next?, current]
              have stepped : (s.step .arrival).current = more ∧
                  (s.step .arrival).waiting = s.waiting ∧ (s.step .arrival).begun = s.begun := by
                simp [Link.step, next]
              have fewer : turns.count .arrival = (s.step .arrival).current.length := by
                rw [stepped.1]
                simpa [current] using count
              obtain ⟨paced, done, waiting, begun⟩ := ih (s := s.step .arrival) (n := 0) fewer
              refine ⟨⟨fun none => ?_, paced⟩, done, waiting.trans stepped.2.1,
                begun.trans stepped.2.2⟩
              rw [current] at none
              cases none

/-- A frame whose first byte comes `latency` accesses after the one before it. -/
theorem paced_frame {frame : List UInt8} {rest : List (List UInt8)} (done : s.current = [])
    (waiting : s.waiting = frame :: rest) (some : frame ≠ [])
    (count : turns.count .arrival = frame.length) (waited : s.begun ≠ [] → latency ≤ n) :
    EachStep (withHistory Link.step sinceArrival) Paced (s, n) turns ∧
      (run Link.step s turns).current = [] ∧ (run Link.step s turns).waiting = rest ∧
      (run Link.step s turns).begun = s.begun ++ [frame] := by
  induction turns generalizing s n with
  | nil => exact absurd (List.length_eq_zero_iff.1 count.symm) some
  | cons turn turns ih =>
      cases turn with
      | main =>
          rw [List.count_cons_of_ne (by decide)] at count
          obtain ⟨paced, same⟩ := ih (s := s.step .main) (n := n + 1) done waiting count
            fun begun => (waited begun).trans (Nat.le_succ n)
          exact ⟨⟨trivial, paced⟩, same⟩
      | arrival =>
          rw [List.count_cons_self] at count
          obtain ⟨byte, more, rfl⟩ := List.exists_cons_of_ne_nil some
          have next : s.next? = Option.some
              (byte, { s with
                begun := s.begun ++ [byte :: more], current := more, waiting := rest }) := by
            simp [Link.next?, done, waiting]
          have stepped : (s.step .arrival).current = more ∧ (s.step .arrival).waiting = rest ∧
              (s.step .arrival).begun = s.begun ++ [byte :: more] := by simp [Link.step, next]
          have fewer : turns.count .arrival = (s.step .arrival).current.length := by
            rw [stepped.1]
            simpa using count
          obtain ⟨paced, current, left, begun⟩ := paced_inside (n := 0) fewer
          exact ⟨⟨fun _ _ begun => waited begun, paced⟩, current, left.trans stepped.2.1,
            begun.trans stepped.2.2⟩

/-- The bytes of a frame without a gap, and `pause` accesses of `main` after them. -/
def frameTurns (pause : Nat) (frame : List UInt8) : List Turn :=
  List.replicate frame.length .arrival ++ List.replicate pause .main

/-- The turns of all the frames. They are not to be unfolded where the frames are known: a run would be
evaluated turn by turn. -/
@[irreducible] def pausedTurns (pause : Nat) (frames : List (List UInt8)) : List Turn :=
  frames.flatMap (frameTurns pause)

@[simp] theorem pausedTurns_nil (pause : Nat) : pausedTurns pause [] = [] := by
  rw [pausedTurns, List.flatMap_nil]

theorem pausedTurns_cons (pause : Nat) (frame : List UInt8) (rest : List (List UInt8)) :
    pausedTurns pause (frame :: rest) = frameTurns pause frame ++ pausedTurns pause rest := by
  rw [pausedTurns, List.flatMap_cons, ← pausedTurns]

theorem frameTurns_count (pause : Nat) (frame : List UInt8) :
    (frameTurns pause frame).count .arrival = frame.length := by
  rw [frameTurns, List.count_append, List.count_replicate_self,
    List.count_eq_zero.2 fun member => Turn.noConfusion (List.eq_of_mem_replicate member),
    Nat.add_zero]

theorem paced_frames {waiting : List (List UInt8)} (nonempty : ∀ frame ∈ waiting, frame ≠ [])
    {pause : Nat} (long : latency ≤ pause) (done : s.current = []) (waits : s.waiting = waiting)
    (waited : s.begun ≠ [] → latency ≤ n) :
    EachStep (withHistory Link.step sinceArrival) Paced (s, n) (pausedTurns pause waiting) ∧
      (run Link.step s (pausedTurns pause waiting)).current = [] ∧
      (run Link.step s (pausedTurns pause waiting)).begun = s.begun ++ waiting ∧
      (waiting ≠ [] → pause ≤ history Link.step sinceArrival n s (pausedTurns pause waiting)) := by
  induction waiting generalizing s n with
  | nil =>
      rw [List.append_nil, pausedTurns_nil]
      exact ⟨trivial, done, rfl, fun none => absurd rfl none⟩
  | cons frame rest ih =>
      obtain ⟨some, later⟩ := List.forall_mem_cons.1 nonempty
      obtain ⟨paced, current, left, begun⟩ :=
        paced_frame done waits some (frameTurns_count pause frame) waited
      have since : pause ≤ history Link.step sinceArrival n s (frameTurns pause frame) :=
        since_mains s n (List.replicate frame.length .arrival) pause
      obtain ⟨others, last, all, final⟩ := ih later current left fun _ => long.trans since
      rw [begun, List.append_assoc, List.singleton_append] at all
      rw [pausedTurns_cons, run_append, history_append, eachStep_append, run_withHistory]
      refine ⟨⟨paced, others⟩, last, all, fun _ => ?_⟩
      cases rest with
      | nil => rwa [pausedTurns_nil, history_nil]
      | cons => exact final (List.cons_ne_nil _ _)

variable {frames : List (List UInt8)} {pause : Nat}

theorem IsFrame.nonempty {low : Nat} {frame : List UInt8} (valid : IsFrame low frame) : frame ≠ [] := by
  obtain ⟨payload, rfl, -⟩ := valid
  exact List.cons_ne_nil _ _

/-- Such a line is paced, and after its last pause every frame has arrived whole. -/
theorem paused_line (valid : ∀ frame ∈ frames, IsFrame 1 frame) (long : latency ≤ pause) :
    EachStep (withHistory Link.step sinceArrival) Paced (Link.start frames, 0)
        (pausedTurns pause frames) ∧
      (run Link.step (Link.start frames) (pausedTurns pause frames)).current = [] ∧
      (run Link.step (Link.start frames) (pausedTurns pause frames)).begun = frames ∧
      (frames ≠ [] →
        pause ≤ history Link.step sinceArrival 0 (Link.start frames) (pausedTurns pause frames)) :=
  paced_frames (fun frame member => (valid frame member).nonempty) long rfl rfl
    fun some => absurd rfl some

/-- After the last pause every frame has begun, and the receiver is armed for another one. -/
theorem paused_armed (valid : ∀ frame ∈ frames, IsFrame 1 frame) (long : latency ≤ pause) :
    (run Link.step (Link.start frames) (pausedTurns pause frames)).begun = frames ∧
      (run Link.step (Link.start frames) (pausedTurns pause frames)).current = [] ∧
      (run Link.step (Link.start frames) (pausedTurns pause frames)).fw.isSettingInfo = true ∧
      (run Link.step (Link.start frames) (pausedTurns pause frames)).fw.uartReceiveCnt = 0 := by
  obtain ⟨paced, current, begun, waited⟩ := paused_line valid long
  obtain ⟨log, inv⟩ := delivered_run valid (paced_spaced valid paced)
  obtain ⟨info, clear, -⟩ := inv.rearmed
    (paced_cleared valid paced current fun some => long.trans (waited (begun ▸ some)))
  exact ⟨begun, current, info, clear⟩

/-- Every frame is latched. -/
theorem paused_latched (valid : ∀ frame ∈ frames, IsFrame 1 frame) (long : latency ≤ pause) :
    latchedPatterns frames (pausedTurns pause frames) = patternsOf frames := by
  obtain ⟨paced, current, begun, waited⟩ := paused_line valid long
  rw [paced_latched valid paced current fun some => long.trans (waited (begun ▸ some)), begun]

/-- Every byte is taken for what it is. -/
theorem paused_handled (valid : ∀ frame ∈ frames, IsFrame 1 frame) (long : latency ≤ pause) :
    handlerLog frames (pausedTurns pause frames) = frames.flatMap frameLog := by
  obtain ⟨paced, current, begun, -⟩ := paused_line valid long
  have aligned := aligned_run (fun frame member => (valid frame member).mono (Nat.zero_le 1))
    (spaced_in_order valid (paced_spaced valid paced))
  have handled := aligned.handled
  rwa [current, payloadLog, List.append_nil, begun] at handled

end Pauses

/-! ### The premises at a run -/

/-- Two frames of different lengths. -/
def twoFrames : List (List UInt8) := [[1, 7], [2, 8, 9]]

theorem twoFrames_valid : ∀ frame ∈ twoFrames, IsFrame 1 frame := by
  rw [twoFrames, List.forall_mem_cons, List.forall_mem_singleton]
  exact ⟨⟨[7], rfl, by decide, by decide⟩, ⟨[8, 9], rfl, by decide, by decide⟩⟩

/-- `main` re-arms after each of the two frames, so the second length byte is taken as a length. -/
theorem two_frames_stay_aligned :
    (handlerLog twoFrames (pausedTurns latency twoFrames) <+: twoFrames.flatMap frameLog ∧
      Receiving (run Link.step (Link.start twoFrames) (pausedTurns latency twoFrames))) ∧
    handlerLog twoFrames (pausedTurns latency twoFrames) =
      [.length 1, .payload 0 7, .length 2, .payload 0 8, .payload 1 9] ∧
    (run Link.step (Link.start twoFrames) (pausedTurns latency twoFrames)).fw.isSettingInfo = true ∧
    (run Link.step (Link.start twoFrames) (pausedTurns latency twoFrames)).fw.uartReceiveCnt = 0 := by
  obtain ⟨paced, -⟩ := paused_line twoFrames_valid le_rfl
  obtain ⟨-, -, armed⟩ := paused_armed twoFrames_valid le_rfl
  exact ⟨frames_stay_aligned twoFrames
      (fun frame member => (twoFrames_valid frame member).mono (Nat.zero_le 1)) _
      (spaced_in_order twoFrames_valid (paced_spaced twoFrames_valid paced)),
    paused_handled twoFrames_valid le_rfl, armed⟩

theorem mains_fw (s : Link) (n : Nat) :
    (run Link.step s (List.replicate n .main)).fw = run step s.fw (List.replicate n .main) := by
  induction n generalizing s with
  | zero => rfl
  | succ n ih => exact ih (s.step .main)

/-- A frame of one byte, and the accesses in which `main` sees it and re-arms. -/
def oneFrame : List Action :=
  [.uart 1, .uart 7] ++ List.replicate latency .main

/-- The frame is complete after its second byte, and is seen with the counter still at its length. -/
theorem frame_stays_complete :
    AtMost200 oneFrame ∧ EachStep step ArrivesOutsideRearming powerOn oneFrame ∧
    EachStep step CompleteStays powerOn oneFrame ∧
    ((run step powerOn [.uart 1, .uart 7]).isSettingInfo = false ∧
      (run step powerOn [.uart 1, .uart 7]).datalength ≤
        (run step powerOn [.uart 1, .uart 7]).uartReceiveCnt) ∧
    (run step powerOn oneFrame).isSettingInfo = true ∧
    (run step powerOn oneFrame).uartReceiveCnt = 0 := by
  have inBounds : EachStep step StoreInBounds powerOn oneFrame := by
    refine (eachStep_append _ _ _).2 ⟨⟨fun armed => ?_, ?_, trivial⟩, eachStep_replicate (fun _ => trivial) _ _⟩
    · cases armed
    · exact storeInBounds_of_lt fun _ _ => by rw [step, irq_length 1 rfl]; decide
  have outside : EachStep step ArrivesOutsideRearming powerOn oneFrame :=
    (eachStep_append _ _ _).2 ⟨⟨rfl, rfl, trivial⟩, eachStep_replicate (fun _ => trivial) _ _⟩
  have valid : ∀ frame ∈ [[1, 7]], IsFrame 1 frame :=
    List.forall_mem_singleton.2 ⟨[7], rfl, by decide, by decide⟩
  obtain ⟨-, -, info, clear⟩ := paused_armed valid (le_refl latency)
  have turns : pausedTurns latency [[1, 7]] = [.arrival, .arrival] ++ List.replicate latency .main := by
    rw [pausedTurns_cons, pausedTurns_nil, List.append_nil]
    rfl
  have reached : (run Link.step (Link.start [[1, 7]]) (pausedTurns latency [[1, 7]])).fw =
      run step powerOn oneFrame := by
    rw [turns, run_append, mains_fw, oneFrame, run_append]
    rfl
  rw [reached] at info clear
  obtain ⟨boundsIff, stays⟩ := receiver_in_bounds oneFrame
  exact ⟨boundsIff.1 inBounds, outside, stays (boundsIff.1 inBounds) outside, by decide, info, clear⟩

end VoltCtrl.Firmware
