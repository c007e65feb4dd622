/-
Module: VoltCtrl.Firmware.Delivery
Layer: Firmware
Purpose: What `main` latches from a line whose frames are spaced, each beginning only after `main` has
  stored `UartReceiveCnt = 0` for the frame before it. Such a line keeps the order that `ArrivesInOrder`
  asks for, so the receiver stays aligned; every frame is latched at most once, in order and after its
  last byte, and what is latched is what a buffer that is never cleared holds after the payloads have
  been written over each other.
Trusted boundary: none
Main exports: Spaced, latchedPatterns, Link.completed, Delivered, delivered_run, latched_windows,
  spaced_in_order
-/
import VoltCtrl.Core.Overlay
import VoltCtrl.Firmware.Link
import VoltCtrl.Firmware.ReceiveBuffer

namespace VoltCtrl.Firmware

open VoltCtrl.Core

/-- A frame begins only after `main` has stored `UartReceiveCnt = 0` for the frame before it. -/
def Spaced (s : Link) : Turn → Prop
  | .main => True
  | .arrival => s.current = [] → s.waiting ≠ [] → s.cleared = true

/-- The pattern after each completed `WriteFileData`. -/
def logLatched (log : List (List UInt8)) (s : Link) : Turn → List (List UInt8)
  | .main => if latches s.fw .main then log ++ [(mainStep s.fw).pattern] else log
  | .arrival => log

def latchedPatterns (frames : List (List UInt8)) (turns : List Turn) : List (List UInt8) :=
  history Link.step logLatched [] (Link.start frames) turns

/-- The frames all of whose bytes have arrived. -/
def Link.completed (s : Link) : List (List UInt8) :=
  if s.current = [] then s.begun else s.begun.dropLast

/-- `rxdata` before anything is received. -/
def blank : Nat → UInt8 := fun _ => 0

/-- `rxdata` after the payloads of some frames have been written over each other. -/
def bufferAfter (frames : List (List UInt8)) : Nat → UInt8 :=
  overlays blank (frames.map List.tail)

/-- The patterns that the frames give one after another. -/
def patternsOf (frames : List (List UInt8)) : List (List UInt8) :=
  windows 136 blank (frames.map List.tail)

/-- The frames that `main` has re-armed for. -/
def Link.settled (s : Link) : List (List UInt8) :=
  if s.armed then s.begun else s.begun.dropLast

/-- `main` has latched every frame it has re-armed for. -/
def Link.latchedAll (s : Link) : Bool :=
  !s.armed || s.cleared || s.fw.pc == .resetCnt

/-- The first `n` entries of `rxdata` are in the command buffer. -/
def CopiedUpTo (s : Fw) (n : Nat) : Prop :=
  ∀ k < n, s.spiCommandStringTx[18 + k]? = s.rxdata[k]?

/-- How far `WriteFileData` has got. -/
structure Copying (s : Fw) : Prop where
  load : ∀ i, s.pc = .copyLoad i → CopiedUpTo s i
  store : ∀ i value, s.pc = .copyStore i value →
    CopiedUpTo s i ∧ s.rxdata[i.val]? = some value

/-- The invariant of a spaced line: an aligned line, on which `main` is refreshing, receiving or
re-arming; the buffer behind the bytes of the frame under way holds the frames before it. -/
structure Delivered (frames : List (List UInt8)) (s : Link) (log : List Stored)
    (latched : List (List UInt8)) : Prop where
  aligned : Aligned frames s log
  refreshing : s.cleared = true →
    s.armed = true ∧
      ((s.begun = [] ∧ s.fw.pc.beforeFirst) ∨ (s.begun ≠ [] ∧ s.fw.pc.refreshing))
  rearming : s.armed = true → s.cleared = false → s.begun ≠ [] ∧ s.fw.pc.rearming = true
  receiving : s.armed = false →
    s.fw.pc.rearming = false ∧ (s.fw.pc = .setInfo → s.current = []) ∧
      ∀ cnt, s.fw.pc = .outerLen cnt → cnt ≤ s.fw.uartReceiveCnt
  buffer : ∀ i < 200, (s.armed = false → s.arrived ≤ i) →
    s.fw.rxdata[i]? = some (bufferAfter s.settled i)
  copying : Copying s.fw
  latched : latched = patternsOf (if s.latchedAll then s.settled else s.settled.dropLast)

theorem patternsOf_concat (frames : List (List UInt8)) (frame : List UInt8) :
    patternsOf (frames ++ [frame]) =
      patternsOf frames ++ [window 136 (bufferAfter (frames ++ [frame]))] := by
  simp only [patternsOf, bufferAfter, List.map_append, List.map_cons, List.map_nil, windows_snoc]

theorem bufferAfter_concat (frames : List (List UInt8)) (frame : List UInt8) :
    bufferAfter (frames ++ [frame]) = overlay (bufferAfter frames) frame.tail := by
  simp [bufferAfter]

theorem copying_of_not_rearming {s : Fw} (outside : s.pc.rearming = false) : Copying s where
  load i pc := by
    rw [pc] at outside
    cases outside
  store i value pc := by
    rw [pc] at outside
    cases outside

theorem delivered_start (frames : List (List UInt8)) :
    Delivered frames (Link.start frames) [] [] where
  aligned := aligned_start frames
  refreshing _ := ⟨rfl, Or.inl ⟨rfl, Or.inl rfl⟩⟩
  rearming _ cleared := by cases cleared
  receiving armed := by cases armed
  buffer i inside _ := by
    change (Vector.replicate 200 (0 : UInt8))[i]? = some 0
    simp [inside]
  copying := copying_of_not_rearming rfl
  latched := rfl

/-! ### `WriteFileData` -/

/-- Storing entry `i` extends the copied part by one. -/
theorem copiedUpTo_store {s : Fw} {i : Fin 136} {value : UInt8} (copied : CopiedUpTo s i)
    (loaded : s.rxdata[i.val]? = some value) (pc : s.pc = .copyStore i value) :
    CopiedUpTo (mainStep s) (i.val + 1) := by
  intro k below
  simp only [mainStep, pc]
  by_cases here : k = i.val
  · rw [here, Vector.getElem?_set_self, loaded]
  · rw [Vector.getElem?_set_ne (by omega) (by omega)]
    exact copied k (by omega)

/-- No access of `main` disturbs the copy. -/
theorem copying_main {s : Fw} (copying : Copying s) : Copying (mainStep s) := by
  cases pc : s.pc with
  | setInfo =>
      have next : (mainStep s).pc = .copyLoad 0 := by simp [mainStep, pc]
      constructor
      · intro i load k below
        rw [next, Pc.copyLoad.injEq] at load
        rw [← load] at below
        exact absurd below (Nat.not_lt_zero k)
      · intro i value store
        rw [next] at store
        cases store
  | copyLoad i =>
      have copied := copying.load i pc
      constructor
      · intro j load
        simp [mainStep, pc] at load
      · intro j value store
        simp only [mainStep, pc, Pc.copyStore.injEq] at store
        obtain ⟨rfl, rfl⟩ := store
        simp only [mainStep, pc]
        exact ⟨copied, Vector.getElem?_eq_getElem (by omega)⟩
  | copyStore i value =>
      obtain ⟨copied, loaded⟩ := copying.store i value pc
      have longer := copiedUpTo_store copied loaded pc
      have next : (mainStep s).pc = afterCopy i := by simp [mainStep, pc]
      constructor
      · intro j load
        rw [next, afterCopy] at load
        split at load
        · rw [Pc.copyLoad.injEq] at load
          rw [← load]
          exact longer
        · cases load
      · intro j value' store
        rw [next, afterCopy] at store
        split at store <;> cases store
  | _ =>
      apply copying_of_not_rearming
      rw [mainStep_rearming, pc]
      rfl

/-- A finished copy of a known buffer is the window of that buffer. -/
theorem pattern_of_copied {s : Fw} {buffer : Nat → UInt8} (copied : CopiedUpTo s 136)
    (known : ∀ i < 200, s.rxdata[i]? = some (buffer i)) : s.pattern = window 136 buffer := by
  apply List.ext_getElem?
  intro i
  by_cases inside : i < 136
  · rw [pattern_getElem? s inside, copied i inside, known i (by omega), window_getElem? _ inside]
  · rw [List.getElem?_eq_none (by rw [pattern_length]; omega),
      List.getElem?_eq_none (by rw [window_length]; omega)]

/-- The pattern that a completed `WriteFileData` leaves. -/
theorem pattern_of_latch {s : Fw} {buffer : Nat → UInt8} (copying : Copying s)
    (latch : latches s .main = true) (known : ∀ i < 200, s.rxdata[i]? = some (buffer i)) :
    (mainStep s).pattern = window 136 buffer := by
  obtain ⟨value, pc⟩ := latches_pc latch
  obtain ⟨copied, loaded⟩ := copying.store _ value pc
  refine pattern_of_copied (copiedUpTo_store copied loaded pc) ?_
  simpa using known

/-! ### What the invariant gives -/

section Given

variable {frames : List (List UInt8)} {s : Link} {log : List Stored}
  {latched : List (List UInt8)}

/-- The frame begun last, after the ones before it. -/
theorem Aligned.begun_concat (aligned : Aligned frames s log) (begun : s.begun ≠ []) :
    ∃ frame ∈ frames, s.begun = s.begun.dropLast ++ [frame] ∧ frame.tail = s.latest ∧
      frame.head? = some s.fw.datalength := by
  have split := List.dropLast_concat_getLast begun
  have last := List.getLast?_eq_some_getLast begun
  refine ⟨s.begun.getLast begun, ?_, split.symm, ?_, aligned.length _ last⟩
  · rw [← aligned.order]
    exact List.mem_append_left _ (List.getLast_mem begun)
  · simp [Link.latest, last]

/-- The last frame's length is in `Datalength`. -/
theorem Aligned.datalength (valid : ∀ frame ∈ frames, IsFrame 1 frame)
    (aligned : Aligned frames s log) (begun : s.begun ≠ []) :
    1 ≤ s.latest.length ∧ s.fw.datalength.toNat = s.latest.length := by
  obtain ⟨frame, member, -, tail, head⟩ := aligned.begun_concat begun
  obtain ⟨payload, shape, positive, fits⟩ := valid frame member
  rw [shape] at tail head
  rw [List.head?_cons, Option.some.injEq] at head
  rw [← tail, ← head]
  refine ⟨positive, ?_⟩
  rw [UInt8.toNat_ofNat', List.tail_cons]
  omega

/-- A complete count means that no byte of the frame is missing. -/
theorem Delivered.current_nil (valid : ∀ frame ∈ frames, IsFrame 1 frame)
    (inv : Delivered frames s log latched) (unarmed : s.armed = false) {cnt : UInt8}
    (compare : s.fw.pc = .outerLen cnt) (complete : s.fw.datalength ≤ cnt) : s.current = [] := by
  obtain ⟨outside, -, counted⟩ := inv.receiving unarmed
  obtain ⟨-, last, -, -, count⟩ := inv.aligned.receiving unarmed
  have begun : s.begun ≠ [] := by
    intro none
    simp [none] at last
  have length := (inv.aligned.datalength valid begun).2
  have le := counted cnt compare
  rw [UInt8.le_iff_toNat_le] at complete le
  have arrived := count outside
  have short := inv.aligned.suffix.length_le
  have none : s.current.length = 0 := by
    unfold Link.arrived at arrived
    omega
  exact List.length_eq_zero_iff.1 none

/-- When the whole frame has arrived, the count is complete. -/
theorem Delivered.complete_count (valid : ∀ frame ∈ frames, IsFrame 1 frame)
    (inv : Delivered frames s log latched) (unarmed : s.armed = false) (done : s.current = []) :
    s.fw.datalength ≤ s.fw.uartReceiveCnt := by
  obtain ⟨-, last, -, -, count⟩ := inv.aligned.receiving unarmed
  have begun : s.begun ≠ [] := by
    intro none
    simp [none] at last
  have length := (inv.aligned.datalength valid begun).2
  have arrived := count (inv.receiving unarmed).1
  rw [UInt8.le_iff_toNat_le, length, arrived, Link.arrived, done]
  exact Nat.le_refl _

/-- Spacing gives the order that keeps the line aligned. -/
theorem Delivered.in_order (inv : Delivered frames s log latched) (turn : Turn)
    (spaced : Spaced s turn) : ArrivesInOrder s turn := by
  cases turn with
  | main =>
      intro setting
      cases armed : s.armed with
      | true => exact (inv.aligned.idle armed).1
      | false => exact (inv.receiving armed).2.1 setting
  | arrival =>
      refine ⟨fun done more => (inv.refreshing (spaced done more)).1, fun under => ?_⟩
      cases armed : s.armed with
      | true => exact absurd (inv.aligned.idle armed).1 under
      | false => exact (inv.receiving armed).1

/-- Outside the re-arming section every settled frame is latched. -/
theorem Delivered.latched_settled (inv : Delivered frames s log latched)
    (outside : s.fw.pc.rearming = false) : latched = patternsOf s.settled := by
  have all : s.latchedAll = true := by
    cases armed : s.armed with
    | false => simp [Link.latchedAll, armed]
    | true =>
        cases cleared : s.cleared with
        | true => simp [Link.latchedAll, cleared]
        | false =>
            have inside := (inv.rearming armed cleared).2
            rw [outside] at inside
            cases inside
  have latched := inv.latched
  rwa [all, if_pos rfl] at latched

end Given

/-! ### One turn -/

section Turns

variable {frames : List (List UInt8)} {s : Link} {log : List Stored}
  {latched : List (List UInt8)}

/-- `main`'s turn between two frames. -/
theorem Delivered.main_refreshing (valid : ∀ frame ∈ frames, IsFrame 1 frame)
    (inv : Delivered frames s log latched) (cleared : s.cleared = true) :
    Delivered frames (s.step .main) log (logLatched latched s .main) := by
  obtain ⟨armed, phase⟩ := inv.refreshing cleared
  have outside : s.fw.pc.rearming = false :=
    phase.elim (fun first => first.2.not_rearming) (fun later => later.2.not_rearming)
  have nextPhase : (s.begun = [] ∧ (mainStep s.fw).pc.beforeFirst) ∨
      (s.begun ≠ [] ∧ (mainStep s.fw).pc.refreshing) := by
    obtain ⟨-, info, clear⟩ := inv.aligned.idle armed
    rcases phase with ⟨none, before⟩ | ⟨begun, refreshing⟩
    · exact Or.inl ⟨none, mainStep_beforeFirst before info⟩
    · have length := inv.aligned.datalength valid begun
      have positive : 0 < s.fw.datalength := by
        rw [UInt8.lt_iff_toNat_lt, length.2]
        exact length.1
      exact Or.inr ⟨begun, mainStep_refreshing refreshing (clear outside) positive⟩
  have nextArmed : (s.step .main).armed = true := by simp [Link.step, armed]
  have nextCleared : (s.step .main).cleared = true := by simp [Link.step, cleared]
  have nextSettled : (s.step .main).settled = s.settled := by
    rw [Link.settled, Link.settled, nextArmed, armed]
    rfl
  constructor
  · exact inv.aligned.main (inv.in_order .main trivial)
  · exact fun _ => ⟨nextArmed, nextPhase⟩
  · intro _ notCleared
    rw [nextCleared] at notCleared
    cases notCleared
  · intro unarmed
    rw [nextArmed] at unarmed
    cases unarmed
  · intro i inside _
    rw [nextSettled]
    simpa [Link.step, step] using inv.buffer i inside (by simp [armed])
  · exact copying_main inv.copying
  · have all : (s.step .main).latchedAll = true := by simp [Link.latchedAll, nextCleared]
    rw [all, nextSettled, if_pos rfl, ← inv.latched_settled outside]
    simp [logLatched, latches_false_of_not_rearming outside]

/-- `main`'s turn while it waits for the payload, and its decision that the frame is complete. -/
theorem Delivered.main_receiving (valid : ∀ frame ∈ frames, IsFrame 1 frame)
    (inv : Delivered frames s log latched) (unarmed : s.armed = false) :
    Delivered frames (s.step .main) log (logLatched latched s .main) := by
  obtain ⟨outside, complete, counted⟩ := inv.receiving unarmed
  have notCleared : s.cleared = false := by
    cases cleared : s.cleared with
    | false => rfl
    | true => rw [(inv.refreshing cleared).1] at unarmed; cases unarmed
  have notReset : s.fw.pc ≠ .resetCnt := by
    intro reset
    rw [reset] at outside
    cases outside
  have nextCleared : (s.step .main).cleared = false := by
    simp [Link.step, notCleared, notReset]
  have nextAligned := inv.aligned.main (inv.in_order .main trivial)
  have sameLog : logLatched latched s .main = latched := by
    simp [logLatched, latches_false_of_not_rearming outside]
  have settled : s.settled = s.begun.dropLast := by simp [Link.settled, unarmed]
  have latchedBefore := inv.latched_settled outside
  by_cases setting : s.fw.pc = .setInfo
  · -- the frame is complete: it is now settled, and the copy of it starts
    have nextArmed : (s.step .main).armed = true := by simp [Link.step, setting]
    have nextSettled : (s.step .main).settled = s.begun := by
      rw [Link.settled, nextArmed]
      rfl
    have nextPc : (mainStep s.fw).pc = .copyLoad 0 := by simp [mainStep, setting]
    obtain ⟨-, last, bytes, -, -⟩ := inv.aligned.receiving unarmed
    have begun : s.begun ≠ [] := by
      intro none
      simp [none] at last
    obtain ⟨frame, -, split, tail, -⟩ := inv.aligned.begun_concat begun
    have whole : s.arrived = s.latest.length := by simp [Link.arrived, complete setting]
    constructor
    · exact nextAligned
    · intro cleared
      rw [nextCleared] at cleared
      cases cleared
    · intro _ _
      refine ⟨begun, ?_⟩
      change (mainStep s.fw).pc.rearming = true
      rw [nextPc]
      rfl
    · intro impossible
      rw [nextArmed] at impossible
      cases impossible
    · intro i inside _
      rw [nextSettled, split, bufferAfter_concat, tail, ← settled]
      change (mainStep s.fw).rxdata[i]? = _
      rw [mainStep_rxdata]
      by_cases early : i < s.latest.length
      · rw [bytes i (by omega), overlay_of_lt early]
        exact List.getElem?_eq_getElem early
      · rw [overlay_of_le (by omega)]
        exact inv.buffer i inside fun _ => by omega
    · exact copying_main inv.copying
    · have notAll : (s.step .main).latchedAll = false := by
        rw [Link.latchedAll, nextArmed, nextCleared]
        change (false || false || (mainStep s.fw).pc == .resetCnt) = false
        rw [nextPc]
        rfl
      rw [notAll, nextSettled, sameLog, latchedBefore, settled]
      rfl
  · have nextArmed : (s.step .main).armed = false := by
      simp [Link.step, unarmed, setting]
    have nextOutside : (mainStep s.fw).pc.rearming = false := by
      rw [mainStep_rearming, outside]
      simp [setting]
    have nextSettled : (s.step .main).settled = s.settled := by
      rw [Link.settled, nextArmed, settled]
      rfl
    constructor
    · exact nextAligned
    · intro cleared
      rw [nextCleared] at cleared
      cases cleared
    · intro armed
      rw [nextArmed] at armed
      cases armed
    · intro _
      refine ⟨nextOutside, ?_, ?_⟩
      · intro next
        obtain ⟨cnt, compare, enough⟩ := mainStep_setInfo next
        have done : s.current = [] := inv.current_nil valid unarmed compare enough
        exact done
      · intro cnt next
        rw [mainStep_outerLen next]
        change s.fw.uartReceiveCnt ≤ (mainStep s.fw).uartReceiveCnt
        rw [mainStep_uartReceiveCnt, if_neg notReset]
        exact UInt8.le_refl _
    · intro i inside late
      rw [nextSettled]
      simpa [Link.step, step] using inv.buffer i inside fun _ => late nextArmed
    · exact copying_main inv.copying
    · have all : (s.step .main).latchedAll = true := by simp [Link.latchedAll, nextArmed]
      rw [all, nextSettled, sameLog, latchedBefore]
      rfl

/-- `main`'s turn while it copies the pattern and clears the counter. -/
theorem Delivered.main_rearming (inv : Delivered frames s log latched) (armed : s.armed = true)
    (notCleared : s.cleared = false) :
    Delivered frames (s.step .main) log (logLatched latched s .main) := by
  obtain ⟨begun, inside⟩ := inv.rearming armed notCleared
  have notSetting : s.fw.pc ≠ .setInfo := by
    intro setting
    rw [setting] at inside
    cases inside
  have nextAligned := inv.aligned.main (inv.in_order .main trivial)
  have nextArmed : (s.step .main).armed = true := by simp [Link.step, armed]
  have settled : s.settled = s.begun := by simp [Link.settled, armed]
  have nextSettled : (s.step .main).settled = s.begun := by
    rw [Link.settled, nextArmed]
    rfl
  have notUnarmed : ¬ (s.step .main).armed = false := by simp [nextArmed]
  have nextBuffer (i : Nat) (below : i < 200) :
      (s.step .main).fw.rxdata[i]? = some (bufferAfter (s.step .main).settled i) := by
    rw [nextSettled, ← settled]
    simpa [Link.step, step] using inv.buffer i below (by simp [armed])
  have nextLatched : logLatched latched s .main =
      patternsOf (if s.latchedAll || latches s.fw .main then s.begun else s.begun.dropLast) := by
    cases latch : latches s.fw .main with
    | false => simpa [logLatched, latch, settled] using inv.latched
    | true =>
        -- the pattern is the window of the buffer after all the frames begun
        obtain ⟨value, pc⟩ := latches_pc latch
        have notAll : s.latchedAll = false := by simp [Link.latchedAll, armed, notCleared, pc]
        obtain ⟨frame, -, split, -, -⟩ := inv.aligned.begun_concat begun
        have before := inv.latched
        have pattern : (mainStep s.fw).pattern = window 136 (bufferAfter s.begun) :=
          pattern_of_latch inv.copying latch fun i below => by
            rw [← settled]
            exact inv.buffer i below (by simp [armed])
        rw [notAll, settled] at before
        rw [Bool.or_true, if_pos rfl, split, patternsOf_concat, ← split, ← pattern]
        simpa [logLatched, latch] using before
  cases reset : s.fw.pc == .resetCnt with
  | true =>
      rw [beq_iff_eq] at reset
      have nextCleared : (s.step .main).cleared = true := by simp [Link.step, reset]
      have nextPc : (mainStep s.fw).pc = .innerCnt := by simp [mainStep, reset]
      constructor
      · exact nextAligned
      · exact fun _ => ⟨nextArmed, Or.inr ⟨begun, Or.inr (Or.inr (Or.inl nextPc))⟩⟩
      · intro _ notYet
        rw [nextCleared] at notYet
        cases notYet
      · exact fun unarmed => absurd unarmed notUnarmed
      · exact fun i below _ => nextBuffer i below
      · exact copying_main inv.copying
      · have all : (s.step .main).latchedAll = true := by simp [Link.latchedAll, nextCleared]
        have before : s.latchedAll = true := by simp [Link.latchedAll, reset]
        rw [nextLatched, all, before, nextSettled]
        rfl
  | false =>
      have nextCleared : (s.step .main).cleared = false := by
        simp [Link.step, notCleared, reset]
      have nextInside : (mainStep s.fw).pc.rearming = true := by
        rw [mainStep_rearming, inside]
        simp only [beq_eq_false_iff_ne, ne_eq] at reset
        simp [reset]
      have notAll : s.latchedAll = false := by simp [Link.latchedAll, armed, notCleared, reset]
      have latchIff : (s.step .main).latchedAll = latches s.fw .main := by
        rw [Link.latchedAll, nextArmed, nextCleared]
        change ((mainStep s.fw).pc == .resetCnt) = latches s.fw .main
        cases pc : s.fw.pc with
        | copyLoad i => simp [mainStep, latches, pc]
        | copyStore i value =>
            simp only [mainStep, latches, pc, afterCopy]
            split
            · rename_i more
              have notLast : i.val ≠ 135 := by omega
              simp [notLast]
            · rename_i last
              have isLast : i.val = 135 := by omega
              simp [isLast]
        | resetCnt => simp [pc] at reset
        | _ =>
            rw [pc] at inside
            cases inside
      constructor
      · exact nextAligned
      · intro cleared
        rw [nextCleared] at cleared
        cases cleared
      · exact fun _ _ => ⟨begun, nextInside⟩
      · exact fun unarmed => absurd unarmed notUnarmed
      · exact fun i below _ => nextBuffer i below
      · exact copying_main inv.copying
      · rw [nextLatched, latchIff, notAll, nextSettled, Bool.false_or]

/-- The first byte of a frame arrives. -/
theorem Delivered.first (inv : Delivered frames s log latched) (current : s.current = [])
    {rx : UInt8} {rest : List UInt8} {waiting : List (List UInt8)}
    (head : s.waiting = (rx :: rest) :: waiting) (cleared : s.cleared = true) :
    Delivered frames
      { s with
        fw := irqUartInterrupts rx s.fw, begun := s.begun ++ [rx :: rest], current := rest,
        waiting := waiting, armed := false, cleared := false }
      (log ++ [Firmware.handled s.fw rx]) latched := by
  obtain ⟨armed, phase⟩ := inv.refreshing cleared
  obtain ⟨-, info, -⟩ := inv.aligned.idle armed
  have outside : s.fw.pc.rearming = false :=
    phase.elim (fun first => first.2.not_rearming) (fun later => later.2.not_rearming)
  have undecided : s.fw.pc.deciding = false :=
    phase.elim (fun first => first.2.not_deciding) (fun later => later.2.not_deciding)
  have settled : s.settled = s.begun := by simp [Link.settled, armed]
  constructor
  · exact inv.aligned.first current head armed
  · exact (nomatch ·)
  · exact (nomatch ·)
  · intro _
    change (irqUartInterrupts rx s.fw).pc.rearming = false ∧
      ((irqUartInterrupts rx s.fw).pc = .setInfo → rest = []) ∧
      ∀ cnt, (irqUartInterrupts rx s.fw).pc = .outerLen cnt →
        cnt ≤ (irqUartInterrupts rx s.fw).uartReceiveCnt
    rw [irq_pc]
    refine ⟨outside, ?_, ?_⟩
    · intro setting
      rw [setting] at undecided
      cases undecided
    · intro cnt compare
      rw [compare] at undecided
      cases undecided
  · intro i below _
    have before := inv.buffer i below (by simp [armed])
    change (irqUartInterrupts rx s.fw).rxdata[i]? =
      some (bufferAfter (s.begun ++ [rx :: rest]).dropLast i)
    rw [List.dropLast_concat, ← settled, irq_length rx info]
    exact before
  · exact copying_of_not_rearming (by rw [irq_pc]; exact outside)
  · rw [inv.latched_settled outside, settled]
    simp [Link.latchedAll, Link.settled]

/-- A payload byte arrives. -/
theorem Delivered.payload (valid : ∀ frame ∈ frames, IsFrame 0 frame)
    (inv : Delivered frames s log latched) {rx : UInt8} {rest : List UInt8}
    (current : s.current = rx :: rest) :
    Delivered frames
      { s with
        fw := irqUartInterrupts rx s.fw, current := rest, armed := false, cleared := false }
      (log ++ [Firmware.handled s.fw rx]) latched := by
  have unarmed : s.armed = false := by
    cases armed : s.armed with
    | false => rfl
    | true => simp [(inv.aligned.idle armed).1] at current
  obtain ⟨outside, complete, counted⟩ := inv.receiving unarmed
  obtain ⟨info, -, -, -, count⟩ := inv.aligned.receiving unarmed
  have arrived := count outside
  have fits := inv.aligned.latest_length valid
  have shorter := inv.aligned.suffix.length_le
  have inside : s.arrived < 200 := by
    simp only [current, List.length_cons] at shorter
    simp only [Link.arrived, current, List.length_cons]
    omega
  have stored : irqUartInterrupts rx s.fw =
      { s.fw with
        rxdata := s.fw.rxdata.set s.fw.uartReceiveCnt.toNat rx (by omega)
        uartReceiveCnt := s.fw.uartReceiveCnt + 1 } := by
    rw [irq_data rx info, storeRx_of_lt]
  constructor
  · exact inv.aligned.payload valid current outside
  · intro contrary
    cases contrary
  · intro contrary
    cases contrary
  · intro _
    change (irqUartInterrupts rx s.fw).pc.rearming = false ∧
      ((irqUartInterrupts rx s.fw).pc = .setInfo → rest = []) ∧
      ∀ cnt, (irqUartInterrupts rx s.fw).pc = .outerLen cnt →
        cnt ≤ (irqUartInterrupts rx s.fw).uartReceiveCnt
    rw [irq_pc]
    refine ⟨outside, ?_, ?_⟩
    · intro setting
      rw [complete setting] at current
      cases current
    · intro cnt compare
      have before := counted cnt compare
      have one : (1 : UInt8).toNat = 1 := rfl
      rw [UInt8.le_iff_toNat_le] at before ⊢
      simp only [stored, UInt8.toNat_add, one]
      omega
  · intro i below late
    have bound : s.arrived + 1 ≤ i := by
      have := late rfl
      change s.latest.length - rest.length ≤ i at this
      simp only [current, List.length_cons] at shorter
      simp only [Link.arrived, current, List.length_cons]
      omega
    have before := inv.buffer i below (fun _ => by omega)
    rw [Link.settled, unarmed] at before
    change (irqUartInterrupts rx s.fw).rxdata[i]? = some (bufferAfter s.begun.dropLast i)
    rw [stored]
    rw [Vector.getElem?_set_ne (by omega) (by omega)]
    exact before
  · exact copying_of_not_rearming (by rw [irq_pc]; exact outside)
  · rw [inv.latched_settled outside]
    simp [Link.latchedAll, Link.settled, unarmed]

theorem Delivered.turn (valid : ∀ frame ∈ frames, IsFrame 1 frame) (turn : Turn)
    (inv : Delivered frames s log latched) (spaced : Spaced s turn) :
    Delivered frames (s.step turn) (logHandled log s turn) (logLatched latched s turn) := by
  cases turn with
  | main =>
      cases cleared : s.cleared with
      | true => exact inv.main_refreshing valid cleared
      | false =>
          cases armed : s.armed with
          | true => exact inv.main_rearming armed cleared
          | false => exact inv.main_receiving valid armed
  | arrival =>
      cases current : s.current with
      | cons rx rest =>
          have valid0 (frame : List UInt8) (member : frame ∈ frames) : IsFrame 0 frame :=
            (valid frame member).mono (Nat.zero_le 1)
          simpa [Link.step, logHandled, logLatched, Link.next?, current, step] using
            inv.payload valid0 current
      | nil =>
          cases head : s.waiting with
          | nil => simpa [Link.step, logHandled, logLatched, Link.next?, current, head] using inv
          | cons frame waiting =>
              have cleared := spaced current (by simp [head])
              cases frame with
              | nil =>
                  simpa [Link.step, logHandled, logLatched, Link.next?, current, head] using inv
              | cons rx rest =>
                  simpa [Link.step, logHandled, logLatched, Link.next?, current, head, step] using
                    inv.first current head cleared

/-- A spaced line keeps the handler's store inside `rxdata`. -/
theorem Delivered.storeInBounds (valid : ∀ frame ∈ frames, IsFrame 0 frame)
    (inv : Delivered frames s log latched) (spaced : Spaced s .arrival) {rx : UInt8} {t : Link}
    (next : s.next? = some (rx, t)) : StoreInBounds s.fw (.uart rx) := by
  apply storeInBounds_of_lt
  intro info _
  have unarmed : s.armed = false := by
    cases armed : s.armed with
    | false => rfl
    | true => simp [(inv.aligned.idle armed).2.1] at info
  have under : s.current ≠ [] := by
    intro done
    have more : s.waiting ≠ [] := by
      intro none
      simp [Link.next?, done, none] at next
    rw [(inv.refreshing (spaced done more)).1] at unarmed
    cases unarmed
  obtain ⟨-, -, -, -, count⟩ := inv.aligned.receiving unarmed
  have arrived := count (inv.receiving unarmed).1
  have fits := inv.aligned.latest_length valid
  have shorter := inv.aligned.suffix.length_le
  have positive := List.length_pos_iff.2 under
  unfold Link.arrived at arrived
  omega

/-- `main` has latched some of the frames that have arrived whole, from the first on. -/
theorem Delivered.latched_completed (inv : Delivered frames s log latched) :
    ∃ seen, seen <+: s.completed ∧ latched = patternsOf seen := by
  have settled : s.settled <+: s.completed := by
    cases armed : s.armed with
    | true =>
        rw [Link.settled, Link.completed, armed, (inv.aligned.idle armed).1]
        exact List.prefix_refl _
    | false =>
        rw [Link.settled, Link.completed, armed, if_neg Bool.false_ne_true]
        split
        · exact List.dropLast_prefix _
        · exact List.prefix_refl _
  refine ⟨_, ?_, inv.latched⟩
  split
  · exact settled
  · exact (List.dropLast_prefix _).trans settled

end Turns

/-! ### Whole runs -/

section Runs

variable {frames : List (List UInt8)} {turns : List Turn}

theorem delivered_run (valid : ∀ frame ∈ frames, IsFrame 1 frame)
    (spaced : EachStep Link.step Spaced (Link.start frames) turns) :
    ∃ log, Delivered frames (run Link.step (Link.start frames) turns) log
      (latchedPatterns frames turns) :=
  history_invariant (fun s latched => ∃ log, Delivered frames s log latched)
    (fun _ _ turn inv spaced => inv.elim fun _ inv => ⟨_, inv.turn valid turn spaced⟩)
    ⟨[], delivered_start frames⟩ spaced

/-- The invariant is kept from any state that has it. -/
theorem delivered_of_reached (valid : ∀ frame ∈ frames, IsFrame 1 frame) {s : Link}
    (reached : ∃ log latched, Delivered frames s log latched)
    (spaced : EachStep Link.step Spaced s turns) :
    ∃ log latched, Delivered frames (run Link.step s turns) log latched :=
  run_invariant (fun s => ∃ log latched, Delivered frames s log latched)
    (fun _ turn inv spaced => by
      obtain ⟨log, latched, inv⟩ := inv
      exact ⟨_, _, inv.turn valid turn spaced⟩)
    reached spaced

/-- Spaced frames of at least one payload byte stay aligned. -/
theorem spaced_in_order (valid : ∀ frame ∈ frames, IsFrame 1 frame)
    (spaced : EachStep Link.step Spaced (Link.start frames) turns) :
    EachStep Link.step ArrivesInOrder (Link.start frames) turns :=
  eachStep_of_invariant (fun s => ∃ log latched, Delivered frames s log latched)
    (fun _ turn inv spaced => by
      obtain ⟨log, latched, inv⟩ := inv
      exact ⟨_, _, inv.turn valid turn spaced⟩)
    (fun _ turn inv spaced => by
      obtain ⟨log, latched, inv⟩ := inv
      exact inv.in_order turn spaced)
    ⟨[], [], delivered_start frames⟩ spaced

/-- The patterns latched so far are those of the first frames, each of which has arrived whole. -/
theorem latched_windows (valid : ∀ frame ∈ frames, IsFrame 1 frame)
    (spaced : EachStep Link.step Spaced (Link.start frames) turns) :
    ∃ seen, seen <+: (run Link.step (Link.start frames) turns).completed ∧ seen <+: frames ∧
      latchedPatterns frames turns = patternsOf seen := by
  obtain ⟨log, inv⟩ := delivered_run valid spaced
  obtain ⟨seen, whole, latched⟩ := inv.latched_completed
  refine ⟨seen, whole, whole.trans ?_, latched⟩
  have begun : (run Link.step (Link.start frames) turns).begun <+: frames :=
    ⟨_, inv.aligned.order⟩
  unfold Link.completed
  split
  · exact begun
  · exact (List.dropLast_prefix _).trans begun

/-- Received frames change no command outside the pattern. -/
theorem commands_kept (valid : ∀ frame ∈ frames, IsFrame 1 frame)
    (spaced : EachStep Link.step Spaced (Link.start frames) turns) :
    KeepsCommands (run Link.step (Link.start frames) turns).fw := by
  have start : (∃ log latched, Delivered frames (Link.start frames) log latched) ∧
      KeepsCommands (Link.start frames).fw :=
    ⟨⟨[], [], delivered_start frames⟩, fun _ _ => rfl⟩
  refine (run_invariant
    (fun s => (∃ log latched, Delivered frames s log latched) ∧ KeepsCommands s.fw)
    ?_ start spaced).2
  rintro s turn ⟨⟨log, latched, inv⟩, keeps⟩ spaced
  refine ⟨⟨_, _, inv.turn valid turn spaced⟩, ?_⟩
  cases turn with
  | main => exact keepsCommands_step keeps trivial
  | arrival =>
      cases next : s.next? with
      | none => simpa [Link.step, next] using keeps
      | some byte =>
          have valid0 (frame : List UInt8) (member : frame ∈ frames) : IsFrame 0 frame :=
            (valid frame member).mono (Nat.zero_le 1)
          simpa [Link.step, next] using
            keepsCommands_step keeps (inv.storeInBounds valid0 spaced next)

end Runs

end VoltCtrl.Firmware
