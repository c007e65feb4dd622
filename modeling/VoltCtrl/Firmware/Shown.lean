/-
Module: VoltCtrl.Firmware.Shown
Layer: Firmware
Purpose: How often the outputs show the latched pattern. Between two frames `main` goes through the
  pattern loop, the zero loop and the comparison of the lengths again and again; the accesses that are
  left until the edge of `LDAC_N` that ends the pattern loop are a number that each access lowers, at
  most `refreshPeriod`, and so are those until the edge that ends the zero loop. At the edge after the
  pattern loop the chips 9 to 25 have the pattern at their outputs.
Trusted boundary: none
Main exports: Shows, Pc.toShown, refreshPeriod, Pc.toEdge, Refreshing, Refreshing.reaches_edge,
  Refreshing.edge
-/
import VoltCtrl.Firmware.Progress

namespace VoltCtrl.Firmware

open VoltCtrl.Core

/-- The outputs of chips 9 to 25 are the values of a pattern. -/
def Shows (pattern : List UInt8) (b : Board) : Prop :=
  ∀ k c, (b.chips (chipOf k)).output c = patternValue pattern k c

/-! ### The accesses until the edge -/

/-- The accesses from the end of a loop's iterations until the edge that shows the pattern. -/
def Loop.toShown : Loop → Nat
  | .powerUp => 0
  | .pattern => 2
  | .zero => 194

/-- The accesses of `main` up to and including the edge that shows the pattern, between two frames. -/
def Pc.toShown : Pc → Nat
  | .loop l offset stage => stage.left l + (146 - offset) / 8 * (2 * l.commands + 3) + l.toShown
  | .enableAll l => l.toShown
  | .ldacLow l => l.toShown - 1
  | .finish .pattern => 280
  | .finish _ => 192
  | .innerCnt => 191
  | .innerLen _ => 190
  | _ => 0

/-- The accesses from one edge that shows the pattern to the next one. -/
def refreshPeriod : Nat := 280

section ToShown

variable {s : Fw} {l : Loop}

/-- A statement of a loop is followed by one of the same loop or by the end of the loop. -/
theorem OnTrack.loop_next {offset : Nat} {stage : LoopPc} (track : OnTrack s)
    (pc : s.pc = .loop l offset stage) :
    (∃ offset stage, (mainStep s).pc = .loop l offset stage) ∨ (mainStep s).pc = .enableAll l := by
  have next (offset : Nat) : (∃ offset' stage, nextIteration l offset = .loop l offset' stage) ∨
      nextIteration l offset = .enableAll l := by
    unfold nextIteration
    split
    · exact Or.inl ⟨_, _, rfl⟩
    · exact Or.inr rfl
  obtain ⟨k, below, rfl, counter, command⟩ := track.loop l offset stage pc
  cases stage with
  | ldacHigh =>
      rw [mainStep_ldacHigh pc]
      exact Or.inl ⟨_, _, rfl⟩
  | select =>
      have same : s.oeCount l = k := by
        rw [counter]
        cases l <;> rfl
      obtain ⟨mask, -, step⟩ := mainStep_select below pc same
      rw [step]
      cases l <;> exact Or.inl ⟨_, _, rfl⟩
  | count =>
      rw [mainStep_count pc]
      cases l with
      | powerUp => exact Or.inl ⟨_, _, rfl⟩
      | pattern | zero => exact next _
  | sendHigh number =>
      obtain ⟨high, -, step⟩ := mainStep_sendHigh pc (address_lt below (command number rfl)).1
      rw [step]
      exact Or.inl ⟨_, _, rfl⟩
  | sendLow number high =>
      rw [mainStep_sendLow pc (address_lt below (command number rfl)).2]
      simp only [afterCommand]
      split
      · exact Or.inl ⟨_, _, rfl⟩
      · cases l with
        | powerUp => exact next _
        | pattern | zero => exact Or.inl ⟨_, _, rfl⟩

/-- In a loop the accesses until the edge and those until the frame is latched differ by a constant. -/
theorem toShown_loop {pc : Pc} (inside : (∃ offset stage, pc = .loop l offset stage) ∨ pc = .enableAll l)
    (datalength : UInt8) : pc.toShown + (3 + l.after) = pc.work datalength + l.toShown := by
  rcases inside with ⟨offset, stage, rfl⟩ | rfl
  · simp only [Pc.toShown, Pc.work]
    omega
  · simp only [Pc.toShown, Pc.work]
    omega

/-- Each access between two frames is one less, except for the edge itself. -/
theorem OnTrack.toShown (track : OnTrack s) (refreshing : s.pc.refreshing)
    (length : 0 < s.datalength) (before : s.pc ≠ .ldacLow .pattern) :
    (mainStep s).pc.toShown + 1 = s.pc.toShown := by
  cases pc : s.pc with
  | loop l offset stage =>
      have less := track.loop_work pc
      have now := toShown_loop (Or.inl ⟨offset, stage, rfl⟩ : _ ∨ Pc.loop l offset stage = .enableAll l)
        s.datalength
      have next := toShown_loop (track.loop_next pc) (mainStep s).datalength
      rw [Fw.work, Fw.work, pc] at less
      omega
  | enableAll l | ldacLow l | finish l =>
      rw [pc] at refreshing before
      cases l with
      | powerUp => simp [Pc.refreshing, Pc.loop?] at refreshing
      | pattern | zero =>
          first
          | exact absurd rfl before
          | simp [mainStep, pc, finishStep, Pc.toShown, Loop.toShown, LoopPc.left, Loop.commands]
  | innerCnt => simp [mainStep, pc, Pc.toShown]
  | innerLen cnt =>
      rw [pc] at refreshing
      have zero : cnt = 0 := by simpa [Pc.refreshing, Pc.loop?] using refreshing
      have short : ¬ s.datalength ≤ cnt := by
        rw [zero, UInt8.not_le]
        exact length
      simp [mainStep, pc, short, Pc.toShown, LoopPc.left, Loop.commands, Loop.toShown]
  | fault => exact absurd pc track.inside
  | _ =>
      rw [pc] at refreshing
      simp [Pc.refreshing, Pc.loop?] at refreshing

/-- The edge after the zero loop is in its own place between two edges that show the pattern. -/
theorem OnTrack.toShown_le (track : OnTrack s) (refreshing : s.pc.refreshing) :
    0 < s.pc.toShown ∧ s.pc.toShown ≤ refreshPeriod ∧ (s.pc.toShown = 193 → s.pc = .ldacLow .zero) := by
  cases pc : s.pc with
  | loop l offset stage =>
      obtain ⟨k, below, rfl, -, command⟩ := track.loop l offset stage pc
      have place : (146 - (18 + 8 * k)) / 8 = 16 - k := by omega
      rw [pc] at refreshing
      rw [Pc.toShown, place, refreshPeriod]
      cases l with
      | powerUp => simp [Pc.refreshing, Pc.loop?] at refreshing
      | pattern | zero => cases stage <;> simp only [LoopPc.left, Loop.commands, Loop.toShown] <;> omega
  | enableAll l | ldacLow l | finish l =>
      rw [pc] at refreshing
      cases l with
      | powerUp => simp [Pc.refreshing, Pc.loop?] at refreshing
      | pattern | zero => decide
  | innerCnt | innerLen cnt =>
      rw [Pc.toShown, refreshPeriod]
      omega
  | fault => exact absurd pc track.inside
  | _ =>
      rw [pc] at refreshing
      simp [Pc.refreshing, Pc.loop?] at refreshing

/-- The accesses of `main` up to and including the edge that ends a loop, between two frames. -/
def Pc.toEdge (l : Loop) (pc : Pc) : Nat :=
  match l with
  | .zero => if 192 < pc.toShown then pc.toShown - 192 else pc.toShown + 88
  | .powerUp | .pattern => pc.toShown

/-- Each access between two frames is one less, except for the edge itself. -/
theorem OnTrack.toEdge (track : OnTrack s) (refreshing : s.pc.refreshing) (length : 0 < s.datalength)
    (sends : l ≠ .powerUp) (before : s.pc ≠ .ldacLow l) :
    (mainStep s).pc.toEdge l + 1 = s.pc.toEdge l := by
  cases l with
  | powerUp => exact absurd rfl sends
  | pattern => exact track.toShown refreshing length before
  | zero =>
      by_cases edge : s.pc = .ldacLow .pattern
      · simp [mainStep, edge, Pc.toEdge, Pc.toShown, Loop.toShown]
      · have less := track.toShown refreshing length edge
        have apart := mt (track.toShown_le refreshing).2.2 before
        simp only [Pc.toEdge]
        split <;> split <;> omega

theorem OnTrack.toEdge_le (track : OnTrack s) (refreshing : s.pc.refreshing) (l : Loop) :
    0 < s.pc.toEdge l ∧ s.pc.toEdge l ≤ refreshPeriod := by
  obtain ⟨positive, most, -⟩ := track.toShown_le refreshing
  rw [refreshPeriod] at most ⊢
  cases l with
  | powerUp | pattern => exact ⟨positive, most⟩
  | zero =>
      simp only [Pc.toEdge]
      split <;> omega

end ToShown

/-! ### The board between two frames -/

/-- A board between two frames, with a pattern that is latched. -/
structure Refreshing (pattern : List UInt8) (b : Board) : Prop where
  inv : RefreshInv b (some pattern)
  track : OnTrack b.fw
  phase : b.fw.pc.refreshing
  clear : b.fw.uartReceiveCnt = 0
  length : 0 < b.fw.datalength

section Refreshing

variable {pattern : List UInt8} {b : Board}

theorem Refreshing.afterLatch (refreshing : Refreshing pattern b) : b.fw.pc.afterLatch := by
  rcases refreshing.phase with inside | inside | load | compare | fault
  · exact Or.inl inside
  · exact Or.inr (Or.inl inside)
  · exact Or.inr (Or.inr (Or.inr (Or.inl load)))
  · exact Or.inr (Or.inr (Or.inr (Or.inr ⟨0, compare⟩)))
  · exact absurd fault refreshing.track.inside

theorem Refreshing.pattern_eq (refreshing : Refreshing pattern b) : b.fw.pattern = pattern :=
  (Option.some.inj (refreshing.inv.latched refreshing.afterLatch).1).symm

theorem Refreshing.main (refreshing : Refreshing pattern b) : Refreshing pattern (b.step .main) := by
  have silent := latches_false_of_not_rearming refreshing.phase.not_rearming
  have kept := refreshing.inv.step (a := .main) trivial
    fun latch => absurd (silent.symm.trans latch) Bool.false_ne_true
  rw [latestPattern, silent] at kept
  refine ⟨kept, refreshing.track.main, ?_, ?_, ?_⟩
  · exact mainStep_refreshing refreshing.phase refreshing.clear refreshing.length
  · rw [step_fw, Firmware.step, mainStep_uartReceiveCnt, refreshing.clear, ite_self]
  · rw [step_fw, Firmware.step, mainStep_datalength]
    exact refreshing.length

/-- Within `refreshPeriod` accesses of `main` comes the edge after the pattern loop, and so does the one
after the zero loop. -/
theorem Refreshing.reaches_edge (refreshing : Refreshing pattern b) {l : Loop} (sends : l ≠ .powerUp) :
    ∃ m < refreshPeriod, Refreshing pattern (run Board.step b (List.replicate m .main)) ∧
      (run Board.step b (List.replicate m .main)).fw.pc = .ldacLow l := by
  have lowers (b : Board) (refreshing : Refreshing pattern b) :
      b.fw.pc = .ldacLow l ∨
        (Refreshing pattern (b.step .main) ∧
          (b.step .main).fw.pc.toEdge l - 1 < b.fw.pc.toEdge l - 1) := by
    by_cases here : b.fw.pc = .ldacLow l
    · exact Or.inl here
    · have less := refreshing.track.toEdge refreshing.phase refreshing.length sends here
      have next := refreshing.main.track.toEdge_le refreshing.main.phase l
      rw [step_fw, Firmware.step] at next
      refine Or.inr ⟨refreshing.main, ?_⟩
      rw [step_fw, Firmware.step]
      omega
  obtain ⟨m, few, reached⟩ := reaches_of_rank (fun b => b.fw.pc.toEdge l - 1) lowers refreshing le_rfl
  have most := refreshing.track.toEdge_le refreshing.phase l
  exact ⟨m, by omega, reached⟩

/-- The edge after the pattern loop shows the pattern. -/
theorem Refreshing.edge (refreshing : Refreshing pattern b) (here : b.fw.pc = .ldacLow .pattern) :
    Shows pattern (b.step .main) := by
  intro k c
  rw [refreshing.inv.edge_output (by simp) (refreshing.inv.falling here) k c, Loop.target,
    refreshing.pattern_eq]

end Refreshing

end VoltCtrl.Firmware
