/-
Module: VoltCtrl.Firmware.Access
Layer: Firmware
Purpose: What one step can do to the globals that the handler and `main` share. `main` writes each of
  them at one program point only, and the handler has two branches; every invariant of the receiver
  reads these lemmas and none unfolds a step.
Trusted boundary: none
Main exports: oeMskAt_iteration, Pc.rearming, Pc.loop?, mainStep_isSettingInfo, mainStep_uartReceiveCnt,
  mainStep_rearming, mainStep_tx_of_not_store, pattern_getElem?, latches_pc, irq_length, irq_data
-/
import VoltCtrl.Firmware.Program
import Mathlib.Tactic.Ring
import Mathlib.Tactic.Positivity

namespace VoltCtrl.Firmware

/-- `main` is between its store `IsSettingInfo = 1` and its store `UartReceiveCnt = 0`. -/
def Pc.rearming : Pc → Bool
  | .copyLoad _ | .copyStore _ _ | .resetCnt => true
  | .loop _ _ _ | .enableAll _ | .ldacLow _ | .finish _ | .waitInfo | .outerCnt | .outerLen _
  | .setInfo | .innerCnt | .innerLen _ | .fault => false

/-- The loop, with its closing statements, that a program point belongs to. -/
def Pc.loop? : Pc → Option Loop
  | .loop l _ _ | .enableAll l | .ldacLow l | .finish l => some l
  | _ => none

/-! ### The select table -/

/-- In iteration `k` of a loop the counter is `k` and the select index is `8 + k`. -/
theorem selectIndex_iteration (k : Nat) : selectIndex (18 + 8 * k) k = 8 + k := by
  have twice : ((18 + 8 * k : Nat) : Int) - 6 * k = 2 * (9 + k) := by
    push_cast
    ring
  rw [selectIndex, twice, Int.mul_tdiv_cancel_left _ (by decide)]
  ring

/-- The 17 iterations of a loop stay inside the table. -/
theorem oeMskAt_iteration {k : Nat} (inside : k < 17) :
    oeMskAt (selectIndex (18 + 8 * k) k) = oeMsk[8 + k]? ∧ 8 + k < oeMsk.length := by
  have bound : 8 + k < oeMsk.length := by
    change 8 + k < 25
    omega
  have nonneg : (0 : Int) ≤ 8 + k := by positivity
  refine ⟨?_, bound⟩
  rw [selectIndex_iteration, oeMskAt, if_pos nonneg]
  rfl

/-! ### Loop statements -/

section LoopStatements

variable {s : Fw} {l : Loop} {offset k command : Nat}

theorem mainStep_ldacHigh (pc : s.pc = .loop l offset .ldacHigh) :
    mainStep s = { s with pioLdacN := true, pc := .loop l offset .select } := by
  simp [mainStep, pc, loopStep]

/-- With its counter in step, iteration `k` selects entry `8 + k` of the table. -/
theorem mainStep_select (inside : k < 17) (pc : s.pc = .loop l (18 + 8 * k) .select)
    (counter : s.oeCount l = k) :
    ∃ mask, oeMsk[8 + k]? = some mask ∧
      mainStep s = { s with pioOe := mask, pc := afterSelect l (18 + 8 * k) } := by
  obtain ⟨lookup, bound⟩ := oeMskAt_iteration inside
  rw [List.getElem?_eq_getElem bound] at lookup
  refine ⟨oeMsk[8 + k], List.getElem?_eq_getElem bound, ?_⟩
  simp only [mainStep, pc, loopStep, counter, lookup]

theorem mainStep_count (pc : s.pc = .loop l offset .count) :
    mainStep s = { s.setOeCount l (s.oeCount l + 1) with pc := afterCount l offset } := by
  simp [mainStep, pc, loopStep]

theorem mainStep_sendHigh (pc : s.pc = .loop l offset (.sendHigh command))
    (inside : l.address offset command < 200) :
    ∃ high, s.spiCommandStringTx[l.address offset command]? = some high ∧
      mainStep s = { s with pc := .loop l offset (.sendLow command high) } := by
  refine ⟨s.spiCommandStringTx[l.address offset command], Vector.getElem?_eq_getElem inside, ?_⟩
  simp [mainStep, pc, loopStep, inside]

theorem mainStep_sendLow {high : UInt8} (pc : s.pc = .loop l offset (.sendLow command high))
    (inside : l.address offset command + 1 < 200) :
    mainStep s = { s with pc := afterCommand l offset command } := by
  simp [mainStep, pc, loopStep, inside]

end LoopStatements

/-- A statement of a loop stays in the loop, or it is an access outside an array. -/
theorem loopStep_pc (l : Loop) (offset : Nat) (stage : LoopPc) (s : Fw) :
    (loopStep l offset stage s).pc.loop? = some l ∨ (loopStep l offset stage s).pc = .fault := by
  have next : (nextIteration l offset).loop? = some l := by
    unfold nextIteration
    split <;> rfl
  have inside (command : Nat) : (afterCommand l offset command).loop? = some l := by
    unfold afterCommand
    split
    · rfl
    · cases l <;> first | exact next | rfl
  cases stage with
  | ldacHigh => exact Or.inl rfl
  | select =>
      simp only [loopStep]
      split
      · cases l <;> exact Or.inl rfl
      · exact Or.inr rfl
  | count =>
      cases l with
      | powerUp => exact Or.inl rfl
      | pattern | zero => exact Or.inl next
  | sendHigh command =>
      simp only [loopStep]
      split
      · exact Or.inl rfl
      · exact Or.inr rfl
  | sendLow command high =>
      simp only [loopStep]
      split
      · exact Or.inl (inside command)
      · exact Or.inr rfl

/-- The fields that the loops leave alone. -/
structure SameReceiver (s t : Fw) : Prop where
  cnt : t.uartReceiveCnt = s.uartReceiveCnt
  info : t.isSettingInfo = s.isSettingInfo
  len : t.datalength = s.datalength
  rx : t.rxdata = s.rxdata
  tx : t.spiCommandStringTx = s.spiCommandStringTx

theorem setOeCount_sameReceiver (s : Fw) (l : Loop) (value : Int) :
    SameReceiver s (s.setOeCount l value) := by
  cases l <;> exact ⟨rfl, rfl, rfl, rfl, rfl⟩

theorem loopStep_sameReceiver (l : Loop) (offset : Nat) (stage : LoopPc) (s : Fw) :
    SameReceiver s (loopStep l offset stage s) := by
  cases stage with
  | ldacHigh => exact ⟨rfl, rfl, rfl, rfl, rfl⟩
  | count =>
      obtain ⟨cnt, info, len, rx, tx⟩ := setOeCount_sameReceiver s l (s.oeCount l + 1)
      exact ⟨cnt, info, len, rx, tx⟩
  | select | sendHigh command | sendLow command high =>
      simp only [loopStep]
      split <;> exact ⟨rfl, rfl, rfl, rfl, rfl⟩

/-- A statement of a loop leaves the counters of the other loops alone. -/
theorem loopStep_oeCount_other (l : Loop) (offset : Nat) (stage : LoopPc) (s : Fw) {other : Loop}
    (differ : other ≠ l) : (loopStep l offset stage s).oeCount other = s.oeCount other := by
  cases stage with
  | ldacHigh => cases other <;> rfl
  | count => cases l <;> cases other <;> first | rfl | exact absurd rfl differ
  | select | sendHigh command | sendLow command high =>
      simp only [loopStep]
      split <;> cases other <;> rfl

theorem finishStep_sameReceiver (l : Loop) (s : Fw) : SameReceiver s (finishStep l s) := by
  cases l <;> exact ⟨rfl, rfl, rfl, rfl, rfl⟩

/-! ### `main` and the shared globals -/

@[simp] theorem mainStep_datalength (s : Fw) : (mainStep s).datalength = s.datalength := by
  unfold mainStep
  split
  · exact (loopStep_sameReceiver _ _ _ s).len
  · rfl
  · rfl
  · exact (finishStep_sameReceiver _ s).len
  all_goals rfl

@[simp] theorem mainStep_rxdata (s : Fw) : (mainStep s).rxdata = s.rxdata := by
  unfold mainStep
  split
  · exact (loopStep_sameReceiver _ _ _ s).rx
  · rfl
  · rfl
  · exact (finishStep_sameReceiver _ s).rx
  all_goals rfl

/-- `main` writes `IsSettingInfo` at one point, and there it writes 1. -/
theorem mainStep_isSettingInfo (s : Fw) :
    (mainStep s).isSettingInfo = (s.isSettingInfo || s.pc == .setInfo) := by
  unfold mainStep
  split
  case h_8 pc => simp [pc]
  case h_1 pc => simp [pc, (loopStep_sameReceiver _ _ _ s).info]
  case h_4 pc => simp [pc, (finishStep_sameReceiver _ s).info]
  all_goals simp [*]

/-- `main` writes `UartReceiveCnt` at one point, and there it writes 0. -/
theorem mainStep_uartReceiveCnt (s : Fw) :
    (mainStep s).uartReceiveCnt = if s.pc = .resetCnt then 0 else s.uartReceiveCnt := by
  unfold mainStep
  split
  case h_11 pc => simp [pc]
  case h_1 pc => simp [pc, (loopStep_sameReceiver _ _ _ s).cnt]
  case h_4 pc => simp [pc, (finishStep_sameReceiver _ s).cnt]
  all_goals simp [*]

/-- `main` writes the command buffer only in `WriteFileData`. -/
theorem mainStep_tx_of_not_store (s : Fw) (other : ∀ i value, s.pc ≠ .copyStore i value) :
    (mainStep s).spiCommandStringTx = s.spiCommandStringTx := by
  unfold mainStep
  split
  case h_10 i value pc => exact absurd pc (other i value)
  case h_1 => exact (loopStep_sameReceiver _ _ _ s).tx
  case h_4 => exact (finishStep_sameReceiver _ s).tx
  all_goals rfl

theorem afterCopy_rearming (i : Fin 136) : (afterCopy i).rearming = true := by
  unfold afterCopy
  split <;> rfl

theorem loop?_not_rearming {pc : Pc} {l : Loop} (inside : pc.loop? = some l) :
    pc.rearming = false := by
  cases pc <;> first | rfl | cases inside

theorem loopStep_not_rearming (l : Loop) (offset : Nat) (stage : LoopPc) (s : Fw) :
    (loopStep l offset stage s).pc.rearming = false := by
  rcases loopStep_pc l offset stage s with inside | fault
  · exact loop?_not_rearming inside
  · rw [fault]
    rfl

/-- The re-arming section is entered by `IsSettingInfo = 1` and left by `UartReceiveCnt = 0`. -/
theorem mainStep_rearming (s : Fw) :
    (mainStep s).pc.rearming = (s.pc == .setInfo || (s.pc.rearming && s.pc != .resetCnt)) := by
  unfold mainStep
  split
  case h_1 pc =>
    rw [loopStep_not_rearming, pc]
    rfl
  case h_4 l pc => cases l <;> simp [pc, finishStep, Pc.rearming]
  case h_10 i value pc =>
    rw [pc]
    exact afterCopy_rearming i
  case h_5 pc => cases h : s.isSettingInfo <;> simp [pc, Pc.rearming]
  case h_7 cnt pc => by_cases h : cnt < s.datalength <;> simp [pc, h, Pc.rearming]
  case h_13 cnt pc => by_cases h : cnt ≥ s.datalength <;> simp [pc, h, Pc.rearming]
  all_goals simp [*, Pc.rearming]

/-! ### Where `main` goes next -/

/-- `main` has loaded the counter for the outer comparison, or has found the frame complete. -/
def Pc.deciding : Pc → Bool
  | .outerLen _ | .setInfo => true
  | .loop _ _ _ | .enableAll _ | .ldacLow _ | .finish _ | .waitInfo | .outerCnt | .copyLoad _
  | .copyStore _ _ | .resetCnt | .innerCnt | .innerLen _ | .fault => false

/-- Before the first frame `main` powers the chips up and then waits for a length byte. -/
def Pc.beforeFirst (pc : Pc) : Prop :=
  pc.loop? = some .powerUp ∨ pc = .waitInfo ∨ pc = .fault

/-- Between two frames `main` refreshes the chips and finds no payload byte counted. -/
def Pc.refreshing (pc : Pc) : Prop :=
  pc.loop? = some .pattern ∨ pc.loop? = some .zero ∨ pc = .innerCnt ∨ pc = .innerLen 0 ∨
    pc = .fault

theorem Pc.beforeFirst.not_rearming {pc : Pc} (before : pc.beforeFirst) :
    pc.rearming = false := by
  rcases before with inside | rfl | rfl
  · exact loop?_not_rearming inside
  · rfl
  · rfl

theorem Pc.refreshing.not_rearming {pc : Pc} (refreshing : pc.refreshing) :
    pc.rearming = false := by
  rcases refreshing with inside | inside | rfl | rfl | rfl
  · exact loop?_not_rearming inside
  · exact loop?_not_rearming inside
  · rfl
  · rfl
  · rfl

/-- No statement of a loop decides that a frame is complete. -/
theorem loop?_not_deciding {pc : Pc} {l : Loop} (inside : pc.loop? = some l) :
    pc.deciding = false := by
  cases pc <;> first | rfl | cases inside

theorem Pc.beforeFirst.not_deciding {pc : Pc} (before : pc.beforeFirst) :
    pc.deciding = false := by
  rcases before with inside | rfl | rfl
  · exact loop?_not_deciding inside
  · rfl
  · rfl

theorem Pc.refreshing.not_deciding {pc : Pc} (refreshing : pc.refreshing) :
    pc.deciding = false := by
  rcases refreshing with inside | inside | rfl | rfl | rfl
  · exact loop?_not_deciding inside
  · exact loop?_not_deciding inside
  · rfl
  · rfl
  · rfl

/-- Inside a loop, the next program point is in the same loop, the statement after it, or a fault. -/
theorem mainStep_loop {s : Fw} {l : Loop} (inside : s.pc.loop? = some l) :
    (mainStep s).pc.loop? = some l ∨ (mainStep s).pc = .fault ∨
      (mainStep s).pc = (finishStep l s).pc := by
  cases pc : s.pc with
  | loop l' offset stage =>
      rw [pc] at inside
      cases inside
      rcases loopStep_pc l offset stage s with same | fault
      · exact Or.inl (by simpa [mainStep, pc] using same)
      · exact Or.inr (Or.inl (by simpa [mainStep, pc] using fault))
  | enableAll l' | ldacLow l' =>
      rw [pc] at inside
      cases inside
      exact Or.inl (by simp [mainStep, pc, Pc.loop?])
  | finish l' =>
      rw [pc] at inside
      cases inside
      exact Or.inr (Or.inr (by simp [mainStep, pc]))
  | _ =>
      rw [pc] at inside
      cases inside

theorem mainStep_beforeFirst {s : Fw} (before : s.pc.beforeFirst)
    (info : s.isSettingInfo = true) : (mainStep s).pc.beforeFirst := by
  rcases before with inside | wait | fault
  · rcases mainStep_loop inside with same | fault | next
    · exact Or.inl same
    · exact Or.inr (Or.inr fault)
    · exact Or.inr (Or.inl next)
  · exact Or.inr (Or.inl (by simp [mainStep, wait, info]))
  · exact Or.inr (Or.inr (by simp [mainStep, fault]))

theorem mainStep_refreshing {s : Fw} (refreshing : s.pc.refreshing)
    (clear : s.uartReceiveCnt = 0) (len : 0 < s.datalength) : (mainStep s).pc.refreshing := by
  rcases refreshing with inside | inside | load | compare | fault
  · rcases mainStep_loop inside with same | fault | next
    · exact Or.inl same
    · exact Or.inr (Or.inr (Or.inr (Or.inr fault)))
    · exact Or.inr (Or.inl (by rw [next]; rfl))
  · rcases mainStep_loop inside with same | fault | next
    · exact Or.inr (Or.inl same)
    · exact Or.inr (Or.inr (Or.inr (Or.inr fault)))
    · exact Or.inr (Or.inr (Or.inl (by rw [next]; rfl)))
  · exact Or.inr (Or.inr (Or.inr (Or.inl (by simp [mainStep, load, clear]))))
  · have notDone : ¬ s.datalength ≤ 0 := by
      rw [UInt8.not_le]
      exact len
    exact Or.inl (by simp [mainStep, compare, notDone, Pc.loop?])
  · exact Or.inr (Or.inr (Or.inr (Or.inr (by simp [mainStep, fault]))))

/-- `main` gets to the decision only through its two loads. -/
theorem mainStep_deciding {s : Fw} (next : (mainStep s).pc.deciding = true) :
    s.pc = .outerCnt ∨ ∃ cnt, s.pc = .outerLen cnt := by
  cases pc : s.pc with
  | outerCnt => exact Or.inl rfl
  | outerLen cnt => exact Or.inr ⟨cnt, rfl⟩
  | loop l offset stage =>
      have quiet : (loopStep l offset stage s).pc.deciding = false := by
        rcases loopStep_pc l offset stage s with inside | fault
        · exact loop?_not_deciding inside
        · rw [fault]
          rfl
      simp [mainStep, pc, quiet] at next
  | copyStore i value =>
      have quiet : (afterCopy i).deciding = false := by
        unfold afterCopy
        split <;> rfl
      simp [mainStep, pc, quiet] at next
  | finish l => cases l <;> simp [mainStep, pc, finishStep, Pc.deciding] at next
  | waitInfo => cases info : s.isSettingInfo <;> simp [mainStep, pc, info, Pc.deciding] at next
  | innerLen cnt =>
      by_cases done : cnt ≥ s.datalength <;> simp [mainStep, pc, done, Pc.deciding] at next
  | _ => simp [mainStep, pc, Pc.deciding] at next

/-- `main` reaches `IsSettingInfo = 1` only from a comparison that found the frame complete. -/
theorem mainStep_setInfo {s : Fw} (next : (mainStep s).pc = .setInfo) :
    ∃ cnt, s.pc = .outerLen cnt ∧ s.datalength ≤ cnt := by
  rcases mainStep_deciding (by rw [next]; rfl) with load | ⟨cnt, compare⟩
  · simp [mainStep, load] at next
  · refine ⟨cnt, compare, ?_⟩
    by_contra short
    rw [UInt8.not_le] at short
    simp [mainStep, compare, short] at next

/-- The outer comparison holds the counter as it was at the load just before. -/
theorem mainStep_outerLen {s : Fw} {cnt : UInt8} (next : (mainStep s).pc = .outerLen cnt) :
    cnt = s.uartReceiveCnt := by
  rcases mainStep_deciding (by rw [next]; rfl) with load | ⟨other, compare⟩
  · simpa [mainStep, load] using next.symm
  · by_cases short : other < s.datalength <;> simp [mainStep, compare, short] at next

/-! ### The pattern and its latch -/

/-- Entry `i` of the pattern is entry `18 + i` of the command buffer. -/
theorem pattern_getElem? (s : Fw) {i : Nat} (inside : i < 136) :
    s.pattern[i]? = s.spiCommandStringTx[18 + i]? := by
  rw [Vector.getElem?_eq_getElem (by omega)]
  simp only [Fw.pattern, List.getElem?_ofFn, inside, dif_pos]
  rfl

theorem pattern_length (s : Fw) : s.pattern.length = 136 :=
  List.length_ofFn

theorem latches_pc {s : Fw} (latch : latches s .main = true) :
    ∃ value, s.pc = .copyStore ⟨135, by omega⟩ value := by
  cases pc : s.pc with
  | copyStore i value =>
      simp only [latches, pc, beq_iff_eq] at latch
      exact ⟨value, by rw [Pc.copyStore.injEq]; exact ⟨Fin.ext latch, rfl⟩⟩
  | _ => simp [latches, pc] at latch

theorem latches_false_of_not_rearming {s : Fw} (outside : s.pc.rearming = false) :
    latches s .main = false := by
  cases latch : latches s .main with
  | false => rfl
  | true =>
      obtain ⟨value, pc⟩ := latches_pc latch
      rw [pc] at outside
      cases outside

/-! ### The handler -/

theorem storeRx_of_lt (s : Fw) (rx : UInt8) (inside : s.uartReceiveCnt.toNat < 200) :
    s.storeRx rx = { s with rxdata := s.rxdata.set s.uartReceiveCnt.toNat rx } := by
  simp [Fw.storeRx, inside]

@[simp] theorem storeRx_pc (s : Fw) (rx : UInt8) : (s.storeRx rx).pc = s.pc := by
  unfold Fw.storeRx
  split <;> rfl

@[simp] theorem storeRx_isSettingInfo (s : Fw) (rx : UInt8) :
    (s.storeRx rx).isSettingInfo = s.isSettingInfo := by
  unfold Fw.storeRx
  split <;> rfl

@[simp] theorem storeRx_datalength (s : Fw) (rx : UInt8) :
    (s.storeRx rx).datalength = s.datalength := by
  unfold Fw.storeRx
  split <;> rfl

/-- The branch that takes the byte as a length. -/
theorem irq_length {s : Fw} (rx : UInt8) (info : s.isSettingInfo = true) :
    irqUartInterrupts rx s = { s with datalength := rx, isSettingInfo := false } := by
  simp [irqUartInterrupts, info]

/-- The branch that takes the byte as payload. -/
theorem irq_data {s : Fw} (rx : UInt8) (info : s.isSettingInfo = false) :
    irqUartInterrupts rx s = { s.storeRx rx with uartReceiveCnt := s.uartReceiveCnt + 1 } := by
  simp [irqUartInterrupts, info]

/-- The handler never moves `main`. -/
@[simp] theorem irq_pc (rx : UInt8) (s : Fw) : (irqUartInterrupts rx s).pc = s.pc := by
  cases info : s.isSettingInfo with
  | true => rw [irq_length rx info]
  | false => simp [irq_data rx info]

/-- After the handler has run, the next byte is payload. -/
@[simp] theorem irq_isSettingInfo (rx : UInt8) (s : Fw) :
    (irqUartInterrupts rx s).isSettingInfo = false := by
  cases info : s.isSettingInfo with
  | true => rw [irq_length rx info]
  | false => simp [irq_data rx info, info]

end VoltCtrl.Firmware
