/-
Module: VoltCtrl.Firmware.ReceiveBuffer
Layer: Firmware
Purpose: When the handler's store stays inside the 200 bytes of `rxdata`. Neither `UartReceiveCnt` nor
  `Datalength` is compared with the size of the buffer, so the bound is the number of payload bytes
  that the handler takes between two stores `UartReceiveCnt = 0` of `main`, whatever the bytes and the
  interleaving are.
Trusted boundary: none
Main exports: StoreInBounds, CompleteStays, storedSinceReset, ArrivesOutsideRearming,
  storeInBounds_iff, completeStays_of_atMost, KeepsCommands, keepsCommands_step, receiver_in_bounds
-/
import VoltCtrl.Core.Machine
import VoltCtrl.Firmware.Access

namespace VoltCtrl.Firmware

open VoltCtrl.Core

/-- A payload byte is stored inside `rxdata`, counts up by exactly one, and leaves the command buffer
behind `rxdata` alone. -/
def StoreInBounds (s : Fw) : Action → Prop
  | .main => True
  | .uart rx =>
      s.isSettingInfo = false →
        s.uartReceiveCnt.toNat < 200 ∧
        (irqUartInterrupts rx s).uartReceiveCnt.toNat = s.uartReceiveCnt.toNat + 1 ∧
        (irqUartInterrupts rx s).spiCommandStringTx = s.spiCommandStringTx

/-- A frame whose count has reached its length stays complete until `main` has seen it, which `main`
shows by `IsSettingInfo = 1`. -/
def CompleteStays (s : Fw) (a : Action) : Prop :=
  s.isSettingInfo = false → s.datalength ≤ s.uartReceiveCnt →
    (step s a).isSettingInfo = true ∨ (step s a).datalength ≤ (step s a).uartReceiveCnt

/-- History variable: payload bytes since `main` last stored 0 in the counter. -/
def countStored (n : Nat) (s : Fw) : Action → Nat
  | .main => if s.pc = .resetCnt then 0 else n
  | .uart _ => if s.isSettingInfo then n else n + 1

def storedSinceReset (actions : List Action) : Nat :=
  history step countStored 0 powerOn actions

/-- At no moment have more than 200 payload bytes arrived since the counter was reset. -/
def AtMost200 (actions : List Action) : Prop :=
  ∀ first, first <+: actions → storedSinceReset first ≤ 200

/-- No byte arrives between `IsSettingInfo = 1` and `UartReceiveCnt = 0`. -/
def ArrivesOutsideRearming (s : Fw) : Action → Prop
  | .main => True
  | .uart _ => s.pc.rearming = false

/-! ### The counter counts -/

/-- While the payload bytes are at most 200, the 8-bit counter is their number. -/
theorem countStored_counts {s : Fw} {n : Nat} {a : Action} (counts : s.uartReceiveCnt.toNat = n)
    (bound : countStored n s a ≤ 200) :
    (step s a).uartReceiveCnt.toNat = countStored n s a := by
  cases a with
  | main =>
      simp only [step, mainStep_uartReceiveCnt, countStored]
      split
      · rfl
      · exact counts
  | uart rx =>
      cases info : s.isSettingInfo with
      | true => simp [step, countStored, irq_length rx info, info, counts]
      | false =>
          simp only [countStored, info, Bool.false_eq_true, if_false] at bound ⊢
          simp only [step, irq_data rx info, UInt8.toNat_add, counts]
          have one : (1 : UInt8).toNat = 1 := rfl
          rw [one]
          omega

theorem storedSinceReset_snoc (first : List Action) (a : Action) :
    storedSinceReset (first ++ [a]) =
      countStored (storedSinceReset first) (run step powerOn first) a :=
  history_snoc _ _ _ _

theorem AtMost200.of_prefix {actions first : List Action} (atMost : AtMost200 actions)
    (initial : first <+: actions) : AtMost200 first :=
  fun _ shorter => atMost _ (shorter.trans initial)

theorem counter_of_atMost (actions : List Action) (atMost : AtMost200 actions) :
    (run step powerOn actions).uartReceiveCnt.toNat = storedSinceReset actions := by
  induction actions using List.reverseRecOn with
  | nil => rfl
  | append_singleton first a ih =>
      have counts := ih (atMost.of_prefix (List.prefix_append first [a]))
      have bound := atMost (first ++ [a]) (List.prefix_refl _)
      rw [storedSinceReset_snoc] at bound ⊢
      rw [run_snoc]
      exact countStored_counts counts bound

/-- A store below index 200 is inside `rxdata` and does not wrap the counter. -/
theorem storeInBounds_of_lt {s : Fw} {a : Action}
    (below : s.isSettingInfo = false → a ≠ .main → s.uartReceiveCnt.toNat < 200) :
    StoreInBounds s a := by
  cases a with
  | main => trivial
  | uart rx =>
      intro info
      have lt := below info (by simp)
      refine ⟨lt, ?_, ?_⟩
      · simp only [irq_data rx info, UInt8.toNat_add]
        have one : (1 : UInt8).toNat = 1 := rfl
        rw [one]
        omega
      · rw [irq_data rx info, storeRx_of_lt s rx lt]

/-- The command buffer outside the pattern is as `main` set it before it enabled the interrupt. -/
def KeepsCommands (s : Fw) : Prop :=
  ∀ i, i < 18 ∨ 154 ≤ i → s.spiCommandStringTx[i]? = commandInit[i]?

/-- A step whose store is in bounds leaves the commands outside the pattern alone. -/
theorem keepsCommands_step {s : Fw} {a : Action} (keeps : KeepsCommands s)
    (inBounds : StoreInBounds s a) : KeepsCommands (step s a) := by
  intro i outside
  cases a with
  | main =>
      by_cases storing : ∃ entry value, s.pc = .copyStore entry value
      · obtain ⟨entry, value, pc⟩ := storing
        simp only [step, mainStep, pc]
        rw [Vector.getElem?_set_ne (by omega) (by omega)]
        exact keeps i outside
      · have same := mainStep_tx_of_not_store s fun entry value pc => storing ⟨entry, value, pc⟩
        rw [step, same]
        exact keeps i outside
  | uart rx =>
      have same : (irqUartInterrupts rx s).spiCommandStringTx = s.spiCommandStringTx := by
        cases info : s.isSettingInfo with
        | true => rw [irq_length rx info]
        | false => exact (inBounds info).2.2
      rw [step, same]
      exact keeps i outside

/-- The handler stays inside its buffer along a run exactly when no more than 200 payload bytes ever
arrive between two resets of the counter. -/
theorem storeInBounds_iff (actions : List Action) :
    EachStep step StoreInBounds powerOn actions ↔ AtMost200 actions := by
  induction actions using List.reverseRecOn with
  | nil =>
      refine ⟨fun _ first initial => ?_, fun _ => trivial⟩
      rw [List.prefix_nil.1 initial]
      exact Nat.zero_le _
  | append_singleton first a ih =>
      rw [eachStep_append, ih, eachStep_cons]
      constructor
      · rintro ⟨atMost, inBounds, -⟩ shorter initial
        rcases List.prefix_concat_iff.1 initial with whole | initial
        · -- the whole run: a payload byte at count 200 would be stored at index 200
          have counts := counter_of_atMost first atMost
          have before := atMost first (List.prefix_refl _)
          rw [whole, storedSinceReset_snoc]
          cases a with
          | main =>
              simp only [countStored]
              split <;> omega
          | uart rx =>
              cases info : (run step powerOn first).isSettingInfo with
              | true => simpa [countStored, info] using before
              | false =>
                  have below := (inBounds info).1
                  simp only [countStored, info, Bool.false_eq_true, if_false]
                  omega
        · exact atMost shorter initial
      · intro atMost
        have firstAtMost := atMost.of_prefix (List.prefix_append first [a])
        refine ⟨firstAtMost, storeInBounds_of_lt fun info arrival => ?_, trivial⟩
        have bound := atMost (first ++ [a]) (List.prefix_refl _)
        rw [counter_of_atMost first firstAtMost]
        cases a with
        | main => exact absurd rfl arrival
        | uart rx =>
            simp only [storedSinceReset_snoc, countStored, info, Bool.false_eq_true,
              if_false] at bound
            omega

/-! ### Complete frames -/

/-- When no byte arrives in the re-arming section, the receiver is armed all through it. -/
theorem armed_of_rearming {actions : List Action}
    (outside : EachStep step ArrivesOutsideRearming powerOn actions) :
    (run step powerOn actions).pc.rearming = true →
      (run step powerOn actions).isSettingInfo = true := by
  refine run_invariant (fun s => s.pc.rearming = true → s.isSettingInfo = true) ?_
    (fun _ => rfl) outside
  rintro s a armed quiet
  cases a with
  | main =>
      simp only [step, mainStep_rearming, mainStep_isSettingInfo, Bool.or_eq_true,
        Bool.and_eq_true]
      rintro (setting | ⟨inside, -⟩)
      · exact Or.inr setting
      · exact Or.inl (armed inside)
  | uart rx =>
      intro inside
      simp only [step, irq_pc] at inside
      exact absurd inside (by simpa [ArrivesOutsideRearming] using quiet)

/-- With the store in bounds and `main` outside the re-arming section or armed in it, no step makes a
complete frame incomplete. -/
theorem completeStays_of_inBounds {s : Fw} {a : Action} (inBounds : StoreInBounds s a)
    (armed : s.pc.rearming = true → s.isSettingInfo = true) : CompleteStays s a := by
  intro info complete
  cases a with
  | main =>
      refine Or.inr ?_
      have notReset : s.pc ≠ .resetCnt := by
        intro reset
        have := armed (by rw [reset]; rfl)
        simp [info] at this
      simpa [step, mainStep_uartReceiveCnt, notReset] using complete
  | uart rx =>
      refine Or.inr ?_
      have counted := (inBounds info).2.1
      have sameLength : (irqUartInterrupts rx s).datalength = s.datalength := by
        simp [irq_data rx info]
      rw [UInt8.le_iff_toNat_le] at complete ⊢
      simp only [step, counted, sameLength]
      omega

theorem completeStays_of_atMost (actions : List Action) (atMost : AtMost200 actions)
    (outside : EachStep step ArrivesOutsideRearming powerOn actions) :
    EachStep step CompleteStays powerOn actions := by
  rw [eachStep_iff]
  rintro before a after rfl
  have inBounds := (eachStep_iff _ _).1 ((storeInBounds_iff _).2 atMost) before a after rfl
  exact completeStays_of_inBounds inBounds
    (armed_of_rearming ((eachStep_append _ _ _).1 outside).1)

/-- For every byte stream and interleaving: the handler stays inside `rxdata` and the counter does not
wrap exactly when at most 200 payload bytes arrive between two resets, and if moreover no byte arrives
while `main` re-arms, a complete frame stays complete until `main` has seen it. -/
theorem receiver_in_bounds (actions : List Action) :
    (EachStep step StoreInBounds powerOn actions ↔ AtMost200 actions) ∧
      (AtMost200 actions → EachStep step ArrivesOutsideRearming powerOn actions →
        EachStep step CompleteStays powerOn actions) :=
  ⟨storeInBounds_iff actions, completeStays_of_atMost actions⟩

/-! ### A frame longer than the buffer -/

/-- A length byte 255 and 201 payload bytes, while `main` is still powering the chips up. -/
def longFrame : List Action :=
  .uart 255 :: List.replicate 201 (.uart 0)

/-- While the handler is in its data branch, every arriving byte is counted. -/
theorem countStored_replicate (rx : UInt8) (k n : Nat) {s : Fw} (info : s.isSettingInfo = false) :
    history step countStored n s (List.replicate k (.uart rx)) = n + k := by
  induction k generalizing n s with
  | zero => rfl
  | succ k ih =>
      rw [List.replicate_succ, history_cons, ih _ (by simp [step])]
      simp only [countStored, info, Bool.false_eq_true, if_false]
      omega

theorem longFrame_overflows : ¬ EachStep step StoreInBounds powerOn longFrame := by
  rw [storeInBounds_iff]
  intro atMost
  have bound := atMost longFrame (List.prefix_refl _)
  rw [storedSinceReset, longFrame, history_cons, countStored_replicate 0 201 _ rfl] at bound
  exact absurd bound (by decide)

end VoltCtrl.Firmware
