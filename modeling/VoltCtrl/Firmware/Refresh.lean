/-
Module: VoltCtrl.Firmware.Refresh
Layer: Firmware
Purpose: What the chips output refines the pattern latched last. The loop invariant ties the byte offset
  of a loop, its counter, the select mask, the pins and the input registers of the chips; it is stated
  once for the three loops, which differ in their commands, in the place of their counter statement and
  in the values they send. It holds for every interleaving that keeps the handler's store inside
  `rxdata`.
Trusted boundary: none
Main exports: InIteration, AtPhase, RefreshInv, Refines, refresh_run, outputs_refine_latched
-/
import VoltCtrl.Firmware.Board
import VoltCtrl.Firmware.ReceiveBuffer

namespace VoltCtrl.Firmware

open VoltCtrl.Core

/-! ### What the loops have done before a statement -/

/-- Commands of an iteration whose word has been sent before a statement. -/
def Loop.sentBefore (l : Loop) (stage : LoopPc) : Nat :=
  match stage with
  | .ldacHigh | .select => 0
  | .count =>
      match l with
      | .powerUp => 0
      | .pattern | .zero => l.commands
  | .sendHigh command | .sendLow command _ => command

/-- The counter of a loop before a statement of iteration `k`. -/
def Loop.counterAt (l : Loop) (k : Nat) (stage : LoopPc) : Nat :=
  match l with
  | .pattern | .zero => k
  | .powerUp =>
      match stage with
      | .ldacHigh | .select | .count => k
      | .sendHigh _ | .sendLow _ _ => k + 1

/-- The command of an iteration that sets a channel: its own word of the pattern, or the one word for
all channels. -/
def Loop.commandOf (l : Loop) (c : Fin 4) : Nat :=
  match l with
  | .pattern => c.val
  | .powerUp | .zero => 0

/-- The value that a loop gives a channel of chip 9 + `k`. -/
def Loop.target (l : Loop) (pattern : List UInt8) (k : Fin 17) (c : Fin 4) : Nat :=
  match l with
  | .pattern => patternValue pattern k c
  | .powerUp | .zero => 0

/-- The input registers have got the loop's values, up to `n` commands of iteration `k`. Power-up sends
control words only and sets none. -/
def Loaded (b : Board) (l : Loop) (k n : Nat) : Prop :=
  l ≠ .powerUp → ∀ (j : Fin 17) (c : Fin 4), j.val < k ∨ (j.val = k ∧ l.commandOf c < n) →
    (b.chips (chipOf j)).input c = l.target b.fw.pattern j c

/-- The loop invariant before a statement of iteration `k`. -/
structure InIteration (b : Board) (l : Loop) (k : Nat) (stage : LoopPc) : Prop where
  inside : k < 17
  counter : b.fw.oeCount l = l.counterAt k stage
  ldac : stage ≠ .ldacHigh → b.fw.pioLdacN = true
  select : stage ≠ .ldacHigh → stage ≠ .select → oeMsk[8 + k]? = some b.fw.pioOe
  command : ∀ command, (stage = .sendHigh command ∨ ∃ high, stage = .sendLow command high) →
    command < l.commands
  high : ∀ command high, stage = .sendLow command high →
    b.fw.spiCommandStringTx[l.address (18 + 8 * k) command]? = some high
  loaded : Loaded b l k (l.sentBefore stage)

/-- The invariant at a program point. -/
def AtPhase (b : Board) (pc : Pc) : Prop :=
  match pc with
  | .loop l offset stage => ∃ k, offset = 18 + 8 * k ∧ InIteration b l k stage
  | .enableAll l | .ldacLow l => b.fw.pioLdacN = true ∧ Loaded b l 17 0
  | .fault => False
  | .finish _ | .waitInfo | .outerCnt | .outerLen _ | .setInfo | .copyLoad _ | .copyStore _ _
  | .resetCnt | .innerCnt | .innerLen _ => True

/-- Between a latch and the next copy. -/
def Pc.afterLatch (pc : Pc) : Prop :=
  pc.loop? = some .pattern ∨ pc.loop? = some .zero ∨ pc = .resetCnt ∨ pc = .innerCnt ∨
    ∃ cnt, pc = .innerLen cnt

/-- The invariant of the board, with the pattern latched last. -/
structure RefreshInv (b : Board) (latest : Option (List UInt8)) : Prop where
  commands : KeepsCommands b.fw
  phase : AtPhase b b.fw.pc
  counters : ∀ l, l ≠ .powerUp → b.fw.pc.loop? ≠ some l → b.fw.oeCount l = 0
  latched : b.fw.pc.afterLatch →
    latest = some b.fw.pattern ∧ WellFormedPattern b.fw.pattern

/-! ### Frames -/

/-- The two boards agree on everything that the invariant of a loop reads. -/
structure SameRefresh (b b' : Board) : Prop where
  tx : b'.fw.spiCommandStringTx = b.fw.spiCommandStringTx
  input : ∀ d, (b'.chips d).input = (b.chips d).input
  count : ∀ l, b'.fw.oeCount l = b.fw.oeCount l
  ldac : b'.fw.pioLdacN = b.fw.pioLdacN
  oe : b'.fw.pioOe = b.fw.pioOe

theorem pattern_congr {s t : Fw} (same : t.spiCommandStringTx = s.spiCommandStringTx) :
    t.pattern = s.pattern := by
  rw [Fw.pattern, Fw.pattern, same]

theorem Loaded.congr {b b' : Board} {l : Loop} {k n : Nat} (loaded : Loaded b l k n)
    (tx : b'.fw.spiCommandStringTx = b.fw.spiCommandStringTx)
    (input : ∀ d, (b'.chips d).input = (b.chips d).input) : Loaded b' l k n := by
  intro sends j c before
  rw [input, pattern_congr tx]
  exact loaded sends j c before

/-- A finished iteration has set all four channels of its chip. -/
theorem Loaded.next {b : Board} {l : Loop} {k : Nat} (loaded : Loaded b l k l.commands) :
    Loaded b l (k + 1) 0 := by
  intro sends j c before
  have covered : l.commandOf c < l.commands := by
    cases l with
    | powerUp | zero => exact Nat.zero_lt_one
    | pattern => exact c.isLt
  refine loaded sends j c ?_
  omega

theorem AtPhase.congr {b b' : Board} {pc : Pc} (phase : AtPhase b pc)
    (same : SameRefresh b b') : AtPhase b' pc := by
  obtain ⟨tx, input, count, ldac, oe⟩ := same
  cases pc with
  | loop l offset stage =>
      obtain ⟨k, place, iteration⟩ := phase
      refine ⟨k, place, ?_⟩
      constructor
      · exact iteration.inside
      · rw [count]
        exact iteration.counter
      · rw [ldac]
        exact iteration.ldac
      · rw [oe]
        exact iteration.select
      · exact iteration.command
      · rw [tx]
        exact iteration.high
      · exact iteration.loaded.congr tx input
  | enableAll l | ldacLow l =>
      obtain ⟨high, loaded⟩ := phase
      exact ⟨ldac.trans high, loaded.congr tx input⟩
  | fault => exact phase
  | _ => trivial

/-! ### One statement of a loop -/

section LoopSteps

variable {b : Board} {l : Loop} {k : Nat}

/-- `main` outside `WriteFileData`: no word, no change of the pattern. -/
theorem step_silent (silent : sentWord b.fw .main = none)
    (noStore : ∀ i value, b.fw.pc ≠ .copyStore i value) :
    (b.step .main).fw.spiCommandStringTx = b.fw.spiCommandStringTx ∧
      ∀ d, ((b.step .main).chips d).input = (b.chips d).input :=
  ⟨mainStep_tx_of_not_store b.fw noStore, step_input_of_silent silent⟩

/-- The words of a loop are inside the command buffer. -/
theorem address_lt {command : Nat} (inside : k < 17) (below : command < l.commands) :
    l.address (18 + 8 * k) command < 200 ∧ l.address (18 + 8 * k) command + 1 < 200 := by
  cases l with
  | powerUp | zero => exact ⟨by simp [Loop.address], by simp [Loop.address]⟩
  | pattern =>
      simp only [Loop.commands] at below
      simp only [Loop.address]
      omega

/-- The next iteration, or the end of the loop. -/
theorem atPhase_next (inside : k < 17) (counter : b.fw.oeCount l = (k + 1 : Nat))
    (ldac : b.fw.pioLdacN = true) (loaded : Loaded b l (k + 1) 0) :
    AtPhase b (nextIteration l (18 + 8 * k)) := by
  unfold nextIteration
  split
  · rename_i more
    refine ⟨k + 1, by ring, ?_⟩
    constructor
    · omega
    · rw [counter]
      cases l <;> rfl
    · intro notFirst
      exact absurd rfl notFirst
    · intro notFirst
      exact absurd rfl notFirst
    · rintro command (other | ⟨high, other⟩)
      · cases other
      · cases other
    · intro command high other
      cases other
    · exact loaded
  · rename_i last
    have end17 : k + 1 = 17 := by omega
    rw [end17] at loaded
    exact ⟨ldac, loaded⟩

theorem step_ldacHigh (pc : b.fw.pc = .loop l (18 + 8 * k) .ldacHigh)
    (iteration : InIteration b l k .ldacHigh) :
    AtPhase (b.step .main) (b.step .main).fw.pc := by
  obtain ⟨tx, input⟩ := step_silent
    (sentWord_of_not_sendLow (by intro _ _ _ _ other; rw [pc] at other; cases other))
    (by intro _ _ other; rw [pc] at other; cases other)
  have next := mainStep_ldacHigh pc
  have nextPc : (b.step .main).fw.pc = .loop l (18 + 8 * k) .select := by
    simp [step, next]
  rw [nextPc]
  refine ⟨k, rfl, ?_⟩
  constructor
  · exact iteration.inside
  · have counter : (b.step .main).fw.oeCount l = b.fw.oeCount l := by
      simp only [step_fw, step, next]
      cases l <;> rfl
    rw [counter, iteration.counter]
    cases l <;> rfl
  · intro _
    simp [step, next]
  · intro _ notSelect
    exact absurd rfl notSelect
  · rintro command (other | ⟨high, other⟩)
    · cases other
    · cases other
  · intro command high other
    cases other
  · exact iteration.loaded.congr tx input

theorem step_select (pc : b.fw.pc = .loop l (18 + 8 * k) .select)
    (iteration : InIteration b l k .select) :
    AtPhase (b.step .main) (b.step .main).fw.pc := by
  obtain ⟨tx, input⟩ := step_silent
    (sentWord_of_not_sendLow (by intro _ _ _ _ other; rw [pc] at other; cases other))
    (by intro _ _ other; rw [pc] at other; cases other)
  have counter : b.fw.oeCount l = k := by
    rw [iteration.counter]
    cases l <;> rfl
  obtain ⟨mask, entry, next⟩ := mainStep_select iteration.inside pc counter
  have ldac : b.fw.pioLdacN = true := iteration.ldac (by simp)
  have loaded := iteration.loaded.congr tx input
  have sameCounter : (b.step .main).fw.oeCount l = k := by
    rw [← counter]
    simp only [step_fw, step, next]
    cases l <;> rfl
  have sameLdac : (b.step .main).fw.pioLdacN = true := by simp [step, next, ldac]
  have nextOe : (b.step .main).fw.pioOe = mask := by simp [step, next]
  have nextPc : (b.step .main).fw.pc = afterSelect l (18 + 8 * k) := by simp [step, next]
  rw [nextPc]
  cases l with
  | powerUp =>
      refine ⟨k, rfl, iteration.inside, sameCounter, fun _ => sameLdac, ?_, ?_, ?_, loaded⟩
      · intro _ _
        rw [nextOe, entry]
      · rintro command (other | ⟨high, other⟩)
        · cases other
        · cases other
      · intro command high other
        cases other
  | pattern | zero =>
      refine ⟨k, rfl, iteration.inside, sameCounter, fun _ => sameLdac, ?_, ?_, ?_, loaded⟩
      · intro _ _
        rw [nextOe, entry]
      · rintro command (first | ⟨high, other⟩)
        · rw [LoopPc.sendHigh.injEq] at first
          rw [← first]
          decide
        · cases other
      · intro command high other
        cases other

theorem step_count (pc : b.fw.pc = .loop l (18 + 8 * k) .count)
    (iteration : InIteration b l k .count) :
    AtPhase (b.step .main) (b.step .main).fw.pc := by
  obtain ⟨tx, input⟩ := step_silent
    (sentWord_of_not_sendLow (by intro _ _ _ _ other; rw [pc] at other; cases other))
    (by intro _ _ other; rw [pc] at other; cases other)
  have next := mainStep_count pc
  have ldac : (b.step .main).fw.pioLdacN = true := by
    have before := iteration.ldac (by simp)
    simp only [step_fw, step, next]
    cases l <;> exact before
  have loaded := iteration.loaded.congr tx input
  have counter : (b.step .main).fw.oeCount l = (k + 1 : Nat) := by
    have before := iteration.counter
    simp only [step_fw, step, next]
    cases l <;> simpa [Fw.oeCount, Fw.setOeCount, Loop.counterAt] using before
  have nextPc : (b.step .main).fw.pc = afterCount l (18 + 8 * k) := by simp [step, next]
  rw [nextPc]
  cases l with
  | powerUp =>
      have oe : (b.step .main).fw.pioOe = b.fw.pioOe := by simp [step, next, Fw.setOeCount]
      refine ⟨k, rfl, iteration.inside, counter, fun _ => ldac, ?_, ?_, ?_, ?_⟩
      · intro _ _
        rw [oe]
        exact iteration.select (by simp) (by simp)
      · rintro command (first | ⟨high, other⟩)
        · rw [LoopPc.sendHigh.injEq] at first
          rw [← first]
          decide
        · cases other
      · intro command high other
        cases other
      · intro sends
        exact absurd rfl sends
  | pattern | zero => exact atPhase_next iteration.inside counter ldac loaded.next

theorem step_sendHigh {command : Nat}
    (pc : b.fw.pc = .loop l (18 + 8 * k) (.sendHigh command))
    (iteration : InIteration b l k (.sendHigh command)) :
    AtPhase (b.step .main) (b.step .main).fw.pc := by
  obtain ⟨tx, input⟩ := step_silent
    (sentWord_of_not_sendLow (by intro _ _ _ _ other; rw [pc] at other; cases other))
    (by intro _ _ other; rw [pc] at other; cases other)
  have inside := iteration.inside
  have below := iteration.command command (Or.inl rfl)
  obtain ⟨byte, entry, next⟩ := mainStep_sendHigh pc (address_lt inside below).1
  have nextPc : (b.step .main).fw.pc = .loop l (18 + 8 * k) (.sendLow command byte) := by
    simp [step, next]
  rw [nextPc]
  refine ⟨k, rfl, inside, ?_, ?_, ?_, ?_, ?_, iteration.loaded.congr tx input⟩
  · have counter := iteration.counter
    simp only [step_fw, step, next]
    cases l <;> exact counter
  · intro _
    simpa [step, next] using iteration.ldac (by simp)
  · intro _ _
    simpa [step, next] using iteration.select (by simp) (by simp)
  · rintro other (stage | ⟨high, stage⟩)
    · cases stage
    · cases stage
      exact below
  · intro other high stage
    rw [LoopPc.sendLow.injEq] at stage
    obtain ⟨rfl, rfl⟩ := stage
    rw [tx]
    exact entry

/-- Entry `8k + i` of the pattern, read where the pattern loop reads it. -/
theorem pattern_entry {i : Nat} (inside : k < 17) (below : i < 8) :
    b.fw.pattern[8 * k + i]? = b.fw.spiCommandStringTx[18 + 8 * k + i]? := by
  rw [pattern_getElem? b.fw (by omega), Nat.add_assoc 18 (8 * k) i]

/-- Command `c` of the pattern loop sets channel `c` to its value in the pattern. -/
theorem received_pattern (wellFormed : WellFormedPattern b.fw.pattern) (j : Fin 17) (c : Fin 4)
    {high low : UInt8}
    (highEntry : b.fw.spiCommandStringTx[18 + 8 * j.val + 2 * c.val]? = some high)
    (lowEntry : b.fw.spiCommandStringTx[18 + 8 * j.val + 2 * c.val + 1]? = some low)
    (chip : Chip) :
    (chip.receive high low).input =
      Function.update chip.input c (patternValue b.fw.pattern j c) := by
  have highByte : b.fw.pattern[8 * j.val + 2 * c.val]? = some high := by
    rw [pattern_entry j.isLt (by omega), highEntry]
  have lowByte : b.fw.pattern[8 * j.val + 2 * c.val + 1]? = some low := by
    rw [Nat.add_assoc, pattern_entry j.isLt (by omega), ← Nat.add_assoc, lowEntry]
  obtain ⟨byte, entry, nibble⟩ := wellFormed j c
  rw [highByte, Option.some.injEq] at entry
  rw [← entry] at nibble
  rw [receive_channel chip nibble, patternValue, highByte, lowByte]
  rfl

/-- The command of the zero loop sets all channels to 0. -/
theorem received_zero (commands : KeepsCommands b.fw) {high low : UInt8}
    (highEntry : b.fw.spiCommandStringTx[2]? = some high)
    (lowEntry : b.fw.spiCommandStringTx[3]? = some low) (chip : Chip) :
    (chip.receive high low).input = fun _ => 0 := by
  have highByte : high = 0x50 := by
    rw [commands 2 (Or.inl (by decide))] at highEntry
    exact (Option.some.inj highEntry).symm
  have lowByte : low = 0x00 := by
    rw [commands 3 (Or.inl (by decide))] at lowEntry
    exact (Option.some.inj lowEntry).symm
  rw [receive_all chip (by rw [highByte]; decide), highByte, lowByte]
  rfl

/-- The word of a command sets the channels that the command is for. -/
theorem loaded_sent {command : Nat} {high : UInt8} (commands : KeepsCommands b.fw)
    (wellFormed : l = .pattern → WellFormedPattern b.fw.pattern)
    (pc : b.fw.pc = .loop l (18 + 8 * k) (.sendLow command high))
    (iteration : InIteration b l k (.sendLow command high)) :
    Loaded (b.step .main) l k (command + 1) := by
  have inside := iteration.inside
  have below := iteration.command command (Or.inr ⟨high, rfl⟩)
  have bound := (address_lt inside below).2
  have lowEntry : b.fw.spiCommandStringTx[l.address (18 + 8 * k) command + 1]? =
      some b.fw.spiCommandStringTx[l.address (18 + 8 * k) command + 1] :=
    Vector.getElem?_eq_getElem bound
  have highEntry := iteration.high command high rfl
  have sent := sentWord_sendLow pc lowEntry
  have input := step_input_of_sent sent (iteration.select (by simp) (by simp))
  have samePattern : (b.step .main).fw.pattern = b.fw.pattern :=
    pattern_congr (mainStep_tx_of_not_store b.fw (by
      intro i value other
      rw [pc] at other
      cases other))
  have loaded := iteration.loaded
  generalize b.fw.spiCommandStringTx[l.address (18 + 8 * k) command + 1] = low at *
  intro sends j c before
  rw [input, samePattern]
  by_cases here : j.val = k
  · have chip : (chipOf j).val = 8 + k := by simp [chipOf, here]
    rw [if_pos chip]
    subst here
    cases l with
    | powerUp => exact absurd rfl sends
    | pattern =>
        have received := received_pattern (wellFormed rfl) j ⟨command, below⟩ highEntry lowEntry
          (b.chips (chipOf j))
        rw [received]
        by_cases same : c = ⟨command, below⟩
        · rw [same, Function.update_self]
          rfl
        · rw [Function.update_of_ne same]
          have earlier : c.val < command := by
            have differ : c.val ≠ command := fun equal => same (Fin.ext equal)
            simp only [Loop.commandOf] at before
            omega
          exact loaded sends j c (Or.inr ⟨rfl, earlier⟩)
    | zero =>
        rw [received_zero commands highEntry lowEntry]
        rfl
  · have otherChip : (chipOf j).val ≠ 8 + k := by
      simp only [chipOf]
      omega
    rw [if_neg otherChip]
    exact loaded sends j c (Or.inl (by omega))

theorem step_sendLow {command : Nat} {high : UInt8} (commands : KeepsCommands b.fw)
    (wellFormed : l = .pattern → WellFormedPattern b.fw.pattern)
    (pc : b.fw.pc = .loop l (18 + 8 * k) (.sendLow command high))
    (iteration : InIteration b l k (.sendLow command high)) :
    AtPhase (b.step .main) (b.step .main).fw.pc := by
  have inside := iteration.inside
  have below := iteration.command command (Or.inr ⟨high, rfl⟩)
  have loaded := loaded_sent commands wellFormed pc iteration
  have next := mainStep_sendLow pc (address_lt inside below).2
  have nextPc : (b.step .main).fw.pc = afterCommand l (18 + 8 * k) command := by
    simp [step, next]
  have ldac : (b.step .main).fw.pioLdacN = true := by
    simpa [step, next] using iteration.ldac (by simp)
  have oe : oeMsk[8 + k]? = some (b.step .main).fw.pioOe := by
    simpa [step, next] using iteration.select (by simp) (by simp)
  have sameCounter : (b.step .main).fw.oeCount l = b.fw.oeCount l := by
    simp only [step_fw, step, next]
    cases l <;> rfl
  have counter := sameCounter.trans iteration.counter
  rw [nextPc]
  unfold afterCommand
  by_cases more : command + 1 < l.commands
  · rw [if_pos more]
    refine ⟨k, rfl, inside, ?_, fun _ => ldac, fun _ _ => oe, ?_, ?_, loaded⟩
    · rw [counter]
      cases l <;> rfl
    · rintro other (stage | ⟨high', stage⟩)
      · rw [LoopPc.sendHigh.injEq] at stage
        rw [← stage]
        exact more
      · cases stage
    · intro other high' stage
      cases stage
  · rw [if_neg more]
    have all : command + 1 = l.commands := by omega
    rw [all] at loaded
    cases l with
    | powerUp => exact atPhase_next inside counter ldac loaded.next
    | pattern | zero =>
        refine ⟨k, rfl, inside, counter, fun _ => ldac, fun _ _ => oe, ?_, ?_, loaded⟩
        · rintro other (stage | ⟨high', stage⟩)
          · cases stage
          · cases stage
        · intro other high' stage
          cases stage

end LoopSteps

/-! ### One step of the board -/

/-- History variable: the pattern latched last. -/
def latestPattern (latest : Option (List UInt8)) (b : Board) (a : Action) :
    Option (List UInt8) :=
  if latches b.fw a then some (step b.fw a).pattern else latest

/-- A step latches well-formed patterns only. -/
def LatchesWellFormed (s : Fw) (a : Action) : Prop :=
  latches s a = true → WellFormedPattern (step s a).pattern

section BoardStep

variable {b : Board} {latest : Option (List UInt8)}

theorem atPhase_start {l : Loop} (counter : b.fw.oeCount l = 0) :
    AtPhase b (.loop l 18 .ldacHigh) := by
  refine ⟨0, rfl, by decide, ?_, ?_, ?_, ?_, ?_, ?_⟩
  · rw [counter]
    cases l <;> rfl
  · intro notFirst
    exact absurd rfl notFirst
  · intro notFirst
    exact absurd rfl notFirst
  · rintro command (other | ⟨high, other⟩)
    · cases other
    · cases other
  · intro command high other
    cases other
  · intro _ j c before
    have none : ¬ (j.val < 0 ∨ (j.val = 0 ∧ l.commandOf c < 0)) := by omega
    exact absurd before none

theorem RefreshInv.phase_main (inv : RefreshInv b latest) :
    AtPhase (b.step .main) (b.step .main).fw.pc := by
  have phase := inv.phase
  cases pc : b.fw.pc with
  | loop l offset stage =>
      rw [pc] at phase
      obtain ⟨k, rfl, iteration⟩ := phase
      cases stage with
      | ldacHigh => exact step_ldacHigh pc iteration
      | select => exact step_select pc iteration
      | count => exact step_count pc iteration
      | sendHigh command => exact step_sendHigh pc iteration
      | sendLow command high =>
          refine step_sendLow inv.commands ?_ pc iteration
          rintro rfl
          exact (inv.latched (Or.inl (by rw [pc]; rfl))).2
  | enableAll l =>
      obtain ⟨tx, input⟩ := step_silent (b := b)
        (sentWord_of_not_sendLow (by intro _ _ _ _ other; rw [pc] at other; cases other))
        (by intro _ _ other; rw [pc] at other; cases other)
      rw [pc] at phase
      obtain ⟨ldac, loaded⟩ := phase
      have nextPc : (b.step .main).fw.pc = .ldacLow l := by simp [step, mainStep, pc]
      have sameLdac : (b.step .main).fw.pioLdacN = true := by simp [step, mainStep, pc, ldac]
      rw [nextPc]
      exact ⟨sameLdac, loaded.congr tx input⟩
  | ldacLow l =>
      have nextPc : (b.step .main).fw.pc = .finish l := by simp [step, mainStep, pc]
      rw [nextPc]
      trivial
  | finish l =>
      have nextPc : (b.step .main).fw.pc = (finishStep l b.fw).pc := by
        simp [step, mainStep, pc]
      rw [nextPc]
      cases l with
      | powerUp | zero => trivial
      | pattern =>
          have clear := inv.counters .zero (by simp) (by simp [pc, Pc.loop?])
          refine atPhase_start ?_
          simpa [step, mainStep, pc, finishStep, Fw.oeCount] using clear
  | innerLen cnt =>
      by_cases done : cnt ≥ b.fw.datalength
      · have nextPc : (b.step .main).fw.pc = .outerCnt := by simp [step, mainStep, pc, done]
        rw [nextPc]
        trivial
      · have nextPc : (b.step .main).fw.pc = .loop .pattern 18 .ldacHigh := by
          simp [step, mainStep, pc, done]
        have clear := inv.counters .pattern (by simp) (by simp [pc, Pc.loop?])
        rw [nextPc]
        refine atPhase_start ?_
        simpa [step, mainStep, pc, Fw.oeCount] using clear
  | waitInfo =>
      simp only [step_fw, step, mainStep, pc]
      split <;> trivial
  | outerLen cnt =>
      simp only [step_fw, step, mainStep, pc]
      split <;> trivial
  | copyStore i value =>
      simp only [step_fw, step, mainStep, pc, afterCopy]
      split <;> trivial
  | outerCnt | setInfo | copyLoad i | resetCnt | innerCnt =>
      simp only [step_fw, step, mainStep, pc]
      trivial
  | fault =>
      rw [pc] at phase
      exact phase.elim

/-- A loop that `main` is not in has its counter at 0. -/
theorem RefreshInv.counters_main (inv : RefreshInv b latest) (l : Loop) (refreshes : l ≠ .powerUp)
    (outside : (mainStep b.fw).pc.loop? ≠ some l) : (mainStep b.fw).oeCount l = 0 := by
  have nextPhase := inv.phase_main
  cases pc : b.fw.pc with
  | loop l' offset stage =>
      have next : (mainStep b.fw).pc.loop? = some l' := by
        have inside : b.fw.pc.loop? = some l' := by rw [pc]; rfl
        have statement := loopStep_pc l' offset stage b.fw
        have unfolded : mainStep b.fw = loopStep l' offset stage b.fw := by simp [mainStep, pc]
        rw [← unfolded] at statement
        refine statement.resolve_right fun fault => ?_
        rw [step_fw, step, fault] at nextPhase
        exact nextPhase
      have other : l ≠ l' := by
        rintro rfl
        exact outside next
      have before := inv.counters l refreshes (by rw [pc]; simpa [Pc.loop?] using other.symm)
      rw [← before]
      have unfolded : mainStep b.fw = loopStep l' offset stage b.fw := by simp [mainStep, pc]
      rw [unfolded]
      exact loopStep_oeCount_other l' offset stage b.fw other
  | enableAll l' | ldacLow l' =>
      have other : l ≠ l' := by
        rintro rfl
        exact outside (by simp [mainStep, pc, Pc.loop?])
      have before := inv.counters l refreshes (by rw [pc]; simpa [Pc.loop?] using other.symm)
      simp only [mainStep, pc]
      cases l <;> exact before
  | finish l' =>
      by_cases same : l = l'
      · subst same
        cases l with
        | powerUp => exact absurd rfl refreshes
        | pattern | zero => simp [mainStep, pc, finishStep, Fw.oeCount]
      · have before := inv.counters l refreshes (by rw [pc]; simpa [Pc.loop?] using Ne.symm same)
        simp only [mainStep, pc]
        cases l' <;> cases l <;> first | exact before | exact absurd rfl same
  | _ =>
      have before := inv.counters l refreshes (by rw [pc]; simp [Pc.loop?])
      simp only [mainStep, pc]
      cases l <;> exact before

/-- `main` leaves the part between two copies only for the outer loop, and enters it by a latch. -/
theorem mainStep_afterLatch {s : Fw} (next : (mainStep s).pc.afterLatch) :
    s.pc.afterLatch ∨ latches s .main = true := by
  cases pc : s.pc with
  | loop l offset stage =>
      have inside : s.pc.loop? = some l := by rw [pc]; rfl
      rcases mainStep_loop inside with same | fault | finish
      · rw [← pc]
        rcases next with pattern | zero | reset | load | ⟨cnt, compare⟩
        · exact Or.inl (Or.inl (inside.trans (same.symm.trans pattern)))
        · exact Or.inl (Or.inr (Or.inl (inside.trans (same.symm.trans zero))))
        · rw [reset] at same
          cases same
        · rw [load] at same
          cases same
        · rw [compare] at same
          cases same
      · simp [fault, Pc.afterLatch, Pc.loop?] at next
      · cases l with
        | powerUp => simp [finish, finishStep, Pc.afterLatch, Pc.loop?] at next
        | pattern => exact Or.inl (Or.inl rfl)
        | zero => exact Or.inl (Or.inr (Or.inl rfl))
  | enableAll l | ldacLow l | finish l =>
      cases l with
      | powerUp => simp [mainStep, pc, finishStep, Pc.afterLatch, Pc.loop?] at next
      | pattern => exact Or.inl (Or.inl rfl)
      | zero => exact Or.inl (Or.inr (Or.inl rfl))
  | copyStore i value =>
      right
      simp only [latches, pc, beq_iff_eq]
      by_contra notLast
      have more : i.val + 1 < 136 := by omega
      simp [mainStep, pc, afterCopy, more, Pc.afterLatch, Pc.loop?] at next
  | resetCnt => exact Or.inl (Or.inr (Or.inr (Or.inl rfl)))
  | innerCnt => exact Or.inl (Or.inr (Or.inr (Or.inr (Or.inl rfl))))
  | innerLen cnt => exact Or.inl (Or.inr (Or.inr (Or.inr (Or.inr ⟨cnt, rfl⟩))))
  | waitInfo =>
      cases info : s.isSettingInfo <;>
        simp [mainStep, pc, info, Pc.afterLatch, Pc.loop?] at next
  | outerLen cnt =>
      by_cases short : cnt < s.datalength <;>
        simp [mainStep, pc, short, Pc.afterLatch, Pc.loop?] at next
  | outerCnt | setInfo | copyLoad i | fault =>
      simp [mainStep, pc, Pc.afterLatch, Pc.loop?] at next

theorem Pc.afterLatch.not_store {pc : Pc} (after : pc.afterLatch) (i : Fin 136) (value : UInt8) :
    pc ≠ .copyStore i value := by
  rintro rfl
  simp [Pc.afterLatch, Pc.loop?] at after

theorem RefreshInv.latched_main (inv : RefreshInv b latest)
    (wellFormed : LatchesWellFormed b.fw .main) (next : (mainStep b.fw).pc.afterLatch) :
    latestPattern latest b .main = some (mainStep b.fw).pattern ∧
      WellFormedPattern (mainStep b.fw).pattern := by
  cases latch : latches b.fw .main with
  | true =>
      refine ⟨?_, wellFormed latch⟩
      rw [latestPattern, if_pos latch]
      rfl
  | false =>
      have after := (mainStep_afterLatch next).resolve_right (by simp [latch])
      have same := pattern_congr (mainStep_tx_of_not_store b.fw after.not_store)
      rw [latestPattern, latch, same]
      exact inv.latched after

/-- An arriving byte whose store is in bounds changes nothing that the loops use. -/
theorem sameRefresh_arrival {rx : UInt8} (inBounds : StoreInBounds b.fw (.uart rx)) :
    SameRefresh b (b.step (.uart rx)) := by
  have silent : sentWord b.fw (.uart rx) = none := rfl
  have input := step_input_of_silent silent
  cases info : b.fw.isSettingInfo with
  | true =>
      have next := irq_length rx info
      constructor
      · simp [step, next]
      · exact input
      · intro l
        simp only [step_fw, step, next]
        cases l <;> rfl
      · simp [step, next]
      · simp [step, next]
  | false =>
      have next := irq_data rx info
      rw [storeRx_of_lt b.fw rx (inBounds info).1] at next
      constructor
      · simp [step, next]
      · exact input
      · intro l
        simp only [step_fw, step, next]
        cases l <;> rfl
      · simp [step, next]
      · simp [step, next]

theorem RefreshInv.arrival (inv : RefreshInv b latest) {rx : UInt8}
    (inBounds : StoreInBounds b.fw (.uart rx)) :
    RefreshInv (b.step (.uart rx)) (latestPattern latest b (.uart rx)) := by
  have same := sameRefresh_arrival inBounds
  have samePc : (b.step (.uart rx)).fw.pc = b.fw.pc := irq_pc rx b.fw
  have sameLatest : latestPattern latest b (.uart rx) = latest := rfl
  constructor
  · exact keepsCommands_step inv.commands inBounds
  · rw [samePc]
    exact inv.phase.congr same
  · intro l refreshes outside
    rw [samePc] at outside
    rw [same.count]
    exact inv.counters l refreshes outside
  · intro after
    rw [samePc] at after
    rw [sameLatest, pattern_congr same.tx]
    exact inv.latched after

theorem RefreshInv.step {a : Action} (inv : RefreshInv b latest)
    (inBounds : StoreInBounds b.fw a) (wellFormed : LatchesWellFormed b.fw a) :
    RefreshInv (b.step a) (latestPattern latest b a) := by
  cases a with
  | uart rx => exact inv.arrival inBounds
  | main =>
      constructor
      · exact keepsCommands_step inv.commands trivial
      · exact inv.phase_main
      · exact inv.counters_main
      · exact inv.latched_main wellFormed

theorem refreshInv_start (chips : Fin 25 → Chip) : RefreshInv ⟨powerOn, chips⟩ none where
  commands _ _ := rfl
  phase := atPhase_start rfl
  counters l _ _ := by cases l <;> rfl
  latched after := by
    rcases after with inside | inside | reset | load | ⟨cnt, compare⟩
    · cases inside
    · cases inside
    · cases reset
    · cases load
    · cases compare

end BoardStep

/-! ### Refinement -/

/-- The falling edge of `LDAC_N` that ends a loop. -/
structure FallingEdge (l : Loop) (s : Fw) (a : Action) : Prop where
  main : a = .main
  ends : s.pc = .ldacLow l
  high : s.pioLdacN = true
  low : (step s a).pioLdacN = false

/-- What a step of the board may do, given the pattern latched last: a word is sent with `LDAC_N` high
to one of the chips 9 to 25 alone; the edge after the pattern loop shows the pattern, the edge after
the zero loop shows zeros; chips 1 to 8 keep their input registers; every loop ends in such an edge,
and no access is outside an array. -/
structure Refines (s : Board × Option (List UInt8)) (a : Action) : Prop where
  word : ∀ word, sentWord s.1.fw a = some word →
    s.1.fw.pioLdacN = true ∧
      ∃ d : Fin 25, 8 ≤ d.val ∧ ∀ e, selected s.1.fw.pioOe e = true ↔ e = d
  pattern : FallingEdge .pattern s.1.fw a →
    ∃ pattern, s.2 = some pattern ∧
      ∀ k c, ((s.1.step a).chips (chipOf k)).output c = patternValue pattern k c
  zero : FallingEdge .zero s.1.fw a →
    ∀ k c, ((s.1.step a).chips (chipOf k)).output c = 0
  unused : ∀ d : Fin 25, d.val < 8 → ((s.1.step a).chips d).input = (s.1.chips d).input
  edge : ∀ l, s.1.fw.pc = .ldacLow l → a = .main → FallingEdge l s.1.fw a
  inside : (step s.1.fw a).pc ≠ .fault

section Refinement

variable {b : Board} {latest : Option (List UInt8)}

/-- A word is sent in an iteration, to its chip. -/
theorem RefreshInv.word (inv : RefreshInv b latest) {a : Action} {word : UInt8 × UInt8}
    (sent : sentWord b.fw a = some word) :
    b.fw.pioLdacN = true ∧
      ∃ d : Fin 25, 8 ≤ d.val ∧ ∀ e, selected b.fw.pioOe e = true ↔ e = d := by
  cases a with
  | uart rx => cases sent
  | main =>
      have sending : ∃ l offset command high, b.fw.pc = .loop l offset (.sendLow command high) := by
        by_contra none
        push Not at none
        rw [sentWord_of_not_sendLow none] at sent
        cases sent
      obtain ⟨l, offset, command, high, pc⟩ := sending
      have phase := inv.phase
      rw [pc] at phase
      obtain ⟨k, rfl, iteration⟩ := phase
      have entry := iteration.select (by simp) (by simp)
      have below := iteration.inside
      refine ⟨iteration.ldac (by simp), ⟨8 + k, by omega⟩, Nat.le_add_right 8 k, ?_⟩
      intro e
      rw [selected_iff entry, Fin.ext_iff]

/-- No word reaches chips 1 to 8. -/
theorem RefreshInv.unused (inv : RefreshInv b latest) (a : Action) (d : Fin 25)
    (unused : d.val < 8) : ((b.step a).chips d).input = (b.chips d).input := by
  cases sent : sentWord b.fw a with
  | none => exact step_input_of_silent sent d
  | some word =>
      obtain ⟨-, chip, used, only⟩ := inv.word sent
      have off : selected b.fw.pioOe d = false := by
        rw [← Bool.not_eq_true, only]
        rintro rfl
        exact absurd unused (Nat.not_lt.2 used)
      rw [step_input, Board.received, sent]
      simp only [off, Bool.false_eq_true, if_false]

/-- At the edge that ends a loop the outputs of chips 9 to 25 are the loop's values. -/
theorem RefreshInv.edge_output (inv : RefreshInv b latest) {l : Loop} {a : Action}
    (sends : l ≠ .powerUp) (edge : FallingEdge l b.fw a) (k : Fin 17) (c : Fin 4) :
    ((b.step a).chips (chipOf k)).output c = l.target b.fw.pattern k c := by
  obtain ⟨rfl, ends, -, low⟩ := edge
  have silent : sentWord b.fw .main = none :=
    sentWord_of_not_sendLow (by intro _ _ _ _ other; rw [ends] at other; cases other)
  have phase := inv.phase
  rw [ends] at phase
  rw [step_output_of_low silent low]
  exact phase.2 sends k c (Or.inl k.isLt)

/-- After its last iteration every loop ends in a falling edge. -/
theorem RefreshInv.falling (inv : RefreshInv b latest) {l : Loop} (here : b.fw.pc = .ldacLow l) :
    FallingEdge l b.fw .main := by
  have phase := inv.phase
  rw [here] at phase
  exact ⟨rfl, here, phase.1, by simp [Firmware.step, mainStep, here]⟩

theorem RefreshInv.refines (inv : RefreshInv b latest) {a : Action}
    (inBounds : StoreInBounds b.fw a) (wellFormed : LatchesWellFormed b.fw a) :
    Refines (b, latest) a := by
  constructor
  · exact fun word sent => inv.word sent
  · intro edge
    obtain ⟨shown, -⟩ := inv.latched (Or.inl (by rw [edge.ends]; rfl))
    exact ⟨b.fw.pattern, shown, inv.edge_output (by simp) edge⟩
  · intro edge
    exact inv.edge_output (by simp) edge
  · exact inv.unused a
  · rintro l ends rfl
    exact inv.falling ends
  · intro fault
    have phase := (inv.step inBounds wellFormed).phase
    rw [step_fw, fault] at phase
    exact phase

/-- The invariant holds in every state of every such run. -/
theorem refresh_run (chips : Fin 25 → Chip) (actions : List Action)
    (inBounds : EachStep step StoreInBounds powerOn actions)
    (wellFormed : EachStep step LatchesWellFormed powerOn actions) :
    RefreshInv (run Board.step ⟨powerOn, chips⟩ actions)
      (history Board.step latestPattern none ⟨powerOn, chips⟩ actions) := by
  have promised := (eachStep_map step_fw (⟨powerOn, chips⟩ : Board) actions).2
    (inBounds.and wellFormed)
  exact history_invariant RefreshInv
    (fun b latest a inv promise => inv.step promise.1 promise.2) (refreshInv_start chips) promised

/-- In every run, for every interleaving that keeps the handler's stores inside `rxdata` and every
sequence of well-formed patterns, the board refines the pattern latched last. -/
theorem outputs_refine_latched (chips : Fin 25 → Chip) (actions : List Action)
    (inBounds : EachStep step StoreInBounds powerOn actions)
    (wellFormed : EachStep step LatchesWellFormed powerOn actions) :
    EachStep (withHistory Board.step latestPattern) Refines (⟨powerOn, chips⟩, none) actions := by
  have promised := (eachStep_map step_fw (⟨powerOn, chips⟩ : Board) actions).2
    (inBounds.and wellFormed)
  have instrumented : EachStep (withHistory Board.step latestPattern)
      (fun s a => StoreInBounds s.1.fw a ∧ LatchesWellFormed s.1.fw a)
      (⟨powerOn, chips⟩, none) actions :=
    (eachStep_withHistory none (⟨powerOn, chips⟩ : Board) actions).2 promised
  refine eachStep_of_invariant (fun s => RefreshInv s.1 s.2) ?_ ?_ (refreshInv_start chips)
    instrumented
  · rintro ⟨b, latest⟩ a inv promise
    exact inv.step promise.1 promise.2
  · rintro ⟨b, latest⟩ a inv promise
    exact inv.refines promise.1 promise.2

end Refinement

end VoltCtrl.Firmware
