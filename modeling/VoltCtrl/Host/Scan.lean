/-
Module: VoltCtrl.Host.Scan
Layer: Host
Purpose: The order of the directions in an automatic scan. `AutoScanFlag` is the number of ticks handled
  since it was last reset, counted from its initial value around a cycle of five; Start sends the first
  buffer and leaves the flag alone. So a scan goes on with the second direction exactly when the ticks
  since the last reset are whole cycles.
Trusted boundary: none
Main exports: ticksSinceReset, flag_eq, scanCalls, Scanning, scanning_run, scan_in_order_iff
-/
import VoltCtrl.Host.Ports

namespace VoltCtrl.Host

open VoltCtrl.Core

/-! ### The position -/

/-- Stop and manual mode reset the position, and a tick of the running timer moves it on. -/
def countTick (ticks : Nat) (s : Form) (a : Action) : Nat :=
  if s.closed then ticks
  else if a.event.stops then 0
  else if a.event = .tick ∧ s.timer1.enabled = true then ticks + 1
  else ticks

/-- The ticks handled since the start of the program or the last click on Stop or manual mode. -/
def ticksSinceReset (w : World) (actions : List Action) : Nat :=
  history step countTick 0 (start w) actions

/-- The flag is where the ticks have moved it from its initial value 2. -/
def AtPosition (s : Form) (ticks : Nat) : Prop :=
  s.autoScanFlag = (ticks + 1) % 5 + 1

theorem countTick_closed {s : Form} (closed : s.closed = true) (ticks : Nat) (a : Action) :
    countTick ticks s a = ticks :=
  if_pos closed

theorem countTick_stop {s : Form} (still : s.closed = false) {a : Action}
    (stops : a.event.stops = true) (ticks : Nat) : countTick ticks s a = 0 := by
  rw [countTick, if_neg (ne_true_of_eq_false still), if_pos stops]

theorem countTick_tick {s : Form} (still : s.closed = false) {a : Action} (tick : a.event = .tick)
    (enabled : s.timer1.enabled = true) (ticks : Nat) : countTick ticks s a = ticks + 1 := by
  rw [countTick, if_neg (ne_true_of_eq_false still), if_neg (by rw [tick]; decide),
    if_pos ⟨tick, enabled⟩]

theorem countTick_other {s : Form} {a : Action} (goes : a.event.stops = false)
    (other : ¬ (a.event = .tick ∧ s.timer1.enabled = true)) (ticks : Nat) :
    countTick ticks s a = ticks := by
  by_cases closed : s.closed = true
  · exact countTick_closed closed ticks a
  · rw [countTick, if_neg closed, if_neg (ne_true_of_eq_false goes), if_neg other]

theorem stops_of_silent {e : Event} (silent : e.silent = true) : e.stops = false := by
  cases e <;> first | rfl | cases silent

theorem Effect.atPosition {w : World} {s t : Form} {e : Event} (effect : Effect w s e t)
    (still : s.closed = false) {ticks : Nat} (position : AtPosition s ticks) :
    AtPosition t (countTick ticks s ⟨w, e⟩) := by
  unfold AtPosition at position ⊢
  cases effect with
  | idle silent idle =>
      have other : e ≠ .tick := by
        rintro rfl
        cases silent
      rw [countTick_other (stops_of_silent silent) fun both => other both.1, idle.flag]
      exact position
  | stop stops stopped =>
      rw [countTick_stop still stops]
      exact stopped.flag
  | manual _ started =>
      rw [countTick_other rfl (by simp), started.flag]
      exact position
  | auto _ started =>
      rw [countTick_other rfl (by simp), started.flag]
      exact position
  | off disabled =>
      rw [countTick_other rfl (by simp [disabled])]
      exact position
  | stray away =>
      have here : (ticks + 1) % 5 < 5 := Nat.mod_lt _ (by decide)
      exact absurd position (away ⟨_, here⟩)
  | tick n here enabled ticked =>
      rw [countTick_tick still rfl enabled, ticked.flag]
      rw [here] at position
      rw [Nat.succ.inj position, Nat.mod_add_mod]
  | closing closed =>
      rw [countTick_other rfl (by simp), closed.flag]
      exact position

theorem AtPosition.step {s : Form} {ticks : Nat} (position : AtPosition s ticks) (a : Action) :
    AtPosition (Host.step s a) (countTick ticks s a) := by
  rcases step_cases s a with ⟨closed, same⟩ | ⟨still, effect⟩
  · rw [same, countTick_closed closed]
    exact position
  · exact effect.atPosition still position

theorem flag_eq (w : World) (actions : List Action) :
    (run step (start w) actions).autoScanFlag = (ticksSinceReset w actions + 1) % 5 + 1 := by
  have initial : AtPosition (start w) 0 := (start_portOnly w).idle.flag
  exact history_invariant AtPosition (fun _ _ a position _ => position.step a) initial
    (eachStep_of_forall fun _ _ => trivial)

/-! ### A scan under way -/

/-- Every event but Start, Stop, manual mode, the open/close button and the closing of the form. -/
def Event.leavesScan : Event → Bool
  | .button1 | .button6 | .button7 | .button8 | .closing => false
  | .button2 | .button3 | .button4 | .button5 | .editComboBox1 _ | .editComboBox2 _
  | .editComboBox3 _ | .editComboBox4 _ | .editTextBox2 _ | .tick => true

/-- The frame of buffer `n` on a port. -/
def scanCall (portName : String) (files : Fin 5 → List UInt8) (n : Fin 5) : Sent :=
  { buffer := .autoReadByteData n, bytes := dataLength :: files n, portName }

/-- The first `count` frames of a scan that visits the directions in order, from theta 0 on. -/
def scanCalls (portName : String) (files : Fin 5 → List UInt8) (count : Nat) : List Sent :=
  (List.range count).map fun i => scanCall portName files (Fin.ofNat 5 i)

theorem scanCalls_succ (portName : String) (files : Fin 5 → List UInt8) (count : Nat) :
    scanCalls portName files (count + 1) =
      scanCalls portName files count ++ [scanCall portName files (Fin.ofNat 5 count)] := by
  rw [scanCalls, List.range_succ, List.map_append]
  rfl

/-- The timer runs on an open port over five buffers that hold the files, and `sent` has been sent. -/
structure Scanning (portName : String) (files : Fin 5 → List UInt8) (sent : List Sent) (s : Form) :
    Prop where
  sent : s.sent = sent
  enabled : s.timer1.enabled = true
  port : s.serialPort1 = { isOpen := true, portName }
  frames : ∀ n, frameOf (s.buffers (.autoReadByteData n)) = dataLength :: files n
  closed : s.closed = false

section Scanning

variable {portName : String} {files : Fin 5 → List UInt8} {sent : List Sent} {s : Form}

theorem Scanning.step_eq (scanning : Scanning portName files sent s) (a : Action) :
    step s a = handle a.world s a.event :=
  step_of_open scanning.closed a

/-- A tick at position `n` sends buffer `n` and moves on. -/
theorem Scanning.tick (scanning : Scanning portName files sent s) {n : Fin 5}
    (position : s.autoScanFlag = n.val + 1) (w : World) :
    Scanning portName files (sent ++ [scanCall portName files n]) (step s ⟨w, .tick⟩) ∧
      (step s ⟨w, .tick⟩).autoScanFlag = (n.val + 1) % 5 + 1 := by
  have ticked := timer1Tick_ticked w position
  have handled : step s ⟨w, .tick⟩ = timer1Tick w s :=
    (scanning.step_eq _).trans (if_pos scanning.enabled)
  have calls : callsOf s (.autoReadByteData n) (frameOf (s.buffers (.autoReadByteData n))) =
      [scanCall portName files n] := by
    rw [callsOf, scanning.port, if_pos rfl, scanning.frames]
    rfl
  rw [handled]
  constructor
  · constructor
    · rw [ticked.sent, calls, scanning.sent]
    · exact ticked.enabled
    · exact ticked.steady.port.trans scanning.port
    · rw [ticked.buffers]
      exact scanning.frames
    · exact ticked.steady.closed.trans scanning.closed
  · exact ticked.flag

/-- An event that leaves the scan, a tick apart, changes nothing of it. -/
theorem Scanning.other (scanning : Scanning portName files sent s) {a : Action}
    (leaves : a.event.leavesScan = true) (other : a.event ≠ .tick) :
    Scanning portName files sent (step s a) ∧ (step s a).autoScanFlag = s.autoScanFlag := by
  have silent : a.event.silent = true := by
    cases event : a.event with
    | tick => exact absurd event other
    | button1 | button6 | button7 | button8 | closing =>
        rw [event] at leaves
        cases leaves
    | button2 | button3 | button4 | button5 | editComboBox1 | editComboBox2 | editComboBox3
    | editComboBox4 | editTextBox2 => rfl
  have idle := idle_of_silent a.world s silent
  have port : (handle a.world s a.event).serialPort1 = s.serialPort1 := by
    cases uses : a.event.usesPort with
    | false => exact (portKept_of_other a.world s uses).port
    | true =>
        cases event : a.event with
        | button2 => exact search_open a.world (by rw [scanning.port])
        | button1 | closing =>
            rw [event] at leaves
            cases leaves
        | button3 | button4 | button5 | button6 | button7 | button8 | editComboBox1
        | editComboBox2 | editComboBox3 | editComboBox4 | editTextBox2 | tick =>
            rw [event] at uses
            cases uses
  rw [scanning.step_eq a]
  constructor
  · constructor
    · exact idle.sent.trans scanning.sent
    · exact idle.enabled.trans scanning.enabled
    · exact port.trans scanning.port
    · intro n
      rw [idle.auto n]
      exact scanning.frames n
    · exact idle.closed.trans scanning.closed
  · exact idle.flag

/-- A scan whose next frame is number `count` goes on in order. -/
theorem scanning_run {count : Nat} {earlier : List Sent}
    (scanning : Scanning portName files (earlier ++ scanCalls portName files count) s)
    (position : s.autoScanFlag = count % 5 + 1) {after : List Action}
    (leaves : ∀ a ∈ after, a.event.leavesScan = true) :
    Scanning portName files
      (earlier ++ scanCalls portName files (count + after.countP (·.event = .tick)))
      (run step s after) := by
  induction after generalizing count s with
  | nil => exact scanning
  | cons a after ih =>
      have leavesAfter (b : Action) (member : b ∈ after) : b.event.leavesScan = true :=
        leaves b (List.mem_cons_of_mem a member)
      rw [run_cons, List.countP_cons]
      by_cases tick : a.event = .tick
      · rcases a with ⟨w, e⟩
        subst tick
        have next := scanning.tick (n := Fin.ofNat 5 count) position w
        rw [List.append_assoc, ← scanCalls_succ] at next
        have moved : (step s ⟨w, .tick⟩).autoScanFlag = (count + 1) % 5 + 1 := by
          rw [next.2]
          exact congrArg (· + 1) (Nat.mod_add_mod count 5 1)
        have rest := ih next.1 moved leavesAfter
        rw [if_pos (decide_eq_true rfl), ← Nat.add_assoc, Nat.add_right_comm]
        exact rest
      · have next := scanning.other (leaves a List.mem_cons_self) tick
        rw [if_neg (by simpa using tick), Nat.add_zero]
        exact ih next.1 (next.2.trans position) leavesAfter

/-- Start in automatic mode, with the port open and five complete files, sends the first of them. -/
theorem scanning_of_start {w : World} (closed : s.closed = false) (mode : s.autoScan = true)
    (flag : s.isSerialPortOpen = true) (isOpen : s.serialPort1.isOpen = true)
    (whole : ∀ n, complete (scanFile w s n) = some (files n)) :
    Scanning s.serialPort1.portName files
        (s.sent ++ [scanCall s.serialPort1.portName files 0]) (step s ⟨w, .button8⟩) ∧
      (step s ⟨w, .button8⟩).autoScanFlag = s.autoScanFlag := by
  have started := startAuto_started w s
  have handled : step s ⟨w, .button8⟩ = startAuto w s := by
    rw [step_of_open closed, handle, button8Click_auto w mode]
  have payloads := loadedAuto_complete whole
  rw [handled]
  constructor
  · constructor
    · rw [started.sent, guardedCalls, if_pos flag, callsOf, if_pos isOpen, payloads]
      rfl
    · rw [started.enabled, flag]
      rfl
    · rw [started.steady.port, ← isOpen]
    · intro n
      rw [started.auto, if_pos flag, payloads]
    · exact started.steady.closed.trans closed
  · exact started.flag

end Scanning

/-- A Start of the automatic scan with the port open and all five files complete. -/
structure ScanStart (w : World) (s : Form) (files : Fin 5 → List UInt8) : Prop where
  closed : s.closed = false
  autoScan : s.autoScan = true
  isOpen : s.isSerialPortOpen = true
  whole : ∀ n, complete (scanFile w s n) = some (files n)

/-- From the Start on, whatever leaves the scan alone, the frames sent are those of the five buffers in
order from the first one, one at the click and one at each tick. -/
def VisitsInOrder (w : World) (s : Form) (files : Fin 5 → List UInt8) : Prop :=
  ∀ after : List Action, (∀ a ∈ after, a.event.leavesScan = true) →
    (run step s (⟨w, .button8⟩ :: after)).sent =
      s.sent ++ scanCalls s.serialPort1.portName files (1 + after.countP (·.event = .tick))

/-- A Start visits the directions in order exactly when the flag has its initial value. -/
theorem visitsInOrder_iff {w : World} {s : Form} {files : Fin 5 → List UInt8}
    (starts : ScanStart w s files) (isOpen : s.serialPort1.isOpen = true)
    (somewhere : ∃ n : Fin 5, s.autoScanFlag = n.val + 1) :
    VisitsInOrder w s files ↔ s.autoScanFlag = 2 := by
  have started := scanning_of_start starts.closed starts.autoScan starts.isOpen isOpen starts.whole
  constructor
  · intro inOrder
    rcases somewhere with ⟨n, flag⟩
    have next := (started.1.tick (started.2.trans flag) w).1.sent
    have expected := inOrder [⟨w, .tick⟩] (by simp [Event.leavesScan])
    rw [run_cons, run_cons, run_nil, next, List.append_assoc] at expected
    have second := List.append_cancel_left expected
    have pair : scanCalls s.serialPort1.portName files
        (1 + [Action.mk w .tick].countP (·.event = .tick)) =
          [scanCall s.serialPort1.portName files 0] ++
            [scanCall s.serialPort1.portName files 1] := rfl
    rw [pair] at second
    have same := List.append_cancel_left second
    have buffers := congrArg Sent.buffer (List.cons.inj same).1
    have index : n = 1 := Buffer.autoReadByteData.inj buffers
    rw [flag, index]
    rfl
  · intro flag after leaves
    have position : (step s ⟨w, .button8⟩).autoScanFlag = 1 % 5 + 1 := started.2.trans flag
    have first : [scanCall s.serialPort1.portName files 0] =
        scanCalls s.serialPort1.portName files 1 := rfl
    rw [first] at started
    exact (scanning_run started.1 position leaves).sent

/-- A Start visits the directions in order exactly when the ticks handled since the last Stop, manual
mode or start of the program are whole cycles of five. -/
theorem scan_in_order_iff (w : World) (before : List Action) (v : World)
    (files : Fin 5 → List UInt8) (starts : ScanStart v (run step (start w) before) files) :
    VisitsInOrder v (run step (start w) before) files ↔ ticksSinceReset w before % 5 = 0 := by
  have flag := flag_eq w before
  have isOpen := openIfFlag_run w before starts.closed starts.isOpen
  have somewhere : ∃ n : Fin 5, (run step (start w) before).autoScanFlag = n.val + 1 :=
    ⟨Fin.ofNat 5 (ticksSinceReset w before + 1), flag⟩
  rw [visitsInOrder_iff starts isOpen somewhere, flag]
  omega

/-! ### A second Start during a scan -/

/-- A port is opened and automatic mode chosen. -/
def ready : List Action :=
  opening onePort "COM1" ++ [⟨onePort, .button5⟩]

/-- A scan is started, and one tick goes by. -/
def oneTick : List Action :=
  ready ++ [⟨onePort, .button8⟩, ⟨onePort, .tick⟩]

/-- What every file of the scan holds. -/
def ones : Fin 5 → List UInt8 :=
  fun _ => List.replicate 136 1

theorem ready_starts : ScanStart onePort (run step (start onePort) ready) ones ∧
    (run step (start onePort) ready).serialPort1 = { isOpen := true, portName := "COM1" } ∧
    (run step (start onePort) ready).sent = [] ∧
    (run step (start onePort) ready).autoScanFlag = 2 := by
  have opened := onePort_justOpened
  rw [ready, run_append, run_cons, run_nil]
  generalize run step (start onePort) (opening onePort "COM1") = s at opened ⊢
  have flag : s.autoScanFlag = 2 := congrArg Form.autoScanFlag opened
  rw [opened.button5 onePort]
  refine ⟨⟨opened.closed, rfl, opened.isOpen, fun n => ?_⟩, opened.port, opened.sent, flag⟩
  have file : scanFile onePort { s with autoScan := true } n = scanFile onePort s n := rfl
  rw [file, opened.scanFile_eq]
  exact complete_whole List.length_replicate

/-- After the tick the scan has sent two frames, and goes on. -/
theorem oneTick_scanning :
    Scanning "COM1" ones (scanCalls "COM1" ones 2) (run step (start onePort) oneTick) ∧
      (run step (start onePort) oneTick).autoScanFlag = 3 := by
  rcases ready_starts with ⟨starts, port, sent, flag⟩
  rw [oneTick, run_append, run_cons, run_cons, run_nil]
  generalize run step (start onePort) ready = s at starts port sent flag ⊢
  have scanning :=
    scanning_of_start starts.closed starts.autoScan starts.isOpen (by rw [port]) starts.whole
  rw [port, sent, List.nil_append] at scanning
  have position : (step s ⟨onePort, .button8⟩).autoScanFlag = (1 : Fin 5).val + 1 :=
    scanning.2.trans flag
  exact scanning.1.tick position onePort

theorem oneTick_starts : ScanStart onePort (run step (start onePort) oneTick) ones := by
  rcases ready_starts with ⟨starts, port, -, flag⟩
  have still := oneTick_scanning.1.closed
  rw [oneTick, run_append, run_cons, run_cons, run_nil] at still ⊢
  generalize run step (start onePort) ready = s at starts port flag still ⊢
  have scanning :=
    scanning_of_start starts.closed starts.autoScan starts.isOpen (by rw [port]) starts.whole
  have clicked : step s ⟨onePort, .button8⟩ = startAuto onePort s := by
    rw [step_of_open starts.closed, handle, button8Click_auto onePort starts.autoScan]
  have position : (step s ⟨onePort, .button8⟩).autoScanFlag = (1 : Fin 5).val + 1 :=
    scanning.2.trans flag
  have ticked : step (step s ⟨onePort, .button8⟩) ⟨onePort, .tick⟩ =
      timer1Tick onePort (step s ⟨onePort, .button8⟩) :=
    (scanning.1.step_eq _).trans (if_pos scanning.1.enabled)
  have first := (startAuto_started onePort s).steady
  have second := (timer1Tick_ticked onePort position).steady
  rw [← clicked] at first
  rw [← ticked] at second
  refine ⟨still, ?_, ?_, fun n => ?_⟩
  · rw [second.autoScan, first.autoScan, starts.autoScan]
  · rw [second.isOpen, first.isOpen, starts.isOpen]
  · rw [second.scanFile_eq, first.scanFile_eq, starts.whole]

theorem first_scan_in_order :
    VisitsInOrder onePort (run step (start onePort) ready) ones ↔
      ticksSinceReset onePort ready % 5 = 0 :=
  scan_in_order_iff onePort ready onePort ones ready_starts.1

/-- A Start one tick into a scan sends theta 0 and then theta 30. -/
theorem second_start_out_of_order :
    ScanStart onePort (run step (start onePort) oneTick) ones ∧
      ¬ VisitsInOrder onePort (run step (start onePort) oneTick) ones := by
  obtain ⟨scanning, flag⟩ := oneTick_scanning
  refine ⟨oneTick_starts, ?_⟩
  rw [visitsInOrder_iff oneTick_starts (by rw [scanning.port]) ⟨2, flag⟩, flag]
  decide

end VoltCtrl.Host
