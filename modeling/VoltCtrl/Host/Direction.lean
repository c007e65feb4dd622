/-
Module: VoltCtrl.Host.Direction
Layer: Host
Purpose: When the direction shown is the direction of the last frame written. A history variable keeps
  the direction of the last frame that the port took. Stop, manual mode and an automatic Start show theta
  0 only where they send, but a manual Start and a tick set the picture whether or not anything is
  written, a manual Start sends after a selection that matches nothing, and the closing handler sends
  without showing.
Trusted boundary: none
Main exports: selectedPath, scanPath, ReadsSucceed, frameDirection, noteWritten, Agrees,
  ShowsLastWritten, StillShown, KeepsDirection, keepsDirection_iff, direction_shown_iff
-/
import VoltCtrl.Host.Panel
import VoltCtrl.Host.Ports

namespace VoltCtrl.Host

open VoltCtrl.Core

/-! ### The files that a handler reads -/

/-- The path that a manual selection names, when frequency, phi and theta are all valid. -/
def selectedPath (s : Form) : Option String :=
  match convertToInt32 s.comboBox2, convertToInt32 s.comboBox3, convertToInt32 s.comboBox4 with
  | .ok freq, .ok phi, .ok theta =>
      if isPhi phi && isFreq freq && (pictureOf theta).isSome then some (filePath freq phi theta)
      else none
  | _, _, _ => none

/-- Path `n` that the selection of a scan names. -/
def scanPath (s : Form) (n : Fin 5) : Option String :=
  match convertToInt32 s.comboBox2, convertToInt32 s.comboBox3 with
  | .ok freq, .ok phi =>
      if isPhi phi && isFreq freq then some (filePath freq phi (scanTheta n)) else none
  | _, _ => none

/-- The files that the handler of an event opens. -/
def filesRead (w : World) (s : Form) : Event → List String
  | .button3 => w.openFileName.toList
  | .button8 => if s.autoScan then (List.finRange 5).filterMap (scanPath s) else (selectedPath s).toList
  | .button1 | .button2 | .button4 | .button5 | .button6 | .button7 | .editComboBox1 _
  | .editComboBox2 _ | .editComboBox3 _ | .editComboBox4 _ | .editTextBox2 _ | .tick | .closing => []

/-- Every file that the step opens is there and complete. -/
def ReadsSucceed (s : Form) (a : Action) : Prop :=
  s.closed = false →
    ∀ path ∈ filesRead a.world s a.event, (complete (a.world.readFile path)).isSome = true

/-! ### The last frame written -/

/-- The direction of a frame sent while an event is handled, by the array that it is taken from; a
manual frame has the direction selected, if that is one. -/
def frameDirection (s : Form) (buffer : Buffer) : Option Picture :=
  match buffer with
  | .zeroData => some .deg0
  | .readByteData => selectedPicture s
  | .autoReadByteData n => some (scanPicture n)
  | .writeByteData => none

/-- The direction of the last frame written, after one more step; a call of `Write` that raises writes
nothing. -/
def noteWritten (last : Option (Option Picture)) (s : Form) (a : Action) :
    Option (Option Picture) :=
  if a.world.writeFails then last
  else
    match ((step s a).sent.drop s.sent.length).getLast? with
    | some call => some (frameDirection s call.buffer)
    | none => last

/-- If a frame has been written, its direction is the one shown. -/
def Agrees (last : Option (Option Picture)) (shown : Picture) : Prop :=
  ∀ direction, last = some direction → direction = some shown

/-- After every step of the run the direction shown is that of the last frame written. -/
def ShowsLastWritten (w : World) (actions : List Action) : Prop :=
  EachStep (withHistory step noteWritten)
    (fun s a => Agrees (noteWritten s.2 s.1 a) (step s.1 a).pictureBox1)
    (start w, none) actions

/-! ### When a step keeps the direction -/

/-- No frame has been written yet, or the picture is the one shown already. -/
def StillShown (last : Option (Option Picture)) (s : Form) (picture : Picture) : Prop :=
  last = none ∨ s.pictureBox1 = picture

/-- A handler that sets the picture gets its frame written or sets what is shown already; a manual Start
that gets its frame written has a valid selection or the theta shown already; the zero frame of the
closing handler is not written unless theta 0 is shown. -/
def KeepsDirection (last : Option (Option Picture)) (s : Form) (a : Action) : Prop :=
  s.closed = false →
    match a.event with
    | .button6 | .button7 =>
        s.isSerialPortOpen = true → a.world.writeFails = true → StillShown last s .deg0
    | .button8 =>
        if s.autoScan then
          s.isSerialPortOpen = true → a.world.writeFails = true → StillShown last s .deg0
        else if s.isSerialPortOpen = true ∧ a.world.writeFails = false then
          (selectedPath s).isSome = true ∨ selectedPicture s = some s.pictureBox1
        else
          (selectedPath s).isSome = true →
            ∀ picture, selectedPicture s = some picture → StillShown last s picture
    | .tick =>
        s.timer1.enabled = true →
          ¬ (s.serialPort1.isOpen = true ∧ a.world.writeFails = false) →
            ∀ n : Fin 5, s.autoScanFlag = n.val + 1 → StillShown last s (scanPicture n)
    | .closing =>
        (s.serialPort1.isOpen = true ∨ a.world.canOpen s.serialPort1.portName = true) →
          a.world.writeFails = false → s.pictureBox1 = .deg0
    | .button1 | .button2 | .button3 | .button4 | .button5 | .editComboBox1 _ | .editComboBox2 _
    | .editComboBox3 _ | .editComboBox4 _ | .editTextBox2 _ => True

section Steps

variable {last : Option (Option Picture)} {s : Form} {a : Action}

theorem noteWritten_silent (same : (step s a).sent = s.sent) : noteWritten last s a = last := by
  unfold noteWritten
  rw [same, List.drop_length]
  split
  · rfl
  · rfl

theorem noteWritten_calls {u : Form} {buffer : Buffer} {bytes : List UInt8}
    (grown : (step s a).sent = s.sent ++ callsOf u buffer bytes) :
    noteWritten last s a =
      if u.serialPort1.isOpen = true ∧ a.world.writeFails = false then
        some (frameDirection s buffer)
      else last := by
  unfold noteWritten
  rw [grown, List.drop_left]
  cases fails : a.world.writeFails with
  | true => simp
  | false =>
      cases isOpen : u.serialPort1.isOpen with
      | true => simp [callsOf, isOpen]
      | false => simp [callsOf, isOpen]

/-- What has not been written again agrees with a picture exactly when it is still shown. -/
theorem agrees_iff_stillShown (before : Agrees last s.pictureBox1) (picture : Picture) :
    Agrees last picture ↔ StillShown last s picture := by
  unfold Agrees StillShown at *
  cases last with
  | none => simp
  | some direction =>
      have here := before direction rfl
      subst here
      simp

theorem agrees_silent (same : (step s a).sent = s.sent)
    (picture : (step s a).pictureBox1 = s.pictureBox1) (before : Agrees last s.pictureBox1) :
    Agrees (noteWritten last s a) (step s a).pictureBox1 := by
  rw [noteWritten_silent same, picture]
  exact before

theorem agrees_calls_iff {u : Form} {buffer : Buffer} {bytes : List UInt8}
    (grown : (step s a).sent = s.sent ++ callsOf u buffer bytes)
    (before : Agrees last s.pictureBox1) :
    Agrees (noteWritten last s a) (step s a).pictureBox1 ↔
      if u.serialPort1.isOpen = true ∧ a.world.writeFails = false then
        frameDirection s buffer = some (step s a).pictureBox1
      else StillShown last s (step s a).pictureBox1 := by
  rw [noteWritten_calls grown]
  split
  · simp [Agrees]
  · exact agrees_iff_stillShown before _

/-- A handler that shows the direction of its frame, and does both only when the program holds the port
for open. -/
theorem agrees_guarded_iff {buffer : Buffer} {bytes : List UInt8} {picture : Picture}
    (openIf : OpenIfFlag s) (before : Agrees last s.pictureBox1)
    (grown : (step s a).sent = s.sent ++ guardedCalls s buffer bytes)
    (shows : (step s a).pictureBox1 = if s.isSerialPortOpen then picture else s.pictureBox1)
    (direction : frameDirection s buffer = some picture) :
    Agrees (noteWritten last s a) (step s a).pictureBox1 ↔
      (s.isSerialPortOpen = true → a.world.writeFails = true → StillShown last s picture) := by
  cases flag : s.isSerialPortOpen with
  | false =>
      have silent : guardedCalls s buffer bytes = [] := if_neg (ne_true_of_eq_false flag)
      rw [silent, List.append_nil] at grown
      rw [flag, if_neg Bool.false_ne_true] at shows
      exact iff_of_true (agrees_silent grown shows before) (nomatch ·)
  | true =>
      have calls : guardedCalls s buffer bytes = callsOf s buffer bytes := if_pos flag
      rw [calls] at grown
      rw [flag, if_pos rfl] at shows
      rw [agrees_calls_iff grown before, shows, direction]
      cases fails : a.world.writeFails with
      | true => simp
      | false => simp [openIf flag]

end Steps

/-! ### One step, event by event -/

theorem selectedFile_eq (w : World) (s : Form) :
    selectedFile w s = (selectedPath s).bind w.readFile := by
  unfold selectedFile selectedPath
  cases convertToInt32 s.comboBox2 with
  | error e => rfl
  | ok freq =>
      cases convertToInt32 s.comboBox3 with
      | error e => rfl
      | ok phi =>
          cases convertToInt32 s.comboBox4 with
          | error e => rfl
          | ok theta =>
              simp only
              split
              · rfl
              · rfl

section Events

variable {last : Option (Option Picture)} {w : World} {s t : Form}

/-- The picture after a manual Start whose read succeeds. -/
theorem startManual_picture
    (reads : ∀ path ∈ (selectedPath s).toList, (complete (w.readFile path)).isSome = true) :
    if (selectedPath s).isSome then selectedPicture s = some (startManual w s).pictureBox1
    else (startManual w s).pictureBox1 = s.pictureBox1 := by
  have file := selectedFile_eq w s
  cases path : selectedPath s with
  | none =>
      rw [path, Option.bind_none] at file
      exact startManual_quiet (by rw [file]; rfl)
  | some name =>
      have whole := reads name (by rw [path]; exact List.mem_singleton_self name)
      rcases Option.isSome_iff_exists.1 whole with ⟨bytes, read⟩
      rw [path, Option.bind_some] at file
      rw [← file] at read
      exact startManual_shows read

/-- The frame of a manual Start is written: the picture is its direction exactly when the selection is
valid or shows already. -/
theorem manual_written_iff {shown : Picture}
    (picture : if (selectedPath s).isSome then selectedPicture s = some shown
      else shown = s.pictureBox1) :
    ((selectedPath s).isSome = true ∨ selectedPicture s = some s.pictureBox1) ↔
      selectedPicture s = some shown := by
  by_cases valid : (selectedPath s).isSome = true
  · rw [if_pos valid] at picture
    exact iff_of_true (.inl valid) picture
  · rw [if_neg valid] at picture
    rw [picture]
    exact ⟨fun either => either.resolve_left valid, .inr⟩

/-- It is not written: the picture may stand exactly when the selection sets nothing new. -/
theorem manual_unwritten_iff {shown : Picture}
    (picture : if (selectedPath s).isSome then selectedPicture s = some shown
      else shown = s.pictureBox1) :
    ((selectedPath s).isSome = true →
        ∀ picture, selectedPicture s = some picture → StillShown last s picture) ↔
      StillShown last s shown := by
  by_cases valid : (selectedPath s).isSome = true
  · rw [if_pos valid] at picture
    constructor
    · exact fun all => all valid shown picture
    · intro still _ other selected
      rw [picture, Option.some.injEq] at selected
      rw [← selected]
      exact still
  · rw [if_neg valid] at picture
    exact iff_of_true (fun contrary => absurd contrary valid) (.inr picture.symm)

theorem keeps_manual_iff (still : s.closed = false) (mode : s.autoScan = false)
    (openIf : OpenIfFlag s) (reads : ReadsSucceed s ⟨w, .button8⟩)
    (before : Agrees last s.pictureBox1) :
    KeepsDirection last s ⟨w, .button8⟩ ↔
      Agrees (noteWritten last s ⟨w, .button8⟩) (step s ⟨w, .button8⟩).pictureBox1 := by
  have handled : step s ⟨w, .button8⟩ = startManual w s := by
    rw [step_of_open still, handle, button8Click_manual w mode]
  have files : filesRead w s .button8 = (selectedPath s).toList :=
    if_neg (ne_true_of_eq_false mode)
  -- the load decides what is shown; the port and the write decide whether a frame goes out
  have picture := startManual_picture (w := w) (s := s) (by rw [← files]; exact reads still)
  have grown := (startManual_started w s).sent
  rw [← handled] at picture grown
  unfold KeepsDirection
  simp only [still, mode, Bool.false_eq_true, if_false, forall_const]
  cases flag : s.isSerialPortOpen with
  | false =>
      rw [guardedCalls, if_neg (ne_true_of_eq_false flag), List.append_nil] at grown
      rw [noteWritten_silent grown, agrees_iff_stillShown before]
      simp only [Bool.false_eq_true, false_and, if_false]
      exact manual_unwritten_iff picture
  | true =>
      rw [guardedCalls, if_pos flag] at grown
      rw [agrees_calls_iff grown before]
      cases fails : w.writeFails with
      | true =>
          simp only [Bool.true_eq_false, and_false, if_false]
          exact manual_unwritten_iff picture
      | false =>
          simp only [openIf flag, and_self, if_true]
          exact manual_written_iff picture

theorem keeps_auto_iff (still : s.closed = false) (mode : s.autoScan = true)
    (openIf : OpenIfFlag s) (before : Agrees last s.pictureBox1) :
    KeepsDirection last s ⟨w, .button8⟩ ↔
      Agrees (noteWritten last s ⟨w, .button8⟩) (step s ⟨w, .button8⟩).pictureBox1 := by
  have handled : step s ⟨w, .button8⟩ = startAuto w s := by
    rw [step_of_open still, handle, button8Click_auto w mode]
  have grown := (startAuto_started w s).sent
  have shows := congrArg Prod.fst (startAuto_panel w s)
  rw [← handled] at grown shows
  rw [agrees_guarded_iff openIf before grown shows rfl]
  unfold KeepsDirection
  simp only [still, mode, if_true, forall_const]

theorem keeps_stop_iff {e : Event} (stops : e.stops = true) (still : s.closed = false)
    (openIf : OpenIfFlag s) (before : Agrees last s.pictureBox1) :
    KeepsDirection last s ⟨w, e⟩ ↔
      Agrees (noteWritten last s ⟨w, e⟩) (step s ⟨w, e⟩).pictureBox1 := by
  have handled : step s ⟨w, e⟩ = handle w s e := step_of_open still ⟨w, e⟩
  have shows := congrArg Prod.fst (stop_panel w s stops)
  rw [← handled] at shows
  unfold KeepsDirection
  rcases e.eq_of_stops stops with rfl | rfl
  · have grown := (button6Click_stopped w s).sent
    have clicked : step s ⟨w, .button6⟩ = button6Click w s := handled
    rw [← clicked] at grown
    rw [agrees_guarded_iff openIf before grown shows rfl]
    simp only [still, forall_const]
  · have grown := (button7Click_stopped w s).sent
    have clicked : step s ⟨w, .button7⟩ = button7Click w s := handled
    rw [← clicked] at grown
    rw [agrees_guarded_iff openIf before grown shows rfl]
    simp only [still, forall_const]

theorem keeps_silent {e : Event} (silent : e.silent = true) (still : s.closed = false)
    (before : Agrees last s.pictureBox1) :
    Agrees (noteWritten last s ⟨w, e⟩) (step s ⟨w, e⟩).pictureBox1 := by
  have handled : step s ⟨w, e⟩ = handle w s e := step_of_open still ⟨w, e⟩
  have idle := idle_of_silent w s silent
  have kept := picture_of_panel (panel_of_silent w s silent)
  rw [← handled] at idle kept
  exact agrees_silent idle.sent kept before

theorem keeps_tick_iff (still : s.closed = false) (before : Agrees last s.pictureBox1) :
    KeepsDirection last s ⟨w, .tick⟩ ↔
      Agrees (noteWritten last s ⟨w, .tick⟩) (step s ⟨w, .tick⟩).pictureBox1 := by
  have handled : step s ⟨w, .tick⟩ = if s.timer1.enabled then timer1Tick w s else s :=
    step_of_open still ⟨w, .tick⟩
  unfold KeepsDirection
  simp only [still, forall_const]
  cases enabled : s.timer1.enabled with
  | false =>
      rw [enabled, if_neg Bool.false_ne_true] at handled
      have agrees : Agrees (noteWritten last s ⟨w, .tick⟩) (step s ⟨w, .tick⟩).pictureBox1 :=
        agrees_silent (by rw [handled]) (by rw [handled]) before
      exact iff_of_true (nomatch ·) agrees
  | true =>
      rw [enabled, if_pos rfl] at handled
      by_cases somewhere : ∃ n : Fin 5, s.autoScanFlag = n.val + 1
      · rcases somewhere with ⟨n, position⟩
        have grown := (timer1Tick_ticked w position).sent
        have shows : (step s ⟨w, .tick⟩).pictureBox1 = scanPicture n := by
          rw [handled]
          exact congrArg Prod.fst (timer1Tick_panel w position)
        rw [← handled] at grown
        rw [agrees_calls_iff grown before, shows]
        by_cases written : s.serialPort1.isOpen = true ∧ w.writeFails = false
        · rw [if_pos written]
          exact iff_of_true (fun _ contrary => absurd written contrary) rfl
        · rw [if_neg written]
          constructor
          · exact fun all => all rfl written n position
          · intro stillShown _ _ m here
            have same : m = n := by omega
            rw [same]
            exact stillShown
      · have stray := not_exists.1 somewhere
        rw [timer1Tick_stray w stray] at handled
        have agrees : Agrees (noteWritten last s ⟨w, .tick⟩) (step s ⟨w, .tick⟩).pictureBox1 :=
          agrees_silent (by rw [handled]; rfl) (by rw [handled]; rfl) before
        exact iff_of_true (fun _ _ n position => absurd position (stray n)) agrees

theorem reopened_isOpen (w : World) (port : SerialPort) :
    (reopened w port).isOpen = true ↔ port.isOpen = true ∨ w.canOpen port.portName = true := by
  rw [reopened_eq]
  exact Bool.or_eq_true_iff

theorem keeps_closing_iff (still : s.closed = false) (before : Agrees last s.pictureBox1) :
    KeepsDirection last s ⟨w, .closing⟩ ↔
      Agrees (noteWritten last s ⟨w, .closing⟩) (step s ⟨w, .closing⟩).pictureBox1 := by
  have handled : step s ⟨w, .closing⟩ = { form1Closing w s with closed := true } :=
    step_of_open still ⟨w, .closing⟩
  have grown := (form1Closing_closed w s).sent
  have kept := picture_of_panel (closing_panel w s)
  rw [← handled] at grown kept
  rw [agrees_calls_iff grown before, kept]
  unfold KeepsDirection
  simp only [still, forall_const]
  rw [← reopened_isOpen]
  cases fails : w.writeFails with
  | true => simp [StillShown]
  | false =>
      cases isOpen : (reopened w s.serialPort1).isOpen with
      | true => simp [frameDirection, eq_comm]
      | false => simp [StillShown]

end Events

/-- One step: the condition is exact where the direction shown agrees before the step. -/
theorem keepsDirection_iff {last : Option (Option Picture)} {s : Form} (a : Action)
    (openIf : s.closed = false → OpenIfFlag s) (reads : ReadsSucceed s a)
    (before : Agrees last s.pictureBox1) :
    KeepsDirection last s a ↔ Agrees (noteWritten last s a) (step s a).pictureBox1 := by
  rcases a with ⟨w, e⟩
  cases closed : s.closed with
  | true =>
      have same : step s ⟨w, e⟩ = s := step_of_closed closed ⟨w, e⟩
      have agrees : Agrees (noteWritten last s ⟨w, e⟩) (step s ⟨w, e⟩).pictureBox1 :=
        agrees_silent (by rw [same]) (by rw [same]) before
      exact iff_of_true (fun still => nomatch closed.symm.trans still) agrees
  | false =>
      cases e with
      | button6 => exact keeps_stop_iff rfl closed (openIf closed) before
      | button7 => exact keeps_stop_iff rfl closed (openIf closed) before
      | button8 =>
          cases mode : s.autoScan with
          | false => exact keeps_manual_iff closed mode (openIf closed) reads before
          | true => exact keeps_auto_iff closed mode (openIf closed) before
      | tick => exact keeps_tick_iff closed before
      | closing => exact keeps_closing_iff closed before
      | button1 | button2 | button3 | button4 | button5 | editComboBox1 | editComboBox2
      | editComboBox3 | editComboBox4 | editTextBox2 =>
          exact iff_of_true (fun _ => trivial) (keeps_silent rfl closed before)

/-! ### Runs -/

/-- In a run whose reads succeed, the direction shown is that of the last frame written, after every
step, exactly when every step keeps the direction. -/
theorem direction_shown_iff (w : World) (actions : List Action)
    (reads : EachStep step ReadsSucceed (start w) actions) :
    ShowsLastWritten w actions ↔
      EachStep (withHistory step noteWritten) (fun s a => KeepsDirection s.2 s.1 a)
        (start w, none) actions := by
  have promised : EachStep (withHistory step noteWritten) (fun s a => ReadsSucceed s.1 a)
      (start w, none) actions :=
    (eachStep_withHistory none (start w) actions).2 reads
  have nothing : Agrees none (start w).pictureBox1 := by
    intro direction written
    cases written
  have exact := eachStep_exact (P := fun s a => KeepsDirection s.2 s.1 a)
    (Q := fun _ _ => True)
    (fun s : Form × Option (Option Picture) => s.1.closed = false → OpenIfFlag s.1)
    (fun s => Agrees s.2 s.1.pictureBox1)
    (fun s a before still => keeps_until_closed (openIfFlag_handle a.world) before still)
    (fun s a openIf before here => by
      rw [true_and]
      exact keepsDirection_iff a openIf here before)
    (fun still => openIfFlag_run w [] still) nothing promised
  simp only [true_and] at exact
  exact exact.symm

theorem reads_of_complete {s : Form} {actions : List Action}
    (files : ∀ a ∈ actions, ∀ path, (complete (a.world.readFile path)).isSome = true) :
    EachStep step ReadsSucceed s actions :=
  (eachStep_of_forall files).mono fun _ _ whole _ path _ => whole path

theorem onePort_complete (path : String) : (complete (onePort.readFile path)).isSome = true :=
  congrArg Option.isSome (complete_whole List.length_replicate)

theorem first_start_shown_iff :
    ShowsLastWritten onePort (opening onePort "COM1" ++ [⟨onePort, .button8⟩]) ↔
      EachStep (withHistory step noteWritten) (fun s a => KeepsDirection s.2 s.1 a)
        (start onePort, none) (opening onePort "COM1" ++ [⟨onePort, .button8⟩]) :=
  direction_shown_iff onePort (opening onePort "COM1" ++ [⟨onePort, .button8⟩])
    (reads_of_complete (by simp [opening, onePort_complete]))

/-! ### A tick on a closed port -/

/-- A scan is started on COM1, and the port is closed while the timer runs. -/
def scanThenClose : List Action :=
  ((opening onePort "COM1" ++ [⟨onePort, .button5⟩]) ++ [⟨onePort, .button8⟩]) ++
    [⟨onePort, .button1⟩]

/-- The start of the scan, from the state that the opening leaves. -/
theorem starts_after_opening {s : Form} (opened : JustOpened "COM1" s) :
    AutoStarted onePort { s with autoScan := true }
      (step { s with autoScan := true } ⟨onePort, .button8⟩) := by
  have still : ({ s with autoScan := true } : Form).closed = false := opened.closed
  rw [step_of_open still, handle, button8Click_auto onePort rfl]
  exact startAuto_started onePort _

theorem scanThenClose_state :
    (run step (start onePort) scanThenClose).closed = false ∧
      (run step (start onePort) scanThenClose).serialPort1.isOpen = false ∧
      (run step (start onePort) scanThenClose).timer1.enabled = true ∧
      (run step (start onePort) scanThenClose).autoScanFlag = 1 + 1 ∧
      history step noteWritten none (start onePort) scanThenClose = some (some .deg0) := by
  have opened := onePort_justOpened
  have flag : (run step (start onePort) (opening onePort "COM1")).autoScanFlag = 2 :=
    congrArg Form.autoScanFlag opened
  rw [scanThenClose, history_snoc, history_snoc, run_snoc, run_snoc, run_snoc]
  generalize history step noteWritten none (start onePort)
    (opening onePort "COM1" ++ [⟨onePort, .button5⟩]) = last
  generalize run step (start onePort) (opening onePort "COM1") = s at opened flag ⊢
  have started := starts_after_opening opened
  rw [opened.button5 onePort]
  have isOpen : ({ s with autoScan := true } : Form).serialPort1.isOpen = true :=
    congrArg SerialPort.isOpen opened.port
  have sent := started.sent
  rw [guardedCalls, if_pos opened.isOpen] at sent
  have written : noteWritten last { s with autoScan := true } ⟨onePort, .button8⟩ =
      some (some .deg0) := by
    rw [noteWritten_calls sent, if_pos ⟨isOpen, rfl⟩]
    rfl
  have enabled := started.enabled
  have position := started.flag
  have steady := started.steady
  rw [written]
  generalize step { s with autoScan := true } ⟨onePort, .button8⟩ = t at enabled position steady
  rcases click_closes (w := onePort) rfl (steady.closed.trans opened.closed) (steady.read opened.read)
    (by rw [steady.port, isOpen]) with ⟨port, only⟩
  have idle := only.idle
  refine ⟨?_, ?_, ?_, ?_, noteWritten_silent idle.sent⟩
  · rw [idle.closed, steady.closed, opened.closed]
  · rw [port]
  · rw [idle.enabled, enabled, opened.isOpen]
    rfl
  · rw [idle.flag, position, flag]

/-- Every file is there, a scan is started, the port is closed and the timer ticks: theta 15 is shown, and
the last frame written is that of theta 0. -/
theorem tick_on_closed_port_shows :
    EachStep step ReadsSucceed (start onePort) (scanThenClose ++ [⟨onePort, .tick⟩]) ∧
      ¬ ShowsLastWritten onePort (scanThenClose ++ [⟨onePort, .tick⟩]) := by
  constructor
  · exact reads_of_complete (by simp [scanThenClose, opening, onePort_complete])
  · intro shows
    rw [ShowsLastWritten, eachStep_append, run_withHistory] at shows
    have last := shows.2.1
    rcases scanThenClose_state with ⟨still, shut, enabled, position, written⟩
    simp only [written] at last
    generalize run step (start onePort) scanThenClose = s at still shut enabled position last
    have ticked : step s ⟨onePort, .tick⟩ = timer1Tick onePort s :=
      (step_of_open still _).trans (if_pos enabled)
    have sent := (timer1Tick_ticked onePort (n := 1) position).sent
    have picture := congrArg Prod.fst (timer1Tick_panel onePort (n := 1) position)
    rw [callsOf, if_neg (ne_true_of_eq_false shut), List.append_nil, ← ticked] at sent
    rw [← ticked] at picture
    rw [noteWritten_silent sent] at last
    have same := last (some .deg0) rfl
    have shown : (step s ⟨onePort, .tick⟩).pictureBox1 = .whu1 := picture
    rw [shown] at same
    cases same

end VoltCtrl.Host
