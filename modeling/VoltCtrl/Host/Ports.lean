/-
Module: VoltCtrl.Host.Ports
Layer: Host
Purpose: What the open/close button and the port scan do to `serialPort1`. A scan that finds the port
  open raises in its first statement twenty times; one that finds it closed renames it twenty times, and
  opens and closes it whenever it can. While closing succeeds, the flag `IsSerialPortOpen` says whether
  the port is open.
Trusted boundary: none
Main exports: scanBody_open, scanBody_shut, search_open, search_shut, search_flag, button1Close_eq,
  button1Open_eq, portKept_of_other, OpenIfFlag, openIfFlag_run, FlagTells, flagTells_run, JustOpened,
  justOpened
-/
import VoltCtrl.Core.Machine
import VoltCtrl.Host.Sends

namespace VoltCtrl.Host

open VoltCtrl.Core

/-! ### One call -/

section Calls

variable {port : SerialPort} {name : String}

/-- A name that `PortName` takes. -/
def ValidName (name : String) : Prop :=
  ¬ (name = "" ∨ name.startsWith "\\\\")

instance (name : String) : Decidable (ValidName name) :=
  inferInstanceAs (Decidable (¬ _))

theorem setPortName_open (isOpen : port.isOpen = true) (name : String) :
    ∃ e, setPortName name port = .error e port := by
  unfold setPortName
  by_cases invalid : name = "" ∨ name.startsWith "\\\\"
  · exact ⟨_, if_pos invalid⟩
  · exact ⟨_, (if_neg invalid).trans (if_pos isOpen)⟩

theorem setPortName_shut (shut : port.isOpen = false) (valid : ValidName name) :
    setPortName name port = .ok ⟨⟩ { port with portName := name } := by
  rw [setPortName, if_neg valid, if_neg (ne_true_of_eq_false shut)]

theorem openPort_open (w : World) (isOpen : port.isOpen = true) :
    openPort w port = .error .invalidOperation port :=
  if_pos isOpen

theorem openPort_shut (w : World) (shut : port.isOpen = false) :
    openPort w port =
      if w.canOpen port.portName then .ok ⟨⟩ { port with isOpen := true }
      else .error .io port :=
  if_neg (ne_true_of_eq_false shut)

theorem closePort_open (w : World) (isOpen : port.isOpen = true) :
    closePort w port =
      if w.closeFails port.portName then .error .io port
      else .ok ⟨⟩ { port with isOpen := false } :=
  if_neg (by rw [isOpen]; decide)

/-- Opening leaves the name alone, and an open port open. -/
theorem reopened_eq (w : World) (port : SerialPort) :
    reopened w port = { port with isOpen := port.isOpen || w.canOpen port.portName } := by
  cases isOpen : port.isOpen with
  | true =>
      rw [reopened, exec_of_error (openPort_open w isOpen), Bool.true_or, ← isOpen]
  | false =>
      have opening := openPort_shut w isOpen
      by_cases usable : w.canOpen port.portName = true
      · rw [if_pos usable] at opening
        rw [reopened, exec_of_ok opening, usable, Bool.false_or]
      · rw [if_neg usable] at opening
        rw [reopened, exec_of_error opening, Bool.eq_false_iff.2 usable, Bool.false_or, ← isOpen]

theorem scanName_valid (i : Nat) : ValidName ("COM" ++ toString i) := by
  simp [ValidName]

end Calls

/-! ### One round of the scan -/

/-- The scan's state with another port. -/
def Scan.withPort (scan : Scan) (port : SerialPort) : Scan :=
  { scan with form := { scan.form with serialPort1 := port } }

theorem scanPort_ok (scan : Scan) {x : EStateM Exn SerialPort PUnit} {port : SerialPort}
    (result : x scan.form.serialPort1 = .ok ⟨⟩ port) :
    onField Scan.form (fun scan form => { scan with form }) (onPort x) scan =
      .ok ⟨⟩ (scan.withPort port) := by
  simp only [onPort, onField, result]
  rfl

theorem scanPort_error (scan : Scan) {x : EStateM Exn SerialPort PUnit} {e : Exn}
    {port : SerialPort} (result : x scan.form.serialPort1 = .error e port) :
    onField Scan.form (fun scan form => { scan with form }) (onPort x) scan =
      .error e (scan.withPort port) := by
  simp only [onPort, onField, result]
  rfl

/-- On an open port the first statement raises. -/
theorem scanBody_open (w : World) (i : Nat) {scan : Scan}
    (isOpen : scan.form.serialPort1.isOpen = true) : exec (scanBody w i) scan = scan := by
  rcases setPortName_open isOpen ("COM" ++ toString i) with ⟨e, raises⟩
  have first := scanPort_error scan raises
  exact exec_of_error (bind_of_error first)

/-- The name of a port found usable is listed. -/
def Scan.list (scan : Scan) (name : String) : Scan :=
  { scan with
    form := { scan.form with
      comboBox1 := { scan.form.comboBox1 with items := scan.form.comboBox1.items ++ [name] } } }

/-- A closed port is renamed; if it opens it is listed and closed again, and the first port that has
been through all this becomes the one chosen. -/
theorem scanBody_shut (w : World) (i : Nat) {scan : Scan}
    (shut : scan.form.serialPort1.isOpen = false) :
    exec (scanBody w i) scan =
      if w.canOpen ("COM" ++ toString i) then
        if w.closeFails ("COM" ++ toString i) then
          (scan.withPort { isOpen := true, portName := "COM" ++ toString i }).list
            ("COM" ++ toString i)
        else
          { (scan.withPort { isOpen := false, portName := "COM" ++ toString i }).list
              ("COM" ++ toString i) with
            comAbleToUse := if scan.cnt = 0 then "COM" ++ toString i else scan.comAbleToUse
            cnt := if scan.cnt = 0 then scan.cnt + 1 else scan.cnt }
      else scan.withPort { isOpen := false, portName := "COM" ++ toString i } := by
  have valid := scanName_valid i
  unfold scanBody
  simp only
  generalize "COM" ++ toString i = name at valid ⊢
  have named := scanPort_ok scan (setPortName_shut shut valid)
  rw [shut] at named
  have namedShut : ({ isOpen := false, portName := name } : SerialPort).isOpen = false := rfl
  have opening := openPort_shut w namedShut
  rw [exec, bind_of_ok named]
  by_cases usable : w.canOpen name = true
  · rw [if_pos usable] at opening
    have opened := scanPort_ok (scan.withPort { isOpen := false, portName := name }) opening
    have namedOpen : ({ isOpen := true, portName := name } : SerialPort).isOpen = true := rfl
    have closing := closePort_open w namedOpen
    rw [bind_of_ok opened, if_pos usable,
      bind_of_ok (x := modify _)
        (t := (scan.withPort { isOpen := true, portName := name }).list name) rfl]
    by_cases fails : w.closeFails name = true
    · rw [if_pos fails] at closing
      have raised := scanPort_error
        ((scan.withPort { isOpen := true, portName := name }).list name) closing
      rw [bind_of_error raised, if_pos fails]
      rfl
    · rw [if_neg fails] at closing
      have closed := scanPort_ok
        ((scan.withPort { isOpen := true, portName := name }).list name) closing
      have here (t : Scan) : (get : EStateM Exn Scan Scan) t = .ok t t := rfl
      rw [bind_of_ok closed, if_neg fails, bind_of_ok (here _)]
      by_cases first : scan.cnt = 0
      · have count : ((((scan.withPort { isOpen := true, portName := name }).list name).withPort
            { isOpen := false, portName := name }).cnt = 0) := first
        rw [if_pos count, if_pos first, if_pos first]
        rfl
      · have count : ¬ ((((scan.withPort { isOpen := true, portName := name }).list name).withPort
            { isOpen := false, portName := name }).cnt = 0) := first
        rw [if_neg count, if_neg first, if_neg first]
        rfl
  · rw [if_neg usable] at opening
    have failed := scanPort_error (scan.withPort { isOpen := false, portName := name }) opening
    rw [bind_of_error failed, if_neg usable]
    rfl

/-! ### The scan -/

/-- A round of the scan under its empty `catch`. -/
theorem scanRound_eq (w : World) (i : Nat) (scan : Scan) :
    attempt (scanBody w i) id scan = exec (scanBody w i) scan := by
  rw [attempt_eq, id, ite_self]

/-- Rounds of the scan. -/
def scanRounds (w : World) (indices : List Nat) (scan : Scan) : Scan :=
  indices.foldl (fun scan i => attempt (scanBody w i) id scan) scan

/-- The list is cleared before the first round. -/
def clearedScan (s : Form) : Scan :=
  { form := { s with comboBox1 := { s.comboBox1 with items := [] } }, comAbleToUse := "", cnt := 0 }

/-- The scan is its twenty rounds, and then shows the name found. -/
theorem search_eq (w : World) (s : Form) :
    searchAndAddSerialToComboBox w s =
      { (scanRounds w (List.range' 1 20) (clearedScan s)).form with
        comboBox1 :=
          { (scanRounds w (List.range' 1 20) (clearedScan s)).form.comboBox1 with
            text := (scanRounds w (List.range' 1 20) (clearedScan s)).comAbleToUse } } := rfl

theorem scanRounds_open (w : World) (indices : List Nat) (scan : Scan)
    (isOpen : scan.form.serialPort1.isOpen = true) : scanRounds w indices scan = scan := by
  induction indices with
  | nil => rfl
  | cons i rest ih =>
      rw [scanRounds, List.foldl_cons, scanRound_eq, scanBody_open w i isOpen]
      exact ih

section Closing

variable {w : World} (closes : ∀ name, w.closeFails name = false)

include closes

/-- While closing succeeds, a round ends with a closed port of its own name. -/
theorem scanRound_port (i : Nat) {scan : Scan} (shut : scan.form.serialPort1.isOpen = false) :
    (attempt (scanBody w i) id scan).form.serialPort1 =
      { isOpen := false, portName := "COM" ++ toString i } := by
  rw [scanRound_eq, scanBody_shut w i shut, closes]
  split
  · rfl
  · rfl

theorem scanRounds_shut (indices : List Nat) (scan : Scan)
    (shut : scan.form.serialPort1.isOpen = false) :
    (scanRounds w indices scan).form.serialPort1.isOpen = false := by
  induction indices generalizing scan with
  | nil => exact shut
  | cons i rest ih =>
      apply ih
      rw [scanRound_port closes i shut]

/-- A scan of a closed port leaves it closed, under the name tried last. -/
theorem search_shut {s : Form} (shut : s.serialPort1.isOpen = false) :
    (searchAndAddSerialToComboBox w s).serialPort1 = { isOpen := false, portName := "COM20" } := by
  have before := scanRounds_shut closes (List.range' 1 19) (clearedScan s) shut
  have last := scanRound_port closes 20 before
  exact last

end Closing

/-- A scan that finds the port open leaves it alone. -/
theorem search_open (w : World) {s : Form} (isOpen : s.serialPort1.isOpen = true) :
    (searchAndAddSerialToComboBox w s).serialPort1 = s.serialPort1 := by
  rw [search_eq, scanRounds_open w (List.range' 1 20) (clearedScan s) isOpen]
  rfl

theorem scanRound_flag (w : World) (i : Nat) (scan : Scan) :
    (attempt (scanBody w i) id scan).form.isSerialPortOpen = scan.form.isSerialPortOpen := by
  rw [scanRound_eq]
  cases isOpen : scan.form.serialPort1.isOpen with
  | true => rw [scanBody_open w i isOpen]
  | false =>
      rw [scanBody_shut w i isOpen]
      split
      · split
        · rfl
        · rfl
      · rfl

theorem scanRounds_flag (w : World) (indices : List Nat) (scan : Scan) :
    (scanRounds w indices scan).form.isSerialPortOpen = scan.form.isSerialPortOpen := by
  induction indices generalizing scan with
  | nil => rfl
  | cons i rest ih => exact (ih _).trans (scanRound_flag w i scan)

/-- The scan never touches the program's flag. -/
theorem search_flag (w : World) (s : Form) :
    (searchAndAddSerialToComboBox w s).isSerialPortOpen = s.isSerialPortOpen :=
  scanRounds_flag w (List.range' 1 20) (clearedScan s)

/-! ### The open/close button -/

section Button

variable {w : World} {s : Form}

theorem button1Close_eq (isOpen : s.serialPort1.isOpen = true) :
    exec (button1Close w) s =
      if w.closeFails s.serialPort1.portName then s
      else
        { s with
          serialPort1 := { s.serialPort1 with isOpen := false }, isSerialPortOpen := false } := by
  have closing := closePort_open w isOpen
  by_cases fails : w.closeFails s.serialPort1.portName = true
  · rw [if_pos fails] at closing
    have raised : onPort (closePort w) s = .error .io s := by
      simp only [onPort, onField, closing]
    rw [if_pos fails]
    exact exec_of_error (bind_of_error raised)
  · rw [if_neg fails] at closing
    have closed : onPort (closePort w) s =
        .ok ⟨⟩ { s with serialPort1 := { s.serialPort1 with isOpen := false } } := by
      simp only [onPort, onField, closing]
    rw [if_neg fails, button1Close, exec, bind_of_ok closed]
    rfl

/-- Opening takes the name in `comboBox1`, if it is a name, and opens the port, if it can. -/
theorem button1Open_eq (shut : s.serialPort1.isOpen = false) (valid : ValidName s.comboBox1.text) :
    exec (button1Open w) s =
      if w.canOpen s.comboBox1.text then
        { s with
          serialPort1 := { isOpen := true, portName := s.comboBox1.text }
          button1Text := "关闭串口", isSerialPortOpen := true }
      else { s with serialPort1 := { isOpen := false, portName := s.comboBox1.text } } := by
  have here : (get : Program Form) s = .ok s s := rfl
  have naming := setPortName_shut shut valid
  rw [shut] at naming
  have named : onPort (setPortName s.comboBox1.text) s =
      .ok ⟨⟩ { s with serialPort1 := { isOpen := false, portName := s.comboBox1.text } } := by
    simp only [onPort, onField, naming]
  have namedShut :
      ({ isOpen := false, portName := s.comboBox1.text } : SerialPort).isOpen = false := rfl
  have opening := openPort_shut w namedShut
  rw [exec, button1Open, bind_of_ok here, bind_of_ok named]
  by_cases usable : w.canOpen s.comboBox1.text = true
  · rw [if_pos usable] at opening
    have opened : onPort (openPort w)
        { s with serialPort1 := { isOpen := false, portName := s.comboBox1.text } } =
          .ok ⟨⟩ { s with serialPort1 := { isOpen := true, portName := s.comboBox1.text } } := by
      simp only [onPort, onField, opening]
    rw [bind_of_ok opened, if_pos usable]
    rfl
  · rw [if_neg usable] at opening
    have failed : onPort (openPort w)
        { s with serialPort1 := { isOpen := false, portName := s.comboBox1.text } } =
          .error .io
            { s with serialPort1 := { isOpen := false, portName := s.comboBox1.text } } := by
      simp only [onPort, onField, opening]
    rw [bind_of_error failed, if_neg usable]

theorem button1Open_invalid (invalid : ¬ ValidName s.comboBox1.text) :
    exec (button1Open w) s = s := by
  have here : (get : Program Form) s = .ok s s := rfl
  have raised : onPort (setPortName s.comboBox1.text) s = .error .argument s := by
    have naming : setPortName s.comboBox1.text s.serialPort1 = .error .argument s.serialPort1 :=
      if_pos (not_not.1 invalid)
    simp only [onPort, onField, naming]
  rw [exec, button1Open, bind_of_ok here, bind_of_error raised]

/-- The port and the flag after a click are those that the `try` block leaves. -/
theorem button1Click_open (ready : s.fileReadOver = true) (isOpen : s.serialPort1.isOpen = true) :
    (button1Click w s).serialPort1 = (exec (button1Close w) s).serialPort1 ∧
      (button1Click w s).isSerialPortOpen = (exec (button1Close w) s).isSerialPortOpen := by
  rw [button1Click, if_pos ready, if_pos isOpen, attempt_eq, id, ite_self]
  exact ⟨rfl, rfl⟩

theorem button1Click_shut (ready : s.fileReadOver = true) (shut : s.serialPort1.isOpen = false) :
    (button1Click w s).serialPort1 = (exec (button1Open w) s).serialPort1 ∧
      (button1Click w s).isSerialPortOpen = (exec (button1Open w) s).isSerialPortOpen := by
  rw [button1Click, if_pos ready, if_neg (ne_true_of_eq_false shut), attempt_eq]
  split
  · exact ⟨rfl, rfl⟩
  · exact ⟨rfl, rfl⟩

/-- A click on an open port, when closing succeeds, closes it and moves nothing but what belongs to the
port. -/
theorem click_closes (closes : w.closeFails s.serialPort1.portName = false) (still : s.closed = false)
    (ready : s.fileReadOver = true) (isOpen : s.serialPort1.isOpen = true) :
    (step s ⟨w, .button1⟩).serialPort1 = { s.serialPort1 with isOpen := false } ∧
      PortOnly s (step s ⟨w, .button1⟩) := by
  have clicked := (button1Click_open (w := w) ready isOpen).1
  rw [button1Close_eq isOpen, closes, if_neg Bool.false_ne_true] at clicked
  rw [step_of_open still, handle]
  exact ⟨clicked, button1Click_portOnly w s⟩

theorem button1Click_unread (unread : s.fileReadOver = false) :
    (button1Click w s).serialPort1 = s.serialPort1 ∧
      (button1Click w s).isSerialPortOpen = s.isSerialPortOpen := by
  rw [button1Click, if_neg (ne_true_of_eq_false unread)]
  exact ⟨rfl, rfl⟩

end Button

/-! ### The other events -/

/-- The event is a click on the open/close button or on the port scan, or the closing of the form. -/
def Event.usesPort : Event → Bool
  | .button1 | .button2 | .closing => true
  | .button3 | .button4 | .button5 | .button6 | .button7 | .button8 | .editComboBox1 _
  | .editComboBox2 _ | .editComboBox3 _ | .editComboBox4 _ | .editTextBox2 _ | .tick => false

structure PortKept (s t : Form) : Prop where
  port : t.serialPort1 = s.serialPort1
  isOpen : t.isSerialPortOpen = s.isSerialPortOpen

theorem Steady.portKept {s t : Form} (steady : Steady s t) : PortKept s t :=
  ⟨steady.port, steady.isOpen⟩

theorem button4Click_portKept (w : World) (s : Form) : PortKept s (button4Click w s) := by
  have rest := dataWriteArr_rest s
  have kept : PortKept s (dataWriteArr s) := by
    generalize dataWriteArr s = t at rest ⊢
    constructor
    · rw [rest]
    · rw [rest]
  unfold button4Click
  simp only
  generalize dataWriteArr s = t at kept ⊢
  split
  · exact kept
  · split
    · exact ⟨kept.port, kept.isOpen⟩
    · exact ⟨kept.port, kept.isOpen⟩

theorem button5Click_portKept (s : Form) : PortKept s (button5Click s) := by
  unfold button5Click
  split
  · exact ⟨rfl, rfl⟩
  · exact ⟨rfl, rfl⟩

theorem start_portKept (w : World) (s : Form) : PortKept s (button8Click w s) := by
  cases effect_of_start w s with
  | idle silent => cases silent
  | stop stops => cases stops
  | manual _ started => exact started.steady.portKept
  | auto _ started => exact started.steady.portKept

theorem tick_portKept (w : World) (s : Form) : PortKept s (handle w s .tick) := by
  have effect := effect_of_handle w s .tick
  generalize handle w s .tick = t at effect ⊢
  cases effect with
  | idle silent => cases silent
  | stop stops => cases stops
  | off _ => exact ⟨rfl, rfl⟩
  | stray _ => exact ⟨rfl, rfl⟩
  | tick _ _ _ ticked => exact ticked.steady.portKept

theorem portKept_of_other (w : World) (s : Form) {e : Event} (other : e.usesPort = false) :
    PortKept s (handle w s e) := by
  cases e with
  | button1 | button2 | closing => cases other
  | button3 =>
      rw [handle]
      exact (button3Click_loads w s).steady.portKept
  | button4 => exact button4Click_portKept w s
  | button5 => exact button5Click_portKept s
  | button6 =>
      have stopped := button6Click_stopped w s
      exact ⟨stopped.port, stopped.isOpen⟩
  | button7 =>
      have stopped := button7Click_stopped w s
      exact ⟨stopped.port, stopped.isOpen⟩
  | button8 => exact start_portKept w s
  | tick => exact tick_portKept w s
  | editComboBox1 | editComboBox2 | editComboBox3 | editComboBox4 | editTextBox2 =>
      exact ⟨rfl, rfl⟩

/-! ### The flag and the port -/

/-- `IsSerialPortOpen` says whether the port is open. -/
def FlagTells (s : Form) : Prop :=
  s.isSerialPortOpen = s.serialPort1.isOpen

theorem PortKept.flagTells {s t : Form} (kept : PortKept s t) (tells : FlagTells s) :
    FlagTells t := by
  rw [FlagTells, kept.isOpen, kept.port]
  exact tells

section Flag

variable {w : World} (closes : ∀ name, w.closeFails name = false) {s : Form}

include closes

theorem button1Click_flagTells (tells : FlagTells s) : FlagTells (button1Click w s) := by
  unfold FlagTells
  cases ready : s.fileReadOver with
  | false =>
      rw [(button1Click_unread ready).1, (button1Click_unread ready).2]
      exact tells
  | true =>
      cases isOpen : s.serialPort1.isOpen with
      | true =>
          rw [(button1Click_open ready isOpen).1, (button1Click_open ready isOpen).2,
            button1Close_eq isOpen, closes]
          rfl
      | false =>
          rw [(button1Click_shut ready isOpen).1, (button1Click_shut ready isOpen).2]
          by_cases valid : ValidName s.comboBox1.text
          · rw [button1Open_eq isOpen valid]
            split
            · rfl
            · exact tells.trans isOpen
          · rw [button1Open_invalid valid]
            exact tells

theorem search_flagTells (tells : FlagTells s) :
    FlagTells (searchAndAddSerialToComboBox w s) := by
  unfold FlagTells
  rw [search_flag, tells]
  cases isOpen : s.serialPort1.isOpen with
  | true => rw [search_open w isOpen, isOpen]
  | false => rw [search_shut closes isOpen]

theorem flagTells_start : FlagTells (start w) := by
  have initial : FlagTells Form.initial := rfl
  exact search_flagTells closes initial

theorem flagTells_handle {e : Event} (running : e ≠ .closing) (tells : FlagTells s) :
    FlagTells (handle w s e) := by
  cases uses : e.usesPort with
  | false => exact (portKept_of_other w s uses).flagTells tells
  | true =>
      cases e with
      | button1 => exact button1Click_flagTells closes tells
      | button2 => exact search_flagTells closes tells
      | closing => exact absurd rfl running
      | button3 | button4 | button5 | button6 | button7 | button8 | editComboBox1
      | editComboBox2 | editComboBox3 | editComboBox4 | editTextBox2 | tick => cases uses

end Flag

/-- The flag is set only while the port is open, whether or not closing succeeds. -/
def OpenIfFlag (s : Form) : Prop :=
  s.isSerialPortOpen = true → s.serialPort1.isOpen = true

theorem button1Click_openIfFlag (w : World) {s : Form} (before : OpenIfFlag s) :
    OpenIfFlag (button1Click w s) := by
  unfold OpenIfFlag
  cases ready : s.fileReadOver with
  | false =>
      rw [(button1Click_unread ready).1, (button1Click_unread ready).2]
      exact before
  | true =>
      cases isOpen : s.serialPort1.isOpen with
      | true =>
          rw [(button1Click_open ready isOpen).1, (button1Click_open ready isOpen).2,
            button1Close_eq isOpen]
          split
          · exact before
          · exact fun flag => nomatch flag
      | false =>
          rw [(button1Click_shut ready isOpen).1, (button1Click_shut ready isOpen).2]
          by_cases valid : ValidName s.comboBox1.text
          · rw [button1Open_eq isOpen valid]
            split
            · exact fun _ => rfl
            · intro flag
              have contrary := before flag
              rw [isOpen] at contrary
              cases contrary
          · rw [button1Open_invalid valid]
            exact before

theorem search_openIfFlag (w : World) {s : Form} (before : OpenIfFlag s) :
    OpenIfFlag (searchAndAddSerialToComboBox w s) := by
  intro flag
  rw [search_flag] at flag
  rw [search_open w (before flag)]
  exact before flag

theorem openIfFlag_handle (w : World) {s : Form} {e : Event} (running : e ≠ .closing)
    (before : OpenIfFlag s) : OpenIfFlag (handle w s e) := by
  cases uses : e.usesPort with
  | false =>
      have kept := portKept_of_other w s uses
      unfold OpenIfFlag
      rw [kept.isOpen, kept.port]
      exact before
  | true =>
      cases e with
      | button1 => exact button1Click_openIfFlag w before
      | button2 => exact search_openIfFlag w before
      | closing => exact absurd rfl running
      | button3 | button4 | button5 | button6 | button7 | button8 | editComboBox1
      | editComboBox2 | editComboBox3 | editComboBox4 | editTextBox2 | tick => cases uses

/-- What every handler but the closing one keeps holds as long as the form is there. -/
theorem keeps_until_closed {Inv : Form → Prop} {w : World} {s : Form} {e : Event}
    (keeps : e ≠ .closing → Inv s → Inv (handle w s e)) (before : s.closed = false → Inv s)
    (still : (step s ⟨w, e⟩).closed = false) : Inv (step s ⟨w, e⟩) := by
  unfold step at still ⊢
  cases closed : s.closed with
  | true =>
      rw [closed, if_pos rfl, closed] at still
      cases still
  | false =>
      rw [closed, if_neg Bool.false_ne_true] at still
      rw [if_neg Bool.false_ne_true]
      refine keeps ?_ (before closed)
      intro event
      rw [event] at still
      cases still

theorem openIfFlag_run (w : World) (actions : List Action) :
    (run step (start w) actions).closed = false → OpenIfFlag (run step (start w) actions) := by
  apply run_invariant (fun s => s.closed = false → OpenIfFlag s) _ _
    (eachStep_of_forall fun _ _ => trivial)
  · exact fun s a before _ still => keeps_until_closed (openIfFlag_handle a.world) before still
  · exact fun _ flag => nomatch (search_flag w Form.initial).symm.trans flag

/-- While closing succeeds, the flag tells in every state before the form closes. -/
theorem flagTells_run {w : World} (closes : ∀ name, w.closeFails name = false)
    (actions : List Action) (all : ∀ a ∈ actions, ∀ name, a.world.closeFails name = false) :
    (run step (start w) actions).closed = false → FlagTells (run step (start w) actions) := by
  apply run_invariant (fun s => s.closed = false → FlagTells s) _ _ (eachStep_of_forall all)
  · exact fun s a tells closesHere still =>
      keeps_until_closed (flagTells_handle closesHere) tells still
  · exact fun _ => flagTells_start closes

/-! ### Opening a port first of all -/

/-- The user types a name into `comboBox1` and clicks the open button. -/
def opening (w : World) (name : String) : List Action :=
  [⟨w, .editComboBox1 name⟩, ⟨w, .button1⟩]

/-- The window has opened and `serialPort1` is open under the name. -/
def JustOpened (name : String) (s : Form) : Prop :=
  s =
    { Form.initial with
      comboBox2 := "15", comboBox3 := "90", comboBox4 := "0", textBox2 := "1"
      serialPort1 := { isOpen := true, portName := name }, isSerialPortOpen := true
      comboBox1 := s.comboBox1, button1Text := s.button1Text, messages := s.messages }

theorem justOpened {w : World} (closes : ∀ name, w.closeFails name = false) {name : String}
    (valid : ValidName name) (usable : w.canOpen name = true) :
    JustOpened name (run step (start w) (opening w name)) := by
  have first := start_portOnly w
  have port : (start w).serialPort1 = { isOpen := false, portName := "COM20" } :=
    search_shut (s := Form.initial) closes rfl
  unfold PortOnly at first
  generalize start w = s at first port ⊢
  have typed : step s ⟨w, .editComboBox1 name⟩ =
      { s with comboBox1 := { s.comboBox1 with text := name } } := by
    rw [first]
    rfl
  have shut : s.serialPort1.isOpen = false := by rw [port]
  rw [opening, run_cons, run_cons, run_nil, typed]
  have ready : s.fileReadOver = true := by rw [first]; rfl
  have still : s.closed = false := by rw [first]; rfl
  generalize named : { s with comboBox1 := { s.comboBox1 with text := name } } = t
  have clicked : step t ⟨w, .button1⟩ = button1Click w t := by
    have stillNamed : t.closed = false := by
      rw [← named]
      exact still
    rw [step_of_open stillNamed, handle]
  have readyNamed : t.fileReadOver = true := by
    rw [← named]
    exact ready
  have shutNamed : t.serialPort1.isOpen = false := by
    rw [← named]
    exact shut
  have text : t.comboBox1.text = name := by rw [← named]
  have result := button1Click_shut (w := w) readyNamed shutNamed
  rw [button1Open_eq shutNamed (by rwa [text]), text, if_pos usable] at result
  have only := button1Click_portOnly w t
  rw [clicked]
  unfold PortOnly at only
  unfold JustOpened
  rw [only, result.1, result.2, ← named, first]

section JustOpened

variable {name : String} {s : Form} (opened : JustOpened name s)

include opened

theorem JustOpened.port : s.serialPort1 = { isOpen := true, portName := name } := by rw [opened]

theorem JustOpened.isOpen : s.isSerialPortOpen = true := by rw [opened]

theorem JustOpened.closed : s.closed = false := congrArg Form.closed opened

theorem JustOpened.autoScan : s.autoScan = false := congrArg Form.autoScan opened

theorem JustOpened.read : s.fileReadOver = true := congrArg Form.fileReadOver opened

theorem JustOpened.sent : s.sent = [] := congrArg Form.sent opened

theorem JustOpened.buffers (b : Buffer) : s.buffers b = Vector.replicate 200 0 :=
  congrFun (congrArg Form.buffers opened) b

/-- Automatic mode is chosen on the open port. -/
theorem JustOpened.button5 (w : World) : step s ⟨w, .button5⟩ = { s with autoScan := true } := by
  rw [step_of_open opened.closed, handle, button5Click, if_pos opened.isOpen]

/-- The manual selection that the window opens with. -/
theorem JustOpened.selectedFile_eq (w : World) :
    selectedFile w s = w.readFile (filePath 15 90 0) := by
  have freq : s.comboBox2 = "15" := by rw [opened]
  have phi : s.comboBox3 = "90" := by rw [opened]
  have theta : s.comboBox4 = "0" := by rw [opened]
  have freqText : convertToInt32 "15" = .ok 15 := rfl
  have phiText : convertToInt32 "90" = .ok 90 := rfl
  have thetaText : convertToInt32 "0" = .ok 0 := rfl
  simp only [selectedFile, freq, phi, theta, freqText, phiText, thetaText]
  rfl

/-- The selection of a scan that the window opens with. -/
theorem JustOpened.scanFile_eq (w : World) (n : Fin 5) :
    scanFile w s n = w.readFile (filePath 15 90 (scanTheta n)) := by
  have freq : s.comboBox2 = "15" := by rw [opened]
  have phi : s.comboBox3 = "90" := by rw [opened]
  have freqText : convertToInt32 "15" = .ok 15 := rfl
  have phiText : convertToInt32 "90" = .ok 90 := rfl
  simp only [scanFile, freq, phi, freqText, phiText]
  rfl

end JustOpened

/-- One port, no failures, and 136 bytes 1 in every file. -/
def onePort : World where
  canOpen name := name = "COM1"
  closeFails _ := false
  writeFails := false
  readFile _ := some (List.replicate 136 1)
  openFileName := none
  saveFileName := none
  saveFails := false

theorem onePort_justOpened : JustOpened "COM1" (run step (start onePort) (opening onePort "COM1")) :=
  justOpened (fun _ => rfl) (by simp [ValidName]) rfl

end VoltCtrl.Host
