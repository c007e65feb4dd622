/-
Module: VoltCtrl.Host.Closing
Layer: Host
Purpose: What the closing of the form leaves on the device. The closing handler sends the zero frame to
  whatever port `serialPort1` names at that moment, so the port opened last with the open button is left
  at zero exactly when it is still the one named, or when it was at zero already. Only the open button
  and the scan name a port, and only a closed one.
Trusted boundary: none
Main exports: lastOpened, lastOn, LeftAtZero, canOpen_of_lastOpened, closing_leaves_zero_iff, givenName,
  portName_ne_iff, closing_leaves_pattern_iff
-/
import VoltCtrl.Host.Ports

namespace VoltCtrl.Host

open VoltCtrl.Core

/-- A click on the open button that opens the port. -/
def noteOpened (last : Option String) (s : Form) (a : Action) : Option String :=
  if a.event = .button1 ∧ s.serialPort1.isOpen = false ∧ (step s a).serialPort1.isOpen = true then
    some (step s a).serialPort1.portName
  else last

/-- The port opened most recently with the open button. -/
def lastOpened (w : World) (actions : List Action) : Option String :=
  history step noteOpened none (start w) actions

/-- The last frame of a log on one port. -/
def lastOn (portName : String) (sent : List Sent) : Option Sent :=
  (sent.filter (·.portName = portName)).getLast?

/-- If anything was sent on the port, the zero frame came last. -/
def LeftAtZero (portName : String) (sent : List Sent) : Prop :=
  ∀ call, lastOn portName sent = some call → call.bytes = zeroFrame

theorem leftAtZero_append_other {portName : String} (sent : List Sent) {call : Sent}
    (other : call.portName ≠ portName) :
    LeftAtZero portName (sent ++ [call]) ↔ LeftAtZero portName sent := by
  have dropped : [call].filter (·.portName = portName) = [] := by simpa using other
  rw [LeftAtZero, lastOn, List.filter_append, dropped, List.append_nil]
  rfl

theorem leftAtZero_append_zero {portName : String} (sent : List Sent) {call : Sent}
    (here : call.portName = portName) (zero : call.bytes = zeroFrame) :
    LeftAtZero portName (sent ++ [call]) := by
  have kept : [call].filter (·.portName = portName) = [call] := by simpa using here
  intro last found
  rw [lastOn, List.filter_append, kept, List.getLast?_concat, Option.some.injEq] at found
  rw [← found]
  exact zero

/-! ### The port opened last can be opened -/

theorem button1Click_opens {w : World} {s : Form} (shut : s.serialPort1.isOpen = false)
    (opens : (button1Click w s).serialPort1.isOpen = true) :
    w.canOpen (button1Click w s).serialPort1.portName = true := by
  cases ready : s.fileReadOver with
  | false =>
      rw [(button1Click_unread ready).1, shut] at opens
      cases opens
  | true =>
      rw [(button1Click_shut ready shut).1] at opens ⊢
      by_cases valid : ValidName s.comboBox1.text
      · rw [button1Open_eq shut valid] at opens ⊢
        by_cases usable : w.canOpen s.comboBox1.text = true
        · rw [if_pos usable]
          exact usable
        · rw [if_neg usable] at opens
          cases opens
      · rw [button1Open_invalid valid, shut] at opens
        cases opens

theorem noteOpened_canOpen {s : Form} {a : Action} {last : Option String} {portName : String}
    (before : ∀ name, last = some name → a.world.canOpen name = true)
    (noted : noteOpened last s a = some portName) : a.world.canOpen portName = true := by
  unfold noteOpened at noted
  split at noted
  · rename_i opens
    rcases opens with ⟨click, shut, isOpen⟩
    rw [Option.some.injEq] at noted
    rw [← noted]
    have still : s.closed = false := by
      cases closed : s.closed with
      | false => rfl
      | true =>
          rw [step_of_closed closed a, shut] at isOpen
          cases isOpen
    have handled : step s a = button1Click a.world s := by
      rw [step_of_open still a, click, handle]
    rw [handled] at isOpen ⊢
    exact button1Click_opens shut isOpen
  · exact before portName noted

theorem canOpen_of_lastOpened {ports : String → Bool} (w : World) {actions : List Action}
    (fixed : ∀ a ∈ actions, a.world.canOpen = ports) {portName : String}
    (opened : lastOpened w actions = some portName) : ports portName = true := by
  have promised : EachStep step (fun _ a => a.world.canOpen = ports) (start w) actions :=
    eachStep_of_forall fixed
  have invariant :
      ∀ name, history step noteOpened none (start w) actions = some name → ports name = true := by
    apply history_invariant (fun _ last => ∀ name, last = some name → ports name = true) _ _ promised
    · intro s last a before here name noted
      rw [← here] at before ⊢
      exact noteOpened_canOpen before noted
    · exact fun _ none => nomatch none
  exact invariant portName opened

/-! ### The closing -/

/-- With a port that can be opened, the closing handler sends the zero frame there. -/
theorem callsOf_reopened {w : World} {s : Form} (usable : w.canOpen s.serialPort1.portName = true) :
    callsOf { s with serialPort1 := reopened w s.serialPort1 } .zeroData zeroFrame =
      [{ buffer := .zeroData, bytes := zeroFrame, portName := s.serialPort1.portName }] := by
  rw [reopened_eq, usable, Bool.or_true, callsOf, if_pos rfl]

theorem reopened_portName (w : World) (port : SerialPort) :
    (reopened w port).portName = port.portName := by
  rw [reopened_eq]

/-- With another port, or with none, nothing is sent on the port in question. -/
theorem leftAtZero_closing_other {w : World} {s : Form} {portName : String}
    (other : s.serialPort1.portName ≠ portName) :
    LeftAtZero portName
        (s.sent ++ callsOf { s with serialPort1 := reopened w s.serialPort1 } .zeroData zeroFrame) ↔
      LeftAtZero portName s.sent := by
  have name := reopened_portName w s.serialPort1
  unfold callsOf
  split
  · apply leftAtZero_append_other
    rw [name]
    exact other
  · rw [List.append_nil]

/-- Only the closing event closes the form. -/
theorem Effect.closed {w : World} {s t : Form} {e : Event} (effect : Effect w s e t)
    (running : e ≠ .closing) : t.closed = s.closed := by
  cases effect with
  | idle _ idle => exact idle.closed
  | stop _ stopped => exact stopped.closed
  | manual _ started => exact started.steady.closed
  | auto _ started => exact started.steady.closed
  | off _ => rfl
  | stray _ => rfl
  | tick _ _ _ ticked => exact ticked.steady.closed
  | closing _ => exact absurd rfl running

theorem open_run {w : World} {actions : List Action}
    (running : ∀ a ∈ actions, a.event ≠ .closing) :
    (run step (start w) actions).closed = false := by
  apply run_invariant (fun s : Form => s.closed = false) _ _ (eachStep_of_forall running)
  · intro s a still here
    exact step_keeps (fun t => t.closed = false)
      (fun _ effect => (effect.closed here).trans still) still
  · exact (start_portOnly w).idle.closed

/-- The closing step, on a port that can be opened. -/
theorem leftAtZero_closing {w : World} {s : Form} {portName : String} (still : s.closed = false)
    (usable : w.canOpen portName = true) :
    LeftAtZero portName (step s ⟨w, .closing⟩).sent ↔
      s.serialPort1.portName = portName ∨ LeftAtZero portName s.sent := by
  rw [step_of_open still, handle, (form1Closing_closed w s).sent]
  by_cases named : s.serialPort1.portName = portName
  · have zero : LeftAtZero portName
        (s.sent ++
          callsOf { s with serialPort1 := reopened w s.serialPort1 } .zeroData zeroFrame) := by
      rw [callsOf_reopened (by rw [named, usable])]
      exact leftAtZero_append_zero s.sent named rfl
    exact iff_of_true zero (.inl named)
  · rw [leftAtZero_closing_other named]
    exact ⟨.inr, fun either => either.resolve_left named⟩

/-- The closing of the form leaves the port opened last at zero exactly when `serialPort1` still names
it, or when it was left at zero already. -/
theorem closing_leaves_zero_iff (ports : String → Bool) (w : World) (actions : List Action)
    (v : World) (portName : String)
    (fixed : ∀ a ∈ actions ++ [⟨v, .closing⟩], a.world.canOpen = ports ∧ a.world.writeFails = false)
    (running : ∀ a ∈ actions, a.event ≠ .closing)
    (opened : lastOpened w actions = some portName) :
    LeftAtZero portName (run step (start w) (actions ++ [⟨v, .closing⟩])).sent ↔
      (run step (start w) actions).serialPort1.portName = portName ∨
        LeftAtZero portName (run step (start w) actions).sent := by
  have usable := canOpen_of_lastOpened w
    (fun a member => (fixed a (List.mem_append_left _ member)).1) opened
  have here : v.canOpen = ports := (fixed ⟨v, .closing⟩ (by simp)).1
  rw [run_snoc]
  exact leftAtZero_closing (open_run running) (by rw [here, usable])

/-! ### What names the port -/

/-- The name that an event gives a closed port: a click on the open button the one in `comboBox1`, a scan
the one that it tries last. -/
def givenName (s : Form) (a : Action) : Option String :=
  if s.closed = false ∧ s.serialPort1.isOpen = false then
    match a.event with
    | .button1 =>
        if s.fileReadOver = true ∧ ValidName s.comboBox1.text then some s.comboBox1.text else none
    | .button2 => some "COM20"
    | .button3 | .button4 | .button5 | .button6 | .button7 | .button8 | .editComboBox1 _
    | .editComboBox2 _ | .editComboBox3 _ | .editComboBox4 _ | .editTextBox2 _ | .tick
    | .closing => none
  else none

theorem button1Click_portName {w : World} {s : Form} (shut : s.serialPort1.isOpen = false) :
    (button1Click w s).serialPort1.portName =
      if s.fileReadOver = true ∧ ValidName s.comboBox1.text then s.comboBox1.text
      else s.serialPort1.portName := by
  cases ready : s.fileReadOver with
  | false => rw [(button1Click_unread ready).1, if_neg (fun both => Bool.false_ne_true both.1)]
  | true =>
      rw [(button1Click_shut ready shut).1]
      by_cases valid : ValidName s.comboBox1.text
      · have both : true = true ∧ ValidName s.comboBox1.text := ⟨rfl, valid⟩
        rw [if_pos both, button1Open_eq shut valid]
        split
        · rfl
        · rfl
      · rw [button1Open_invalid valid, if_neg fun both => valid both.2]

/-- A click on the button of an open port leaves the name alone. -/
theorem button1Click_named {w : World} {s : Form} (isOpen : s.serialPort1.isOpen = true) :
    (button1Click w s).serialPort1.portName = s.serialPort1.portName := by
  cases ready : s.fileReadOver with
  | false => rw [(button1Click_unread ready).1]
  | true =>
      rw [(button1Click_open ready isOpen).1, button1Close_eq isOpen]
      split
      · rfl
      · rfl

theorem handle_portName {w : World} {s : Form} {e : Event} (closes : ∀ name, w.closeFails name = false)
    (still : s.closed = false) (running : e ≠ .closing) :
    (handle w s e).serialPort1.portName = (givenName s ⟨w, e⟩).getD s.serialPort1.portName := by
  cases isOpen : s.serialPort1.isOpen with
  | true =>
      have busy : ¬ (s.closed = false ∧ s.serialPort1.isOpen = false) := by simp [isOpen]
      rw [givenName, if_neg busy, Option.getD_none]
      cases e with
      | button1 => exact button1Click_named isOpen
      | button2 => exact congrArg SerialPort.portName (search_open w isOpen)
      | closing => exact absurd rfl running
      | button3 | button4 | button5 | button6 | button7 | button8 | editComboBox1
      | editComboBox2 | editComboBox3 | editComboBox4 | editTextBox2 | tick =>
          rw [(portKept_of_other w s rfl).port]
  | false =>
      rw [givenName, if_pos ⟨still, isOpen⟩]
      cases e with
      | button1 =>
          refine (button1Click_portName isOpen).trans ?_
          simp only
          split
          · rfl
          · rfl
      | button2 => exact congrArg SerialPort.portName (search_shut closes isOpen)
      | closing => exact absurd rfl running
      | button3 | button4 | button5 | button6 | button7 | button8 | editComboBox1
      | editComboBox2 | editComboBox3 | editComboBox4 | editTextBox2 | tick =>
          exact congrArg SerialPort.portName (portKept_of_other w s rfl).port

/-- Closing a port succeeds, and the form stays. -/
def Action.Closes (a : Action) : Prop :=
  (∀ name, a.world.closeFails name = false) ∧ a.event ≠ .closing

theorem step_portName (s : Form) (a : Action) (closes : a.Closes) :
    (step s a).serialPort1.portName = (givenName s a).getD s.serialPort1.portName := by
  cases closed : s.closed with
  | true =>
      have done : ¬ (s.closed = false ∧ s.serialPort1.isOpen = false) := by simp [closed]
      rw [step_of_closed closed, givenName, if_neg done, Option.getD_none]
  | false =>
      rw [step_of_open closed]
      exact handle_portName closes.1 closed closes.2

/-- A port that is opened has been given its name. -/
theorem noteOpened_given {s : Form} {a : Action} {last : Option String}
    (kept : givenName s a = none) : noteOpened last s a = last := by
  rw [noteOpened, if_neg]
  rintro ⟨click, shut, isOpen⟩
  have still : s.closed = false := by
    cases closed : s.closed with
    | false => rfl
    | true =>
        rw [step_of_closed closed, shut] at isOpen
        cases isOpen
  rw [step_of_open still, click, handle] at isOpen
  rw [givenName, if_pos ⟨still, shut⟩, click] at kept
  cases ready : s.fileReadOver with
  | false =>
      rw [(button1Click_unread ready).1, shut] at isOpen
      cases isOpen
  | true =>
      have invalid : ¬ ValidName s.comboBox1.text := fun valid => by simp [ready, valid] at kept
      rw [(button1Click_shut ready shut).1, button1Open_invalid invalid, shut] at isOpen
      cases isOpen

theorem lastOpened_of_kept (w : World) {actions : List Action}
    (kept : EachStep step (fun s a => givenName s a = none) (start w) actions) :
    lastOpened w actions = none :=
  history_invariant (fun _ last => last = none)
    (fun _ _ _ none kept => (noteOpened_given kept).trans none) rfl kept

/-- The event that named the port last gave it another name. -/
def NamedOther (w : World) (actions : List Action) (portName : String) : Prop :=
  ∃ before a after name, actions = before ++ a :: after ∧
    givenName (run step (start w) before) a = some name ∧ name ≠ portName ∧
    EachStep step (fun s a => givenName s a = none) (run step (start w) (before ++ [a])) after

/-- The port that was opened last has lost its name exactly when the last event to give a closed port a
name, a scan or a failed opening, gave it another one. -/
theorem portName_ne_iff (w : World) {actions : List Action} {portName : String}
    (closes : ∀ a ∈ actions, a.Closes) (opened : lastOpened w actions = some portName) :
    (run step (start w) actions).serialPort1.portName ≠ portName ↔ NamedOther w actions portName := by
  constructor
  · intro differs
    rcases last_given (f := fun s : Form => s.serialPort1.portName) step_portName
        (eachStep_of_forall closes) with
      never | ⟨before, a, after, name, split, given, never, named⟩
    · rw [lastOpened_of_kept w never] at opened
      cases opened
    · exact ⟨before, a, after, name, split, given, fun same => differs (named.trans same), never⟩
  · rintro ⟨before, a, after, name, rfl, given, differs, never⟩
    obtain ⟨here, later⟩ := List.forall_mem_cons.1 (List.forall_mem_append.1 closes).2
    rw [run_snoc] at never
    have kept := kept_of_not_given (f := fun s : Form => s.serialPort1.portName) step_portName
      (eachStep_of_forall later) never
    rw [run_append, run_cons, kept, step_portName _ _ here, given]
    exact differs

/-- What the closing leaves, over the history before it: a pattern is left on the port opened last exactly
when one came last there and the port has been named otherwise since. -/
theorem closing_leaves_pattern_iff (w v : World) {actions : List Action} {portName : String}
    (closes : ∀ a ∈ actions, a.Closes) (usable : v.canOpen portName = true)
    (opened : lastOpened w actions = some portName) :
    ¬ LeftAtZero portName (run step (start w) (actions ++ [⟨v, .closing⟩])).sent ↔
      NamedOther w actions portName ∧ ¬ LeftAtZero portName (run step (start w) actions).sent := by
  rw [run_snoc, leftAtZero_closing (open_run fun a member => (closes a member).2) usable, not_or,
    ← portName_ne_iff w closes opened]

/-! ### A scan between the last close and the closing -/

theorem lastOpened_opening {w : World} (closes : ∀ name, w.closeFails name = false) {name : String}
    (valid : ValidName name) (usable : w.canOpen name = true) :
    lastOpened w (opening w name) = some name := by
  have opened := justOpened closes valid usable
  have shut : (start w).serialPort1.isOpen = false := by
    have port := search_shut (s := Form.initial) closes rfl
    exact congrArg SerialPort.isOpen port
  have still : (start w).closed = false := (start_portOnly w).idle.closed
  rw [opening, run_cons, run_cons, run_nil] at opened
  rw [lastOpened, opening, history_cons, history_cons, history_nil]
  have typed : (step (start w) ⟨w, .editComboBox1 name⟩).serialPort1.isOpen = false := by
    rw [step_of_open still, handle]
    exact shut
  generalize step (start w) ⟨w, .editComboBox1 name⟩ = s at opened typed ⊢
  rw [JustOpened] at opened
  rw [noteOpened, if_pos ⟨rfl, typed, by rw [opened]⟩, opened]

theorem lastOpened_snoc (w : World) (actions : List Action) {a : Action}
    (other : a.event ≠ .button1 ∨ (run step (start w) actions).serialPort1.isOpen = true) :
    lastOpened w (actions ++ [a]) = lastOpened w actions := by
  rw [lastOpened, history_snoc, noteOpened, if_neg]
  · rfl
  · rintro ⟨click, shut, _⟩
    rcases other with differ | isOpen
    · exact differ click
    · rw [shut] at isOpen
      cases isOpen

/-- A pattern is sent to COM1, COM1 is closed, and the ports are scanned. -/
def scanned : List Action :=
  ((opening onePort "COM1" ++ [⟨onePort, .button8⟩]) ++ [⟨onePort, .button1⟩]) ++
    [⟨onePort, .button2⟩]

theorem closes_after_pattern {s : Form} (opened : JustOpened "COM1" s) :
    (step s ⟨onePort, .button8⟩).serialPort1 = { isOpen := true, portName := "COM1" } ∧
      (step s ⟨onePort, .button8⟩).sent =
        [{ buffer := .readByteData, bytes := dataLength :: List.replicate 136 1
           portName := "COM1" }] ∧
      (step s ⟨onePort, .button8⟩).closed = false ∧
      (step s ⟨onePort, .button8⟩).fileReadOver = true := by
  have clicked : step s ⟨onePort, .button8⟩ = startManual onePort s := by
    rw [step_of_open opened.closed, handle, button8Click_manual onePort opened.autoScan]
  have started := startManual_started onePort s
  have whole : complete (selectedFile onePort s) = some (List.replicate 136 1) := by
    rw [opened.selectedFile_eq]
    exact complete_whole List.length_replicate
  have sent := started.sent_file opened.isOpen (congrArg SerialPort.isOpen opened.port) whole
  have steady := started.steady
  rw [clicked]
  refine ⟨?_, ?_, ?_, ?_⟩
  · rw [steady.port, opened.port]
  · rw [sent, opened.sent, opened.port]
    rfl
  · rw [steady.closed, opened.closed]
  · exact steady.read opened.read

/-- A pattern is sent to COM1. -/
def patternSent : List Action :=
  opening onePort "COM1" ++ [⟨onePort, .button8⟩]

theorem patternSent_state :
    (run step (start onePort) patternSent).serialPort1 = { isOpen := true, portName := "COM1" } ∧
      (run step (start onePort) patternSent).sent =
        [{ buffer := .readByteData, bytes := dataLength :: List.replicate 136 1
           portName := "COM1" }] ∧
      (run step (start onePort) patternSent).closed = false ∧
      (run step (start onePort) patternSent).fileReadOver = true := by
  rw [patternSent, run_snoc]
  exact closes_after_pattern onePort_justOpened

theorem lastOpened_patternSent : lastOpened onePort patternSent = some "COM1" := by
  rw [patternSent, lastOpened_snoc _ _ (.inl (by decide))]
  exact lastOpened_opening (fun _ => rfl) (by simp [ValidName]) rfl

/-- A log that ends with the pattern on COM1. -/
theorem not_leftAtZero_pattern :
    ¬ LeftAtZero "COM1" [{ buffer := .readByteData, bytes := dataLength :: List.replicate 136 1
                           portName := "COM1" }] := by
  intro zero
  have bytes : dataLength :: List.replicate 136 1 = dataLength :: zeroPattern := zero _ rfl
  exact absurd (List.cons.inj bytes).2 (by decide)

/-- The form closes over the pattern while the port is still named: the zero frame is sent last. -/
theorem closing_after_pattern :
    (LeftAtZero "COM1" (run step (start onePort) (patternSent ++ [⟨onePort, .closing⟩])).sent ↔
      (run step (start onePort) patternSent).serialPort1.portName = "COM1" ∨
        LeftAtZero "COM1" (run step (start onePort) patternSent).sent) ∧
    (run step (start onePort) patternSent).serialPort1.portName = "COM1" ∧
    ¬ LeftAtZero "COM1" (run step (start onePort) patternSent).sent := by
  obtain ⟨port, sent, -, -⟩ := patternSent_state
  refine ⟨closing_leaves_zero_iff onePort.canOpen onePort patternSent onePort "COM1"
    (by simp [patternSent, opening, onePort]) (by simp [patternSent, opening])
    lastOpened_patternSent, by rw [port], ?_⟩
  rw [sent]
  exact not_leftAtZero_pattern

theorem scanned_state :
    (run step (start onePort) scanned).serialPort1 = { isOpen := false, portName := "COM20" } ∧
      (run step (start onePort) scanned).sent =
        [{ buffer := .readByteData, bytes := dataLength :: List.replicate 136 1
           portName := "COM1" }] ∧
      lastOpened onePort scanned = some "COM1" := by
  have closes (name : String) : onePort.closeFails name = false := rfl
  obtain ⟨port, sent, still, read⟩ := patternSent_state
  have noted : lastOpened onePort scanned = some "COM1" := by
    rw [scanned, ← patternSent, lastOpened_snoc _ _ (.inl (by decide)),
      lastOpened_snoc _ _ (.inr (by rw [port]))]
    exact lastOpened_patternSent
  -- the click closes the port, and the scan then finds it closed
  have clicked := click_closes (closes _) still read (by rw [port])
  rw [scanned, ← patternSent, run_snoc, run_snoc]
  generalize run step (start onePort) patternSent = s at port sent still clicked ⊢
  rcases clicked with ⟨closed, only⟩
  have idle := only.idle
  generalize step s ⟨onePort, .button1⟩ = t at closed idle ⊢
  rw [step_of_open (idle.closed.trans still), handle, button2Click]
  have shut : t.serialPort1.isOpen = false := by rw [closed]
  refine ⟨search_shut closes shut, ?_, noted⟩
  rw [(search_portOnly onePort t).idle.sent, idle.sent, sent]

/-- The scan names the closed port anew, over a pattern. -/
theorem scan_leaves_pattern :
    (¬ LeftAtZero "COM1" (run step (start onePort) (scanned ++ [⟨onePort, .closing⟩])).sent ↔
      NamedOther onePort scanned "COM1" ∧
        ¬ LeftAtZero "COM1" (run step (start onePort) scanned).sent) ∧
    NamedOther onePort scanned "COM1" := by
  have closes : ∀ a ∈ scanned, a.Closes := by simp [scanned, opening, Action.Closes, onePort]
  obtain ⟨port, -, noted⟩ := scanned_state
  have differs : (run step (start onePort) scanned).serialPort1.portName ≠ "COM1" := by
    rw [port]
    decide
  exact ⟨closing_leaves_pattern_iff onePort onePort closes rfl noted,
    (portName_ne_iff onePort closes noted).1 differs⟩

/-- COM1 is the only port, every open and write on it succeeds, it was opened last, and after the closing
of the form the last frame on it is not the zero frame. -/
theorem pattern_left_after_scan :
    (∀ a ∈ scanned ++ [⟨onePort, .closing⟩],
      a.world.canOpen = onePort.canOpen ∧ a.world.writeFails = false) ∧
    (∀ a ∈ scanned, a.event ≠ .closing) ∧
    lastOpened onePort scanned = some "COM1" ∧
    ¬ LeftAtZero "COM1" (run step (start onePort) (scanned ++ [⟨onePort, .closing⟩])).sent := by
  have running : ∀ a ∈ scanned, a.event ≠ .closing := by simp [scanned, opening]
  rcases scanned_state with ⟨port, sent, noted⟩
  refine ⟨by simp [scanned, opening, onePort], running, noted, ?_⟩
  rw [run_snoc, leftAtZero_closing (open_run running) rfl, port, sent]
  rintro (named | zero)
  · exact absurd named (by decide)
  · exact not_leftAtZero_pattern zero

end VoltCtrl.Host
