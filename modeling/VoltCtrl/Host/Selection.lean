/-
Module: VoltCtrl.Host.Selection
Layer: Host
Purpose: Which patterns may be sent, and when the program keeps to them. A ledger records beside the
  state the files that `button3` has loaded and the files that the Start of the running scan has read.
  Start shows a message when its load fails and goes on, so a run keeps to the ledger as long as every
  load of a Start that sends is complete and no Start without a port changes the buffers of a running
  scan.
Trusted boundary: none
Main exports: Ledger, recordSelection, Selected, SendsSelected, LoadCompletes, LoadsFirst, HoldsScan,
  start_silent_iff, only_selected_transmitted
-/
import VoltCtrl.Host.Framing
import VoltCtrl.Host.Ports

namespace VoltCtrl.Host

open VoltCtrl.Core

/-- The first 136 bytes of every file loaded with `button3`, and what the Start of the running scan read
for each of the five directions. -/
structure Ledger where
  loaded : List (List UInt8)
  scan : Fin 5 → Option (List UInt8)

def Ledger.empty : Ledger :=
  { loaded := [], scan := fun _ => none }

/-- The file picked in the open dialog. -/
def chosenFile (w : World) : Option (List UInt8) :=
  w.openFileName.bind w.readFile

/-- A scan is started by a Start in automatic mode while the program holds the port for open. -/
def recordSelection (ledger : Ledger) (s : Form) (a : Action) : Ledger :=
  { loaded :=
      if s.closed = false ∧ a.event = .button3 then
        ledger.loaded ++ (complete (chosenFile a.world)).toList
      else ledger.loaded
    scan :=
      if s.closed = false ∧ a.event = .button8 ∧ s.autoScan = true ∧ s.isSerialPortOpen = true then
        fun n => complete (scanFile a.world s n)
      else ledger.scan }

/-- The payload of a call is the zero pattern, a file loaded with `button3`, the file selected at the
manual Start that makes the call, or the file for its own direction of the scan that is running. -/
def Selected (ledger : Ledger) (s : Form) (a : Action) (call : Sent) : Prop :=
  call.bytes.tail = zeroPattern ∨
  call.bytes.tail ∈ ledger.loaded ∨
  (a.event = .button8 ∧ s.autoScan = false ∧
    complete (selectedFile a.world s) = some call.bytes.tail) ∨
  ∃ n, call.buffer = .autoReadByteData n ∧ ledger.scan n = some call.bytes.tail

/-- The selection at a Start is valid and all its files are complete. -/
def LoadCompletes (w : World) (s : Form) : Prop :=
  if s.autoScan then ∀ n, (complete (scanFile w s n)).isSome = true
  else (complete (selectedFile w s)).isSome = true

/-- On the way from `s` to `t` every call is selected, and a Start whose load fails makes none. -/
def SendsSelected (ledger : Ledger) (s : Form) (a : Action) (t : Form) : Prop :=
  (∃ calls, t.sent = s.sent ++ calls ∧
    ∀ call ∈ calls, Selected (recordSelection ledger s a) s a call) ∧
  (a.event = .button8 → ¬ LoadCompletes a.world s → t.sent = s.sent)

/-- A run all of whose steps send what is selected. -/
def OnlySelected (w : World) (actions : List Action) : Prop :=
  EachStep (withHistory step recordSelection)
    (fun s a => SendsSelected s.2 s.1 a (step s.1 a))
    (start w, Ledger.empty) actions

/-- At a Start with the port open the load completes. A Start in automatic mode with the port closed
finds nothing to store (an invalid selection, or no first file) if the timer is running. -/
def LoadsFirst (s : Form) (a : Action) : Prop :=
  s.closed = false → a.event = .button8 →
    (s.isSerialPortOpen = true → LoadCompletes a.world s) ∧
    (s.isSerialPortOpen = false → s.autoScan = true → s.timer1.enabled = true →
      (scanFile a.world s 0).getD [] = [])

/-- While the timer runs, the five buffers hold what the Start of the scan read. -/
def HoldsScan (s : Form) (ledger : Ledger) : Prop :=
  s.timer1.enabled = true →
    ∀ n, ledger.scan n = some (payload (s.buffers (.autoReadByteData n)))

/-! ### The ledger -/

section Record

variable {ledger : Ledger} {s : Form} {a : Action}

theorem recordSelection_start (still : s.closed = false) (start : a.event = .button8)
    (mode : s.autoScan = true) (flag : s.isSerialPortOpen = true) (n : Fin 5) :
    (recordSelection ledger s a).scan n = complete (scanFile a.world s n) :=
  congrFun (if_pos ⟨still, start, mode, flag⟩) n

theorem recordSelection_other
    (other : ¬ (a.event = .button8 ∧ s.autoScan = true ∧ s.isSerialPortOpen = true)) :
    (recordSelection ledger s a).scan = ledger.scan :=
  if_neg fun all => other all.2

end Record

/-! ### One step -/

section Steps

variable {ledger : Ledger} {w : World} {s t : Form}

theorem mem_tail_callsOf {buffer : Buffer} {header : UInt8} {body : List UInt8} {call : Sent}
    (member : call ∈ callsOf s buffer (header :: body)) :
    call.buffer = buffer ∧ call.bytes.tail = body := by
  rcases mem_callsOf member with ⟨same, bytes⟩
  exact ⟨same, by rw [bytes, List.tail_cons]⟩

theorem mem_tail_guardedCalls {buffer : Buffer} {header : UInt8} {body : List UInt8} {call : Sent}
    (member : call ∈ guardedCalls s buffer (header :: body)) :
    call.buffer = buffer ∧ call.bytes.tail = body ∧ s.isSerialPortOpen = true := by
  unfold guardedCalls at member
  split at member
  · rename_i flag
    rcases mem_tail_callsOf member with ⟨same, tail⟩
    exact ⟨same, tail, flag⟩
  · cases member

/-- The load of a manual Start that completes. -/
theorem loadCompletes_manual (mode : s.autoScan = false) (completes : LoadCompletes w s) :
    ∃ bytes, complete (selectedFile w s) = some bytes := by
  rw [LoadCompletes, if_neg (ne_true_of_eq_false mode)] at completes
  exact Option.isSome_iff_exists.1 completes

theorem loadCompletes_auto (mode : s.autoScan = true) (completes : LoadCompletes w s) :
    ∃ files : Fin 5 → List UInt8, ∀ n, complete (scanFile w s n) = some (files n) := by
  rw [LoadCompletes, if_pos mode] at completes
  exact ⟨fun n => (complete (scanFile w s n)).get (completes n), fun n => by simp⟩

theorem manual_selected (mode : s.autoScan = false)
    (first : s.isSerialPortOpen = true → LoadCompletes w s) :
    ∀ call ∈ guardedCalls s .readByteData
        (dataLength :: payload ((loadedManual w s).buffers .readByteData)),
      Selected ledger s ⟨w, .button8⟩ call := by
  intro call member
  rcases mem_tail_guardedCalls member with ⟨_, tail, flag⟩
  rcases loadCompletes_manual mode (first flag) with ⟨bytes, whole⟩
  right; right; left
  refine ⟨rfl, mode, ?_⟩
  rw [tail, loadedManual_complete whole]
  exact whole

theorem auto_selected (still : s.closed = false) (mode : s.autoScan = true)
    (first : s.isSerialPortOpen = true → LoadCompletes w s) :
    ∀ call ∈ guardedCalls s (.autoReadByteData 0)
        (dataLength :: payload ((loadedAuto w s).buffers (.autoReadByteData 0))),
      Selected (recordSelection ledger s ⟨w, .button8⟩) s ⟨w, .button8⟩ call := by
  intro call member
  rcases mem_tail_guardedCalls member with ⟨buffer, tail, flag⟩
  rcases loadCompletes_auto mode (first flag) with ⟨files, whole⟩
  right; right; right
  refine ⟨0, buffer, ?_⟩
  rw [recordSelection_start still rfl mode flag, tail, loadedAuto_complete whole, whole]

/-- After an automatic Start the buffers hold what it read, or what the running scan had read before. -/
theorem AutoStarted.holdsScan (started : AutoStarted w s t) (still : s.closed = false)
    (mode : s.autoScan = true) (holds : HoldsScan s ledger) (first : LoadsFirst s ⟨w, .button8⟩) :
    HoldsScan t (recordSelection ledger s ⟨w, .button8⟩) := by
  rcases first still rfl with ⟨completes, nothing⟩
  intro enabled n
  have frame := started.auto n
  rw [frameOf_eq] at frame
  rw [(List.cons.inj frame).2]
  cases flag : s.isSerialPortOpen with
  | true =>
      rcases loadCompletes_auto mode (completes flag) with ⟨files, whole⟩
      rw [recordSelection_start still rfl mode flag, loadedAuto_complete whole, whole]
  | false =>
      rw [started.enabled, flag, Bool.false_or] at enabled
      rw [recordSelection_other (by simp [flag]),
        loadedAuto_nothing (nothing flag mode enabled)]
      exact holds enabled n

theorem HoldsScan.keep {a : Action} (holds : HoldsScan s ledger)
    (enabled : t.timer1.enabled = true → s.timer1.enabled = true)
    (auto : ∀ n, t.buffers (.autoReadByteData n) = s.buffers (.autoReadByteData n))
    (other : ¬ (a.event = .button8 ∧ s.autoScan = true ∧ s.isSerialPortOpen = true)) :
    HoldsScan t (recordSelection ledger s a) := by
  intro running n
  rw [recordSelection_other other, auto n]
  exact holds (enabled running) n

/-- The zero frame is always among what may be sent. -/
theorem zero_selected {a : Action} {call : Sent} (bytes : call.bytes = zeroFrame) :
    Selected ledger s a call := by
  left
  rw [bytes, zeroFrame, List.tail_cons]

theorem sendsSelected_of_calls {a : Action} {calls : List Sent}
    (grown : t.sent = s.sent ++ calls)
    (selected : ∀ call ∈ calls, Selected (recordSelection ledger s a) s a call)
    (other : a.event ≠ .button8) : SendsSelected ledger s a t :=
  ⟨⟨calls, grown, selected⟩, fun start _ => absurd start other⟩

theorem sendsSelected_of_nothing {a : Action} (same : t.sent = s.sent) :
    SendsSelected ledger s a t :=
  ⟨⟨[], by rw [same, List.append_nil], List.forall_mem_nil _⟩, fun _ _ => same⟩

/-- A Start whose load fails sends nothing when the port is closed. -/
theorem sendsSelected_of_start {a : Action} {buffer : Buffer} {bytes : List UInt8}
    (grown : t.sent = s.sent ++ guardedCalls s buffer bytes)
    (selected : ∀ call ∈ guardedCalls s buffer bytes,
      Selected (recordSelection ledger s a) s a call)
    (first : s.isSerialPortOpen = true → LoadCompletes a.world s) :
    SendsSelected ledger s a t := by
  refine ⟨⟨_, grown, selected⟩, fun _ fails => ?_⟩
  have shut : ¬ s.isSerialPortOpen = true := fun flag => fails (first flag)
  rw [grown, guardedCalls, if_neg shut, List.append_nil]

/-- A tick sends what the Start of the scan read for the direction of the tick. -/
theorem Ticked.selected {n : Fin 5} (ticked : Ticked n s t) (enabled : s.timer1.enabled = true)
    (holds : HoldsScan s ledger) : SendsSelected ledger s ⟨w, .tick⟩ t := by
  apply sendsSelected_of_calls ticked.sent
  · intro call member
    rw [frameOf_eq] at member
    rcases mem_tail_callsOf member with ⟨buffer, tail⟩
    right; right; right
    refine ⟨n, buffer, ?_⟩
    rw [recordSelection_other (by simp), tail]
    exact holds enabled n
  · simp

end Steps

/-- One step, by its effect. -/
theorem selection_of_effect {w : World} {s t : Form} {e : Event} {ledger : Ledger}
    (effect : Effect w s e t) (still : s.closed = false) (holds : HoldsScan s ledger)
    (first : LoadsFirst s ⟨w, e⟩) :
    HoldsScan t (recordSelection ledger s ⟨w, e⟩) ∧ SendsSelected ledger s ⟨w, e⟩ t := by
  cases effect with
  | idle silent idle =>
      have other : e ≠ .button8 := by
        rintro rfl
        cases silent
      constructor
      · exact holds.keep (fun running => idle.enabled.symm.trans running) idle.auto
          fun all => other all.1
      · exact sendsSelected_of_nothing idle.sent
  | stop stops stopped =>
      have other : e ≠ .button8 := by
        rintro rfl
        cases stops
      constructor
      · intro running
        rw [stopped.enabled] at running
        cases running
      · apply sendsSelected_of_calls stopped.sent _ other
        exact fun call member => zero_selected (mem_guardedCalls member).2
  | manual mode started =>
      constructor
      · exact holds.keep (fun running => started.enabled.symm.trans running) started.auto
          (by simp [mode])
      · exact sendsSelected_of_start started.sent
          (manual_selected mode (first still rfl).1) (first still rfl).1
  | auto mode started =>
      constructor
      · exact started.holdsScan still mode holds first
      · exact sendsSelected_of_start started.sent
          (auto_selected still mode (first still rfl).1) (first still rfl).1
  | off _ =>
      exact ⟨holds.keep id (fun _ => rfl) (by simp), sendsSelected_of_nothing rfl⟩
  | stray _ =>
      exact ⟨(nomatch ·), sendsSelected_of_nothing rfl⟩
  | tick n _ enabled ticked =>
      constructor
      · exact holds.keep (fun _ => enabled) (fun _ => by rw [ticked.buffers]) (by simp)
      · exact ticked.selected enabled holds
  | closing closed =>
      constructor
      · exact holds.keep (fun running => closed.enabled.symm.trans running) closed.auto (by simp)
      · apply sendsSelected_of_calls closed.sent
        · exact fun call member => zero_selected (mem_callsOf member).2
        · simp

theorem selection_step {s : Form} {ledger : Ledger} {a : Action} (holds : HoldsScan s ledger)
    (first : LoadsFirst s a) :
    HoldsScan (step s a) (recordSelection ledger s a) ∧ SendsSelected ledger s a (step s a) := by
  rcases step_cases s a with ⟨closed, same⟩ | ⟨still, effect⟩
  · rw [same]
    have gone : ¬ (s.closed = false ∧ a.event = .button8 ∧ s.autoScan = true ∧
        s.isSerialPortOpen = true) := by simp [closed]
    have kept : (recordSelection ledger s a).scan = ledger.scan := if_neg gone
    refine ⟨?_, sendsSelected_of_nothing rfl⟩
    rw [HoldsScan, kept]
    exact holds
  · exact selection_of_effect effect still holds first

/-- A Start, whether or not its load fails, sends nothing exactly when the port is closed. -/
theorem start_silent_iff (w : World) (before : List Action) (v : World)
    (still : (run step (start w) before).closed = false) :
    (step (run step (start w) before) ⟨v, .button8⟩).sent = (run step (start w) before).sent ↔
      (run step (start w) before).isSerialPortOpen = false := by
  have openIf := openIfFlag_run w before still
  generalize run step (start w) before = s at still openIf ⊢
  have sends (buffer : Buffer) (bytes : List UInt8) :
      s.sent ++ guardedCalls s buffer bytes = s.sent ↔ s.isSerialPortOpen = false := by
    rw [List.append_right_eq_self]
    cases flag : s.isSerialPortOpen with
    | true => simp [guardedCalls, flag, callsOf, openIf flag]
    | false => simp [guardedCalls, flag]
  rw [step_of_open still, handle]
  cases mode : s.autoScan with
  | false =>
      rw [button8Click_manual v mode, (startManual_started v s).sent]
      exact sends _ _
  | true =>
      rw [button8Click_auto v mode, (startAuto_started v s).sent]
      exact sends _ _

/-- In a run whose Starts load what they send, only the selected patterns are sent, and a Start whose
load fails sends nothing. -/
theorem only_selected_transmitted (w : World) (actions : List Action)
    (first : EachStep step LoadsFirst (start w) actions) : OnlySelected w actions := by
  have promised : EachStep (withHistory step recordSelection) (fun s a => LoadsFirst s.1 a)
      (start w, Ledger.empty) actions :=
    (eachStep_withHistory Ledger.empty (start w) actions).2 first
  apply eachStep_of_invariant (fun s : Form × Ledger => HoldsScan s.1 s.2) _ _ _ promised
  · exact fun s a holds here => (selection_step holds here).1
  · exact fun s a holds here => (selection_step holds here).2
  · intro running
    have off := (start_portOnly w).idle.enabled
    rw [off] at running
    cases running

theorem first_start_selected :
    OnlySelected onePort (opening onePort "COM1" ++ [⟨onePort, .button8⟩]) := by
  apply only_selected_transmitted
  rw [eachStep_append]
  refine ⟨⟨fun _ => (nomatch ·), fun _ => (nomatch ·), trivial⟩, ?_, trivial⟩
  have opened := onePort_justOpened
  generalize run step (start onePort) (opening onePort "COM1") = s at opened ⊢
  intro _ _
  constructor
  · intro _
    rw [LoadCompletes, if_neg (ne_true_of_eq_false opened.autoScan), opened.selectedFile_eq]
    exact congrArg Option.isSome (complete_whole List.length_replicate)
  · intro shut
    rw [opened.isOpen] at shut
    cases shut

/-! ### A Start without its file -/

/-- One port, and no files. -/
def noFiles : World :=
  { onePort with readFile := fun _ => none }

/-- The frame that a Start without its file sends: the buffer as it was at the start of the program. -/
theorem noFiles_sent {s : Form} (opened : JustOpened "COM1" s) :
    (step s ⟨noFiles, .button8⟩).sent = s.sent ++
      [{ buffer := .readByteData, bytes := dataLength :: List.replicate 136 0
         portName := "COM1" }] := by
  have missing : selectedFile noFiles s = none := opened.selectedFile_eq noFiles
  have buffers := loadedManual_nothing (w := noFiles) (s := s) (by rw [missing]; rfl)
  have zeros : payload (s.buffers .readByteData) = List.replicate 136 0 := by
    rw [opened.buffers]
    simp [payload]
  rw [step_of_open opened.closed, handle, button8Click_manual _ opened.autoScan,
    (startManual_started _ s).sent, buffers, zeros, guardedCalls, if_pos opened.isOpen, callsOf,
    opened.port, if_pos rfl]

/-- The selected file is missing, and 136 zero bytes are sent, which are neither the zero pattern nor any
file. -/
theorem missing_file_transmitted :
    ¬ OnlySelected noFiles (opening noFiles "COM1" ++ [⟨noFiles, .button8⟩]) := by
  have opened : JustOpened "COM1" (run step (start noFiles) (opening noFiles "COM1")) :=
    justOpened (fun _ => rfl) (by simp [ValidName]) rfl
  have empty : history step recordSelection Ledger.empty (start noFiles) (opening noFiles "COM1") =
      Ledger.empty := by
    simp [opening, recordSelection, Ledger.empty]
  intro only
  rw [OnlySelected, eachStep_append, run_withHistory, empty] at only
  rcases only.2.1.1 with ⟨calls, grown, selected⟩
  simp only at grown selected
  rw [noFiles_sent opened] at grown
  rw [← List.append_cancel_left grown] at selected
  rcases selected _ List.mem_cons_self with zero | loaded | ⟨_, _, manual⟩ | ⟨n, buffer, _⟩
  · exact absurd zero (by decide)
  · have none : (recordSelection Ledger.empty
        (run step (start noFiles) (opening noFiles "COM1")) ⟨noFiles, .button8⟩).loaded = [] := by
      apply if_neg
      rintro ⟨_, contrary⟩
      cases contrary
    rw [none] at loaded
    cases loaded
  · have missing : selectedFile noFiles (run step (start noFiles) (opening noFiles "COM1")) = none :=
      opened.selectedFile_eq noFiles
    rw [missing] at manual
    cases manual
  · cases buffer

end VoltCtrl.Host
