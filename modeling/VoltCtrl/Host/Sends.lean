/-
Module: VoltCtrl.Host.Sends
Layer: Host
Purpose: What the handlers that send can do: Stop and manual mode, Start in both modes, the tick, and the
  closing of the form. `Effect` sums up every event in one inductive relation, and `effect_of_handle` is
  the inversion lemma that the invariants of the program are proved from.
Trusted boundary: none
Main exports: guardedCalls, Stopped, loadedManual, ManualStarted, loadedAuto, AutoStarted, Ticked,
  Closed, Effect, effect_of_handle, step_cases, step_keeps
-/
import VoltCtrl.Host.Effects

namespace VoltCtrl.Host

open VoltCtrl.Core

/-- The call of a handler that sends only when the program holds the port for open. -/
def guardedCalls (s : Form) (buffer : Buffer) (bytes : List UInt8) : List Sent :=
  if s.isSerialPortOpen then callsOf s buffer bytes else []

/-- The port, what the program holds it for, the mode, the selection of a scan and the form itself are
left alone. -/
structure Steady (s t : Form) : Prop where
  port : t.serialPort1 = s.serialPort1
  isOpen : t.isSerialPortOpen = s.isSerialPortOpen
  autoScan : t.autoScan = s.autoScan
  comboBox2 : t.comboBox2 = s.comboBox2
  comboBox3 : t.comboBox3 = s.comboBox3
  closed : t.closed = s.closed
  read : s.fileReadOver = true → t.fileReadOver = true

theorem Loads.steady {D : Buffer → Prop} {s t : Form} (loads : Loads D s t) : Steady s t := by
  have rest := loads.rest
  constructor
  · rw [rest]
  · rw [rest]
  · rw [rest]
  · rw [rest]
  · rw [rest]
  · exact loads.closed
  · exact loads.read

/-! ### Stop and manual mode -/

structure Stopped (s t : Form) : Prop where
  sent : t.sent = s.sent ++ guardedCalls s .zeroData zeroFrame
  enabled : t.timer1.enabled = false
  flag : t.autoScanFlag = 2
  buffers : ∀ b, b ≠ .zeroData → t.buffers b = s.buffers b
  port : t.serialPort1 = s.serialPort1
  isOpen : t.isSerialPortOpen = s.isSerialPortOpen
  closed : t.closed = s.closed

/-- The common part of Stop and manual mode, which differ in the message. -/
theorem stopped_of_zero (w : World) (s : Form) (text : String) :
    Stopped s
      (if (zeroDataArr (stopScan s)).isSerialPortOpen then
        (sendZeroData w (zeroDataArr (stopScan s))).setPicture .deg0
      else (zeroDataArr (stopScan s)).messageBox text "") := by
  have ready := zeroDataArr_payload (stopScan s)
  have rest : zeroDataArr (stopScan s) =
      { stopScan s with buffers := (zeroDataArr (stopScan s)).buffers } :=
    store_rest (stopScan s) .zeroData 1 zeroPattern
  have others (b : Buffer) (other : b ≠ .zeroData) :
      (zeroDataArr (stopScan s)).buffers b = s.buffers b :=
    store_other (stopScan s) .zeroData 1 zeroPattern other
  generalize zeroDataArr (stopScan s) = zeroed at ready rest others ⊢
  have sameOpen : zeroed.isSerialPortOpen = s.isSerialPortOpen := by
    rw [rest]
    rfl
  by_cases isOpen : s.isSerialPortOpen = true
  · obtain ⟨messages, result⟩ := sendZeroData_eq w ready
    rw [if_pos (sameOpen.trans isOpen), result]
    have calls : callsOf zeroed .zeroData zeroFrame = guardedCalls s .zeroData zeroFrame := by
      rw [guardedCalls, if_pos isOpen, rest]
      rfl
    have kept (b : Buffer) (other : b ≠ .zeroData) :
        (zeroed.setEntry .zeroData 0 dataLength).buffers b = s.buffers b :=
      (setEntry_other zeroed .zeroData 0 dataLength other).trans (others b other)
    rw [calls]
    generalize (zeroed.setEntry .zeroData 0 dataLength).buffers = after at kept ⊢
    rw [rest]
    exact ⟨rfl, rfl, rfl, kept, rfl, rfl, rfl⟩
  · have none : guardedCalls s .zeroData zeroFrame = [] := if_neg isOpen
    rw [if_neg (by rwa [sameOpen])]
    have sameBuffers : (zeroed.messageBox text "").buffers = zeroed.buffers := rfl
    constructor
    · rw [none, List.append_nil, rest]
      rfl
    · rw [rest]
      rfl
    · rw [rest]
      rfl
    · exact others
    · rw [rest]
      rfl
    · exact sameOpen
    · rw [rest]
      rfl

theorem button7Click_stopped (w : World) (s : Form) : Stopped s (button7Click w s) :=
  stopped_of_zero w s "停止失败，请打开串口"

theorem button6Click_stopped (w : World) (s : Form) : Stopped s (button6Click w s) := by
  have stopped := stopped_of_zero w { s with autoScan := false } "请先打开串口"
  exact ⟨stopped.sent, stopped.enabled, stopped.flag, stopped.buffers, stopped.port,
    stopped.isOpen, stopped.closed⟩

/-! ### Start -/

/-- The form after the `try` of a manual Start. -/
def loadedManual (w : World) (s : Form) : Form :=
  attempt (checkFreqAndDirection w) (fun s => s.messageBox "读取文件失败" "") s

theorem loadedManual_loads (w : World) (s : Form) :
    Loads (· = .readByteData) s (loadedManual w s) :=
  (checkFreqAndDirection_loads w).attempt (fun s => loads_messageBox _ s _ _) s

theorem loadedManual_complete {w : World} {s : Form} {bytes : List UInt8}
    (whole : complete (selectedFile w s) = some bytes) :
    payload ((loadedManual w s).buffers .readByteData) = bytes := by
  obtain ⟨picture, result⟩ := checkFreqAndDirection_complete whole
  have stored : loadedManual w s = (s.store .readByteData 1 bytes).setPicture picture := by
    simp only [loadedManual, attempt, result]
  rw [stored]
  exact store_payload s .readByteData (complete_length whole)

/-- With an invalid selection, or a missing or empty file, no buffer changes. -/
theorem loadedManual_nothing {w : World} {s : Form}
    (nothing : (selectedFile w s).getD [] = []) : (loadedManual w s).buffers = s.buffers := by
  rw [loadedManual, ← checkFreqAndDirection_nothing nothing, attempt_eq]
  split
  · rfl
  · rfl

theorem startManual_eq (w : World) (s : Form) :
    startManual w s =
      if (loadedManual w s).isSerialPortOpen then
        writeByteToSerialPort w .readByteData 0 (dataLength.toNat + 1)
          ((loadedManual w s).setEntry .readByteData 0 dataLength)
      else (loadedManual w s).messageBox "启动失败，请先打开串口" "" := by
  unfold startManual loadedManual
  rfl

attribute [local irreducible] loadedManual

/-- A manual Start sends `ReadByteData` as the load left it. -/
structure ManualStarted (w : World) (s t : Form) : Prop where
  sent : t.sent = s.sent ++ guardedCalls s .readByteData
    (dataLength :: payload ((loadedManual w s).buffers .readByteData))
  enabled : t.timer1.enabled = s.timer1.enabled
  flag : t.autoScanFlag = s.autoScanFlag
  auto : ∀ n, t.buffers (.autoReadByteData n) = s.buffers (.autoReadByteData n)
  steady : Steady s t

theorem startManual_started (w : World) (s : Form) : ManualStarted w s (startManual w s) := by
  have loads := loadedManual_loads w s
  rw [startManual_eq]
  have steady := loads.steady
  have idle := loads.idle fun n => by simp
  by_cases isOpen : s.isSerialPortOpen = true
  · obtain ⟨messages, result⟩ :=
      write_eq w .readByteData ((loadedManual w s).setEntry .readByteData 0 dataLength)
    rw [if_pos (steady.isOpen.trans isOpen), result, frameOf_setLength]
    have calls (bytes : List UInt8) :
        callsOf ((loadedManual w s).setEntry .readByteData 0 dataLength) .readByteData bytes =
          guardedCalls s .readByteData bytes := by
      rw [guardedCalls, if_pos isOpen]
      unfold callsOf
      rw [← steady.port]
      rfl
    rw [calls]
    constructor
    · rw [← idle.sent]
      rfl
    · exact idle.enabled
    · exact idle.flag
    · intro n
      exact (setEntry_other _ .readByteData 0 dataLength (by simp)).trans (idle.auto n)
    · exact ⟨steady.port, steady.isOpen, steady.autoScan, steady.comboBox2, steady.comboBox3,
        steady.closed, steady.read⟩
  · have none (bytes : List UInt8) : guardedCalls s .readByteData bytes = [] := if_neg isOpen
    rw [if_neg (by rwa [steady.isOpen])]
    constructor
    · rw [none, List.append_nil]
      exact idle.sent
    · exact idle.enabled
    · exact idle.flag
    · exact idle.auto
    · exact ⟨steady.port, steady.isOpen, steady.autoScan, steady.comboBox2, steady.comboBox3,
        steady.closed, steady.read⟩

/-- Manual Start on an open port with a complete file. -/
theorem ManualStarted.sent_file {w : World} {s t : Form} (started : ManualStarted w s t)
    (flag : s.isSerialPortOpen = true) (isOpen : s.serialPort1.isOpen = true) {bytes : List UInt8}
    (whole : complete (selectedFile w s) = some bytes) :
    t.sent = s.sent ++
      [{ buffer := .readByteData, bytes := dataLength :: bytes
         portName := s.serialPort1.portName }] := by
  rw [started.sent, guardedCalls, if_pos flag, callsOf, if_pos isOpen, loadedManual_complete whole]

/-- The form after the two `try` blocks of an automatic Start. -/
def loadedAuto (w : World) (s : Form) : Form :=
  attempt (autoScanCheckFreq w) (fun s => s.messageBox "读取文件失败" "")
    (attempt setDwell (fun s => s.messageBox "停留时间输入格式错误！" "") s)

/-- The dwell time touches no buffer and no text. -/
theorem dwell_loads (s : Form) :
    Loads (fun _ => False) s
      (attempt setDwell (fun s => s.messageBox "停留时间输入格式错误！" "") s) :=
  (setDwell_loads _).attempt (fun s => loads_messageBox _ s _ _) s

theorem Loads.mono {D E : Buffer → Prop} {s t : Form} (loads : Loads D s t)
    (wider : ∀ b, D b → E b) : Loads E s t :=
  ⟨loads.rest, loads.length,
    fun b outside => loads.others b fun inside => outside (wider b inside), loads.read⟩

theorem loadedAuto_loads (w : World) (s : Form) : Loads IsAuto s (loadedAuto w s) :=
  trans_of (Loads IsAuto) ((dwell_loads s).mono fun _ never => never.elim)
    ((autoScanCheckFreq_loads w).attempt (fun s => loads_messageBox _ s _ _) _)

/-- The selection of a scan is read from texts that steady handlers leave alone. -/
theorem Steady.scanFile_eq {s t : Form} (steady : Steady s t) (w : World) (n : Fin 5) :
    scanFile w t n = scanFile w s n := by
  unfold scanFile
  rw [steady.comboBox2, steady.comboBox3]

theorem loadedAuto_complete {w : World} {s : Form} {files : Fin 5 → List UInt8}
    (whole : ∀ n, complete (scanFile w s n) = some (files n)) (n : Fin 5) :
    payload ((loadedAuto w s).buffers (.autoReadByteData n)) = files n := by
  have dwell := dwell_loads s
  unfold loadedAuto
  generalize attempt setDwell (fun s => s.messageBox "停留时间输入格式错误！" "") s = t at dwell ⊢
  have wholeAfter (m : Fin 5) : complete (scanFile w t m) = some (files m) := by
    rw [dwell.steady.scanFile_eq w m, whole m]
  simp only [attempt, autoScanCheckFreq_complete wholeAfter]
  exact storeScan_payload t (fun m => complete_length (whole m)) n

/-- With an invalid selection, or a missing or empty first file, no buffer changes. -/
theorem loadedAuto_nothing {w : World} {s : Form} (nothing : (scanFile w s 0).getD [] = []) :
    (loadedAuto w s).buffers = s.buffers := by
  have dwell := dwell_loads s
  have same : (attempt setDwell (fun s => s.messageBox "停留时间输入格式错误！" "") s).buffers =
      s.buffers :=
    funext fun b => dwell.others b id
  unfold loadedAuto
  generalize attempt setDwell (fun s => s.messageBox "停留时间输入格式错误！" "") s = t
    at dwell same ⊢
  rw [← dwell.steady.scanFile_eq w 0] at nothing
  rw [← same, ← autoScanCheckFreq_nothing nothing, attempt_eq]
  split
  · rfl
  · rfl

theorem setAutoLengths_rest (s : Form) :
    setAutoLengths s = { s with buffers := (setAutoLengths s).buffers } := by
  simp only [setAutoLengths, Form.setEntry]

theorem setAutoLengths_other (s : Form) {b : Buffer} (other : ¬ IsAuto b) :
    (setAutoLengths s).buffers b = s.buffers b := by
  have differ (n : Fin 5) : b ≠ .autoReadByteData n := fun same => other ⟨n, same⟩
  unfold setAutoLengths
  rw [setEntry_other _ _ 0 _ (differ 4), setEntry_other _ _ 0 _ (differ 3),
    setEntry_other _ _ 0 _ (differ 2), setEntry_other _ _ 0 _ (differ 1),
    setEntry_other _ _ 0 _ (differ 0)]

/-- Setting a length byte changes no payload, and the frame of its own buffer only. -/
theorem setEntry_payload (s : Form) (m n : Fin 5) :
    payload ((s.setEntry (.autoReadByteData m) 0 dataLength).buffers (.autoReadByteData n)) =
      payload (s.buffers (.autoReadByteData n)) := by
  by_cases same : n = m
  · subst same
    have frame := frameOf_setLength s (.autoReadByteData n)
    rw [frameOf_eq] at frame
    exact (List.cons.inj frame).2
  · rw [setEntry_other s _ 0 dataLength (by simpa using same)]

theorem setEntry_frame (s : Form) (m n : Fin 5) :
    frameOf ((s.setEntry (.autoReadByteData m) 0 dataLength).buffers (.autoReadByteData n)) =
      if n = m then dataLength :: payload (s.buffers (.autoReadByteData n))
      else frameOf (s.buffers (.autoReadByteData n)) := by
  split
  · rename_i same
    rw [same]
    exact frameOf_setLength s _
  · rename_i differ
    rw [setEntry_other s _ 0 dataLength (by simpa using differ)]

theorem setAutoLengths_frame (s : Form) (n : Fin 5) :
    frameOf ((setAutoLengths s).buffers (.autoReadByteData n)) =
      dataLength :: payload (s.buffers (.autoReadByteData n)) := by
  have member : n = 4 ∨ n = 3 ∨ n = 2 ∨ n = 1 ∨ n = 0 := by omega
  simp only [setAutoLengths, setEntry_frame, setEntry_payload]
  rcases member with rfl | rfl | rfl | rfl | rfl
  · rfl
  · rfl
  · rfl
  · rfl
  · rfl

theorem startAuto_eq (w : World) (s : Form) :
    startAuto w s =
      if (loadedAuto w s).isSerialPortOpen then
        ((writeByteToSerialPort w (.autoReadByteData 0) 0 (dataLength.toNat + 1)
          (setAutoLengths (loadedAuto w s))).setPicture .deg0).timerStart
      else (loadedAuto w s).messageBox "启动失败，请先打开串口" "" := by
  unfold startAuto loadedAuto
  rfl

attribute [local irreducible] loadedAuto setAutoLengths

/-- An automatic Start sends the first of the scan's buffers and starts the timer. -/
structure AutoStarted (w : World) (s t : Form) : Prop where
  sent : t.sent = s.sent ++ guardedCalls s (.autoReadByteData 0)
    (dataLength :: payload ((loadedAuto w s).buffers (.autoReadByteData 0)))
  enabled : t.timer1.enabled = (s.isSerialPortOpen || s.timer1.enabled)
  flag : t.autoScanFlag = s.autoScanFlag
  auto : ∀ n, frameOf (t.buffers (.autoReadByteData n)) =
    (if s.isSerialPortOpen then dataLength else (s.buffers (.autoReadByteData n)).head) ::
      payload ((loadedAuto w s).buffers (.autoReadByteData n))
  others : ∀ b, ¬ IsAuto b → t.buffers b = s.buffers b
  steady : Steady s t

theorem startAuto_started (w : World) (s : Form) : AutoStarted w s (startAuto w s) := by
  have loads := loadedAuto_loads w s
  have lengths := setAutoLengths_rest (loadedAuto w s)
  have frames := setAutoLengths_frame (loadedAuto w s)
  have others (b : Buffer) (other : ¬ IsAuto b) :
      (setAutoLengths (loadedAuto w s)).buffers b = s.buffers b :=
    (setAutoLengths_other (loadedAuto w s) other).trans (loads.others b other)
  rw [startAuto_eq]
  generalize setAutoLengths (loadedAuto w s) = ready at lengths frames others ⊢
  have steady := loads.steady
  by_cases isOpen : s.isSerialPortOpen = true
  · obtain ⟨messages, result⟩ := write_eq w (.autoReadByteData 0) ready
    have readySteady : Steady s ready := by
      rw [lengths]
      exact ⟨steady.port, steady.isOpen, steady.autoScan, steady.comboBox2, steady.comboBox3,
        steady.closed, steady.read⟩
    have sameSent : ready.sent = s.sent := by
      rw [lengths]
      exact loads.sent
    have sameFlag : ready.autoScanFlag = s.autoScanFlag := by
      rw [lengths]
      exact loads.flag
    have calls (bytes : List UInt8) : callsOf ready (.autoReadByteData 0) bytes =
        guardedCalls s (.autoReadByteData 0) bytes := by
      rw [guardedCalls, if_pos isOpen]
      unfold callsOf
      rw [readySteady.port]
    rw [if_pos (steady.isOpen.trans isOpen), result, frames, calls]
    constructor
    · exact congrArg (· ++ _) sameSent
    · rw [isOpen]
      rfl
    · exact sameFlag
    · intro n
      rw [if_pos isOpen]
      exact frames n
    · exact others
    · exact ⟨readySteady.port, readySteady.isOpen, readySteady.autoScan, readySteady.comboBox2,
        readySteady.comboBox3, readySteady.closed, readySteady.read⟩
  · have none (bytes : List UInt8) : guardedCalls s (.autoReadByteData 0) bytes = [] :=
      if_neg isOpen
    have shown := trans_of (Loads IsAuto) loads
      (loads_messageBox IsAuto (loadedAuto w s) "启动失败，请先打开串口" "")
    have sameBuffers := messageBox_buffers (loadedAuto w s) "启动失败，请先打开串口" ""
    rw [if_neg (by rwa [steady.isOpen])]
    generalize (loadedAuto w s).messageBox "启动失败，请先打开串口" "" = t at shown sameBuffers ⊢
    constructor
    · rw [none, List.append_nil]
      exact shown.sent
    · rw [Bool.eq_false_iff.2 isOpen]
      exact shown.enabled
    · exact shown.flag
    · intro n
      rw [if_neg isOpen, ← shown.length, ← sameBuffers]
      exact frameOf_eq _
    · exact shown.others
    · exact shown.steady

/-! ### The tick -/

/-- A tick at position `n` sends buffer `n` as it is and moves on. -/
structure Ticked (n : Fin 5) (s t : Form) : Prop where
  sent : t.sent = s.sent ++
    callsOf s (.autoReadByteData n) (frameOf (s.buffers (.autoReadByteData n)))
  enabled : t.timer1.enabled = true
  flag : t.autoScanFlag = (n.val + 1) % 5 + 1
  buffers : t.buffers = s.buffers
  steady : Steady s t

theorem scanCase_ticked (w : World) (n : Fin 5) (picture : Picture) (s : Form) :
    Ticked n s (scanCase w n picture ((n.val + 1) % 5 + 1) s.timerStop) := by
  obtain ⟨messages, result⟩ := write_eq w (.autoReadByteData n) s.timerStop
  rw [scanCase, result]
  exact ⟨rfl, rfl, rfl, rfl, ⟨rfl, rfl, rfl, rfl, rfl, rfl, id⟩⟩

theorem timer1Tick_ticked (w : World) {n : Fin 5} {s : Form}
    (position : s.autoScanFlag = n.val + 1) : Ticked n s (timer1Tick w s) := by
  have flag : s.timerStop.autoScanFlag = n.val + 1 := position
  have member : n = 0 ∨ n = 1 ∨ n = 2 ∨ n = 3 ∨ n = 4 := by omega
  unfold timer1Tick
  simp only [flag]
  rcases member with rfl | rfl | rfl | rfl | rfl
  · exact scanCase_ticked w 0 .deg0 s
  · exact scanCase_ticked w 1 .whu1 s
  · exact scanCase_ticked w 2 .deg30 s
  · exact scanCase_ticked w 3 .deg45 s
  · exact scanCase_ticked w 4 .deg60 s

/-- At any other position a tick only stops the timer. -/
theorem timer1Tick_stray (w : World) {s : Form} (stray : ∀ n : Fin 5, s.autoScanFlag ≠ n.val + 1) :
    timer1Tick w s = s.timerStop := by
  have flag : s.timerStop.autoScanFlag = s.autoScanFlag := rfl
  unfold timer1Tick
  simp only [flag]
  split
  · rename_i position
    exact absurd position (stray 0)
  · rename_i position
    exact absurd position (stray 1)
  · rename_i position
    exact absurd position (stray 2)
  · rename_i position
    exact absurd position (stray 3)
  · rename_i position
    exact absurd position (stray 4)
  · rfl

/-! ### The closing of the form -/

/-- The port after the `Open` of the closing handler. -/
def reopened (w : World) (port : SerialPort) : SerialPort :=
  exec (openPort w) port

/-- The closing handler opens the port that `serialPort1` names, if it can, and sends the zero frame
there. -/
structure Closed (w : World) (s t : Form) : Prop where
  sent : t.sent = s.sent ++
    callsOf { s with serialPort1 := reopened w s.serialPort1 } .zeroData zeroFrame
  enabled : t.timer1.enabled = s.timer1.enabled
  flag : t.autoScanFlag = s.autoScanFlag
  auto : ∀ n, t.buffers (.autoReadByteData n) = s.buffers (.autoReadByteData n)
  closed : t.closed = true

theorem form1Closing_closed (w : World) (s : Form) :
    Closed w s { form1Closing w s with closed := true } := by
  have ready := zeroDataArr_payload s
  have rest : zeroDataArr s = { s with buffers := (zeroDataArr s).buffers } :=
    store_rest s .zeroData 1 zeroPattern
  have others (n : Fin 5) :
      (zeroDataArr s).buffers (.autoReadByteData n) = s.buffers (.autoReadByteData n) :=
    store_other s .zeroData 1 zeroPattern (by simp)
  unfold form1Closing
  generalize zeroDataArr s = zeroed at ready rest others ⊢
  have opened : attempt (onPort (openPort w)) id zeroed =
      { zeroed with serialPort1 := reopened w zeroed.serialPort1 } := by
    rw [attempt_eq, onPort, exec_onField, id, ite_self]
    rfl
  obtain ⟨messages, result⟩ :=
    sendZeroData_eq w (s := { zeroed with serialPort1 := reopened w zeroed.serialPort1 }) ready
  have samePort : zeroed.serialPort1 = s.serialPort1 := by rw [rest]
  have sent : zeroed.sent = s.sent := by rw [rest]
  have enabled : zeroed.timer1.enabled = s.timer1.enabled := by rw [rest]
  have flag : zeroed.autoScanFlag = s.autoScanFlag := by rw [rest]
  have calls : callsOf { zeroed with serialPort1 := reopened w s.serialPort1 } .zeroData zeroFrame =
      callsOf { s with serialPort1 := reopened w s.serialPort1 } .zeroData zeroFrame := rfl
  rw [opened, result, samePort, calls]
  constructor
  · rw [← sent]
  · exact enabled
  · exact flag
  · intro n
    exact (setEntry_other _ .zeroData 0 dataLength (by simp)).trans (others n)
  · rfl

/-! ### Every event -/

/-- The event is a click on Stop or on manual mode. -/
def Event.stops : Event → Bool
  | .button6 | .button7 => true
  | .button1 | .button2 | .button3 | .button4 | .button5 | .button8 | .editComboBox1 _
  | .editComboBox2 _ | .editComboBox3 _ | .editComboBox4 _ | .editTextBox2 _ | .tick
  | .closing => false

theorem Event.eq_of_stops {e : Event} (stops : e.stops = true) : e = .button6 ∨ e = .button7 := by
  cases e with
  | button6 => exact .inl rfl
  | button7 => exact .inr rfl
  | button1 | button2 | button3 | button4 | button5 | button8 | editComboBox1 | editComboBox2
  | editComboBox3 | editComboBox4 | editTextBox2 | tick | closing => cases stops

/-- What the handler of an event can do. -/
inductive Effect (w : World) (s : Form) : Event → Form → Prop where
  | idle {e : Event} {t : Form} (silent : e.silent = true) (idle : Idle s t) : Effect w s e t
  | stop {e : Event} {t : Form} (stops : e.stops = true) (stopped : Stopped s t) : Effect w s e t
  | manual {t : Form} (mode : s.autoScan = false) (started : ManualStarted w s t) :
      Effect w s .button8 t
  | auto {t : Form} (mode : s.autoScan = true) (started : AutoStarted w s t) :
      Effect w s .button8 t
  | off (disabled : s.timer1.enabled = false) : Effect w s .tick s
  | stray (away : ∀ n : Fin 5, s.autoScanFlag ≠ n.val + 1) : Effect w s .tick s.timerStop
  | tick {t : Form} (n : Fin 5) (position : s.autoScanFlag = n.val + 1)
      (enabled : s.timer1.enabled = true) (ticked : Ticked n s t) : Effect w s .tick t
  | closing {t : Form} (closed : Closed w s t) : Effect w s .closing t

theorem button8Click_manual (w : World) {s : Form} (mode : s.autoScan = false) :
    button8Click w s = startManual w s :=
  if_pos (by rw [mode]; rfl)

theorem button8Click_auto (w : World) {s : Form} (mode : s.autoScan = true) :
    button8Click w s = startAuto w s :=
  if_neg (by rw [mode]; decide)

theorem effect_of_start (w : World) (s : Form) : Effect w s .button8 (button8Click w s) := by
  cases mode : s.autoScan with
  | false =>
      rw [button8Click_manual w mode]
      exact .manual mode (startManual_started w s)
  | true =>
      rw [button8Click_auto w mode]
      exact .auto mode (startAuto_started w s)

theorem effect_of_tick (w : World) (s : Form) :
    Effect w s .tick (if s.timer1.enabled then timer1Tick w s else s) := by
  by_cases enabled : s.timer1.enabled = true
  · rw [if_pos enabled]
    by_cases somewhere : ∃ n : Fin 5, s.autoScanFlag = n.val + 1
    · rcases somewhere with ⟨n, position⟩
      exact .tick n position enabled (timer1Tick_ticked w position)
    · rw [timer1Tick_stray w (not_exists.1 somewhere)]
      exact .stray (not_exists.1 somewhere)
  · rw [if_neg enabled]
    exact .off (Bool.eq_false_iff.2 enabled)

theorem effect_of_handle (w : World) (s : Form) (e : Event) : Effect w s e (handle w s e) := by
  cases e with
  | button6 => exact .stop rfl (button6Click_stopped w s)
  | button7 => exact .stop rfl (button7Click_stopped w s)
  | button8 => exact effect_of_start w s
  | tick => exact effect_of_tick w s
  | closing => exact .closing (form1Closing_closed w s)
  | button1 | button2 | button3 | button4 | button5 | editComboBox1 | editComboBox2
  | editComboBox3 | editComboBox4 | editTextBox2 => exact .idle rfl (idle_of_silent w s rfl)

theorem step_of_closed {s : Form} (closed : s.closed = true) (a : Action) : step s a = s :=
  if_pos closed

theorem step_of_open {s : Form} (still : s.closed = false) (a : Action) :
    step s a = handle a.world s a.event :=
  if_neg (ne_true_of_eq_false still)

/-- A step handles its event, unless the form has closed. -/
theorem step_cases (s : Form) (a : Action) :
    s.closed = true ∧ step s a = s ∨
      s.closed = false ∧ Effect a.world s a.event (step s a) := by
  cases closed : s.closed with
  | true =>
      left
      exact ⟨rfl, step_of_closed closed a⟩
  | false =>
      right
      rw [step_of_open closed a]
      exact ⟨rfl, effect_of_handle a.world s a.event⟩

/-- What every effect keeps, every step keeps. -/
theorem step_keeps (Inv : Form → Prop) {s : Form} {a : Action}
    (keeps : ∀ t, Effect a.world s a.event t → Inv t) (before : Inv s) : Inv (step s a) := by
  rcases step_cases s a with ⟨_, same⟩ | ⟨_, effect⟩
  · rw [same]
    exact before
  · exact keeps _ effect

/-! ### The start -/

/-- The window opens with the initial form but for the texts and what the port scan leaves. -/
theorem start_portOnly (w : World) :
    PortOnly
      { Form.initial with comboBox2 := "15", comboBox3 := "90", comboBox4 := "0", textBox2 := "1" }
      (start w) := by
  have scanned := search_portOnly w Form.initial
  unfold start form1Load PortOnly at *
  generalize searchAndAddSerialToComboBox w Form.initial = t at scanned ⊢
  rw [scanned]

end VoltCtrl.Host
