/-
Module: VoltCtrl.Host.Panel
Layer: Host
Purpose: What the handlers do to the two parts of the form that no send depends on: the direction shown
  in `pictureBox1` and the interval of the timer. Stop, manual mode and an automatic Start show theta 0
  when the program holds the port for open; a tick shows its own direction; a manual Start shows the one
  it has loaded; the dwell time is read by an automatic Start alone.
Trusted boundary: none
Main exports: panel, panel_of_silent, stop_panel, startManual_shows, startManual_quiet,
  startManual_interval, setDwell_eq, dwellInterval, startAuto_panel, scanPicture, timer1Tick_panel,
  closing_panel
-/
import VoltCtrl.Host.Sends

namespace VoltCtrl.Host

open VoltCtrl.Core

/-- The direction shown and the interval of the timer. -/
def panel (s : Form) : Picture × Int :=
  (s.pictureBox1, s.timer1.interval)

theorem picture_of_panel {s t : Form} (same : panel t = panel s) : t.pictureBox1 = s.pictureBox1 :=
  congrArg Prod.fst same

theorem interval_of_panel {s t : Form} (same : panel t = panel s) :
    t.timer1.interval = s.timer1.interval :=
  congrArg Prod.snd same

/-! ### Stores, messages and writes -/

@[simp] theorem panel_messageBox (s : Form) (text caption : String) :
    panel (s.messageBox text caption) = panel s := rfl

@[simp] theorem panel_store (s : Form) (buffer : Buffer) (start : Nat) (values : List UInt8) :
    panel (s.store buffer start values) = panel s := by
  rw [store_rest]
  rfl

@[simp] theorem panel_setEntry (s : Form) (buffer : Buffer) (i : Nat) (value : UInt8) :
    panel (s.setEntry buffer i value) = panel s := rfl

@[simp] theorem panel_write (w : World) (buffer : Buffer) (s : Form) :
    panel (writeByteToSerialPort w buffer 0 (dataLength.toNat + 1) s) = panel s := by
  rcases write_eq w buffer s with ⟨messages, result⟩
  rw [result]
  rfl

@[simp] theorem panel_sendZeroData (w : World) (s : Form) : panel (sendZeroData w s) = panel s := by
  rw [sendZeroData, panel_write, panel_setEntry]

@[simp] theorem panel_zeroDataArr (s : Form) : panel (zeroDataArr s) = panel s :=
  panel_store s .zeroData 1 zeroPattern

/-! ### Handlers that send nothing -/

theorem button3Click_panel (w : World) (s : Form) : panel (button3Click w s) = panel s := by
  have reading : Within (Keeps panel) (readByteFromDialog w .readByteData) := by
    unfold readByteFromDialog
    split
    · exact Within.pure _
    · exact readByteFromFile_within (fun s values => panel_store s .readByteData 1 values) _
  have body : Within (Keeps panel) (button3Read w) :=
    reading.bind fun _ => Within.modify fun _ => rfl
  have kept : Keeps panel s (button3Click w s) :=
    body.attempt (fun s => panel_messageBox s _ _) s
  exact kept

theorem button4Click_panel (w : World) (s : Form) : panel (button4Click w s) = panel s := by
  have rest := dataWriteArr_rest s
  have written : panel (dataWriteArr s) = panel s := by
    generalize dataWriteArr s = t at rest ⊢
    rw [rest]
    rfl
  unfold button4Click
  simp only
  generalize dataWriteArr s = t at written ⊢
  split
  · exact written
  · split
    · exact written
    · exact written

theorem PortOnly.panel {s t : Form} (only : PortOnly s t) : Host.panel t = Host.panel s := by
  unfold PortOnly at only
  rw [only]
  rfl

theorem panel_of_silent (w : World) (s : Form) {e : Event} (silent : e.silent = true) :
    panel (handle w s e) = panel s := by
  cases e with
  | button1 =>
      rw [handle]
      exact (button1Click_portOnly w s).panel
  | button2 =>
      rw [handle, button2Click]
      exact (search_portOnly w s).panel
  | button3 =>
      rw [handle]
      exact button3Click_panel w s
  | button4 =>
      rw [handle]
      exact button4Click_panel w s
  | button5 =>
      rw [handle, button5Click]
      split
      · rfl
      · rfl
  | editComboBox1 | editComboBox2 | editComboBox3 | editComboBox4 | editTextBox2 =>
      rw [handle]
      rfl
  | button6 | button7 | button8 | tick | closing => cases silent

/-! ### Stop and manual mode -/

/-- The common part of Stop and manual mode. -/
theorem zero_panel (w : World) (s : Form) (text : String) :
    panel
        (if (zeroDataArr (stopScan s)).isSerialPortOpen then
          (sendZeroData w (zeroDataArr (stopScan s))).setPicture .deg0
        else (zeroDataArr (stopScan s)).messageBox text "") =
      (if s.isSerialPortOpen then .deg0 else s.pictureBox1, s.timer1.interval) := by
  have flag : (zeroDataArr (stopScan s)).isSerialPortOpen = s.isSerialPortOpen := by
    rw [zeroDataArr, store_rest]
    rfl
  have zeroed : panel (zeroDataArr (stopScan s)) = (s.pictureBox1, s.timer1.interval) :=
    panel_zeroDataArr (stopScan s)
  rw [flag]
  generalize zeroDataArr (stopScan s) = t at zeroed ⊢
  have interval := congrArg Prod.snd ((panel_sendZeroData w t).trans zeroed)
  split
  · exact Prod.ext rfl interval
  · exact (panel_messageBox t _ _).trans zeroed

theorem stop_eq (w : World) (s : Form) {e : Event} (stops : e.stops = true) :
    ∃ autoScan text, handle w s e =
      if (zeroDataArr (stopScan { s with autoScan := autoScan })).isSerialPortOpen then
        (sendZeroData w (zeroDataArr (stopScan { s with autoScan := autoScan }))).setPicture .deg0
      else (zeroDataArr (stopScan { s with autoScan := autoScan })).messageBox text "" := by
  rcases e.eq_of_stops stops with rfl | rfl
  · exact ⟨false, "请先打开串口", rfl⟩
  · exact ⟨s.autoScan, "停止失败，请打开串口", rfl⟩

theorem stop_panel (w : World) (s : Form) {e : Event} (stops : e.stops = true) :
    panel (handle w s e) =
      (if s.isSerialPortOpen then .deg0 else s.pictureBox1, s.timer1.interval) := by
  rcases stop_eq w s stops with ⟨autoScan, text, result⟩
  rw [result]
  exact zero_panel w { s with autoScan := autoScan } text

/-! ### Start -/

theorem startManual_panel (w : World) (s : Form) :
    panel (startManual w s) = panel (loadedManual w s) := by
  rw [startManual_eq]
  split
  · rw [panel_write, panel_setEntry]
  · rw [panel_messageBox]

/-- A manual Start with a complete file shows the direction selected. -/
theorem startManual_shows {w : World} {s : Form} {bytes : List UInt8}
    (whole : complete (selectedFile w s) = some bytes) :
    selectedPicture s = some (startManual w s).pictureBox1 := by
  obtain ⟨picture, selected, result⟩ := checkFreqAndDirection_shows whole
  have loaded : loadedManual w s = (s.store .readByteData 1 bytes).setPicture picture := by
    simp only [loadedManual, attempt, result]
  rw [selected, picture_of_panel (startManual_panel w s), loaded]
  rfl

/-- With an invalid selection, or a missing or empty file, the picture stays. -/
theorem startManual_quiet {w : World} {s : Form} (nothing : (selectedFile w s).getD [] = []) :
    (startManual w s).pictureBox1 = s.pictureBox1 := by
  obtain ⟨messages, result⟩ := checkFreqAndDirection_quiet nothing
  rw [picture_of_panel (startManual_panel w s), loadedManual, attempt_eq, result]
  split
  · rfl
  · rfl

theorem startManual_interval (w : World) (s : Form) :
    (startManual w s).timer1.interval = s.timer1.interval := by
  have body : Within (Keeps fun s : Form => s.timer1.interval) (checkFreqAndDirection w) :=
    checkFreqAndDirection_within
      (fun s values => interval_of_panel (panel_store s .readByteData 1 values))
      (fun s text => interval_of_panel (panel_messageBox s text "")) (fun _ _ => rfl)
  have loaded : Keeps (fun s : Form => s.timer1.interval) s (loadedManual w s) :=
    body.attempt (fun s => interval_of_panel (panel_messageBox s _ _)) s
  exact (interval_of_panel (startManual_panel w s)).trans loaded

/-- `timer1.Interval = Time * 1000`, with what can raise in it. -/
theorem setDwell_eq (s : Form) :
    setDwell s =
      match convertToInt32 s.textBox2 with
      | .error e => .error e s
      | .ok time =>
          if int32 (time * 1000) < 1 then .error .argument s
          else .ok ⟨⟩ { s with timer1 := { s.timer1 with interval := int32 (time * 1000) } } := by
  have here : (get : Program Form) s = .ok s s := rfl
  rw [setDwell, bind_of_ok here]
  cases text : convertToInt32 s.textBox2 with
  | error e => rw [bind_of_error (parseInt32_error text s)]
  | ok time =>
      rw [bind_of_ok (parseInt32_ok text s)]
      rfl

/-- The interval after the dwell time has been read. -/
def dwellInterval (s : Form) : Int :=
  match convertToInt32 s.textBox2 with
  | .error _ => s.timer1.interval
  | .ok time => if int32 (time * 1000) < 1 then s.timer1.interval else int32 (time * 1000)

theorem dwell_panel (s : Form) :
    panel (attempt setDwell (fun s => s.messageBox "停留时间输入格式错误！" "") s) =
      (s.pictureBox1, dwellInterval s) := by
  have result := setDwell_eq s
  unfold dwellInterval
  cases text : convertToInt32 s.textBox2 with
  | error e =>
      rw [text] at result
      simp only [attempt, result]
      rfl
  | ok time =>
      rw [text] at result
      simp only at result ⊢
      by_cases small : int32 (time * 1000) < 1
      · rw [if_pos small] at result ⊢
        simp only [attempt, result]
        rfl
      · rw [if_neg small] at result ⊢
        simp only [attempt, result]
        rfl

theorem loadedAuto_panel (w : World) (s : Form) :
    panel (loadedAuto w s) = (s.pictureBox1, dwellInterval s) := by
  have body : Within (Keeps panel) (autoScanCheckFreq w) :=
    autoScanCheckFreq_within (fun n s values => panel_store s (.autoReadByteData n) 1 values)
      (fun s text => panel_messageBox s text "")
  have kept (t : Form) :
      Keeps panel t (attempt (autoScanCheckFreq w) (fun s => s.messageBox "读取文件失败" "") t) :=
    body.attempt (fun s => panel_messageBox s _ _) t
  rw [← dwell_panel s]
  exact kept _

/-- An automatic Start shows theta 0 when the program holds the port for open, and reads the dwell time
whether it does or not. -/
theorem startAuto_panel (w : World) (s : Form) :
    panel (startAuto w s) =
      (if s.isSerialPortOpen then .deg0 else s.pictureBox1, dwellInterval s) := by
  have loaded := loadedAuto_panel w s
  have flag := (loadedAuto_loads w s).steady.isOpen
  rw [startAuto_eq, flag]
  generalize loadedAuto w s = t at loaded ⊢
  have lengths : panel (setAutoLengths t) = panel t := by
    simp only [setAutoLengths, panel_setEntry]
  have sent := (panel_write w (.autoReadByteData 0) (setAutoLengths t)).trans (lengths.trans loaded)
  have interval := congrArg Prod.snd sent
  split
  · exact Prod.ext rfl interval
  · exact (panel_messageBox t _ _).trans loaded

/-! ### The tick and the closing of the form -/

/-- The picture of buffer `n` of a scan. -/
def scanPicture (n : Fin 5) : Picture :=
  match n with
  | 0 => .deg0
  | 1 => .whu1
  | 2 => .deg30
  | 3 => .deg45
  | 4 => .deg60

/-- Each buffer has the picture of the theta that it is loaded for. -/
theorem pictureOf_scanTheta (n : Fin 5) : pictureOf (scanTheta n) = some (scanPicture n) := by
  revert n
  decide

theorem scanCase_panel (w : World) (n : Fin 5) (picture : Picture) (next : Nat) (s : Form) :
    panel (scanCase w n picture next s) = (picture, s.timer1.interval) := by
  have interval := interval_of_panel (panel_write w (.autoReadByteData n) s)
  exact Prod.ext rfl interval

theorem timer1Tick_panel (w : World) {n : Fin 5} {s : Form} (position : s.autoScanFlag = n.val + 1) :
    panel (timer1Tick w s) = (scanPicture n, s.timer1.interval) := by
  have flag : s.timerStop.autoScanFlag = n.val + 1 := position
  have member : n = 0 ∨ n = 1 ∨ n = 2 ∨ n = 3 ∨ n = 4 := by omega
  unfold timer1Tick
  simp only [flag]
  rcases member with rfl | rfl | rfl | rfl | rfl
  · exact scanCase_panel w 0 .deg0 2 s.timerStop
  · exact scanCase_panel w 1 .whu1 3 s.timerStop
  · exact scanCase_panel w 2 .deg30 4 s.timerStop
  · exact scanCase_panel w 3 .deg45 5 s.timerStop
  · exact scanCase_panel w 4 .deg60 1 s.timerStop

theorem form1Closing_panel (w : World) (s : Form) : panel (form1Closing w s) = panel s := by
  have opened : Keeps panel (zeroDataArr s) (attempt (onPort (openPort w)) id (zeroDataArr s)) := by
    rw [attempt_eq, id, ite_self]
    exact (onPort_within (openPort w) _).panel
  rw [form1Closing, panel_sendZeroData, opened, panel_zeroDataArr]

theorem closing_panel (w : World) (s : Form) :
    panel { form1Closing w s with closed := true } = panel s := by
  have kept := form1Closing_panel w s
  generalize form1Closing w s = t at kept ⊢
  exact kept

end VoltCtrl.Host
