/-
Module: VoltCtrl.Host.Handlers
Layer: Host
Purpose: The functions of `Form1.cs`. A handler is a function on the state, since every call in it that
  can raise stands in a `try` whose `catch` shows a message or does nothing; the bodies of these `try`
  blocks are programs that may raise and keep what they have done.
Trusted boundary: human-reviewed spec
Main exports: readByteFromFile, checkFreqAndDirection, autoScanCheckFreq, writeByteToSerialPort,
  searchAndAddSerialToComboBox, button1Click to button8Click, timer1Tick, form1Load, form1Closing,
  Event, handle, step, start
-/
import VoltCtrl.Host.Form

namespace VoltCtrl.Host

open VoltCtrl.Core

/-! ### Files -/

/-- The loop `while (BufferCnt < DataLength + 1)`; `left` counts its remaining rounds. -/
def readLoop (dst : Buffer) (left bufferCnt : Nat) (bytes : List UInt8) : Program PUnit :=
  match left with
  | 0 => pure ⟨⟩
  | left + 1 =>
      match bytes with
      | [] => throw .endOfStream
      | byte :: rest => do
          modify fun s => s.setEntry dst bufferCnt byte
          readLoop dst left (bufferCnt + 1) rest

/-- `ReadByteFromFile` with a path. -/
def readByteFromFile (w : World) (dst : Buffer) (path : String) : Program PUnit :=
  match w.readFile path with
  | none => throw .io
  | some bytes => readLoop dst dataLength.toNat 1 bytes

/-- `ReadByteFromFile` with the open dialog. -/
def readByteFromDialog (w : World) (dst : Buffer) : Program PUnit :=
  match w.openFileName with
  | none => pure ⟨⟩
  | some path => readByteFromFile w dst path

/-- The constants `FilePath15_90_0` to `FilePath17_45_60`. -/
def filePath (freq phi theta : Int) : String :=
  "../../volt_data/" ++ toString freq ++ "_" ++ toString phi ++ "_" ++ toString theta ++ ".dat"

/-- The cases of `switch (Theta)` and their pictures. -/
def pictureOf (theta : Int) : Option Picture :=
  if theta = 0 then some .deg0
  else if theta = 15 then some .whu1
  else if theta = 30 then some .deg30
  else if theta = 45 then some .deg45
  else if theta = 60 then some .deg60
  else none

def isFreq (freq : Int) : Bool :=
  freq = 15 || freq = 16 || freq = 17

def isPhi (phi : Int) : Bool :=
  phi = 90 || phi = 45

/-- The six inner switches of the source are the same but for the numbers in the file names. -/
def checkFreqAndDirection (w : World) : Program PUnit := do
  let freq ← parseInt32 (← get).comboBox2
  let phi ← parseInt32 (← get).comboBox3
  let theta ← parseInt32 (← get).comboBox4
  if isPhi phi then
    if isFreq freq then
      match pictureOf theta with
      | some picture => do
          readByteFromFile w .readByteData (filePath freq phi theta)
          modify fun s => s.setPicture picture
      | none => modify fun s => s.messageBox "未找到相应文件！" ""
    else modify fun s => s.messageBox "未找到相应文件！" ""
  else modify fun s => s.messageBox "请输入有效φ值" ""

/-- The directions of an automatic scan. -/
def scanTheta (n : Fin 5) : Int :=
  15 * n.val

def autoScanCheckFreq (w : World) : Program PUnit := do
  let freq ← parseInt32 (← get).comboBox2
  let phi ← parseInt32 (← get).comboBox3
  if isPhi phi then
    if isFreq freq then do
      readByteFromFile w (.autoReadByteData 0) (filePath freq phi (scanTheta 0))
      readByteFromFile w (.autoReadByteData 1) (filePath freq phi (scanTheta 1))
      readByteFromFile w (.autoReadByteData 2) (filePath freq phi (scanTheta 2))
      readByteFromFile w (.autoReadByteData 3) (filePath freq phi (scanTheta 3))
      readByteFromFile w (.autoReadByteData 4) (filePath freq phi (scanTheta 4))
    else modify fun s => s.messageBox "未找到相应文件！" ""
  else modify fun s => s.messageBox "请输入有效φ值" ""

/-! ### Patterns -/

/-- One chip of the all-zero pattern: channels A to D set to 0. -/
def zeroPattern : List UInt8 :=
  (List.replicate 17 [0x10, 0x00, 0x20, 0x00, 0x30, 0x00, 0x40, 0x00]).flatten

def zeroDataArr (s : Form) : Form :=
  s.store .zeroData 1 zeroPattern

def dataWriteArr (s : Form) : Form :=
  s.store .writeByteData 0
    ([0x11, 0x7C, 0x22, 0x04, 0x33, 0x15, 0x44, 0x26] ++
      (List.replicate 16 [0x10, 0xF3, 0x22, 0x04, 0x33, 0x15, 0x44, 0x26]).flatten)

/-! ### The serial port -/

def writeByteToSerialPort (w : World) (buffer : Buffer) (offset length : Nat) (s : Form) : Form :=
  if s.serialPort1.isOpen then
    attempt (writePort w buffer offset length)
      (fun t => t.messageBox "串口数据发送出错，请检查." "错误") s
  else s

/-- The form with the locals of `SearchAndAddSerialToComboBox`; the array has one entry. -/
structure Scan where
  form : Form
  comAbleToUse : String
  cnt : Nat

/-- The body of the `try` in the port scan. -/
def scanBody (w : World) (i : Nat) : EStateM Exn Scan PUnit := do
  let buffer := "COM" ++ toString i
  onField Scan.form (fun scan form => { scan with form }) (onPort (setPortName buffer))
  onField Scan.form (fun scan form => { scan with form }) (onPort (openPort w))
  modify fun scan =>
    { scan with
      form := { scan.form with
        comboBox1 := { scan.form.comboBox1 with
          items := scan.form.comboBox1.items ++ [buffer] } } }
  onField Scan.form (fun scan form => { scan with form }) (onPort (closePort w))
  if (← get).cnt = 0 then
    modify fun scan => { scan with comAbleToUse := buffer }
  else throw .indexOutOfRange
  modify fun scan => { scan with cnt := scan.cnt + 1 }

def searchAndAddSerialToComboBox (w : World) (s : Form) : Form :=
  let cleared := { s with comboBox1 := { s.comboBox1 with items := [] } }
  let scan := (List.range' 1 20).foldl (fun scan i => attempt (scanBody w i) id scan)
    { form := cleared, comAbleToUse := "", cnt := 0 }
  { scan.form with comboBox1 := { scan.form.comboBox1 with text := scan.comAbleToUse } }

/-! ### Handlers -/

def form1Load (w : World) (s : Form) : Form :=
  { searchAndAddSerialToComboBox w s with
    comboBox2 := "15", comboBox3 := "90", comboBox4 := "0", textBox2 := "1" }

/-- `ZeroData[0] = DataLength` and the write of the frame. -/
def sendZeroData (w : World) (s : Form) : Form :=
  writeByteToSerialPort w .zeroData 0 (dataLength.toNat + 1) (s.setEntry .zeroData 0 dataLength)

def form1Closing (w : World) (s : Form) : Form :=
  sendZeroData w (attempt (onPort (openPort w)) id (zeroDataArr s))

/-- The `try` block of `button1_Click` on an open port. -/
def button1Close (w : World) : Program PUnit := do
  onPort (closePort w)
  modify fun s => { s with isSerialPortOpen := false }

/-- The `try` block of `button1_Click` on a closed port. -/
def button1Open (w : World) : Program PUnit := do
  onPort (setPortName (← get).comboBox1.text)
  onPort (openPort w)
  modify fun s => { s with button1Text := "关闭串口", isSerialPortOpen := true }

def button1Click (w : World) (s : Form) : Form :=
  if s.fileReadOver then
    if s.serialPort1.isOpen then
      { attempt (button1Close w) id s with button1Text := "打开串口" }
    else attempt (button1Open w) (fun s => s.messageBox "串口打开失败" "错误") s
  else s.messageBox "请先读取文件" ""

def button2Click (w : World) (s : Form) : Form :=
  searchAndAddSerialToComboBox w s

/-- `timer1.Stop()` and `AutoScanFlag = 2`; neither raises. -/
def stopScan (s : Form) : Form :=
  { s.timerStop with autoScanFlag := 2 }

def button6Click (w : World) (s : Form) : Form :=
  let s := zeroDataArr (stopScan { s with autoScan := false })
  if s.isSerialPortOpen then (sendZeroData w s).setPicture .deg0
  else s.messageBox "请先打开串口" ""

def button5Click (s : Form) : Form :=
  if s.isSerialPortOpen then { s with autoScan := true }
  else s.messageBox "请先打开串口" ""

def startManual (w : World) (s : Form) : Form :=
  let s := attempt (checkFreqAndDirection w) (fun s => s.messageBox "读取文件失败" "") s
  if s.isSerialPortOpen then
    writeByteToSerialPort w .readByteData 0 (dataLength.toNat + 1)
      (s.setEntry .readByteData 0 dataLength)
  else s.messageBox "启动失败，请先打开串口" ""

/-- `timer1.Interval = Time * 1000`. -/
def setDwell : Program PUnit := do
  let time ← parseInt32 (← get).textBox2
  setInterval (int32 (time * 1000))

/-- `AutoReadByteData1[0] = DataLength` to `AutoReadByteData5[0] = DataLength`. -/
def setAutoLengths (s : Form) : Form :=
  ((((s.setEntry (.autoReadByteData 0) 0 dataLength).setEntry
    (.autoReadByteData 1) 0 dataLength).setEntry
    (.autoReadByteData 2) 0 dataLength).setEntry
    (.autoReadByteData 3) 0 dataLength).setEntry
    (.autoReadByteData 4) 0 dataLength

def startAuto (w : World) (s : Form) : Form :=
  let s := attempt setDwell (fun s => s.messageBox "停留时间输入格式错误！" "") s
  let s := attempt (autoScanCheckFreq w) (fun s => s.messageBox "读取文件失败" "") s
  if s.isSerialPortOpen then
    let s := writeByteToSerialPort w (.autoReadByteData 0) 0 (dataLength.toNat + 1)
      (setAutoLengths s)
    (s.setPicture .deg0).timerStart
  else s.messageBox "启动失败，请先打开串口" ""

def button8Click (w : World) (s : Form) : Form :=
  if !s.autoScan then startManual w s else startAuto w s

/-- One case of the tick: send, show, rearm and move on. -/
def scanCase (w : World) (n : Fin 5) (picture : Picture) (next : Nat) (s : Form) : Form :=
  let s := writeByteToSerialPort w (.autoReadByteData n) 0 (dataLength.toNat + 1) s
  { (s.setPicture picture).timerStart with autoScanFlag := next }

def timer1Tick (w : World) (s : Form) : Form :=
  let s := s.timerStop
  match s.autoScanFlag with
  | 1 => scanCase w 0 .deg0 2 s
  | 2 => scanCase w 1 .whu1 3 s
  | 3 => scanCase w 2 .deg30 4 s
  | 4 => scanCase w 3 .deg45 5 s
  | 5 => scanCase w 4 .deg60 1 s
  | _ => s

def button7Click (w : World) (s : Form) : Form :=
  let s := zeroDataArr (stopScan s)
  if s.isSerialPortOpen then (sendZeroData w s).setPicture .deg0
  else s.messageBox "停止失败，请打开串口" ""

def button4Click (w : World) (s : Form) : Form :=
  let s := dataWriteArr s
  match w.saveFileName with
  | none => s
  | some name =>
      if w.saveFails then s.messageBox "数据写入失败！" ""
      else
        { s with
          saved := s.saved ++
            [(name, (s.buffers .writeByteData).toList.take dataLength.toNat)] }.messageBox
          "数据写入成功！" "成功"

/-- The `try` block of `button3_Click`. -/
def button3Read (w : World) : Program PUnit := do
  readByteFromDialog w .readByteData
  modify fun s => { s with fileReadOver := true }

def button3Click (w : World) (s : Form) : Form :=
  attempt (button3Read w) (fun s => s.messageBox "文件读取失败" "") s

/-! ### Runs of the program -/

/-- What the user does, and the tick of the timer. -/
inductive Event where
  | button1
  | button2
  | button3
  | button4
  | button5
  | button6
  | button7
  | button8
  | editComboBox1 (text : String)
  | editComboBox2 (text : String)
  | editComboBox3 (text : String)
  | editComboBox4 (text : String)
  | editTextBox2 (text : String)
  | tick
  | closing
deriving DecidableEq, Repr

/-- An event and the world in which it is handled. -/
structure Action where
  world : World
  event : Event

/-- The timer raises `Tick` only while it is enabled. -/
def handle (w : World) (s : Form) : Event → Form
  | .button1 => button1Click w s
  | .button2 => button2Click w s
  | .button3 => button3Click w s
  | .button4 => button4Click w s
  | .button5 => button5Click s
  | .button6 => button6Click w s
  | .button7 => button7Click w s
  | .button8 => button8Click w s
  | .editComboBox1 text => { s with comboBox1 := { s.comboBox1 with text } }
  | .editComboBox2 text => { s with comboBox2 := text }
  | .editComboBox3 text => { s with comboBox3 := text }
  | .editComboBox4 text => { s with comboBox4 := text }
  | .editTextBox2 text => { s with textBox2 := text }
  | .tick => if s.timer1.enabled then timer1Tick w s else s
  | .closing => { form1Closing w s with closed := true }

/-- Handlers run one at a time, and none runs once the form has closed. -/
def step (s : Form) (a : Action) : Form :=
  if s.closed then s else handle a.world s a.event

/-- The program when its window opens. -/
def start (w : World) : Form :=
  form1Load w Form.initial

end VoltCtrl.Host
