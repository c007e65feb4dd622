/-
Module: VoltCtrl.Host.Form
Layer: Host
Purpose: The state of the program's window `Form1`, the world that answers its calls, and the library
  calls that it makes: `Convert.ToInt32`, `SerialPort`, `Timer.Interval`, file reads and message boxes.
  A call that can raise is an `EStateM` program on the state; every other call is a function on states.
  The world of one event says which ports open, which calls fail, what the files hold and what the user
  picks in the dialogs.
Trusted boundary: human-reviewed spec
Main exports: Form, World, Exn, Buffer, SerialPort, convertToInt32, openPort, closePort, setPortName,
  writePort, setInterval, Form.store
-/
import VoltCtrl.Core.Exceptional
import Mathlib.Logic.Function.Basic

namespace VoltCtrl.Host

open VoltCtrl.Core

inductive Exn where
  | format
  | overflow
  | argument
  | invalidOperation
  | io
  | endOfStream
  | indexOutOfRange
deriving DecidableEq, Repr

/-- The byte arrays of `Form1`, by name; `autoReadByteData n` is the array numbered `n + 1`. -/
inductive Buffer where
  | readByteData
  | autoReadByteData (n : Fin 5)
  | writeByteData
  | zeroData
deriving DecidableEq, Repr

/-- A scan has arrays; the numerals of `Fin 5` name them through this instance in every module. -/
instance scanArrays : @NeZero Nat Zero.ofOfNat0 5 :=
  ⟨Nat.succ_ne_zero 4⟩

/-- The resources shown in `pictureBox1`. -/
inductive Picture where
  | deg0
  | whu1
  | deg30
  | deg45
  | deg60
deriving DecidableEq, Repr

structure SerialPort where
  isOpen : Bool
  portName : String
deriving DecidableEq, Repr

structure Timer where
  enabled : Bool
  interval : Int
deriving DecidableEq, Repr

structure ComboBox where
  items : List String
  text : String
deriving DecidableEq, Repr

/-- A call of `serialPort1.Write`: the array passed, the bytes taken from it and the port. -/
structure Sent where
  buffer : Buffer
  bytes : List UInt8
  portName : String
deriving DecidableEq, Repr

/-- The fields and controls of `Form1`. Of `comboBox2` to `comboBox4` and `textBox2` only the texts are
read. `messages` holds the message boxes shown (text and caption), `sent` the calls of `Write`, `saved`
the files written, and `closed` is set when the form has closed. -/
structure Form where
  fileReadOver : Bool
  isSerialPortOpen : Bool
  autoScan : Bool
  autoScanFlag : Nat
  buffers : Buffer → Vector UInt8 200
  serialPort1 : SerialPort
  comboBox1 : ComboBox
  comboBox2 : String
  comboBox3 : String
  comboBox4 : String
  textBox2 : String
  button1Text : String
  pictureBox1 : Picture
  timer1 : Timer
  messages : List (String × String)
  sent : List Sent
  saved : List (String × List UInt8)
  closed : Bool

/-- The answers that the world gives during one event. -/
structure World where
  /-- `Open` succeeds on a closed port of this name. -/
  canOpen : String → Bool
  /-- `Close` raises on an open port of this name and leaves it open. -/
  closeFails : String → Bool
  writeFails : Bool
  /-- The bytes of a file, when it can be opened for reading. -/
  readFile : String → Option (List UInt8)
  /-- The names chosen in the two file dialogs, when they are not cancelled. -/
  openFileName : Option String
  saveFileName : Option String
  saveFails : Bool

abbrev Program (α : Type) := EStateM Exn Form α

/-- `byte DataLength = 136`. -/
def dataLength : UInt8 := 136

/-! ### `Convert.ToInt32` -/

def isWhite (c : Char) : Bool :=
  c.toNat = 0x20 || (0x09 ≤ c.toNat && c.toNat ≤ 0x0D)

/-- White space, a sign, digits, white space, and null characters; the value must fit in 32 bits. -/
def convertToInt32 (text : String) : Except Exn Int :=
  let body := text.toList.dropWhile isWhite
  let negative := body.head? = some '-'
  let unsigned := if body.head? = some '-' ∨ body.head? = some '+' then body.tail else body
  let digits := unsigned.takeWhile Char.isDigit
  let trailing := (unsigned.dropWhile Char.isDigit).dropWhile isWhite
  if digits = [] ∨ trailing.any (fun c => c.toNat != 0) then .error .format
  else
    let magnitude : Nat := digits.foldl (fun value c => 10 * value + (c.toNat - 48)) 0
    let value : Int := if negative then -(magnitude : Int) else (magnitude : Int)
    if -2147483648 ≤ value ∧ value ≤ 2147483647 then .ok value else .error .overflow

/-- Unchecked 32-bit arithmetic. -/
def int32 (value : Int) : Int :=
  value.bmod 4294967296

/-! ### Calls that cannot raise -/

def Form.messageBox (s : Form) (text caption : String) : Form :=
  { s with messages := s.messages ++ [(text, caption)] }

def Form.setPicture (s : Form) (picture : Picture) : Form :=
  { s with pictureBox1 := picture }

def Form.timerStart (s : Form) : Form :=
  { s with timer1 := { s.timer1 with enabled := true } }

def Form.timerStop (s : Form) : Form :=
  { s with timer1 := { s.timer1 with enabled := false } }

/-- `buffer[i] = value`; the indices that the program uses are below 200. -/
def Form.setEntry (s : Form) (buffer : Buffer) (i : Nat) (value : UInt8) : Form :=
  { s with
    buffers := Function.update s.buffers buffer ((s.buffers buffer).setIfInBounds i value) }

/-- Stores into consecutive entries. -/
def Form.store (s : Form) (buffer : Buffer) (start : Nat) (values : List UInt8) : Form :=
  match values with
  | [] => s
  | value :: rest => (s.setEntry buffer start value).store buffer (start + 1) rest

/-! ### Calls that can raise -/

def parseInt32 (text : String) : Program Int := fun s =>
  match convertToInt32 text with
  | .ok value => .ok value s
  | .error e => .error e s

def setPortName (name : String) : EStateM Exn SerialPort PUnit := fun port =>
  if name = "" ∨ name.startsWith "\\\\" then .error .argument port
  else if port.isOpen then .error .invalidOperation port
  else .ok ⟨⟩ { port with portName := name }

def openPort (w : World) : EStateM Exn SerialPort PUnit := fun port =>
  if port.isOpen then .error .invalidOperation port
  else if w.canOpen port.portName then .ok ⟨⟩ { port with isOpen := true }
  else .error .io port

/-- Closing a closed port does nothing. -/
def closePort (w : World) : EStateM Exn SerialPort PUnit := fun port =>
  if !port.isOpen then .ok ⟨⟩ port
  else if w.closeFails port.portName then .error .io port
  else .ok ⟨⟩ { port with isOpen := false }

/-- A call on `serialPort1`. -/
def onPort (x : EStateM Exn SerialPort PUnit) : Program PUnit :=
  onField Form.serialPort1 (fun s port => { s with serialPort1 := port }) x

/-- `serialPort1.Write`. -/
def writePort (w : World) (buffer : Buffer) (offset length : Nat) : Program PUnit := fun s =>
  if !s.serialPort1.isOpen then .error .invalidOperation s
  else if 200 < offset + length then .error .argument s
  else
    let call : Sent :=
      { buffer, bytes := ((s.buffers buffer).toList.drop offset).take length,
        portName := s.serialPort1.portName }
    let t := { s with sent := s.sent ++ [call] }
    if w.writeFails then .error .io t else .ok ⟨⟩ t

/-- `timer1.Interval = value`. -/
def setInterval (value : Int) : Program PUnit := fun s =>
  if value < 1 then .error .argument s
  else .ok ⟨⟩ { s with timer1 := { s.timer1 with interval := value } }

/-! ### The start of the program -/

/-- The field initialisers of `Form1` and the properties set in `InitializeComponent`. -/
def Form.initial : Form where
  fileReadOver := true
  isSerialPortOpen := false
  autoScan := false
  autoScanFlag := 2
  buffers _ := Vector.replicate 200 0
  serialPort1 := { isOpen := false, portName := "COM1" }
  comboBox1 := { items := [], text := "" }
  comboBox2 := ""
  comboBox3 := ""
  comboBox4 := ""
  textBox2 := ""
  button1Text := "打开串口"
  pictureBox1 := .deg0
  timer1 := { enabled := false, interval := 100 }
  messages := []
  sent := []
  saved := []
  closed := false

end VoltCtrl.Host
