/-
Module: VoltCtrl.System.WordsOnWire
Layer: System
Purpose: The board with the SPI core and the driver between the firmware and the chips. A chip shifts in
  `MOSI` at one kind of edge of `SCLK` while `SS_n` is low and takes the word when `SS_n` rises. Every word
  of the firmware is one window on the pins, so the wired board refines the board to which the firmware
  hands its words directly.
Trusted boundary: human-reviewed spec
Main exports: Edge, shiftedWord, WiredBoard, WiredBoard.step, Supplied, wordBits, logWords, wired_refines
-/
import VoltCtrl.Firmware.Board
import VoltCtrl.Firmware.SpiExchange

namespace VoltCtrl.System

open VoltCtrl.Core VoltCtrl.Hardware VoltCtrl.Firmware

/-! ### Words in windows -/

inductive Edge where
  | rising
  | falling
deriving DecidableEq

/-- What a chip that shifts at one kind of edge has shifted in. -/
def Edge.bits (edge : Edge) (window : Window) : List Bool :=
  match edge with
  | .rising => window.rises
  | .falling => window.falls

/-- The two bytes in the 16-bit register of a chip. -/
def shiftedWord (bits : List Bool) : UInt8 × UInt8 :=
  (UInt8.ofBitVec ((shiftIn (0 : BitVec 16) bits).extractLsb' 8 8),
    UInt8.ofBitVec ((shiftIn (0 : BitVec 16) bits).extractLsb' 0 8))

/-- Two bytes on the wire are the word that they make. -/
theorem shiftedWord_wireBits (high low : UInt8) :
    shiftedWord (wireBits high ++ wireBits low) = (high, low) := by
  have word : shiftIn (0 : BitVec 16) (wireBits high ++ wireBits low) =
      high.toBitVec ++ low.toBitVec := by
    rw [wireBits, wireBits, ← msbFirst_append]
    exact shiftIn_msbFirst _ _
  rw [shiftedWord, word, BitVec.extractLsb'_append_eq_left, BitVec.extractLsb'_append_eq_right]

/-! ### The wired board -/

structure WiredBoard where
  board : Board
  core : NiosSpi
  observer : Observer

/-- The core and the pins after a step: a word is a command of the driver. -/
def WiredBoard.sent (s : WiredBoard) (a : Firmware.Action) (slots : List SpiSlot) :
    NiosSpi × Observer :=
  match sentWord s.board.fw a with
  | some (high, low) =>
      let after := run SpiMaster.step (SpiMaster.call s.core s.observer [high, low] 0) slots
      (after.core, after.observer)
  | none => (s.core, s.observer)

/-- A chip after some windows. -/
def takeWindows (edge : Edge) (chip : Chip) (windows : List Window) : Chip :=
  windows.foldl (fun chip window =>
    chip.receive (shiftedWord (edge.bits window)).1 (shiftedWord (edge.bits window)).2) chip

/-- A chip after the windows of a step, if it is selected. -/
def WiredBoard.received (edge : Edge) (s : WiredBoard) (a : Firmware.Action) (slots : List SpiSlot)
    (d : Fin 25) : Chip :=
  if selected s.board.fw.pioOe d then
    takeWindows edge (s.board.chips d) ((s.sent a slots).2.closed.drop s.observer.closed.length)
  else s.board.chips d

/-- A step of the firmware, with the accesses to the SPI core for its word. -/
def WiredBoard.step (edge : Edge) (s : WiredBoard) (a : Firmware.Action × List SpiSlot) :
    WiredBoard where
  board :=
    { fw := Firmware.step s.board.fw a.1
      chips d :=
        if (Firmware.step s.board.fw a.1).pioLdacN then s.received edge a.1 a.2 d
        else (s.received edge a.1 a.2 d).load }
  core := (s.sent a.1 a.2).1
  observer := (s.sent a.1 a.2).2

/-- A word has the accesses that a command of two bytes may take. -/
def Supplied (s : WiredBoard) (a : Firmware.Action × List SpiSlot) : Prop :=
  (sentWord s.board.fw a.1).isSome → 87 ≤ a.2.length

/-- The bits of a word on the wire. -/
def wordBits (word : UInt8 × UInt8) : List Bool :=
  wireBits word.1 ++ wireBits word.2

/-- The words that the firmware hands to the board, as bits. -/
def logWords (log : List (List Bool)) (b : Board) (a : Firmware.Action) : List (List Bool) :=
  log ++ (sentWord b.fw a).toList.map wordBits

section Steps

variable (edge : Edge) {s : WiredBoard} {a : Firmware.Action × List SpiSlot}

/-- A step adds the window of its word and no other. -/
theorem sent_windows (rest : AtRest s.core s.observer) (supplied : Supplied s a) :
    AtRest (s.sent a.1 a.2).1 (s.sent a.1 a.2).2 ∧
      ∃ windows, (s.sent a.1 a.2).2.closed = s.observer.closed ++ windows ∧
        windows.map edge.bits = (sentWord s.board.fw a.1).toList.map wordBits := by
  cases word : sentWord s.board.fw a.1 with
  | none =>
      simp only [WiredBoard.sent, word]
      exact ⟨rest, [], (List.append_nil _).symm, rfl⟩
  | some word' =>
      obtain ⟨high, low⟩ := word'
      have enough : 87 ≤ a.2.length := supplied (by rw [word]; rfl)
      obtain ⟨after, got, final, -, rest', -, -, -, closed⟩ :=
        command_exchanges rest [high, low] 0 Nat.two_pos a.2 enough
      simp only [WiredBoard.sent, word, final]
      refine ⟨rest', _, closed, ?_⟩
      cases edge <;> simp [Edge.bits, wordBits]

theorem takeWindows_word {chip : Chip} {windows : List Window} {word : UInt8 × UInt8}
    (bits : windows.map edge.bits = [wordBits word]) :
    takeWindows edge chip windows = chip.receive word.1 word.2 := by
  obtain ⟨window, rfl, shown⟩ := List.map_eq_singleton_iff.1 bits
  simp only [takeWindows, List.foldl_cons, List.foldl_nil, shown, wordBits, shiftedWord_wireBits]

/-- A chip gets from the pins what the firmware hands to it. -/
theorem received_eq (rest : AtRest s.core s.observer) (supplied : Supplied s a) (d : Fin 25) :
    s.received edge a.1 a.2 d = s.board.received a.1 d := by
  obtain ⟨-, windows, closed, bits⟩ := sent_windows edge rest supplied
  rw [WiredBoard.received, closed, List.drop_left, Board.received]
  cases word : sentWord s.board.fw a.1 with
  | none =>
      rw [word] at bits
      rw [List.map_eq_nil_iff.1 bits]
      exact ite_self _
  | some word' =>
      rw [word] at bits
      simp only [takeWindows_word edge bits]

theorem wired_step (rest : AtRest s.core s.observer) (supplied : Supplied s a) :
    ((s.step edge a).board, (s.step edge a).observer.closed.map edge.bits) =
      withHistory Board.step logWords (s.board, s.observer.closed.map edge.bits) a.1 := by
  obtain ⟨-, windows, closed, bits⟩ := sent_windows edge rest supplied
  have log : (s.step edge a).observer.closed.map edge.bits =
      logWords (s.observer.closed.map edge.bits) s.board a.1 := by
    rw [logWords, ← bits, ← List.map_append, ← closed]
    rfl
  have board : (s.step edge a).board = s.board.step a.1 := by
    simp only [WiredBoard.step, Board.step, received_eq edge rest supplied]
  rw [withHistory, board, log]

end Steps

/-- However long the commands take and at whichever edges the chips shift, the wired board is the board
to which the firmware hands its words, and the windows on the pins are these words, in order. -/
theorem wired_refines (edge : Edge) {s : WiredBoard} {actions : List (Firmware.Action × List SpiSlot)}
    (rest : AtRest s.core s.observer) (supplied : EachStep (WiredBoard.step edge) Supplied s actions) :
    (run (WiredBoard.step edge) s actions).board =
        run Board.step s.board (actions.map Prod.fst) ∧
      (run (WiredBoard.step edge) s actions).observer.closed.map edge.bits =
        history Board.step logWords (s.observer.closed.map edge.bits) s.board
          (actions.map Prod.fst) := by
  have simulated := run_simulates
    (fun s : WiredBoard => (s.board, s.observer.closed.map edge.bits)) Prod.fst
    (fun s => AtRest s.core s.observer) (fun _ _ rest supplied => (sent_windows edge rest supplied).1)
    (fun _ _ rest supplied => wired_step edge rest supplied) rest supplied
  rw [run_withHistory, Prod.mk.injEq] at simulated
  exact simulated

/-- A board whose `main` is at the low byte of an all-zero word. -/
def zeroWord : WiredBoard where
  board :=
    { fw := { powerOn with pc := .loop .zero 18 (.sendLow 0 0x50) }
      chips := fun _ => { input := fun _ => 0, output := fun _ => 0 } }
  core := NiosSpi.reset
  observer := Observer.start

theorem zeroWord_on_wire :
    (run (WiredBoard.step .falling) zeroWord
        [(.main, List.replicate 87 SpiSlot.quiet)]).observer.closed.map Window.falls =
      [wireBits 0x50 ++ wireBits 0x00] :=
  have supplied : EachStep (WiredBoard.step .falling) Supplied zeroWord
      [(.main, List.replicate 87 SpiSlot.quiet)] := ⟨fun _ => by simp, trivial⟩
  (wired_refines .falling reset_atRest supplied).2

end VoltCtrl.System
