/-
Module: VoltCtrl.Firmware.Link
Layer: Firmware
Purpose: The firmware at the end of a serial line that carries frames: a length byte and that many
  payload bytes. A turn is one access of `main` or the arrival of the next byte of the line, so a list
  of turns is an interleaving. Two flags say what `main` has done since the last byte arrived; the
  firmware does not read them. `Aligned` is the invariant of a line whose frames keep the order that
  `ArrivesInOrder` states: the handler takes each first byte as a length and each payload byte as the
  payload byte that it is.
Trusted boundary: none
Main exports: Link, Turn, Link.step, IsFrame, handlerLog, ArrivesInOrder, Receiving, Aligned,
  frames_stay_aligned
-/
import VoltCtrl.Core.Machine
import VoltCtrl.Firmware.Access

namespace VoltCtrl.Firmware

open VoltCtrl.Core

/-- A length byte followed by that many payload bytes, at least `low` and at most 200 of them. -/
def IsFrame (low : Nat) (frame : List UInt8) : Prop :=
  ∃ payload : List UInt8,
    frame = UInt8.ofNat payload.length :: payload ∧ low ≤ payload.length ∧ payload.length ≤ 200

/-- The firmware, the frames whose first byte has arrived, the rest of the frame under way, and the
frames still to come. -/
structure Link where
  fw : Fw
  begun : List (List UInt8)
  current : List UInt8
  waiting : List (List UInt8)
  /-- `main` has stored `IsSettingInfo = 1` since the last byte arrived. -/
  armed : Bool
  /-- `main` has stored `UartReceiveCnt = 0` since the last byte arrived. -/
  cleared : Bool

inductive Turn where
  | main
  | arrival
deriving DecidableEq, Repr

/-- The next byte of the line, and the line after it has arrived. -/
def Link.next? (s : Link) : Option (UInt8 × Link) :=
  match s.current, s.waiting with
  | rx :: rest, _ => some (rx, { s with current := rest })
  | [], (rx :: rest) :: waiting =>
      some (rx, { s with begun := s.begun ++ [rx :: rest], current := rest, waiting := waiting })
  | [], _ => none

def Link.step (s : Link) : Turn → Link
  | .main =>
      { s with
        fw := Firmware.step s.fw .main
        armed := s.armed || s.fw.pc == .setInfo
        cleared := s.cleared || s.fw.pc == .resetCnt }
  | .arrival =>
      match s.next? with
      | some (rx, t) =>
          { t with fw := Firmware.step s.fw (.uart rx), armed := false, cleared := false }
      | none => s

/-- The firmware is ready for its first frame at power-on. -/
def Link.start (frames : List (List UInt8)) : Link :=
  { fw := powerOn, begun := [], current := [], waiting := frames, armed := true, cleared := true }

/-! ### What the handler does with the bytes -/

inductive Stored where
  | length (rx : UInt8)
  | payload (index rx : UInt8)
deriving DecidableEq, Repr

/-- What `IRQ_UART_Interrupts` takes a byte for. -/
def handled (s : Fw) (rx : UInt8) : Stored :=
  if s.isSettingInfo then .length rx else .payload s.uartReceiveCnt rx

def logHandled (log : List Stored) (s : Link) : Turn → List Stored
  | .main => log
  | .arrival =>
      match s.next? with
      | some (rx, _) => log ++ [handled s.fw rx]
      | none => log

/-- What the handler has done with the bytes of a line, in order of arrival. -/
def handlerLog (frames : List (List UInt8)) (turns : List Turn) : List Stored :=
  history Link.step logHandled [] (Link.start frames) turns

/-- Payload bytes in their own places, from place `k` on. -/
def payloadLog (k : Nat) : List UInt8 → List Stored
  | [] => []
  | rx :: rest => .payload (UInt8.ofNat k) rx :: payloadLog (k + 1) rest

/-- What the handler should do with one frame. -/
def frameLog : List UInt8 → List Stored
  | [] => []
  | len :: payload => .length len :: payloadLog 0 payload

/-! ### The frame under way -/

/-- Payload of the frame begun last. -/
def Link.latest (s : Link) : List UInt8 :=
  (s.begun.getLast?.getD []).tail

/-- How many of its payload bytes have arrived. -/
def Link.arrived (s : Link) : Nat :=
  s.latest.length - s.current.length

/-- The order of arrivals and of `main`'s two re-arming stores that keeps the line aligned: a frame
begins only after `IsSettingInfo = 1` for the frame before it, its payload comes only after
`UartReceiveCnt = 0`, and `IsSettingInfo = 1` is not stored in the middle of a frame. -/
def ArrivesInOrder (s : Link) : Turn → Prop
  | .main => s.fw.pc = .setInfo → s.current = []
  | .arrival =>
      (s.current = [] → s.waiting ≠ [] → s.armed = true) ∧
        (s.current ≠ [] → s.fw.pc.rearming = false)

/-- Until `main` re-arms for it, the frame begun last is held as it arrived: its length in
`Datalength`, its payload bytes at the front of `rxdata`, their number in `UartReceiveCnt`. While
`main` still has to clear the counter of the frame before, no payload byte has arrived. -/
def Receiving (s : Link) : Prop :=
  s.armed = false →
    s.fw.isSettingInfo = false ∧
    s.begun.getLast? = some (s.fw.datalength :: s.latest) ∧
    (∀ i < s.arrived, s.fw.rxdata[i]? = s.latest[i]?) ∧
    (s.fw.pc.rearming = true → s.arrived = 0) ∧
    (s.fw.pc.rearming = false → s.fw.uartReceiveCnt.toNat = s.arrived)

/-- The invariant of an aligned line. -/
structure Aligned (frames : List (List UInt8)) (s : Link) (log : List Stored) : Prop where
  order : s.begun ++ s.waiting = frames
  suffix : s.current <:+ s.latest
  handled : log ++ payloadLog s.arrived s.current = s.begun.flatMap frameLog
  length : ∀ frame, s.begun.getLast? = some frame → frame.head? = some s.fw.datalength
  idle : s.armed = true →
    s.current = [] ∧ s.fw.isSettingInfo = true ∧
      (s.fw.pc.rearming = false → s.fw.uartReceiveCnt = 0)
  receiving : Receiving s

theorem IsFrame.tail_length {low : Nat} {frame : List UInt8} (valid : IsFrame low frame) :
    frame.tail.length ≤ 200 := by
  obtain ⟨payload, rfl, -, fits⟩ := valid
  exact fits

theorem IsFrame.mono {low high : Nat} {frame : List UInt8} (valid : IsFrame high frame)
    (below : low ≤ high) : IsFrame low frame := by
  obtain ⟨payload, shape, least, fits⟩ := valid
  exact ⟨payload, shape, below.trans least, fits⟩

theorem aligned_start (frames : List (List UInt8)) : Aligned frames (Link.start frames) [] where
  order := rfl
  suffix := List.suffix_refl _
  handled := rfl
  length := by
    intro frame last
    cases last
  idle _ := ⟨rfl, rfl, fun _ => rfl⟩
  receiving armed := by cases armed

/-- The payload of the frame begun last fits in `rxdata`. -/
theorem Aligned.latest_length {frames : List (List UInt8)} {s : Link} {log : List Stored}
    (valid : ∀ frame ∈ frames, IsFrame 0 frame) (aligned : Aligned frames s log) :
    s.latest.length ≤ 200 := by
  unfold Link.latest
  cases last : s.begun.getLast? with
  | none => simp
  | some frame =>
      have member : frame ∈ frames := by
        rw [← aligned.order]
        exact List.mem_append_left _ (List.mem_of_getLast? last)
      exact (valid frame member).tail_length

/-! ### One turn -/

theorem Aligned.main {frames : List (List UInt8)} {s : Link} {log : List Stored}
    (aligned : Aligned frames s log) (ordered : ArrivesInOrder s .main) :
    Aligned frames (s.step .main) log where
  order := aligned.order
  suffix := aligned.suffix
  handled := aligned.handled
  length frame last := by
    have := aligned.length frame last
    simpa [Link.step, step] using this
  idle armed := by
    simp only [Link.step, Bool.or_eq_true, beq_iff_eq] at armed
    simp only [Link.step, step, mainStep_isSettingInfo, mainStep_rearming,
      mainStep_uartReceiveCnt, Bool.or_eq_true, beq_iff_eq, Bool.or_eq_false_iff,
      Bool.and_eq_false_iff]
    rcases armed with armed | setting
    · obtain ⟨done, info, clear⟩ := aligned.idle armed
      refine ⟨done, Or.inl info, ?_⟩
      rintro ⟨-, outside | reset⟩
      · split
        · rfl
        · exact clear outside
      · simp only [bne_eq_false_iff_eq] at reset
        rw [if_pos reset]
    · refine ⟨ordered setting, Or.inr setting, ?_⟩
      rintro ⟨notSetting, -⟩
      simp [setting] at notSetting
  receiving armed := by
    simp only [Link.step, Bool.or_eq_false_iff, beq_eq_false_iff_ne, ne_eq] at armed
    obtain ⟨unarmed, notSetting⟩ := armed
    obtain ⟨info, last, bytes, pending, counted⟩ := aligned.receiving unarmed
    refine ⟨?_, ?_, ?_, ?_, ?_⟩
    · simp [Link.step, step, mainStep_isSettingInfo, info, notSetting]
    · simpa [Link.step, step, Link.latest] using last
    · simpa [Link.step, step, Link.latest, Link.arrived] using bytes
    · intro rearming
      have inside : s.fw.pc.rearming = true := by
        simp only [Link.step, step, mainStep_rearming, Bool.or_eq_true, beq_iff_eq,
          Bool.and_eq_true] at rearming
        exact rearming.elim (fun setting => absurd setting notSetting) And.left
      exact pending inside
    · intro outside
      simp only [Link.step, step, mainStep_rearming, Bool.or_eq_false_iff,
        Bool.and_eq_false_iff, bne_eq_false_iff_eq] at outside
      simp only [Link.step, step, mainStep_uartReceiveCnt]
      -- the counter is cleared only while no payload byte of this frame has arrived
      split
      · rename_i reset
        have none := pending (by rw [reset]; rfl)
        exact none.symm
      · rename_i notReset
        exact counted (outside.2.resolve_right notReset)

/-- The first byte of a frame is taken as its length. -/
theorem Aligned.first {frames : List (List UInt8)} {s : Link} {log : List Stored} {rx : UInt8}
    {rest : List UInt8} {waiting : List (List UInt8)} (aligned : Aligned frames s log)
    (current : s.current = []) (head : s.waiting = (rx :: rest) :: waiting)
    (armed : s.armed = true) :
    Aligned frames
      { s with
        fw := irqUartInterrupts rx s.fw, begun := s.begun ++ [rx :: rest], current := rest,
        waiting := waiting, armed := false, cleared := false }
      (log ++ [Firmware.handled s.fw rx]) := by
  obtain ⟨-, info, clear⟩ := aligned.idle armed
  have latest :
      Link.latest
        { s with
          fw := irqUartInterrupts rx s.fw, begun := s.begun ++ [rx :: rest], current := rest,
          waiting := waiting, armed := false, cleared := false } = rest := by
    simp [Link.latest]
  have length : (irqUartInterrupts rx s.fw).datalength = rx := by rw [irq_length rx info]
  constructor
  · simpa [head] using aligned.order
  · exact latest.symm ▸ List.suffix_refl rest
  · have whole := aligned.handled
    simp only [current, payloadLog, List.append_nil] at whole
    simp [Link.arrived, latest, Firmware.handled, info, whole, frameLog]
  · intro frame last
    simp only [List.getLast?_append, List.getLast?_singleton, Option.some_or,
      Option.some.injEq] at last
    rw [← last, List.head?_cons, length]
  · intro impossible
    cases impossible
  · intro _
    refine ⟨irq_isSettingInfo rx s.fw, ?_, ?_, ?_, ?_⟩
    · simp [latest, length]
    · intro i early
      simp [Link.arrived, latest] at early
    · intro _
      simp [Link.arrived, latest]
    · intro outside
      rw [irq_pc] at outside
      rw [Link.arrived, latest, Nat.sub_self]
      simp [irq_length rx info, clear outside]

/-- A payload byte is stored at its own place in the frame. -/
theorem Aligned.payload {frames : List (List UInt8)} {s : Link} {log : List Stored} {rx : UInt8}
    {rest : List UInt8} (valid : ∀ frame ∈ frames, IsFrame 0 frame)
    (aligned : Aligned frames s log) (current : s.current = rx :: rest)
    (outside : s.fw.pc.rearming = false) :
    Aligned frames
      { s with
        fw := irqUartInterrupts rx s.fw, current := rest, armed := false, cleared := false }
      (log ++ [Firmware.handled s.fw rx]) := by
  have unarmed : s.armed = false := by
    cases armed : s.armed with
    | false => rfl
    | true => simp [(aligned.idle armed).1] at current
  obtain ⟨info, last, bytes, -, counted⟩ := aligned.receiving unarmed
  have count := counted outside
  obtain ⟨got, split⟩ : ∃ got, got ++ (rx :: rest) = s.latest := by
    have suffix := aligned.suffix
    rwa [current] at suffix
  have fits := aligned.latest_length valid
  have arrived : s.arrived = got.length := by simp [Link.arrived, ← split, current]
  have inside : got.length < 200 := by
    simp only [← split, List.length_append, List.length_cons] at fits
    omega
  have stored : irqUartInterrupts rx s.fw =
      { s.fw with
        rxdata := s.fw.rxdata.set s.fw.uartReceiveCnt.toNat rx (by omega)
        uartReceiveCnt := s.fw.uartReceiveCnt + 1 } := by
    rw [irq_data rx info, storeRx_of_lt]
  have nextArrived :
      Link.arrived
        { s with
          fw := irqUartInterrupts rx s.fw, current := rest, armed := false, cleared := false } =
        got.length + 1 := by
    simp only [Link.arrived]
    change s.latest.length - rest.length = got.length + 1
    simp only [← split, List.length_append, List.length_cons]
    omega
  constructor
  · exact aligned.order
  · change rest <:+ s.latest
    exact ⟨got ++ [rx], by rw [← split, List.append_assoc]; rfl⟩
  · have whole := aligned.handled
    have index : s.fw.uartReceiveCnt = UInt8.ofNat got.length := by
      rw [← arrived, ← count, UInt8.ofNat_toNat]
    rw [nextArrived]
    simpa [current, arrived, payloadLog, Firmware.handled, info, index] using whole
  · intro frame isLast
    have := aligned.length frame isLast
    simpa [stored] using this
  · intro impossible
    cases impossible
  · intro _
    refine ⟨irq_isSettingInfo rx s.fw, ?_, ?_, ?_, ?_⟩
    · change s.begun.getLast? = some ((irqUartInterrupts rx s.fw).datalength :: s.latest)
      simpa [stored] using last
    · intro i early
      rw [nextArrived] at early
      change (irqUartInterrupts rx s.fw).rxdata[i]? = s.latest[i]?
      rw [stored]
      by_cases here : i = got.length
      · subst here
        simp [count, arrived, ← split, inside]
      · have before := bytes i (by omega)
        rw [← before, Vector.getElem?_set_ne (by omega) (by omega)]
    · intro rearming
      rw [irq_pc, outside] at rearming
      cases rearming
    · intro _
      rw [nextArrived, stored]
      have one : (1 : UInt8).toNat = 1 := rfl
      simp only [UInt8.toNat_add, count, arrived, one]
      omega

theorem Aligned.turn {frames : List (List UInt8)} (valid : ∀ frame ∈ frames, IsFrame 0 frame)
    (s : Link) (log : List Stored) (turn : Turn) (aligned : Aligned frames s log)
    (ordered : ArrivesInOrder s turn) :
    Aligned frames (s.step turn) (logHandled log s turn) := by
  cases turn with
  | main => exact aligned.main ordered
  | arrival =>
      cases current : s.current with
      | cons rx rest =>
          have outside := ordered.2 (by simp [current])
          simpa [Link.step, logHandled, Link.next?, current, step] using
            aligned.payload valid current outside
      | nil =>
          cases head : s.waiting with
          | nil => simpa [Link.step, logHandled, Link.next?, current, head] using aligned
          | cons frame waiting =>
              have armed := ordered.1 current (by simp [head])
              cases frame with
              | nil => simpa [Link.step, logHandled, Link.next?, current, head] using aligned
              | cons rx rest =>
                  simpa [Link.step, logHandled, Link.next?, current, head, step] using
                    aligned.first current head armed

/-! ### Whole runs -/

theorem aligned_run {frames : List (List UInt8)} (valid : ∀ frame ∈ frames, IsFrame 0 frame)
    {turns : List Turn} (ordered : EachStep Link.step ArrivesInOrder (Link.start frames) turns) :
    Aligned frames (run Link.step (Link.start frames) turns) (handlerLog frames turns) :=
  history_invariant (Aligned frames)
    (fun s log turn aligned order => aligned.turn valid s log turn order)
    (aligned_start frames) ordered

theorem Aligned.log_prefix {frames : List (List UInt8)} {s : Link} {log : List Stored}
    (aligned : Aligned frames s log) : log <+: frames.flatMap frameLog := by
  rw [← aligned.order, List.flatMap_append, ← aligned.handled, List.append_assoc]
  exact List.prefix_append _ _

/-- On a line whose bytes and `main`'s re-arming stores keep the order of `ArrivesInOrder`, the
handler takes exactly the first byte of each frame as a length and payload byte `i` of each frame as
entry `i`, and neither re-arming store drops a byte. -/
theorem frames_stay_aligned (frames : List (List UInt8))
    (valid : ∀ frame ∈ frames, IsFrame 0 frame) (turns : List Turn)
    (ordered : EachStep Link.step ArrivesInOrder (Link.start frames) turns) :
    handlerLog frames turns <+: frames.flatMap frameLog ∧
      Receiving (run Link.step (Link.start frames) turns) :=
  have aligned := aligned_run valid ordered
  ⟨aligned.log_prefix, aligned.receiving⟩

/-- Two frames with no gap while `main` is still powering the chips up: the second length byte is
stored as payload of the first frame. -/
theorem close_frames_misplaced :
    (∀ frame ∈ [[1, 7], [1, 9]], IsFrame 0 frame) ∧
      ¬ handlerLog [[1, 7], [1, 9]] [.arrival, .arrival, .arrival] <+:
          [[1, 7], [1, 9]].flatMap frameLog := by
  refine ⟨?_, by decide⟩
  intro frame member
  simp only [List.mem_cons, List.not_mem_nil, or_false] at member
  rcases member with rfl | rfl
  · exact ⟨[7], rfl, by decide, by decide⟩
  · exact ⟨[9], rfl, by decide, by decide⟩

end VoltCtrl.Firmware
