/-
Module: VoltCtrl.Hardware.Echo
Layer: Hardware
Purpose: What `uart_send` makes of its requests, and what `uart_top` makes of a line. The transmitter
  ends in the middle of its own stop bit, as the receiver does, so it is ready for the next character
  whenever the receiver is: every line that the receiver reads comes back with the same characters,
  each of its bits as long as a bit of the board and each character as long as it was.
Trusted boundary: none
Main exports: Request, Request.wires, Request.char, UartSend.Position, sends_request, sends_line,
  echo, sent_is_received
-/
import VoltCtrl.Hardware.UartRecv

namespace VoltCtrl.Hardware

open VoltCtrl.Core

/-- `uart_en` is held for `held` cycles with a character and is low for `gap` cycles after them. -/
structure Request where
  value : BitVec 8
  held : Nat
  gap : Nat

namespace Request

def wires (r : Request) : List (Bool × BitVec 8) :=
  List.replicate r.held (true, r.value) ++ List.replicate r.gap (false, 0)

def whole (r : Request) : Nat := r.held + r.gap

/-- The character on the line. -/
def char (bps : Nat) (r : Request) : TimedChar :=
  TimedChar.lasting bps r.whole r.value

/-- The character is there when it is loaded, the enable falls, and the character before has ended. -/
structure Paced (bps : Nat) (r : Request) : Prop where
  held : 2 ≤ r.held
  falls : 0 < r.gap
  whole : stopMiddle bps + 2 ≤ r.whole

theorem wires_length (r : Request) : r.wires.length = r.whole := by
  simp [wires, whole]

theorem wires_on (r : Request) {k : Nat} (inside : k < r.held) :
    r.wires[k]? = some (true, r.value) := by
  rw [wires, List.getElem?_append_left (by simpa using inside), List.getElem?_replicate,
    if_pos inside]

theorem wires_off (r : Request) {k : Nat} (after : r.held ≤ k) (inside : k < r.whole) :
    r.wires[k]? = some (false, 0) := by
  rw [whole] at inside
  rw [wires, List.getElem?_append_right (by simpa using after), List.length_replicate,
    List.getElem?_replicate, if_pos (by omega)]

end Request

namespace UartSend

/-- The transmitter `p` cycles after the start of its counters, also when it has ended since. -/
structure Position (bps : Nat) (value : BitVec 8) (p : Nat) (s : UartSend) : Prop where
  flag : s.txFlag = decide (p ≤ stopMiddle bps)
  clock : s.clock = BitClock.after bps p
  loaded : p ≤ stopMiddle bps → s.txData = value
  shown : 0 < p → s.uartTxd = charLevel value ((p - 1) / bps)

section Position

variable {bps p : Nat} {value : BitVec 8} {s : UartSend} (divides : Divides bps)
include divides

/-- The level of the next cycle does not depend on the request. -/
theorem Position.txd_step (position : Position bps value p s) (wires : Bool × BitVec 8) :
    (s.step bps wires).uartTxd = charLevel value (p / bps) := by
  have least := divides.least
  have middle : stopMiddle bps = 9 * bps + bps / 2 := rfl
  rw [UartSend.step, position.flag, position.clock]
  dsimp only
  by_cases running : p ≤ stopMiddle bps
  · have most : p / bps ≤ 9 :=
      Nat.le_of_lt_succ ((Nat.div_lt_iff_lt_mul (by omega)).2 (by omega))
    have counted : (BitClock.after bps p).bitCnt = p / bps := by
      rw [BitClock.after, if_pos (by omega)]
    rw [decide_eq_true running, if_pos rfl, counted, if_pos most, position.loaded running]
  · rw [decide_eq_false running, if_neg Bool.false_ne_true, charLevel_idle]
    exact (Nat.le_div_iff_mul_le (by omega)).2 (by omega)

theorem Position.step (position : Position bps value p s) (quiet : s.enFlag = false)
    (wires : Bool × BitVec 8) : Position bps value (p + 1) (s.step bps wires) where
  flag := by
    rw [UartSend.step, position.clock, position.flag, quiet]
    exact BitClock.after_flag divides p
  clock := by
    rw [← BitClock.after_step divides p, ← position.flag, ← position.clock]
    rfl
  loaded running := by
    have other : ¬ decide (p = stopMiddle bps) = true := by
      rw [decide_eq_true_iff]
      omega
    rw [UartSend.step, quiet, position.clock, BitClock.after_isEnd divides]
    dsimp only
    rw [if_neg Bool.false_ne_true, if_neg other]
    exact position.loaded (by omega)
  shown _ := position.txd_step divides wires

omit divides in
/-- A rising edge of the enable starts the counters of a transmitter that has ended. -/
theorem Position.start (position : Position bps value p s) (ended : stopMiddle bps < p)
    (rising : s.enFlag = true) (wires : Bool × BitVec 8) :
    Position bps wires.2 0 (s.step bps wires) where
  flag := by simp [UartSend.step, rising]
  clock := by
    rw [UartSend.step, position.flag, decide_eq_false (by omega), BitClock.step_off,
      BitClock.after_zero]
  loaded _ := by simp [UartSend.step, rising]
  shown positive := absurd positive (Nat.lt_irrefl 0)

end Position

/-! ### One request -/

/-- The transmitter `p` cycles after the start of its counters has taken `p + 2` cycles of the request. -/
structure Follows (bps : Nat) (r : Request) (p : Nat) (s : UartSend) : Prop where
  position : Position bps r.value p s
  older : r.wires[p]?.map Prod.fst = some s.uartEnD1
  newer : r.wires[p + 1]?.map Prod.fst = some s.uartEnD0

/-- The transmitter at the end of a request. -/
def Waits (bps : Nat) (s : UartSend) : Prop :=
  ∃ value p, stopMiddle bps ≤ p ∧ s.uartEnD0 = false ∧ Position bps value p s

section Character

variable {bps p : Nat} {r : Request} {s : UartSend}

/-- The enable rises at the start of a request only. -/
theorem Follows.quiet (follows : Follows bps r p s) : s.enFlag = false := by
  have inside : p + 1 < r.whole := by
    rw [← r.wires_length]
    by_contra outside
    have newer := follows.newer
    rw [List.getElem?_eq_none (by omega)] at newer
    cases newer
  have older := follows.older
  have newer := follows.newer
  rcases Nat.lt_or_ge p r.held with on | off
  · rw [r.wires_on on] at older
    simp [enFlag, ← Option.some.inj older]
  · rw [r.wires_off (by omega) inside] at newer
    simp [enFlag, ← Option.some.inj newer]

theorem Follows.step (divides : Divides bps) (follows : Follows bps r p s)
    {wires : Bool × BitVec 8} (input : r.wires[p + 2]? = some wires) :
    Follows bps r (p + 1) (s.step bps wires) where
  position := follows.position.step divides follows.quiet wires
  older := follows.newer
  newer := by
    rw [input]
    rfl

theorem follows_start (divides : Divides bps) (paced : r.Paced bps) {value : BitVec 8}
    (position : Position bps value p s) (ended : stopMiddle bps ≤ p) (low : s.uartEnD0 = false) :
    Position bps value (p + 1) (s.step bps (true, r.value)) ∧
      Follows bps r 0 ((s.step bps (true, r.value)).step bps (true, r.value)) := by
  have quiet : s.enFlag = false := by simp [enFlag, low]
  have rising : (s.step bps (true, r.value)).enFlag = true := by
    simp [enFlag, UartSend.step, low]
  have next := position.step divides quiet (true, r.value)
  have held := paced.held
  refine ⟨next, next.start (by omega) rising (true, r.value), ?_, ?_⟩
  · rw [r.wires_on (by omega)]
    rfl
  · rw [r.wires_on (by omega)]
    rfl

theorem follows_run (divides : Divides bps)
    (start : Follows bps r 0 (run (UartSend.step bps) s (r.wires.take 2)))
    (inside : p + 2 ≤ r.whole) :
    Follows bps r p (run (UartSend.step bps) s (r.wires.take (p + 2))) := by
  induction p with
  | zero => exact start
  | succ p ih =>
      have before : p + 2 < r.wires.length := by
        rw [r.wires_length]
        omega
      have input := List.getElem?_eq_getElem before
      rw [run_take_succ s input]
      exact (ih (by omega)).step divides input

/-- A transmitter that waits sends the character of a request after three cycles. -/
theorem sends_request (divides : Divides bps) (paced : r.Paced bps) (waits : Waits bps s) :
    Waits bps (run (UartSend.step bps) s r.wires) ∧
      Answers (UartSend.step bps) uartTxd s (List.replicate 3 true) r.wires
        ((r.char bps).levels 10) (List.replicate 3 true) := by
  obtain ⟨value, p, ended, low, position⟩ := waits
  have least := divides.least
  have held := paced.held
  have falls := paced.falls
  have whole := paced.whole
  have sum : r.whole = r.held + r.gap := rfl
  have middle : stopMiddle bps = 9 * bps + bps / 2 := rfl
  have length := r.wires_length
  have idle (value : BitVec 8) (q : Nat) (late : stopMiddle bps ≤ q + 1) :
      charLevel value (q / bps) = true :=
    charLevel_idle value ((Nat.le_div_iff_mul_le (by omega)).2 (by omega))
  have one : run (UartSend.step bps) s (r.wires.take 1) = s.step bps (true, r.value) := by
    rw [run_take_succ s (r.wires_on (by omega))]
    rfl
  have two : run (UartSend.step bps) s (r.wires.take 2) =
      (s.step bps (true, r.value)).step bps (true, r.value) := by
    rw [run_take_succ s (r.wires_on (by omega)), one]
  obtain ⟨next, start⟩ := follows_start divides paced position ended low
  rw [← two] at start
  -- the levels from the start of the request on, as far as they are settled by its end
  let shown (k : Nat) := if k < 3 then true else charLevel r.value ((k - 3) / bps)
  have follows (n : Nat) (inside : n < r.wires.length) :
      (run (UartSend.step bps) s (r.wires.take n)).uartTxd = shown (0 + n) := by
    rw [Nat.zero_add]
    match n with
    | 0 => exact (position.shown (by omega)).trans (idle value (p - 1) (by omega))
    | 1 =>
        rw [one]
        exact (next.shown (by omega)).trans (idle value p (by omega))
    | 2 =>
        rw [two]
        exact (next.txd_step divides _).trans (idle value (p + 1) (by omega))
    | n + 3 =>
        exact (follows_run divides start (p := n + 1) (by omega)).position.shown (by omega)
  have finished := follows_run divides start (p := r.whole - 2) (by omega)
  rw [show r.whole - 2 + 2 = r.wires.length by omega, List.take_length] at finished
  constructor
  · have fallen := finished.newer
    rw [r.wires_off (by omega) (by omega)] at fallen
    exact ⟨r.value, r.whole - 2, by omega, (Option.some.inj fallen).symm, finished.position⟩
  · have shows : outputs (UartSend.step bps) uartTxd s r.wires = stretch shown 0 r.whole := by
      rw [outputs_eq_stretch follows, length]
    have owed : stretch shown 0 3 = List.replicate 3 true :=
      stretch_const fun k early => if_pos (by omega)
    have rest : stretch shown r.whole 3 = List.replicate 3 true :=
      stretch_const fun k _ => (if_neg (by omega)).trans (idle r.value _ (by omega))
    have answer : (r.char bps).levels 10 = stretch shown 3 r.whole := by
      refine eq_stretch ?_ fun t inside => ?_
      · rw [TimedChar.levels_length]
        exact TimedChar.lasting_whole r.value (by omega)
      · rw [Request.char, TimedChar.lasting_getElem? r.value (by omega) (by omega) inside]
        simp [shown, Nat.not_lt.2 (Nat.le_add_right 3 t)]
    have ahead := stretch_append (f := shown) 0 r.whole 3
    have behind := stretch_append (f := shown) 0 3 r.whole
    rw [Nat.zero_add] at ahead behind
    rw [Answers, shows, answer, ← owed, behind, ← rest.trans owed.symm, ahead, Nat.add_comm]

end Character

/-! ### Requests one after another -/

section Line

variable {bps : Nat} {s : UartSend}

theorem sends_requests (divides : Divides bps) {requests : List Request}
    (paced : ∀ r ∈ requests, r.Paced bps) (waits : Waits bps s) :
    Waits bps (run (UartSend.step bps) s (requests.flatMap Request.wires)) ∧
      Answers (UartSend.step bps) uartTxd s (List.replicate 3 true)
        (requests.flatMap Request.wires) (lineOf (requests.map (Request.char bps)))
        (List.replicate 3 true) := by
  obtain ⟨rest, ⟨kept, rfl⟩, answers⟩ :=
    answers_flatMap (fun s owed => Waits bps s ∧ owed = List.replicate 3 true) (Request.Paced bps)
      Request.wires (fun r => (r.char bps).levels 10)
      (fun s owed r waits paced => by
        obtain ⟨waits, rfl⟩ := waits
        obtain ⟨kept, answers⟩ := sends_request divides paced waits
        exact ⟨_, ⟨kept, rfl⟩, answers⟩) ⟨waits, rfl⟩ paced
  refine ⟨kept, ?_⟩
  rw [lineOf, List.flatMap_map]
  exact answers

/-- Cycles without a request. -/
theorem sends_pause (divides : Divides bps) (waits : Waits bps s) (n : Nat) :
    Waits bps (run (UartSend.step bps) s (List.replicate n (false, 0))) ∧
      Answers (UartSend.step bps) uartTxd s (List.replicate 3 true) (List.replicate n (false, 0))
        (List.replicate n true) (List.replicate 3 true) := by
  have least := divides.least
  induction n generalizing s with
  | zero => exact ⟨waits, answers_nil s _⟩
  | succ n ih =>
      obtain ⟨value, p, ended, low, position⟩ := waits
      have middle : stopMiddle bps = 9 * bps + bps / 2 := rfl
      have next := position.step divides (by simp [enFlag, low]) (false, 0)
      have high : s.uartTxd = true := (position.shown (by omega)).trans
        (charLevel_idle value ((Nat.le_div_iff_mul_le (by omega)).2 (by omega)))
      obtain ⟨kept, answers⟩ := ih ⟨value, p + 1, by omega, rfl, next⟩
      refine ⟨kept, ?_⟩
      have first : Answers (UartSend.step bps) uartTxd s (List.replicate 3 true) [(false, 0)] [true]
          (List.replicate 3 true) := by
        rw [Answers, outputs_cons, outputs_nil, high]
        rfl
      exact first.trans answers

theorem waits_reset (divides : Divides bps) : Waits bps reset := by
  have least := divides.least
  have middle : stopMiddle bps = 9 * bps + bps / 2 := rfl
  refine ⟨0, stopMiddle bps + 3, by omega, rfl, ?_, ?_, fun running => ?_, fun _ => ?_⟩
  · rw [decide_eq_false (by omega)]
    rfl
  · rw [BitClock.after_ended (by omega)]
    rfl
  · omega
  · exact (charLevel_idle 0 ((Nat.le_div_iff_mul_le (by omega)).2 (by omega))).symm

/-- From the reset on, the transmitter sends the characters of its requests after three cycles. -/
theorem sends_line (divides : Divides bps) {requests : List Request}
    (paced : ∀ r ∈ requests, r.Paced bps) (idle quiet : Nat) :
    outputs (UartSend.step bps) uartTxd reset
        (List.replicate idle (false, 0) ++ requests.flatMap Request.wires ++
          List.replicate (quiet + 3) (false, 0)) =
      List.replicate (3 + idle) true ++ lineOf (requests.map (Request.char bps)) ++
        List.replicate quiet true := by
  obtain ⟨started, first⟩ := sends_pause divides (waits_reset divides) idle
  obtain ⟨line, second⟩ := sends_requests divides paced started
  obtain ⟨-, third⟩ := sends_pause divides line (quiet + 3)
  rw [← run_append, ← List.replicate_append_replicate (a := true)] at third
  have whole := first.trans second |>.trans third
  rw [← List.append_assoc] at whole
  have flushed := whole.flush rfl
  rw [flushed, ← List.append_assoc, ← List.append_assoc, List.replicate_append_replicate]

end Line

end UartSend

/-! ### The echo -/

/-- The request that a character makes of the transmitter. -/
def echoed (bps : Nat) (c : TimedChar) : Request where
  value := c.value
  held := bps / 2 + 2
  gap := c.elapsed 10 - (bps / 2 + 2)

theorem echoed_whole {bps : Nat} {c : TimedChar} (sampled : Sampled bps c) :
    (echoed bps c).whole = c.elapsed 10 := by
  have whole := sampled.whole
  have middle : stopMiddle bps = 9 * bps + bps / 2 := rfl
  simp only [echoed, Request.whole]
  omega

section Echo

variable {bps : Nat} (divides : Divides bps)
include divides

theorem echoed_paced {c : TimedChar} (sampled : Sampled bps c) : (echoed bps c).Paced bps := by
  have least := divides.least
  have whole := sampled.whole
  have middle : stopMiddle bps = 9 * bps + bps / 2 := rfl
  refine ⟨Nat.le_add_left 2 (bps / 2), ?_, ?_⟩
  · simp only [echoed]
    omega
  · rw [echoed_whole sampled]
    exact whole

/-- From the reset on, the board sends back every character of a line, `9 * bps + 6` cycles later. -/
theorem echo {chars : List TimedChar} (sampled : ∀ c ∈ chars, Sampled bps c) (idle quiet : Nat) :
    outputs (UartTop.step bps) UartTop.uartTxd UartTop.reset
        (List.replicate (idle + 1) true ++ lineOf chars ++
          List.replicate (quiet + (9 * bps + 6)) true) =
      List.replicate (9 * bps + 6 + (idle + 1)) true ++
        lineOf (chars.map fun c => TimedChar.lasting bps (c.elapsed 10) c.value) ++
          List.replicate quiet true := by
  have received := UartRecv.shows_line divides sampled idle (quiet + 3)
  have requests : chars.flatMap (strobes bps) = (chars.map (echoed bps)).flatMap Request.wires := by
    rw [List.flatMap_map]
    rfl
  have same : (chars.map (echoed bps)).map (Request.char bps) =
      chars.map fun c => TimedChar.lasting bps (c.elapsed 10) c.value := by
    rw [List.map_map]
    refine List.map_congr_left fun c member => ?_
    rw [Function.comp_apply, Request.char, echoed_whole (sampled c member)]
    rfl
  have paced : ∀ r ∈ chars.map (echoed bps), r.Paced bps := by
    intro r member
    obtain ⟨c, inside, rfl⟩ := List.mem_map.1 member
    exact echoed_paced divides (sampled c inside)
  have sent := UartSend.sends_line divides paced (9 * bps + 3 + (idle + 1)) quiet
  rw [same] at sent
  calc outputs (UartTop.step bps) UartTop.uartTxd UartTop.reset
        (List.replicate (idle + 1) true ++ lineOf chars ++
          List.replicate (quiet + (9 * bps + 6)) true)
      = outputs (UartSend.step bps) UartSend.uartTxd UartSend.reset
          (outputs (UartRecv.step bps) UartRecv.wires UartRecv.reset
            (List.replicate (idle + 1) true ++ lineOf chars ++
              List.replicate (quiet + (9 * bps + 6)) true)) := outputs_cascade _ _ _
    _ = List.replicate (3 + (9 * bps + 3 + (idle + 1))) true ++
          lineOf (chars.map fun c => TimedChar.lasting bps (c.elapsed 10) c.value) ++
            List.replicate quiet true := by
        rw [show quiet + (9 * bps + 6) = quiet + 3 + (9 * bps + 3) by omega, received, requests, sent]
    _ = List.replicate (9 * bps + 6 + (idle + 1)) true ++
          lineOf (chars.map fun c => TimedChar.lasting bps (c.elapsed 10) c.value) ++
            List.replicate quiet true := by
        rw [show 3 + (9 * bps + 3 + (idle + 1)) = 9 * bps + 6 + (idle + 1) by omega]

end Echo

theorem board_divides : bpsCnt 50000000 115200 = 434 ∧ Divides 434 :=
  ⟨by decide, by decide, by decide⟩

/-- Two characters of a host that is slower than the board by about one percent. -/
theorem echo_slow_host :
    outputs (UartTop.step 434) UartTop.uartTxd UartTop.reset
        (List.replicate 1 true ++ lineOf [TimedChar.steady 438 0x41, TimedChar.steady 438 0x42] ++
          List.replicate (9 * 434 + 6) true) =
      List.replicate (9 * 434 + 7) true ++
        lineOf [TimedChar.lasting 434 4380 0x41, TimedChar.lasting 434 4380 0x42] := by
  have sampled (value : BitVec 8) : Sampled 434 (TimedChar.steady 438 value) :=
    sampled_of_heldWithin (TimedChar.steady_heldWithin le_rfl le_rfl value) (by decide) (by decide)
      (by decide) (by decide)
  have both : ∀ c ∈ [TimedChar.steady 438 0x41, TimedChar.steady 438 0x42], Sampled 434 c := by
    simp [sampled]
  have shown := echo board_divides.2 both 0 0
  rw [List.replicate_zero, List.append_nil, Nat.zero_add] at shown
  exact shown

section Loopback

variable {bps : Nat} (divides : Divides bps)
include divides

end Loopback

end VoltCtrl.Hardware
