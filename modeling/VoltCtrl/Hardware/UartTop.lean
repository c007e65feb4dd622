/-
Module: VoltCtrl.Hardware.UartTop
Layer: Hardware
Purpose: The test design `10_uart_top`, which sends every character it receives back to the host: the
  receiver `uart_recv`, the transmitter `uart_send` and their connection `uart_top`, clock cycle by
  clock cycle. The asynchronous reset is the initial state. The clock of the logic analyser, `clk_div`,
  is left out; nothing reads it.
Trusted boundary: human-reviewed spec
Main exports: BitClock, BitClock.step, UartRecv, UartRecv.step, UartSend, UartSend.step, UartTop,
  bpsCnt, UartTop.step
-/
import VoltCtrl.Core.Transducer
import VoltCtrl.Core.Wave

namespace VoltCtrl.Hardware

open VoltCtrl.Core

/-- `BPS_CNT`: the clock cycles of a bit. -/
def bpsCnt (clkFreq uartBps : Nat) : Nat := clkFreq / uartBps

/-! ### The counters of both modules -/

/-- `clk_cnt` and `rx_cnt` in `uart_recv`, `clk_cnt` and `tx_cnt` in `uart_send`. -/
structure BitClock where
  clkCnt : Nat
  bitCnt : Nat
deriving DecidableEq

namespace BitClock

def zero : BitClock where
  clkCnt := 0
  bitCnt := 0

/-- The counters run while the flag of their module is set; `clk_cnt` has 16 bits and the other one 4. -/
def step (bps : Nat) (flag : Bool) (c : BitClock) : BitClock :=
  if flag then
    if c.clkCnt < bps - 1 then { c with clkCnt := (c.clkCnt + 1) % 65536 }
    else
      { clkCnt := 0
        bitCnt := (c.bitCnt + 1) % 16 }
  else zero

/-- The middle of the stop bit, where both modules end. -/
def isEnd (bps : Nat) (c : BitClock) : Bool := c.bitCnt == 9 && c.clkCnt == bps / 2

end BitClock

/-! ### `uart_recv` -/

structure UartRecv where
  uartRxdD0 : Bool
  uartRxdD1 : Bool
  rxFlag : Bool
  clock : BitClock
  rxdata : BitVec 8
  uartData : BitVec 8
  uartDone : Bool
deriving DecidableEq

namespace UartRecv

/-- `start_flag`: the falling edge of the delayed line. -/
def startFlag (s : UartRecv) : Bool := s.uartRxdD1 && !s.uartRxdD0

/-- The assignment `rxdata[i] <= level`. -/
def setBit (i : Nat) (level : Bool) (rxdata : BitVec 8) : BitVec 8 :=
  if level then rxdata ||| BitVec.twoPow 8 i else rxdata &&& ~~~BitVec.twoPow 8 i

/-- The cases of `rx_cnt`: 1 to 8 take a data bit. -/
def capture (rxCnt : Nat) (level : Bool) (rxdata : BitVec 8) : BitVec 8 :=
  if 1 ≤ rxCnt ∧ rxCnt ≤ 8 then setBit (rxCnt - 1) level rxdata else rxdata

/-- One clock cycle with its level of `uart_rxd`. -/
def step (bps : Nat) (s : UartRecv) (uartRxd : Bool) : UartRecv where
  uartRxdD0 := uartRxd
  uartRxdD1 := s.uartRxdD0
  rxFlag := if s.startFlag then true else if s.clock.isEnd bps then false else s.rxFlag
  clock := s.clock.step bps s.rxFlag
  rxdata :=
    if s.rxFlag then
      if s.clock.clkCnt = bps / 2 then capture s.clock.bitCnt s.uartRxdD1 s.rxdata else s.rxdata
    else 0
  uartData := if s.clock.bitCnt = 9 then s.rxdata else 0
  uartDone := s.clock.bitCnt == 9

theorem getLsbD_capture (rxCnt : Nat) (level : Bool) (rxdata : BitVec 8) {j : Nat} (inside : j < 8) :
    (capture rxCnt level rxdata).getLsbD j = if rxCnt = j + 1 then level else rxdata.getLsbD j := by
  rw [capture]
  by_cases data : 1 ≤ rxCnt ∧ rxCnt ≤ 8
  · rw [if_pos data, setBit]
    by_cases here : rxCnt = j + 1
    · cases level <;> simp [here, inside]
    · have other : j ≠ rxCnt - 1 := by omega
      cases level <;> simp [here, other, inside]
  · rw [if_neg data, if_neg (by omega)]

def reset : UartRecv where
  uartRxdD0 := false
  uartRxdD1 := false
  rxFlag := false
  clock := BitClock.zero
  rxdata := 0
  uartData := 0
  uartDone := false

/-- The outputs `uart_done` and `uart_data`. -/
def wires (s : UartRecv) : Bool × BitVec 8 := (s.uartDone, s.uartData)

end UartRecv

/-! ### `uart_send` -/

structure UartSend where
  uartEnD0 : Bool
  uartEnD1 : Bool
  txFlag : Bool
  txData : BitVec 8
  clock : BitClock
  uartTxd : Bool
deriving DecidableEq

namespace UartSend

/-- `en_flag`: the rising edge of the delayed `uart_en`. -/
def enFlag (s : UartSend) : Bool := !s.uartEnD1 && s.uartEnD0

/-- One clock cycle with `uart_en` and `uart_din`. -/
def step (bps : Nat) (s : UartSend) (wires : Bool × BitVec 8) : UartSend where
  uartEnD0 := wires.1
  uartEnD1 := s.uartEnD0
  txFlag := if s.enFlag then true else if s.clock.isEnd bps then false else s.txFlag
  txData := if s.enFlag then wires.2 else if s.clock.isEnd bps then 0 else s.txData
  clock := s.clock.step bps s.txFlag
  uartTxd :=
    if s.txFlag then
      if s.clock.bitCnt ≤ 9 then charLevel s.txData s.clock.bitCnt else s.uartTxd
    else true

def reset : UartSend where
  uartEnD0 := false
  uartEnD1 := false
  txFlag := false
  txData := 0
  clock := BitClock.zero
  uartTxd := true

end UartSend

/-! ### `uart_top` -/

abbrev UartTop := UartRecv × UartSend

namespace UartTop

/-- `uart_done` and `uart_data` of the receiver are `uart_en` and `uart_din` of the transmitter. -/
def step (bps : Nat) : UartTop → Bool → UartTop :=
  cascade (UartRecv.step bps) UartRecv.wires (UartSend.step bps)

def uartTxd (s : UartTop) : Bool := s.2.uartTxd

def reset : UartTop := (UartRecv.reset, UartSend.reset)

end UartTop

/-! ### The counters while their flag is set -/

/-- The divisors for which `clk_cnt` does not wrap and the stop bit has a middle. -/
structure Divides (bps : Nat) : Prop where
  least : 3 ≤ bps
  most : bps ≤ 65536

/-- The middle of the stop bit, in cycles after the start of the counters. -/
def stopMiddle (bps : Nat) : Nat := 9 * bps + bps / 2

namespace BitClock

/-- The counters `p` cycles after their start; they are cleared after the middle of the stop bit. -/
def after (bps p : Nat) : BitClock :=
  if p ≤ stopMiddle bps + 1 then
    { clkCnt := p % bps
      bitCnt := p / bps }
  else zero

section After

variable {bps p : Nat}

@[simp] theorem after_zero : after bps 0 = zero := by
  simp [after, zero]

@[simp] theorem step_off (c : BitClock) : c.step bps false = zero := rfl

theorem after_ended (ended : stopMiddle bps + 1 < p) : after bps p = zero :=
  if_neg (by omega)

/-- The time of a value of the counters. -/
theorem after_iff (divides : Divides bps) (running : p ≤ stopMiddle bps + 1) {i c : Nat}
    (inside : c < bps) : (after bps p).bitCnt = i ∧ (after bps p).clkCnt = c ↔ p = i * bps + c := by
  rw [after, if_pos running, Nat.div_mod_unique (by have := divides.least; omega), Nat.mul_comm bps i]
  omega

/-- One cycle of the counters, which run until the middle of the stop bit. -/
theorem after_step (divides : Divides bps) (p : Nat) :
    (after bps p).step bps (decide (p ≤ stopMiddle bps)) = after bps (p + 1) := by
  obtain ⟨least, most⟩ := divides
  rcases Nat.lt_or_ge (stopMiddle bps) p with ended | running
  · rw [decide_eq_false (by omega), step_off, after_ended (by omega)]
  · have quotient : p / bps ≤ 9 := by
      have bound : p < 10 * bps := by
        rw [stopMiddle] at running
        omega
      exact Nat.le_of_lt_succ ((Nat.div_lt_iff_lt_mul (by omega)).2 bound)
    have split := Nat.mod_add_div p bps
    rw [decide_eq_true running, after, after, if_pos (by omega), if_pos (by omega)]
    simp only [step, if_true]
    by_cases within : p % bps < bps - 1
    · have next : (p + 1) / bps = p / bps ∧ (p + 1) % bps = p % bps + 1 :=
        (Nat.div_mod_unique (by omega)).2 ⟨by omega, by omega⟩
      rw [if_pos within, next.1, next.2, Nat.mod_eq_of_lt (by omega)]
    · have last : p % bps + 1 = bps := by
        have := Nat.mod_lt p (by omega : bps > 0)
        omega
      have next : (p + 1) / bps = p / bps + 1 ∧ (p + 1) % bps = 0 :=
        (Nat.div_mod_unique (by omega)).2 ⟨by rw [Nat.mul_add]; omega, by omega⟩
      rw [if_neg within, next.1, next.2, Nat.mod_eq_of_lt (by omega)]

/-- The cycles of the last value of `rx_cnt`. -/
theorem after_bitCnt (divides : Divides bps) (p : Nat) :
    (after bps p).bitCnt = 9 ↔ 9 * bps ≤ p ∧ p ≤ stopMiddle bps + 1 := by
  have least := divides.least
  rw [after]
  by_cases running : p ≤ stopMiddle bps + 1
  · rw [if_pos running, Nat.div_eq_iff (by omega)]
    rw [stopMiddle] at running ⊢
    omega
  · rw [if_neg running]
    simp [zero, running]

theorem after_isEnd (divides : Divides bps) (p : Nat) :
    (after bps p).isEnd bps = decide (p = stopMiddle bps) := by
  have least := divides.least
  rcases Nat.lt_or_ge (stopMiddle bps + 1) p with ended | running
  · rw [after_ended ended, decide_eq_false (by omega)]
    rfl
  · rw [isEnd, Bool.eq_iff_iff, Bool.and_eq_true, beq_iff_eq, beq_iff_eq, decide_eq_true_iff,
      after_iff divides running (by omega), stopMiddle]

/-- The flag that the counters run under is cleared in the middle of the stop bit. -/
theorem after_flag (divides : Divides bps) (p : Nat) :
    (if (after bps p).isEnd bps then false else decide (p ≤ stopMiddle bps)) =
      decide (p + 1 ≤ stopMiddle bps) := by
  rw [after_isEnd divides]
  by_cases now : p = stopMiddle bps
  · rw [decide_eq_true now, if_pos rfl, decide_eq_false (by omega)]
  · rw [decide_eq_false now, if_neg Bool.false_ne_true, decide_eq_decide]
    omega

end After

end BitClock

end VoltCtrl.Hardware
