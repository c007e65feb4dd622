/-
Module: VoltCtrl.Host.Stop
Layer: Host
Purpose: After a click on Stop or on manual mode nothing but the zero frame is sent until the next Start.
  Only an automatic Start sets the timer going, so from the click on the timer is off and no other
  handler sends a pattern. The click itself sends when the flag `IsSerialPortOpen` is set, and that is
  when the port is open.
Trusted boundary: none
Main exports: World.Reliable, Resting, resting_run, stop_is_final
-/
import VoltCtrl.Host.Framing
import VoltCtrl.Host.Scan

namespace VoltCtrl.Host

open VoltCtrl.Core

/-- `Close` and `Write` succeed on an open port. -/
structure World.Reliable (w : World) : Prop where
  closes : ∀ name, w.closeFails name = false
  writes : w.writeFails = false

/-- The timer is off, and everything sent since the log `earlier` is the zero frame. -/
structure Resting (earlier : List Sent) (s : Form) : Prop where
  enabled : s.timer1.enabled = false
  sent : ∃ calls, s.sent = earlier ++ calls ∧ ∀ call ∈ calls, call.bytes = zeroFrame

theorem Resting.extend {earlier : List Sent} {s t : Form} (resting : Resting earlier s)
    (enabled : t.timer1.enabled = false) {calls : List Sent} (grown : t.sent = s.sent ++ calls)
    (zero : ∀ call ∈ calls, call.bytes = zeroFrame) : Resting earlier t := by
  rcases resting.sent with ⟨before, log, zeroBefore⟩
  refine ⟨enabled, before ++ calls, ?_, List.forall_mem_append.2 ⟨zeroBefore, zero⟩⟩
  rw [grown, log, List.append_assoc]

/-- The click stops the timer and sends the zero frame or nothing. -/
theorem Stopped.resting {s t : Form} (stopped : Stopped s t) : Resting s.sent t :=
  ⟨stopped.enabled, _, stopped.sent, fun _ member => (mem_guardedCalls member).2⟩

/-- Every effect but that of a Start keeps the program at rest. -/
theorem Effect.resting {w : World} {s t : Form} {e : Event} (effect : Effect w s e t)
    (noStart : e ≠ .button8) {earlier : List Sent} (resting : Resting earlier s) :
    Resting earlier t := by
  cases effect with
  | idle _ idle =>
      have grown : t.sent = s.sent ++ [] := by rw [idle.sent, List.append_nil]
      apply resting.extend (idle.enabled.trans resting.enabled) grown
      exact List.forall_mem_nil _
  | stop _ stopped =>
      apply resting.extend stopped.enabled stopped.sent
      exact fun _ member => (mem_guardedCalls member).2
  | manual _ _ => exact absurd rfl noStart
  | auto _ _ => exact absurd rfl noStart
  | off _ => exact resting
  | stray _ => exact ⟨rfl, resting.sent⟩
  | tick _ _ enabled _ =>
      rw [resting.enabled] at enabled
      cases enabled
  | closing closed =>
      apply resting.extend (closed.enabled.trans resting.enabled) closed.sent
      exact fun _ member => (mem_callsOf member).2

theorem resting_run {earlier : List Sent} {s : Form} (resting : Resting earlier s)
    {actions : List Action} (noStart : ∀ a ∈ actions, a.event ≠ .button8) :
    Resting earlier (run step s actions) :=
  run_invariant (Resting earlier)
    (fun _ _ before here =>
      step_keeps (Resting earlier) (fun _ effect => effect.resting here before) before)
    resting (eachStep_of_forall noStart)

/-- A click on Stop or manual mode is handled, or the form has closed before it. -/
theorem step_of_stop {s : Form} {stop : Action}
    (stops : stop.event = .button6 ∨ stop.event = .button7) :
    s.closed = true ∧ step s stop = s ∨ s.closed = false ∧ Stopped s (step s stop) := by
  rcases step_cases s stop with closed | ⟨still, effect⟩
  · exact .inl closed
  · right
    refine ⟨still, ?_⟩
    rw [step_of_open still]
    rcases stops with event | event
    · rw [event]
      exact button6Click_stopped _ s
    · rw [event]
      exact button7Click_stopped _ s

/-- A closed form sends nothing. -/
theorem run_of_closed {s : Form} (closed : s.closed = true) (actions : List Action) :
    run step s actions = s := by
  induction actions with
  | nil => rfl
  | cons a rest ih =>
      rw [run_cons, step_of_closed closed, ih]

/-- Stop is final: from the click on, up to the next Start, only the zero frame is sent, and the click
sends it when the port is open. -/
theorem stop_is_final {w : World} (before after : List Action) (stop : Action)
    (reliable : w.Reliable) (all : ∀ a ∈ before ++ stop :: after, a.world.Reliable)
    (stops : stop.event = .button6 ∨ stop.event = .button7)
    (noStart : ∀ a ∈ after, a.event ≠ .button8) :
    (∃ calls,
      (run step (start w) (before ++ stop :: after)).sent =
        (run step (start w) before).sent ++ calls ∧
      ∀ call ∈ calls, call.bytes = zeroFrame) ∧
    ((run step (start w) before).closed = false →
      (run step (start w) before).serialPort1.isOpen = true →
      (run step (start w) (before ++ [stop])).sent =
        (run step (start w) before).sent ++
          [{ buffer := .zeroData, bytes := zeroFrame,
             portName := (run step (start w) before).serialPort1.portName }]) := by
  have tells := flagTells_run reliable.closes before
    fun a member => (all a (List.mem_append_left _ member)).closes
  rw [run_append, run_cons, run_snoc]
  generalize run step (start w) before = s at tells ⊢
  rcases step_of_stop (s := s) stops with ⟨closed, same⟩ | ⟨still, stopped⟩
  · refine ⟨⟨[], ?_, List.forall_mem_nil _⟩, ?_⟩
    · rw [same, run_of_closed closed, List.append_nil]
    · intro still
      rw [closed] at still
      cases still
  · refine ⟨(resting_run stopped.resting noStart).sent, ?_⟩
    intro _ isOpen
    have flag : s.isSerialPortOpen = true := (tells still).trans isOpen
    rw [stopped.sent, guardedCalls, if_pos flag, callsOf, if_pos isOpen]

/-- A scan is under way on COM1 when Stop is clicked, and the timer's next tick comes too late. -/
theorem stop_during_scan :
    (run step (start onePort) oneTick).timer1.enabled = true ∧
    (run step (start onePort) oneTick).sent = scanCalls "COM1" ones 2 ∧
    (∃ calls,
      (run step (start onePort) (oneTick ++ ⟨onePort, .button7⟩ :: [⟨onePort, .tick⟩])).sent =
          (run step (start onePort) oneTick).sent ++ calls ∧
        ∀ call ∈ calls, call.bytes = zeroFrame) ∧
    (run step (start onePort) (oneTick ++ [⟨onePort, .button7⟩])).sent =
      (run step (start onePort) oneTick).sent ++
        [{ buffer := .zeroData, bytes := zeroFrame,
           portName := (run step (start onePort) oneTick).serialPort1.portName }] := by
  have reliable : onePort.Reliable := ⟨fun _ => rfl, rfl⟩
  obtain ⟨scanning, -⟩ := oneTick_scanning
  have final := stop_is_final oneTick [⟨onePort, .tick⟩] ⟨onePort, .button7⟩
    reliable (by simp [oneTick, ready, opening, reliable]) (.inr rfl) (by simp)
  exact ⟨scanning.enabled, scanning.sent, final.1, final.2 scanning.closed (by rw [scanning.port])⟩

end VoltCtrl.Host
