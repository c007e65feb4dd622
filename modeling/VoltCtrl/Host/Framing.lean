/-
Module: VoltCtrl.Host.Framing
Layer: Host
Purpose: What the program puts on the line is a sequence of whole frames. The tick sends buffers whose
  length bytes only an automatic Start stores, so the invariant ties the running timer to the five
  length bytes.
Trusted boundary: none
Main exports: Sent.IsFrame, Framed, framed_run, transmissions_are_frames
-/
import VoltCtrl.Core.Machine
import VoltCtrl.Core.Framing
import VoltCtrl.Host.Sends

namespace VoltCtrl.Host

open VoltCtrl.Core

/-- 137 bytes, of which the first is 136. -/
def Sent.IsFrame (call : Sent) : Prop :=
  call.bytes.length = 137 ∧ call.bytes.head? = some 136

theorem Sent.IsFrame.wellFramed {call : Sent} (frame : call.IsFrame) :
    WellFramed UInt8.toNat call.bytes := by
  rcases frame with ⟨length, first⟩
  cases bytes : call.bytes with
  | nil =>
      rw [bytes] at length
      cases length
  | cons header body =>
      rw [bytes] at length first
      refine ⟨header, body, rfl, ?_⟩
      rw [List.head?_cons, Option.some.injEq] at first
      rw [first]
      exact Nat.succ.inj length

/-- A length byte and a payload make a frame. -/
theorem isFrame_of_payload {call : Sent} {body : List UInt8} (bytes : call.bytes = dataLength :: body)
    (length : body.length = 136) : call.IsFrame := by
  rw [Sent.IsFrame, bytes, List.length_cons, length]
  exact ⟨rfl, rfl⟩

theorem mem_callsOf {s : Form} {buffer : Buffer} {bytes : List UInt8} {call : Sent}
    (member : call ∈ callsOf s buffer bytes) : call.buffer = buffer ∧ call.bytes = bytes := by
  unfold callsOf at member
  split at member
  · rw [List.mem_singleton.1 member]
    exact ⟨rfl, rfl⟩
  · cases member

theorem mem_guardedCalls {s : Form} {buffer : Buffer} {bytes : List UInt8} {call : Sent}
    (member : call ∈ guardedCalls s buffer bytes) : call.buffer = buffer ∧ call.bytes = bytes := by
  unfold guardedCalls at member
  split at member
  · exact mem_callsOf member
  · cases member

/-- Everything sent is a frame, and while the timer runs every buffer of the scan holds its length
byte. -/
structure Framed (s : Form) : Prop where
  sent : ∀ call ∈ s.sent, call.IsFrame
  running : s.timer1.enabled = true → ∀ n, (s.buffers (.autoReadByteData n)).head = dataLength

section Steps

variable {w : World} {s t : Form}

/-- Appending frames to the log. -/
theorem frames_append {calls : List Sent} (before : ∀ call ∈ s.sent, call.IsFrame)
    (grown : t.sent = s.sent ++ calls) (added : ∀ call ∈ calls, call.IsFrame) :
    ∀ call ∈ t.sent, call.IsFrame := by
  rw [grown]
  exact List.forall_mem_append.2 ⟨before, added⟩

theorem zeroFrame_isFrame {call : Sent} (bytes : call.bytes = zeroFrame) : call.IsFrame :=
  isFrame_of_payload bytes zeroPattern_length

theorem Idle.framed (idle : Idle s t) (framed : Framed s) : Framed t := by
  constructor
  · rw [idle.sent]
    exact framed.sent
  · intro enabled n
    rw [idle.enabled] at enabled
    rw [idle.auto n]
    exact framed.running enabled n

theorem Stopped.framed (stopped : Stopped s t) (framed : Framed s) : Framed t := by
  constructor
  · apply frames_append framed.sent stopped.sent
    intro call member
    exact zeroFrame_isFrame (mem_guardedCalls member).2
  · intro enabled
    rw [stopped.enabled] at enabled
    cases enabled

theorem ManualStarted.framed (started : ManualStarted w s t) (framed : Framed s) : Framed t := by
  constructor
  · apply frames_append framed.sent started.sent
    intro call member
    exact isFrame_of_payload (mem_guardedCalls member).2 (payload_length _)
  · intro enabled n
    rw [started.enabled] at enabled
    rw [started.auto n]
    exact framed.running enabled n

/-- An automatic Start with an open port stores the length bytes; without one it starts no timer. -/
theorem AutoStarted.framed (started : AutoStarted w s t) (framed : Framed s) : Framed t := by
  constructor
  · apply frames_append framed.sent started.sent
    intro call member
    exact isFrame_of_payload (mem_guardedCalls member).2 (payload_length _)
  · intro enabled n
    have frame := started.auto n
    rw [frameOf_eq] at frame
    rw [(List.cons.inj frame).1]
    split
    · rfl
    · rename_i shut
      rw [started.enabled, Bool.eq_false_iff.2 shut, Bool.false_or] at enabled
      exact framed.running enabled n

theorem Ticked.framed {n : Fin 5} (ticked : Ticked n s t) (enabled : s.timer1.enabled = true)
    (framed : Framed s) : Framed t := by
  constructor
  · apply frames_append framed.sent ticked.sent
    intro call member
    have bytes := (mem_callsOf member).2
    rw [frameOf_eq, framed.running enabled n] at bytes
    exact isFrame_of_payload bytes (payload_length _)
  · intro _ m
    rw [ticked.buffers]
    exact framed.running enabled m

theorem Closed.framed (closed : Closed w s t) (framed : Framed s) : Framed t := by
  constructor
  · apply frames_append framed.sent closed.sent
    intro call member
    exact zeroFrame_isFrame (mem_callsOf member).2
  · intro enabled n
    rw [closed.enabled] at enabled
    rw [closed.auto n]
    exact framed.running enabled n

end Steps

theorem Effect.framed {w : World} {s t : Form} {e : Event} (effect : Effect w s e t)
    (framed : Framed s) : Framed t := by
  cases effect with
  | idle _ idle => exact idle.framed framed
  | stop _ stopped => exact stopped.framed framed
  | manual _ started => exact started.framed framed
  | auto _ started => exact started.framed framed
  | off _ => exact framed
  | stray _ => exact ⟨framed.sent, fun enabled => nomatch enabled⟩
  | tick n _ enabled ticked => exact ticked.framed enabled framed
  | closing closed => exact closed.framed framed

theorem framed_start (w : World) : Framed (start w) := by
  have idle := (start_portOnly w).idle
  apply idle.framed
  constructor
  · intro call member
    cases member
  · intro enabled
    cases enabled

theorem framed_run (w : World) (actions : List Action) : Framed (run step (start w) actions) :=
  run_invariant Framed
    (fun _ _ framed _ => step_keeps Framed (fun _ effect => effect.framed framed) framed)
    (framed_start w) (eachStep_of_forall fun _ _ => trivial)

/-- Every call of `Write` passes 137 bytes of which the first is 136, and the receiver's rule (a length
byte, then that many bytes) splits what was written into the buffers that were sent. -/
theorem transmissions_are_frames (w : World) (actions : List Action) :
    (∀ call ∈ (run step (start w) actions).sent, call.IsFrame) ∧
      splitFrames UInt8.toNat ((run step (start w) actions).sent.map Sent.bytes).flatten =
        ((run step (start w) actions).sent.map Sent.bytes, []) := by
  have frames := (framed_run w actions).sent
  refine ⟨frames, splitFrames_flatten ?_⟩
  intro frame member
  rcases List.mem_map.1 member with ⟨call, sent, rfl⟩
  exact (frames call sent).wellFramed

end VoltCtrl.Host
