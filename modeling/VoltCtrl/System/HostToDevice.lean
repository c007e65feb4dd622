/-
Module: VoltCtrl.System.HostToDevice
Layer: System
Purpose: The two programs joined by the serial line. What the host writes is what the firmware's line
  carries; on a line whose frames are spaced the firmware latches the payloads one after another, each
  at most once, in order and only when its last byte has arrived.
Trusted boundary: none
Main exports: Load, Load.frame, Load.frame_eq, delivery, host_to_device, sent_frames,
  run_to_device
-/
import VoltCtrl.Firmware.Progress
import VoltCtrl.Host.Framing
import VoltCtrl.Host.Ports

namespace VoltCtrl.System

open VoltCtrl.Core VoltCtrl.Host VoltCtrl.Firmware

/-- A pattern file of at least 136 bytes and the state in which the host loads it into a buffer. -/
structure Load where
  world : World
  form : Form
  dst : Buffer
  path : String
  file : List UInt8
  reads : world.readFile path = some file
  long : 136 ≤ file.length

/-- The form after `ReadByteFromFile` and after entry 0 has been set to `DataLength`. -/
def Load.loaded (l : Load) : Form :=
  (exec (readByteFromFile l.world l.dst l.path) l.form).setEntry l.dst 0 dataLength

/-- The 137 bytes that a write of the buffer passes. -/
def Load.frame (l : Load) : List UInt8 :=
  frameOf (l.loaded.buffers l.dst)

theorem Load.frame_eq (l : Load) : l.frame = dataLength :: l.file.take 136 := by
  have whole : complete (l.world.readFile l.path) = some (l.file.take 136) := by
    rw [l.reads, complete, if_pos l.long]
  have result := readByteFromFile_complete whole l.dst l.form
  rw [Load.frame, Load.loaded, exec_of_ok result, frameOf_setLength,
    store_payload l.form l.dst (complete_length whole)]

/-- A length byte 136 and as many bytes are a frame of the firmware. -/
theorem isFrame_of_payload {payload : List UInt8} (full : payload.length = 136) :
    IsFrame 1 (dataLength :: payload) := by
  refine ⟨payload, ?_, ?_, ?_⟩
  · rw [full]
    rfl
  · rw [full]
    decide
  · rw [full]
    decide

/-! ### The line -/

/-- Payloads of 136 bytes on a spaced line: the patterns latched are the first payloads, and no more of
them than have arrived whole. -/
theorem delivery {payloads : List (List UInt8)} (full : ∀ payload ∈ payloads, payload.length = 136)
    {turns : List Turn}
    (spaced : EachStep Link.step Spaced (Link.start (payloads.map (dataLength :: ·))) turns) :
    latchedPatterns (payloads.map (dataLength :: ·)) turns <+: payloads ∧
      (latchedPatterns (payloads.map (dataLength :: ·)) turns).length ≤
        (run Link.step (Link.start (payloads.map (dataLength :: ·))) turns).completed.length ∧
      KeepsCommands (run Link.step (Link.start (payloads.map (dataLength :: ·))) turns).fw := by
  have valid (frame : List UInt8) (member : frame ∈ payloads.map (dataLength :: ·)) :
      IsFrame 1 frame := by
    rcases List.mem_map.1 member with ⟨payload, inside, rfl⟩
    exact isFrame_of_payload (full payload inside)
  rcases latched_windows valid spaced with ⟨seen, whole, initial, latched⟩
  -- the frames latched are the first frames, so their payloads are the first payloads
  have first : seen = (payloads.take seen.length).map (dataLength :: ·) := by
    rw [List.map_take]
    exact List.prefix_iff_eq_take.1 initial
  have patterns : patternsOf seen = payloads.take seen.length := by
    have tails : seen.map List.tail = payloads.take seen.length := by
      have mapped := congrArg (List.map List.tail) first
      rw [List.map_map] at mapped
      exact mapped.trans (List.map_id _)
    have fills (payload : List UInt8) (member : payload ∈ payloads.take seen.length) :
        payload.length = 136 := full payload (List.mem_of_mem_take member)
    rw [patternsOf, tails, windows_of_fills 136 blank _ fun payload member =>
      (fills payload member).ge]
    exact (List.map_congr_left fun payload member =>
      List.take_of_length_le (fills payload member).le).trans (List.map_id _)
  refine ⟨?_, ?_, commands_kept valid spaced⟩
  · rw [latched, patterns]
    exact List.take_prefix _ _
  · rw [latched, patternsOf, windows_length, List.length_map]
    exact whole.length_le

/-- Files that the host turns into frames are latched by the firmware in order. -/
theorem host_to_device (loads : List Load) (turns : List Turn)
    (spaced : EachStep Link.step Spaced (Link.start (loads.map Load.frame)) turns) :
    latchedPatterns (loads.map Load.frame) turns <+: loads.map (fun l => l.file.take 136) ∧
      (latchedPatterns (loads.map Load.frame) turns).length ≤
        (run Link.step (Link.start (loads.map Load.frame)) turns).completed.length ∧
      ∀ i, i < 18 ∨ 153 < i →
        (run Link.step (Link.start (loads.map Load.frame)) turns).fw.spiCommandStringTx[i]? =
          commandInit[i]? := by
  have frames : loads.map Load.frame =
      (loads.map fun l => l.file.take 136).map (dataLength :: ·) := by
    rw [List.map_map]
    exact List.map_congr_left fun l _ => l.frame_eq
  have full (payload : List UInt8) (member : payload ∈ loads.map fun l => l.file.take 136) :
      payload.length = 136 := by
    rcases List.mem_map.1 member with ⟨l, _, rfl⟩
    exact List.length_take_of_le l.long
  rw [frames] at spaced ⊢
  exact delivery full spaced

/-- The file of 136 bytes 1, loaded into `ReadByteData` at the start of the program. -/
def onesLoad : Load where
  world := onePort
  form := Form.initial
  dst := .readByteData
  path := filePath 15 90 0
  file := List.replicate 136 1
  reads := rfl
  long := List.length_replicate.ge

/-- A longer file, loaded after the first one. -/
def twosLoad : Load where
  world := { onePort with readFile := fun _ => some (List.replicate 140 2) }
  form := onesLoad.loaded
  dst := .readByteData
  path := filePath 15 90 5
  file := List.replicate 140 2
  reads := rfl
  long := by rw [List.length_replicate]; decide

def twoLoads : List Load := [onesLoad, twosLoad]

theorem frames_valid (loads : List Load) : ∀ frame ∈ loads.map Load.frame, IsFrame 1 frame := by
  intro frame member
  obtain ⟨l, -, rfl⟩ := List.mem_map.1 member
  rw [l.frame_eq]
  exact isFrame_of_payload (List.length_take_of_le l.long)

/-- A line that pauses after each file is spaced. -/
theorem loads_spaced (loads : List Load) :
    EachStep Link.step Spaced (Link.start (loads.map Load.frame))
      (pausedTurns latency (loads.map Load.frame)) :=
  paced_spaced (frames_valid loads) (paused_line (frames_valid loads) le_rfl).1

/-- The frames of the two files on a line that pauses after each of them: both patterns are latched. -/
theorem two_loads_to_device :
    (latchedPatterns (twoLoads.map Load.frame) (pausedTurns latency (twoLoads.map Load.frame)) <+:
        twoLoads.map (fun l => l.file.take 136) ∧
      (latchedPatterns (twoLoads.map Load.frame)
          (pausedTurns latency (twoLoads.map Load.frame))).length ≤
        (run Link.step (Link.start (twoLoads.map Load.frame))
          (pausedTurns latency (twoLoads.map Load.frame))).completed.length ∧
      ∀ i, i < 18 ∨ 153 < i →
        (run Link.step (Link.start (twoLoads.map Load.frame))
          (pausedTurns latency (twoLoads.map Load.frame))).fw.spiCommandStringTx[i]? = commandInit[i]?) ∧
    latchedPatterns (twoLoads.map Load.frame) (pausedTurns latency (twoLoads.map Load.frame)) =
      [List.replicate 136 1, List.replicate 136 2] := by
  have sent := host_to_device twoLoads _ (loads_spaced twoLoads)
  have payloads : twoLoads.map (fun l => l.file.take 136) =
      [List.replicate 136 1, List.replicate 136 2] := by
    simp only [twoLoads, onesLoad, twosLoad, List.map_cons, List.map_nil, List.take_replicate, min_self]
    rfl
  refine ⟨sent, (sent.1.eq_of_length ?_).trans payloads⟩
  rw [paused_latched (frames_valid twoLoads) le_rfl, patternsOf, windows_length]
  simp only [List.length_map]

/-- Whatever the user does, the host writes frames of 136 payload bytes. -/
theorem sent_frames (w : World) (actions : List Host.Action) :
    (run Host.step (Host.start w) actions).sent.map Sent.bytes =
        ((run Host.step (Host.start w) actions).sent.map fun call => call.bytes.tail).map
          (dataLength :: ·) ∧
      ∀ payload ∈ (run Host.step (Host.start w) actions).sent.map fun call => call.bytes.tail,
        payload.length = 136 := by
  have framed := (framed_run w actions).sent
  generalize (run Host.step (Host.start w) actions).sent = sent at framed ⊢
  have shape (call : Sent) (member : call ∈ sent) :
      call.bytes = dataLength :: call.bytes.tail ∧ call.bytes.tail.length = 136 := by
    rcases framed call member with ⟨length, first⟩
    have split := List.cons_head?_tail first
    refine ⟨split.symm, ?_⟩
    rw [List.length_tail, length]
  constructor
  · rw [List.map_map]
    exact List.map_congr_left fun call member => (shape call member).1
  · intro payload member
    rcases List.mem_map.1 member with ⟨call, inside, rfl⟩
    exact (shape call inside).2

/-- Whatever the user does, what the host sends is latched by the firmware in order. -/
theorem run_to_device (w : World) (actions : List Host.Action) (turns : List Turn)
    (spaced : EachStep Link.step Spaced
      (Link.start ((run Host.step (Host.start w) actions).sent.map Sent.bytes)) turns) :
    latchedPatterns ((run Host.step (Host.start w) actions).sent.map Sent.bytes) turns <+:
      (run Host.step (Host.start w) actions).sent.map fun call => call.bytes.tail := by
  obtain ⟨frames, full⟩ := sent_frames w actions
  rw [frames] at spaced ⊢
  exact (delivery full spaced).1

end VoltCtrl.System
