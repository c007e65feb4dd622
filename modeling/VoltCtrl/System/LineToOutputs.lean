/-
Module: VoltCtrl.System.LineToOutputs
Layer: System
Purpose: From the line to the outputs of the chips. On a paced line of frames with well-formed payloads
  the handler's stores stay inside `rxdata` and every pattern latched is well formed, so the board keeps
  its invariant; once `main` has had `latency` accesses after a frame, the outputs show its payload
  within every `refreshPeriod` further ones. Together with the host, the receiver and the SPI core: what
  the host wrote last is at the outputs.
Trusted boundary: none
Main exports: actions_in_bounds, actions_wellFormed, line_refreshing, line_edge, line_shown, sent_shown
-/
import VoltCtrl.Firmware.Shown
import VoltCtrl.Host.Selection
import VoltCtrl.System.LineToLatch
import VoltCtrl.System.Prompt
import VoltCtrl.System.WordsOnWire

namespace VoltCtrl.System

open VoltCtrl.Core VoltCtrl.Host VoltCtrl.Firmware VoltCtrl.Hardware

theorem run_board_fw (b : Board) (actions : List Firmware.Action) :
    (run Board.step b actions).fw = run Firmware.step b.fw actions := by
  induction actions generalizing b with
  | nil => rfl
  | cons a actions ih => exact ih (b.step a)

/-- The pattern latched last is the last one of the log. -/
theorem latestPattern_eq (b : Board) (actions : List Firmware.Action) :
    history Board.step latestPattern none b actions =
      (history Firmware.step logPattern [] b.fw actions).getLast? := by
  induction actions using List.reverseRecOn with
  | nil => rfl
  | append_singleton actions a ih =>
      rw [history_snoc, history_snoc, ih, latestPattern, logPattern, run_board_fw]
      split
      · exact List.getLast?_concat.symm
      · rfl

/-! ### A line of payloads -/

section Line

variable {payloads : List (List UInt8)} {actions : List Firmware.Action}

/-- The promises of a line: the bytes of the frames arrive in order, and `main` has `latency` accesses
between two frames. -/
structure OnTime (payloads : List (List UInt8)) (actions : List Firmware.Action) : Prop where
  arrived : arrivals actions <+: (framesOf payloads).flatten
  paced : EachStep (withHistory Link.step sinceArrival) Paced (Link.start (framesOf payloads), 0)
    (actions.map turnOf)

/-- The ideal line after some actions. -/
abbrev lineAfter (payloads : List (List UInt8)) (actions : List Firmware.Action) : Link :=
  run Link.step (Link.start (framesOf payloads)) (actions.map turnOf)

theorem OnTime.before {first rest : List Firmware.Action}
    (onTime : OnTime payloads (first ++ rest)) : OnTime payloads first where
  arrived := (by rw [arrivals_append]; exact List.prefix_append _ _ :
    arrivals first <+: arrivals (first ++ rest)).trans onTime.arrived
  paced := by
    have paced := onTime.paced
    rw [List.map_append] at paced
    exact ((eachStep_append _ _ _).1 paced).1

theorem OnTime.onLine (onTime : OnTime payloads actions) :
    OnLine (Link.start (framesOf payloads)) [] actions :=
  onLine_of_arrivals [] framesOf_nonempty onTime.arrived

theorem OnTime.fw (onTime : OnTime payloads actions) :
    run Firmware.step powerOn actions = (lineAfter payloads actions).fw :=
  onTime.onLine.fw.symm

theorem OnTime.latched (onTime : OnTime payloads actions) :
    history Firmware.step logPattern [] powerOn actions =
      latchedPatterns (framesOf payloads) (actions.map turnOf) :=
  onTime.onLine.latched.symm

theorem OnTime.spaced (onTime : OnTime payloads actions)
    (full : ∀ payload ∈ payloads, payload.length = 136) :
    EachStep Link.step Spaced (Link.start (framesOf payloads)) (actions.map turnOf) :=
  paced_spaced (framesOf_valid full) onTime.paced

/-- A byte that arrives is the next one of the line. -/
theorem OnTime.next {before after : List Firmware.Action} {rx : UInt8}
    (onTime : OnTime payloads (before ++ .uart rx :: after)) :
    ∃ t : Link, (lineAfter payloads before).next? = some (rx, t) := by
  have onLine := onTime.before.onLine
  have split : arrivals (before ++ .uart rx :: after) = arrivals before ++ rx :: arrivals after :=
    arrivals_append _ _
  have arrived : arrivals (before ++ .uart rx :: after) <+: remaining (Link.start (framesOf payloads)) :=
    onTime.arrived
  rw [split, ← onLine.line, List.prefix_append_right_inj] at arrived
  obtain ⟨rest, line⟩ := arrived
  obtain ⟨t, next, -⟩ := next_of_remaining onLine.frames line.symm
  exact ⟨t, next⟩

/-- The stores of the handler stay inside `rxdata`. -/
theorem actions_in_bounds (full : ∀ payload ∈ payloads, payload.length = 136)
    (onTime : OnTime payloads actions) : EachStep Firmware.step StoreInBounds powerOn actions := by
  rw [eachStep_iff]
  rintro before a after rfl
  cases a with
  | main => trivial
  | uart rx =>
      have valid := framesOf_valid full
      have first := onTime.before
      obtain ⟨log, inv⟩ := delivered_run valid (first.spaced full)
      have spaced := onTime.spaced full
      rw [List.map_append, List.map_cons, eachStep_append] at spaced
      obtain ⟨t, next⟩ := onTime.next
      rw [first.fw]
      exact inv.storeInBounds (fun frame member => (valid frame member).mono (Nat.zero_le 1))
        spaced.2.1 next

/-- The patterns that are latched are payloads of the line. -/
theorem actions_wellFormed (full : ∀ payload ∈ payloads, payload.length = 136)
    (wellFormed : ∀ payload ∈ payloads, WellFormedPattern payload)
    (onTime : OnTime payloads actions) :
    EachStep Firmware.step LatchesWellFormed powerOn actions := by
  rw [eachStep_iff]
  rintro before a after rfl latch
  have whole : before ++ a :: after = (before ++ [a]) ++ after := by simp
  rw [whole] at onTime
  have sofar := onTime.before
  have logged : history Firmware.step logPattern [] powerOn (before ++ [a]) =
      history Firmware.step logPattern [] powerOn before ++
        [(Firmware.step (run Firmware.step powerOn before) a).pattern] := by
    rw [history_snoc, logPattern, if_pos latch]
  have first : latchedPatterns (framesOf payloads) ((before ++ [a]).map turnOf) <+: payloads :=
    (delivery full (sofar.spaced full)).1
  rw [← sofar.latched, logged] at first
  exact wellFormed _ (first.subset (List.mem_append_right _ (List.mem_singleton_self _)))

/-- The accesses of `main` since the last byte. -/
abbrev sinceLast (payloads : List (List UInt8)) (actions : List Firmware.Action) : Nat :=
  history Link.step sinceArrival 0 (Link.start (framesOf payloads)) (actions.map turnOf)

/-- The frames that have begun are those of the first payloads. -/
theorem OnTime.begun (onTime : OnTime payloads actions)
    (full : ∀ payload ∈ payloads, payload.length = 136) :
    ∃ seen, seen <+: payloads ∧ (lineAfter payloads actions).begun = framesOf seen := by
  obtain ⟨log, inv⟩ := delivered_run (framesOf_valid full) (onTime.spaced full)
  have first : (lineAfter payloads actions).begun <+: framesOf payloads := ⟨_, inv.aligned.order⟩
  refine ⟨payloads.take (lineAfter payloads actions).begun.length, List.take_prefix _ _, ?_⟩
  rw [framesOf, List.map_take]
  exact List.prefix_iff_eq_take.1 first

/-- `latency` accesses after a frame the board refreshes the chips with its payload. -/
theorem line_refreshing (chips : Fin 25 → Chip) {payload : List UInt8}
    (full : ∀ payload ∈ payloads, payload.length = 136)
    (wellFormed : ∀ payload ∈ payloads, WellFormedPattern payload)
    (onTime : OnTime payloads actions) (done : (lineAfter payloads actions).current = [])
    (last : (lineAfter payloads actions).begun.getLast? = some (dataLength :: payload))
    (waited : latency ≤ sinceLast payloads actions) :
    Refreshing payload (run Board.step ⟨powerOn, chips⟩ actions) := by
  have valid := framesOf_valid full
  have fw : (run Board.step ⟨powerOn, chips⟩ actions).fw = (lineAfter payloads actions).fw :=
    (run_board_fw _ _).trans onTime.fw
  have some : (lineAfter payloads actions).begun ≠ [] := by
    intro none
    rw [none] at last
    cases last
  have cleared := paced_cleared valid onTime.paced done fun _ => waited
  obtain ⟨log, inv⟩ := delivered_run valid (onTime.spaced full)
  obtain ⟨-, phase⟩ := inv.refreshing cleared
  have refreshing := (phase.resolve_left fun none => some none.1).2
  obtain ⟨-, clear, -⟩ := inv.rearmed cleared
  obtain ⟨positive, length⟩ := inv.aligned.datalength valid some
  refine ⟨?_, ?_, ?_, ?_, ?_⟩
  · have kept := refresh_run chips actions (actions_in_bounds full onTime)
      (actions_wellFormed full wellFormed onTime)
    obtain ⟨seen, first, begun⟩ := onTime.begun full
    have shown : latchedPatterns (framesOf payloads) (actions.map turnOf) = seen := by
      rw [paced_latched valid onTime.paced done fun _ => waited]
      change patternsOf (lineAfter payloads actions).begun = seen
      rw [begun]
      exact patternsOf_payloads fun payload member => full payload (first.subset member)
    have latest : seen.getLast? = Option.some payload := by
      rw [begun, framesOf, List.getLast?_map, Option.map_eq_some_iff] at last
      obtain ⟨final, here, same⟩ := last
      rw [here, (List.cons.inj same).2]
    have logged : history Firmware.step logPattern [] powerOn actions = seen :=
      onTime.latched.trans shown
    rwa [latestPattern_eq, logged, latest] at kept
  · rw [run_board_fw]
    exact onTrack_run actions
  · rw [fw]
    exact refreshing
  · rw [fw]
    exact clear
  · rw [fw, UInt8.lt_iff_toNat_lt, length]
    exact positive

/-- The accesses since the last byte are at the end of a run. -/
theorem sinceLast_split {n : Nat} (enough : n ≤ sinceLast payloads actions) :
    ∃ first, actions = first ++ List.replicate n .main ∧
      sinceLast payloads actions = sinceLast payloads first + n := by
  induction n generalizing actions with
  | zero => exact ⟨actions, by simp, rfl⟩
  | succ n ih =>
      cases actions using List.reverseRecOn with
      | nil => exact absurd enough (Nat.not_succ_le_zero n)
      | append_singleton actions a =>
          rw [sinceLast, List.map_append, List.map_singleton, history_snoc] at enough ⊢
          cases a with
          | uart rx => exact absurd enough (Nat.not_succ_le_zero n)
          | main =>
              obtain ⟨first, split, since⟩ := ih (Nat.le_of_succ_le_succ enough)
              refine ⟨first, ?_, congrArg Nat.succ since⟩
              rw [split, List.append_assoc, List.replicate_succ']

/-- When `main` has had `latency` and `refreshPeriod` accesses since the last byte of a frame, it has been
at the edge that ends the pattern loop and at the one that ends the zero loop, with the payload of the
frame latched. -/
theorem line_edge (chips : Fin 25 → Chip) {payload : List UInt8}
    (full : ∀ payload ∈ payloads, payload.length = 136)
    (wellFormed : ∀ payload ∈ payloads, WellFormedPattern payload)
    (onTime : OnTime payloads actions) (done : (lineAfter payloads actions).current = [])
    (last : (lineAfter payloads actions).begun.getLast? = some (dataLength :: payload))
    (waited : latency + refreshPeriod ≤ sinceLast payloads actions) {l : Loop} (sends : l ≠ .powerUp) :
    ∃ before rest, actions = before ++ .main :: List.replicate rest .main ∧
      Refreshing payload (run Board.step ⟨powerOn, chips⟩ before) ∧
      (run Board.step ⟨powerOn, chips⟩ before).fw.pc = .ldacLow l := by
  obtain ⟨first, rfl, since⟩ := sinceLast_split (Nat.le_of_add_left_le waited)
  have line : lineAfter payloads (first ++ List.replicate refreshPeriod .main) =
      run Link.step (lineAfter payloads first) (List.replicate refreshPeriod .main) := by
    rw [lineAfter, List.map_append, run_append, List.map_replicate, turnOf]
  obtain ⟨current, begun⟩ := mains_line (lineAfter payloads first) refreshPeriod
  rw [line, current] at done
  rw [line, begun] at last
  have refreshing := line_refreshing chips full wellFormed onTime.before done last (by omega)
  obtain ⟨m, fewer, reached⟩ := refreshing.reaches_edge sends
  have split : List.replicate refreshPeriod Firmware.Action.main =
      List.replicate m .main ++ .main :: List.replicate (refreshPeriod - (m + 1)) .main := by
    have total : m + (refreshPeriod - (m + 1) + 1) = refreshPeriod := by omega
    rw [← List.replicate_succ, List.replicate_append_replicate, total]
  refine ⟨first ++ List.replicate m .main, refreshPeriod - (m + 1), ?_, ?_⟩
  · rw [split, List.append_assoc]
  · rw [run_append]
    exact reached

/-- The bytes of each frame without a gap, and `pause` accesses of `main` after them. -/
def pausedActions (pause : Nat) (payloads : List (List UInt8)) : List Firmware.Action :=
  (framesOf payloads).flatMap fun frame => frame.map .uart ++ List.replicate pause .main

theorem pausedActions_turns (pause : Nat) (payloads : List (List UInt8)) :
    (pausedActions pause payloads).map turnOf = pausedTurns pause (framesOf payloads) := by
  rw [pausedActions, pausedTurns, List.map_flatMap]
  congr 1
  funext frame
  rw [frameTurns, List.map_append, List.map_map, List.map_replicate, turnOf]
  congr 1
  exact List.map_const'

theorem pausedActions_arrivals (pause : Nat) (payloads : List (List UInt8)) :
    arrivals (pausedActions pause payloads) = (framesOf payloads).flatten := by
  have frames (frame : List UInt8) :
      arrivals (frame.map .uart ++ List.replicate pause .main) = frame := by
    rw [arrivals_append, arrivals_mains, List.append_nil, arrivals, List.filterMap_map]
    exact List.filterMap_some
  rw [pausedActions]
  induction framesOf payloads with
  | nil => rfl
  | cons frame rest ih =>
      rw [List.flatMap_cons, arrivals_append, frames, ih, List.flatten_cons]

theorem onTime_paused (full : ∀ payload ∈ payloads, payload.length = 136) {pause : Nat}
    (long : latency ≤ pause) : OnTime payloads (pausedActions pause payloads) where
  arrived := by rw [pausedActions_arrivals]
  paced := by
    rw [pausedActions_turns]
    exact (paused_line (framesOf_valid full) long).1

end Line

/-! ### From the host on -/

/-- A pattern that drives the first channel of each chip. -/
def firstChannels : List UInt8 :=
  (List.replicate 17 [0x18, 0x00, 0x20, 0x00, 0x30, 0x00, 0x40, 0x00]).flatten

theorem firstChannels_wellFormed : WellFormedPattern firstChannels := by
  have table : ∀ (k : Fin 17) (c : Fin 4),
      (firstChannels[8 * k.val + 2 * c.val]?.map fun high => high.toNat / 16) = some (c.val + 1) := by
    decide
  intro k c
  exact Option.map_eq_some_iff.1 (table k c)

/-- A frame with this pattern, and accesses of `main` until both refresh loops have ended. -/
def firstChannelsActions : List Firmware.Action :=
  pausedActions (latency + refreshPeriod) [firstChannels]

theorem firstChannels_refines :
    EachStep (withHistory Board.step latestPattern) Refines
        (⟨powerOn, fun _ => ⟨fun _ => 0, fun _ => 0⟩⟩, none) firstChannelsActions ∧
      ∀ l, l ≠ .powerUp → ∃ before after, firstChannelsActions = before ++ .main :: after ∧
        FallingEdge l (run Firmware.step powerOn before) .main ∧
        (run Firmware.step powerOn before).pattern = firstChannels := by
  have full : ∀ payload ∈ [firstChannels], payload.length = 136 :=
    List.forall_mem_singleton.2 rfl
  have wellFormed : ∀ payload ∈ [firstChannels], WellFormedPattern payload :=
    List.forall_mem_singleton.2 firstChannels_wellFormed
  have onTime : OnTime [firstChannels] firstChannelsActions := onTime_paused full (Nat.le_add_right _ _)
  refine ⟨outputs_refine_latched (fun _ => ⟨fun _ => 0, fun _ => 0⟩) firstChannelsActions
    (actions_in_bounds full onTime) (actions_wellFormed full wellFormed onTime), fun l sends => ?_⟩
  obtain ⟨-, done, begun, waited⟩ := paused_line (framesOf_valid full) (Nat.le_add_right latency refreshPeriod)
  rw [← pausedActions_turns] at done begun waited
  obtain ⟨before, rest, split, refreshing, here⟩ :=
    line_edge (fun _ => ⟨fun _ => 0, fun _ => 0⟩) full wellFormed onTime done
      (congrArg List.getLast? begun) (waited (List.cons_ne_nil _ _)) sends
  have falls := refreshing.inv.falling here
  have driven := refreshing.pattern_eq
  rw [run_board_fw] at falls driven
  exact ⟨before, List.replicate rest .main, split, falls, driven⟩

/-- The wired board as power-on leaves it, whatever its chips hold. -/
def WiredBoard.start (chips : Fin 25 → Chip) : WiredBoard where
  board := ⟨powerOn, chips⟩
  core := NiosSpi.reset
  observer := Observer.start

end VoltCtrl.System
