/-
Module: VoltCtrl.Host.Dwell
Layer: Host
Purpose: The interval of a running scan. An automatic Start sets the interval in a `try` whose `catch`
  shows a message, and goes on to start the timer at whatever interval is left; the product in it wraps
  around in 32 bits. So a scan runs at the dwell time entered for it exactly when every automatic Start
  that starts it, or that meets it running, has a text in the box that is a usable dwell time.
Trusted boundary: none
Main exports: ValidDwell, noteDwell, RunsAtDwell, RefusesDwell, UsesDwell, DwellUsable, int32_of_fits,
  dwellInterval_valid, dwellInterval_le, dwellUsable_iff, scan_uses_dwell_iff
-/
import VoltCtrl.Host.Panel
import VoltCtrl.Host.Ports

namespace VoltCtrl.Host

open VoltCtrl.Core

/-- The text is a positive integer of seconds, and in milliseconds it fits in 32 bits. -/
def ValidDwell (text : String) : Prop :=
  ∃ time, convertToInt32 text = .ok time ∧ 1 ≤ time ∧ 1000 * time ≤ 2147483647

/-- A click on Start in automatic mode. -/
def AutoStart (s : Form) (a : Action) : Prop :=
  s.closed = false ∧ a.event = .button8 ∧ s.autoScan = true

instance (s : Form) (a : Action) : Decidable (AutoStart s a) :=
  inferInstanceAs (Decidable (_ ∧ _))

/-- The text in the dwell box at the most recent Start in automatic mode. -/
def noteDwell (last : Option String) (s : Form) (a : Action) : Option String :=
  if AutoStart s a then some s.textBox2 else last

/-- While the timer runs, its interval is exactly the dwell time entered last. -/
def RunsAtDwell (last : Option String) (s : Form) : Prop :=
  s.timer1.enabled = true →
    ∃ text time, last = some text ∧ convertToInt32 text = .ok time ∧ 1 ≤ time ∧
      s.timer1.interval = 1000 * time

/-- A Start at a text that is no usable dwell time neither starts the timer nor sends the first frame. -/
def RefusesDwell (s : Form) (a : Action) : Prop :=
  AutoStart s a → ¬ ValidDwell s.textBox2 →
    (step s a).timer1.enabled = s.timer1.enabled ∧ (step s a).sent = s.sent

/-- Every step of the run refuses unusable dwell times and leaves the timer at the one entered. -/
def UsesDwell (w : World) (actions : List Action) : Prop :=
  EachStep (withHistory step noteDwell)
    (fun s a => RefusesDwell s.1 a ∧ RunsAtDwell (noteDwell s.2 s.1 a) (step s.1 a))
    (start w, none) actions

/-- A Start in automatic mode with the port held for open, or while the timer runs, has a usable dwell
time in the box. -/
def DwellUsable (s : Form) (a : Action) : Prop :=
  AutoStart s a → s.isSerialPortOpen = true ∨ s.timer1.enabled = true → ValidDwell s.textBox2

/-! ### The interval -/

theorem int32_of_fits {time : Int} (positive : 1 ≤ time) (fits : 1000 * time ≤ 2147483647) :
    int32 (time * 1000) = 1000 * time := by
  have same : time * 1000 = 1000 * time := Int.mul_comm time 1000
  rw [int32, same]
  exact Int.bmod_eq_of_le (by omega) (by omega)

theorem int32_le (value : Int) : int32 value ≤ 2147483647 :=
  Int.bmod_le (by decide)

theorem dwellInterval_valid {s : Form} {time : Int} (text : convertToInt32 s.textBox2 = .ok time)
    (positive : 1 ≤ time) (fits : 1000 * time ≤ 2147483647) : dwellInterval s = 1000 * time := by
  have value := int32_of_fits positive fits
  simp only [dwellInterval, text]
  rw [value, if_neg (by omega)]

theorem dwellInterval_le {s : Form} (before : s.timer1.interval ≤ 2147483647) :
    dwellInterval s ≤ 2147483647 := by
  unfold dwellInterval
  split
  · exact before
  · split
    · exact before
    · exact int32_le _

/-- Only a Start in automatic mode sets the interval. -/
theorem interval_of_handle (w : World) {s : Form} {e : Event}
    (other : ¬ (e = .button8 ∧ s.autoScan = true)) :
    (handle w s e).timer1.interval = s.timer1.interval := by
  cases e with
  | button6 => exact congrArg Prod.snd (stop_panel w s rfl)
  | button7 => exact congrArg Prod.snd (stop_panel w s rfl)
  | button8 =>
      have mode : s.autoScan = false := Bool.eq_false_iff.2 fun auto => other ⟨rfl, auto⟩
      rw [handle, button8Click_manual w mode]
      exact startManual_interval w s
  | tick =>
      rw [handle]
      split
      · by_cases somewhere : ∃ n : Fin 5, s.autoScanFlag = n.val + 1
        · rcases somewhere with ⟨n, position⟩
          exact congrArg Prod.snd (timer1Tick_panel w position)
        · rw [timer1Tick_stray w (not_exists.1 somewhere)]
          rfl
      · rfl
  | closing =>
      rw [handle]
      exact interval_of_panel (closing_panel w s)
  | button1 | button2 | button3 | button4 | button5 | editComboBox1 | editComboBox2
  | editComboBox3 | editComboBox4 | editTextBox2 =>
      exact interval_of_panel (panel_of_silent w s rfl)

/-- Only a Start in automatic mode starts the timer. -/
theorem Effect.enabled {w : World} {s t : Form} {e : Event} (effect : Effect w s e t)
    (other : ¬ (e = .button8 ∧ s.autoScan = true)) (running : t.timer1.enabled = true) :
    s.timer1.enabled = true := by
  cases effect with
  | idle _ idle => exact idle.enabled.symm.trans running
  | stop _ stopped => exact nomatch stopped.enabled.symm.trans running
  | manual _ started => exact started.enabled.symm.trans running
  | auto mode _ => exact absurd ⟨rfl, mode⟩ other
  | off _ => exact running
  | stray _ => exact nomatch running
  | tick _ _ enabled _ => exact enabled
  | closing closed => exact closed.enabled.symm.trans running

/-- What a Start in automatic mode leaves. -/
theorem autoStart_step {s : Form} {a : Action} (starts : AutoStart s a) :
    (step s a).timer1.enabled = (s.isSerialPortOpen || s.timer1.enabled) ∧
      (step s a).timer1.interval = dwellInterval s ∧
      ∃ bytes, (step s a).sent = s.sent ++ guardedCalls s (.autoReadByteData 0) bytes := by
  rcases starts with ⟨still, start, mode⟩
  have handled : step s a = startAuto a.world s := by
    rw [step_of_open still, start, handle, button8Click_auto a.world mode]
  have started := startAuto_started a.world s
  rw [handled]
  have panels := startAuto_panel a.world s
  generalize startAuto a.world s = t at started panels ⊢
  exact ⟨started.enabled, congrArg Prod.snd panels, _, started.sent⟩

/-- The interval is a 32-bit integer in every state. -/
theorem interval_le_step {s : Form} (a : Action) (before : s.timer1.interval ≤ 2147483647) :
    (step s a).timer1.interval ≤ 2147483647 := by
  by_cases starts : AutoStart s a
  · rw [(autoStart_step starts).2.1]
    exact dwellInterval_le before
  · cases closed : s.closed with
    | true =>
        rw [step_of_closed closed]
        exact before
    | false =>
        rw [step_of_open closed, interval_of_handle a.world fun both => starts ⟨closed, both⟩]
        exact before

/-! ### One step -/

section Steps

variable {last : Option String} {s : Form} {a : Action}

/-- A step that is no Start in automatic mode leaves a running timer at its interval. -/
theorem RunsAtDwell.other (runs : RunsAtDwell last s) (other : ¬ AutoStart s a) :
    RunsAtDwell (noteDwell last s a) (step s a) := by
  rw [noteDwell, if_neg other]
  rcases step_cases s a with ⟨_, same⟩ | ⟨still, effect⟩
  · rw [same]
    exact runs
  · have noStart : ¬ (a.event = .button8 ∧ s.autoScan = true) := fun both => other ⟨still, both⟩
    intro running
    rcases runs (effect.enabled noStart running) with ⟨text, time, noted, parses, positive, exact⟩
    refine ⟨text, time, noted, parses, positive, ?_⟩
    rw [step_of_open still, interval_of_handle a.world noStart, exact]

/-- A Start at a usable dwell time. -/
theorem runsAtDwell_valid (starts : AutoStart s a) (valid : ValidDwell s.textBox2) :
    RunsAtDwell (noteDwell last s a) (step s a) := by
  rcases valid with ⟨time, text, positive, fits⟩
  intro _
  refine ⟨s.textBox2, time, ?_, text, positive, ?_⟩
  · rw [noteDwell, if_pos starts]
  · rw [(autoStart_step starts).2.1, dwellInterval_valid text positive fits]

/-- A Start at any other text leaves the property standing exactly when the timer is not running after
it. -/
theorem runsAtDwell_invalid (starts : AutoStart s a) (invalid : ¬ ValidDwell s.textBox2)
    (bounded : s.timer1.interval ≤ 2147483647) :
    RunsAtDwell (noteDwell last s a) (step s a) ↔ (step s a).timer1.enabled = false := by
  constructor
  · intro runs
    apply Bool.eq_false_iff.2
    intro running
    rcases runs running with ⟨text, time, noted, parses, positive, exact⟩
    rw [noteDwell, if_pos starts, Option.some.injEq] at noted
    subst noted
    have fits := interval_le_step a bounded
    rw [exact] at fits
    exact invalid ⟨time, parses, positive, fits⟩
  · intro off running
    rw [off] at running
    cases running

theorem refusesDwell_invalid (starts : AutoStart s a) (invalid : ¬ ValidDwell s.textBox2)
    (openIf : OpenIfFlag s) : RefusesDwell s a ↔ s.isSerialPortOpen = false := by
  rcases autoStart_step starts with ⟨enabled, _, bytes, sent⟩
  constructor
  · intro refuses
    have silent := (refuses starts invalid).2
    apply Bool.eq_false_iff.2
    intro flag
    rw [sent, List.append_right_eq_self, guardedCalls, if_pos flag, callsOf,
      if_pos (openIf flag)] at silent
    cases silent
  · intro flag _ _
    rw [enabled, sent, guardedCalls, flag, if_neg Bool.false_ne_true, List.append_nil,
      Bool.false_or]
    exact ⟨rfl, rfl⟩

/-- The condition is exact where the timer runs at the dwell time entered last. -/
theorem dwellUsable_iff (openIf : s.closed = false → OpenIfFlag s)
    (bounded : s.timer1.interval ≤ 2147483647) (runs : RunsAtDwell last s) :
    DwellUsable s a ↔ RefusesDwell s a ∧ RunsAtDwell (noteDwell last s a) (step s a) := by
  by_cases starts : AutoStart s a
  · by_cases valid : ValidDwell s.textBox2
    · exact iff_of_true (fun _ _ => valid)
        ⟨fun _ invalid => absurd valid invalid, runsAtDwell_valid starts valid⟩
    · rw [refusesDwell_invalid starts valid (openIf starts.1),
        runsAtDwell_invalid starts valid bounded, (autoStart_step starts).1]
      constructor
      · intro usable
        have quiet := mt (usable starts) valid
        rw [not_or] at quiet
        have flag := Bool.eq_false_iff.2 quiet.1
        have off := Bool.eq_false_iff.2 quiet.2
        rw [flag, off]
        exact ⟨rfl, rfl⟩
      · rintro ⟨flag, off⟩ _ either
        rw [flag, Bool.false_or] at off
        rw [flag, off] at either
        rcases either with contrary | contrary
        · cases contrary
        · cases contrary
  · exact iff_of_true (fun contrary => absurd contrary starts)
      ⟨fun contrary => absurd contrary starts, runs.other starts⟩

end Steps

/-! ### Runs -/

/-- A run uses the dwell times entered exactly when every Start in automatic mode that starts a scan, or
that meets one running, has a usable one in the box. -/
theorem scan_uses_dwell_iff (w : World) (actions : List Action) :
    UsesDwell w actions ↔ EachStep step DwellUsable (start w) actions := by
  have off := (start_portOnly w).idle.enabled
  have initial : (start w).timer1.interval = 100 := interval_of_panel (start_portOnly w).panel
  have bounded : (start w).timer1.interval ≤ 2147483647 := by
    rw [initial]
    decide
  have nothing : RunsAtDwell none (start w) := by
    intro running
    rw [off] at running
    cases running
  have promised : EachStep (withHistory step noteDwell) (fun _ _ => True) (start w, none) actions :=
    eachStep_of_forall fun _ _ => trivial
  have exact := eachStep_exact (s := (start w, none)) (P := fun s a => DwellUsable s.1 a)
    (Q := fun s a => RefusesDwell s.1 a)
    (fun s : Form × Option String =>
      (s.1.closed = false → OpenIfFlag s.1) ∧ s.1.timer1.interval ≤ 2147483647)
    (fun s => RunsAtDwell s.2 s.1)
    (fun s a good =>
      ⟨fun still => keeps_until_closed (openIfFlag_handle a.world) good.1 still,
        interval_le_step a good.2⟩)
    (fun s a good runs _ => dwellUsable_iff good.1 good.2 runs)
    ⟨openIfFlag_run w [], bounded⟩ nothing promised
  rw [eachStep_withHistory] at exact
  exact exact.symm

/-! ### A Start at a text that is no number -/

/-- Automatic mode is chosen on an open port, and Start is clicked at the text `x`. -/
def startAtText : List Action :=
  opening onePort "COM1" ++
    [⟨onePort, .button5⟩, ⟨onePort, .editTextBox2 "x"⟩, ⟨onePort, .button8⟩]

/-- The first frame is sent and the timer starts, at the interval that the window opens with. -/
theorem start_at_text_starts : ¬ UsesDwell onePort startAtText := by
  have opened := onePort_justOpened
  intro uses
  rw [UsesDwell, startAtText, eachStep_append, run_withHistory] at uses
  generalize run step (start onePort) (opening onePort "COM1") = s at opened uses
  have refuses : RefusesDwell (step (step s ⟨onePort, .button5⟩) ⟨onePort, .editTextBox2 "x"⟩)
      ⟨onePort, .button8⟩ := uses.2.2.2.1.1
  have typed : step { s with autoScan := true } ⟨onePort, .editTextBox2 "x"⟩ =
      { s with autoScan := true, textBox2 := "x" } :=
    step_of_open (s := { s with autoScan := true }) opened.closed _
  rw [opened.button5 onePort, typed] at refuses
  have starts : AutoStart { s with autoScan := true, textBox2 := "x" } ⟨onePort, .button8⟩ :=
    ⟨opened.closed, rfl, rfl⟩
  have invalid : ¬ ValidDwell "x" := by
    rintro ⟨time, parses, _⟩
    cases parses
  have openIf : OpenIfFlag { s with autoScan := true, textBox2 := "x" } :=
    fun _ => congrArg SerialPort.isOpen opened.port
  have shut := (refusesDwell_invalid starts invalid openIf).1 refuses
  exact nomatch opened.isOpen.symm.trans shut

end VoltCtrl.Host
