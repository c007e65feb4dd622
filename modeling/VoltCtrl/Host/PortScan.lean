/-
Module: VoltCtrl.Host.PortScan
Layer: Host
Purpose: What a port scan lists, and what it leaves. On a closed port the list is the filter of COM1 to
  COM20 by what can be opened, and the text its first entry, although from the second usable port on a
  round ends in an index error; the name tried last stays in `serialPort1`. On an open port every round
  raises at once, so the port is left alone and the list is empty.
Trusted boundary: none
Main exports: comName, usable, ScansFaithfully, scanRounds_items, scanRounds_found, search_shut_items,
  search_shut_text, search_open_items, scans_faithfully_iff
-/
import VoltCtrl.Host.Ports

namespace VoltCtrl.Host

open VoltCtrl.Core

/-- The name that a round of the scan tries. -/
def comName (i : Nat) : String :=
  "COM" ++ toString i

/-- The ports among those of the rounds that can be opened, in the order of the rounds. -/
def usable (w : World) (indices : List Nat) : List String :=
  (indices.filter fun i => w.canOpen (comName i)).map comName

/-- A scan that lists the ports and disturbs nothing: from `s` to `t` the list is the ports among COM1 to
COM20 that can be opened and the port that was open, once each in increasing order, the text is the first
of them or empty, and `serialPort1` is what it was. -/
structure ScansFaithfully (w : World) (s t : Form) : Prop where
  members : ∀ name, name ∈ t.comboBox1.items ↔
    (∃ i, 1 ≤ i ∧ i ≤ 20 ∧ name = comName i ∧ w.canOpen name = true) ∨
      s.serialPort1.isOpen = true ∧ name = s.serialPort1.portName
  once : t.comboBox1.items.Nodup
  increasing : ∃ indices : List Nat,
    indices.Pairwise (· < ·) ∧ t.comboBox1.items = indices.map comName
  text : t.comboBox1.text = t.comboBox1.items.headD ""
  port : t.serialPort1 = s.serialPort1

/-! ### The usable ports -/

theorem usable_cons (w : World) (i : Nat) (indices : List Nat) :
    usable w (i :: indices) =
      if w.canOpen (comName i) then comName i :: usable w indices else usable w indices := by
  unfold usable
  rw [List.filter_cons]
  split
  · rfl
  · rfl

theorem mem_usable {w : World} {indices : List Nat} {name : String} :
    name ∈ usable w indices ↔ ∃ i ∈ indices, name = comName i ∧ w.canOpen name = true := by
  unfold usable
  rw [List.mem_map]
  constructor
  · rintro ⟨i, member, rfl⟩
    rcases List.mem_filter.1 member with ⟨inside, opens⟩
    exact ⟨i, inside, rfl, opens⟩
  · rintro ⟨i, member, rfl, opens⟩
    exact ⟨i, List.mem_filter.2 ⟨member, opens⟩, rfl⟩

theorem comNames_nodup : ((List.range' 1 20).map comName).Nodup := by
  decide

theorem usable_nodup (w : World) : (usable w (List.range' 1 20)).Nodup :=
  comNames_nodup.sublist (List.filter_sublist.map comName)

/-! ### The rounds on a closed port -/

section Closing

variable {w : World} (closes : ∀ name, w.closeFails name = false)

include closes

/-- A round on a closed port, while closing succeeds. -/
theorem scanRound_shut (i : Nat) {scan : Scan} (shut : scan.form.serialPort1.isOpen = false) :
    attempt (scanBody w i) id scan =
      if w.canOpen (comName i) then
        { (scan.withPort { isOpen := false, portName := comName i }).list (comName i) with
          comAbleToUse := if scan.cnt = 0 then comName i else scan.comAbleToUse
          cnt := if scan.cnt = 0 then scan.cnt + 1 else scan.cnt }
      else scan.withPort { isOpen := false, portName := comName i } := by
  rw [scanRound_eq, scanBody_shut w i shut, closes]
  rfl

/-- Every usable port is listed, also those that end their round in an index error. -/
theorem scanRounds_items (indices : List Nat) (scan : Scan)
    (shut : scan.form.serialPort1.isOpen = false) :
    (scanRounds w indices scan).form.comboBox1.items =
      scan.form.comboBox1.items ++ usable w indices := by
  induction indices generalizing scan with
  | nil => exact (List.append_nil _).symm
  | cons i rest ih =>
      have round := scanRound_shut closes i shut
      have unfolded : scanRounds w (i :: rest) scan =
          scanRounds w rest (attempt (scanBody w i) id scan) := rfl
      rw [unfolded, round, usable_cons]
      split
      · rw [ih _ rfl]
        exact List.append_assoc _ [comName i] _
      · exact ih _ rfl

/-- The array has room for the first usable port alone. -/
theorem scanRounds_found (indices : List Nat) (scan : Scan)
    (shut : scan.form.serialPort1.isOpen = false) :
    (scanRounds w indices scan).comAbleToUse =
      if scan.cnt = 0 then (usable w indices).headD scan.comAbleToUse else scan.comAbleToUse := by
  induction indices generalizing scan with
  | nil => exact (ite_self _).symm
  | cons i rest ih =>
      have round := scanRound_shut closes i shut
      have unfolded : scanRounds w (i :: rest) scan =
          scanRounds w rest (attempt (scanBody w i) id scan) := rfl
      rw [unfolded, round, usable_cons]
      split
      · rw [ih _ rfl]
        by_cases first : scan.cnt = 0
        · simp only [first, if_true, Nat.zero_add, Nat.one_ne_zero, if_false, List.headD_cons]
        · simp only [first, if_false]
      · exact ih _ rfl

variable {s : Form} (shut : s.serialPort1.isOpen = false)

include shut

theorem search_shut_items :
    (searchAndAddSerialToComboBox w s).comboBox1.items = usable w (List.range' 1 20) :=
  scanRounds_items closes (List.range' 1 20) (clearedScan s) shut

theorem search_shut_text :
    (searchAndAddSerialToComboBox w s).comboBox1.text =
      (usable w (List.range' 1 20)).headD "" :=
  scanRounds_found closes (List.range' 1 20) (clearedScan s) shut

end Closing

/-- A scan that finds the port open lists nothing. -/
theorem search_open_items (w : World) {s : Form} (isOpen : s.serialPort1.isOpen = true) :
    (searchAndAddSerialToComboBox w s).comboBox1.items = [] := by
  rw [search_eq, scanRounds_open w (List.range' 1 20) (clearedScan s) isOpen]
  rfl

/-! ### When a scan is faithful -/

/-- On a closed port that is named COM20 already the scan is what it should be. -/
theorem scansFaithfully_shut {w : World} (closes : ∀ name, w.closeFails name = false) {s : Form}
    (port : s.serialPort1 = { isOpen := false, portName := "COM20" }) :
    ScansFaithfully w s (searchAndAddSerialToComboBox w s) := by
  have shut : s.serialPort1.isOpen = false := congrArg SerialPort.isOpen port
  have items := search_shut_items closes shut
  constructor
  · intro name
    rw [items, mem_usable]
    constructor
    · rintro ⟨i, member, named, opens⟩
      rcases List.mem_range'_1.1 member with ⟨low, high⟩
      exact .inl ⟨i, low, by omega, named, opens⟩
    · rintro (⟨i, low, high, named, opens⟩ | ⟨isOpen, _⟩)
      · exact ⟨i, List.mem_range'_1.2 ⟨low, by omega⟩, named, opens⟩
      · exact nomatch shut.symm.trans isOpen
  · rw [items]
    exact usable_nodup w
  · have increasing : (List.range' 1 20).Pairwise (· < ·) := List.pairwise_lt_range'
    exact ⟨_, increasing.filter _, items⟩
  · rw [items, search_shut_text closes shut]
  · rw [search_shut closes shut, port]

/-- A scan on an open port is not faithful: it does not list that port. -/
theorem not_scansFaithfully_open (w : World) {s : Form} (isOpen : s.serialPort1.isOpen = true) :
    ¬ ScansFaithfully w s (searchAndAddSerialToComboBox w s) := by
  intro faithful
  have listed := (faithful.members s.serialPort1.portName).2 (.inr ⟨isOpen, rfl⟩)
  rw [search_open_items w isOpen] at listed
  cases listed

/-- A scan lists the ports and disturbs nothing exactly when `serialPort1` is closed and is named COM20
already. -/
theorem scans_faithfully_iff (w : World) (closes : ∀ name, w.closeFails name = false) (s : Form) :
    ScansFaithfully w s (searchAndAddSerialToComboBox w s) ↔
      s.serialPort1 = { isOpen := false, portName := "COM20" } := by
  constructor
  · intro faithful
    cases isOpen : s.serialPort1.isOpen with
    | true => exact absurd faithful (not_scansFaithfully_open w isOpen)
    | false => rw [← faithful.port, search_shut closes isOpen]
  · exact scansFaithfully_shut closes

theorem onePort_scans_faithfully_iff :
    ScansFaithfully onePort Form.initial (searchAndAddSerialToComboBox onePort Form.initial) ↔
      Form.initial.serialPort1 = { isOpen := false, portName := "COM20" } :=
  scans_faithfully_iff onePort (fun _ => rfl) Form.initial

/-! ### The first scan of the program, and a scan on an open port -/

/-- The scan at the start of the program leaves COM20 in `serialPort1`, which was named COM1, and a scan
with COM1 open does not list COM1. -/
theorem scan_renames_and_hides :
    ¬ ScansFaithfully onePort Form.initial (searchAndAddSerialToComboBox onePort Form.initial) ∧
      ¬ ScansFaithfully onePort (run step (start onePort) (opening onePort "COM1"))
        (searchAndAddSerialToComboBox onePort
          (run step (start onePort) (opening onePort "COM1"))) := by
  constructor
  · intro faithful
    have port := faithful.port
    rw [search_shut (s := Form.initial) (fun _ => rfl) rfl] at port
    exact absurd (congrArg SerialPort.portName port) (by decide)
  · exact not_scansFaithfully_open onePort (congrArg SerialPort.isOpen onePort_justOpened.port)

end VoltCtrl.Host
