/-
Module: VoltCtrl.Host.Effects
Layer: Host
Purpose: What each function of `Form1.cs` can do, said once. A loader changes the bytes of its own
  buffer from entry 1 on, whether it ends or raises; a write logs one frame when the port is open; the
  handlers that neither start nor stop anything send nothing. Later proofs cite these lemmas and unfold
  no handler.
Trusted boundary: none
Main exports: payload, frameOf, store_payload, Loads, readByteFromFile_eq, selectedFile, scanFile,
  complete, callsOf, write_eq, zeroFrame, sendZeroData_eq, PortOnly, Idle, idle_of_silent
-/
import VoltCtrl.Host.Handlers
import Mathlib.Data.Fintype.Basic
import Mathlib.Tactic.FinCases

namespace VoltCtrl.Host

open VoltCtrl.Core

/-! ### Buffers -/

/-- Entries 1 to 136 of a buffer. -/
def payload (v : Vector UInt8 200) : List UInt8 :=
  (v.toList.drop 1).take 136

/-- The 137 bytes that a write of the buffer passes. -/
def frameOf (v : Vector UInt8 200) : List UInt8 :=
  (v.toList.drop 0).take 137

theorem payload_length (v : Vector UInt8 200) : (payload v).length = 136 := by
  simp [payload]

theorem payload_entry (v : Vector UInt8 200) {i : Nat} (inside : i < 136) :
    (payload v)[i]? = v[1 + i]? := by
  have bound : 1 + i < 200 := by omega
  simp [payload, inside, bound, Nat.add_comm i 1]

/-- A frame is entry 0 and the payload. -/
theorem frameOf_eq (v : Vector UInt8 200) : frameOf v = v.head :: payload v := by
  have shape : v.toList = v.head :: v.toList.drop 1 := by
    apply List.ext_getElem?
    intro i
    cases i with
    | zero => simp [Vector.head]
    | succ i => simp
  rw [frameOf, List.drop_zero, shape, List.take_succ_cons]
  rfl

theorem payload_ext {v : Vector UInt8 200} {bytes : List UInt8} (full : bytes.length = 136)
    (entries : ∀ i < 136, v[1 + i]? = bytes[i]?) : payload v = bytes := by
  apply List.ext_getElem?
  intro i
  by_cases inside : i < 136
  · rw [payload_entry v inside, entries i inside]
  · rw [List.getElem?_eq_none (by rw [payload_length]; omega),
      List.getElem?_eq_none (by omega)]

section Stores

variable (s : Form) (buffer : Buffer)

theorem setEntry_same (i : Nat) (value : UInt8) :
    (s.setEntry buffer i value).buffers buffer = (s.buffers buffer).setIfInBounds i value :=
  Function.update_self ..

theorem setEntry_other (i : Nat) (value : UInt8) {other : Buffer} (differ : other ≠ buffer) :
    (s.setEntry buffer i value).buffers other = s.buffers other :=
  Function.update_of_ne differ ..

/-- Stores change one buffer and nothing else. -/
theorem store_rest (start : Nat) (values : List UInt8) :
    s.store buffer start values =
      { s with buffers := (s.store buffer start values).buffers } := by
  induction values generalizing s start with
  | nil => rfl
  | cons value rest ih =>
      rw [Form.store, ih]
      rfl

theorem store_other (start : Nat) (values : List UInt8) {other : Buffer}
    (differ : other ≠ buffer) :
    (s.store buffer start values).buffers other = s.buffers other := by
  induction values generalizing s start with
  | nil => rfl
  | cons value rest ih => rw [Form.store, ih, setEntry_other s buffer start value differ]

theorem store_before (start : Nat) (values : List UInt8) {j : Nat} (before : j < start) :
    ((s.store buffer start values).buffers buffer)[j]? = (s.buffers buffer)[j]? := by
  induction values generalizing s start with
  | nil => rfl
  | cons value rest ih =>
      rw [Form.store, ih _ _ (by omega), setEntry_same,
        Vector.getElem?_setIfInBounds_ne (by omega)]

/-- Entries past the last value are left alone. -/
theorem store_after (start : Nat) (values : List UInt8) {j : Nat}
    (after : start + values.length ≤ j) :
    ((s.store buffer start values).buffers buffer)[j]? = (s.buffers buffer)[j]? := by
  induction values generalizing s start with
  | nil => rfl
  | cons value rest ih =>
      rw [List.length_cons] at after
      rw [Form.store, ih _ _ (by omega), setEntry_same,
        Vector.getElem?_setIfInBounds_ne (by omega)]

/-- Entry `start + i` holds value `i`. -/
theorem store_entry (start : Nat) (values : List UInt8) {i : Nat} (inside : i < values.length)
    (fits : start + i < 200) :
    ((s.store buffer start values).buffers buffer)[start + i]? = values[i]? := by
  induction values generalizing s start i with
  | nil => exact absurd inside (Nat.not_lt_zero i)
  | cons value rest ih =>
      rw [Form.store]
      cases i with
      | zero =>
          have bound : start < 200 := fits
          rw [store_before _ buffer (start + 1) rest (by omega), setEntry_same, Nat.add_zero,
            Vector.getElem?_setIfInBounds_self_of_lt bound]
          rfl
      | succ i =>
          have place : start + (i + 1) = start + 1 + i := by omega
          rw [place, ih _ (start + 1) (by simpa using inside) (by omega)]
          rfl

/-- A whole pattern stored from entry 1 on is the payload. -/
theorem store_payload {values : List UInt8} (full : values.length = 136) :
    payload ((s.store buffer 1 values).buffers buffer) = values :=
  payload_ext full fun i inside => store_entry s buffer 1 values (by omega) (by omega)

end Stores

/-! ### Loaders -/

/-- What loading may change: messages, the picture, the interval, `FileReadOver`, and entries of the
buffers in `D` other than their length byte. -/
structure Loads (D : Buffer → Prop) (s t : Form) : Prop where
  rest : t =
    { s with
      buffers := t.buffers, messages := t.messages, pictureBox1 := t.pictureBox1,
      timer1 := { s.timer1 with interval := t.timer1.interval }
      fileReadOver := t.fileReadOver }
  length : ∀ b, (t.buffers b).head = (s.buffers b).head
  others : ∀ b, ¬ D b → t.buffers b = s.buffers b
  read : s.fileReadOver = true → t.fileReadOver = true

instance (D : Buffer → Prop) : Std.Refl (Loads D) where
  refl _ := ⟨rfl, fun _ => rfl, fun _ _ => rfl, id⟩

instance (D : Buffer → Prop) : IsTrans Form (Loads D) where
  trans s t u first second := by
    rcases first with ⟨restFirst, lengthFirst, othersFirst, readFirst⟩
    rcases second with ⟨restSecond, lengthSecond, othersSecond, readSecond⟩
    refine ⟨?_, ?_, ?_, readSecond ∘ readFirst⟩
    · rw [restFirst] at restSecond
      exact restSecond
    · exact fun b => (lengthSecond b).trans (lengthFirst b)
    · exact fun b outside => (othersSecond b outside).trans (othersFirst b outside)

section

variable {D : Buffer → Prop} {s t : Form} (loads : Loads D s t)

include loads

theorem Loads.sent : t.sent = s.sent := by rw [loads.rest]

theorem Loads.enabled : t.timer1.enabled = s.timer1.enabled := by rw [loads.rest]

theorem Loads.flag : t.autoScanFlag = s.autoScanFlag := by rw [loads.rest]

theorem Loads.closed : t.closed = s.closed := by rw [loads.rest]

end

@[simp] theorem messageBox_buffers (s : Form) (text caption : String) :
    (s.messageBox text caption).buffers = s.buffers := rfl

theorem loads_messageBox (D : Buffer → Prop) (s : Form) (text caption : String) :
    Loads D s (s.messageBox text caption) :=
  ⟨rfl, fun _ => rfl, fun _ _ => rfl, id⟩

theorem loads_setPicture (D : Buffer → Prop) (s : Form) (picture : Picture) :
    Loads D s (s.setPicture picture) :=
  ⟨rfl, fun _ => rfl, fun _ _ => rfl, id⟩

/-- Storing a list from entry 1 on. -/
theorem loads_store {D : Buffer → Prop} (s : Form) {dst : Buffer} (within : D dst)
    (values : List UInt8) : Loads D s (s.store dst 1 values) := by
  have rest := store_rest s dst 1 values
  constructor
  · rw [rest]
  · intro b
    by_cases same : b = dst
    · subst same
      have entry := store_before s b 1 values Nat.zero_lt_one
      rwa [Vector.getElem?_eq_getElem (by omega), Vector.getElem?_eq_getElem (by omega),
        Option.some.injEq] at entry
    · rw [store_other s dst 1 values same]
  · intro b outside
    have differ : b ≠ dst := by
      rintro rfl
      exact outside within
    exact store_other s dst 1 values differ
  · intro read
    rw [rest]
    exact read

/-- The loop stores the bytes there are, and raises when they are too few. -/
theorem readLoop_eq (dst : Buffer) (left bufferCnt : Nat) (bytes : List UInt8) (s : Form) :
    readLoop dst left bufferCnt bytes s =
      if left ≤ bytes.length then .ok ⟨⟩ (s.store dst bufferCnt (bytes.take left))
      else .error .endOfStream (s.store dst bufferCnt bytes) := by
  induction left generalizing bufferCnt bytes s with
  | zero => rfl
  | succ left ih =>
      cases bytes with
      | nil => rfl
      | cons byte rest =>
          have first : (modify fun s : Form => s.setEntry dst bufferCnt byte : Program PUnit) s =
              .ok ⟨⟩ (s.setEntry dst bufferCnt byte) := rfl
          rw [readLoop, bind_of_ok first, ih]
          simp only [List.length_cons, Nat.add_le_add_iff_right, List.take_succ_cons, Form.store]

/-- A file of at least 136 bytes is loaded; a shorter one is stored as far as it goes. -/
theorem readByteFromFile_eq (w : World) (dst : Buffer) (path : String) (s : Form) :
    readByteFromFile w dst path s =
      match w.readFile path with
      | none => .error .io s
      | some bytes =>
          if 136 ≤ bytes.length then .ok ⟨⟩ (s.store dst 1 (bytes.take 136))
          else .error .endOfStream (s.store dst 1 bytes) := by
  unfold readByteFromFile
  cases w.readFile path with
  | none => rfl
  | some bytes => exact readLoop_eq dst 136 1 bytes s

section Frames

variable {R : Form → Form → Prop} [Std.Refl R] {w : World}

theorem readByteFromFile_within {dst : Buffer}
    (stores : ∀ s values, R s (Form.store s dst 1 values)) (path : String) :
    Within R (readByteFromFile w dst path) := by
  intro s
  have result := readByteFromFile_eq w dst path s
  cases file : w.readFile path with
  | none =>
      rw [file] at result
      rw [exec_of_error result]
      exact refl_of R s
  | some bytes =>
      rw [file] at result
      by_cases long : 136 ≤ bytes.length
      · rw [exec_of_ok (result.trans (if_pos long))]
        exact stores s _
      · rw [exec_of_error (result.trans (if_neg long))]
        exact stores s _

theorem parseInt32_within (text : String) : Within R (parseInt32 text) := by
  intro s
  unfold exec parseInt32
  cases convertToInt32 text <;> exact refl_of R s

theorem get_within : Within R (get : Program Form) :=
  fun s => refl_of R s

variable [IsTrans Form R]

/-- A manual selection stores, shows a message or sets the picture. -/
theorem checkFreqAndDirection_within
    (stores : ∀ s values, R s (Form.store s .readByteData 1 values))
    (shows : ∀ s text, R s (Form.messageBox s text ""))
    (sets : ∀ s picture, R s (Form.setPicture s picture)) : Within R (checkFreqAndDirection w) := by
  have message (text : String) : Within R (modify fun s => s.messageBox text "" : Program PUnit) :=
    Within.modify fun s => shows s text
  refine get_within.bind fun s => (parseInt32_within _).bind fun freq => ?_
  refine get_within.bind fun s => (parseInt32_within _).bind fun phi => ?_
  refine get_within.bind fun s => (parseInt32_within _).bind fun theta => ?_
  split
  · split
    · split
      · refine (readByteFromFile_within stores _).bind fun _ => ?_
        exact Within.modify fun s => sets s _
      · exact message _
    · exact message _
  · exact message _

/-- The selection of a scan stores or shows a message. -/
theorem autoScanCheckFreq_within
    (stores : ∀ n s values, R s (Form.store s (.autoReadByteData n) 1 values))
    (shows : ∀ s text, R s (Form.messageBox s text "")) : Within R (autoScanCheckFreq w) := by
  have message (text : String) : Within R (modify fun s => s.messageBox text "" : Program PUnit) :=
    Within.modify fun s => shows s text
  refine get_within.bind fun s => (parseInt32_within _).bind fun freq => ?_
  refine get_within.bind fun s => (parseInt32_within _).bind fun phi => ?_
  split
  · split
    · refine (readByteFromFile_within (stores 0) _).bind fun _ => ?_
      refine (readByteFromFile_within (stores 1) _).bind fun _ => ?_
      refine (readByteFromFile_within (stores 2) _).bind fun _ => ?_
      refine (readByteFromFile_within (stores 3) _).bind fun _ => ?_
      exact readByteFromFile_within (stores 4) _
    · exact message _
  · exact message _

theorem setDwell_within (sets : ∀ value, Within R (setInterval value)) : Within R setDwell :=
  get_within.bind fun _ => (parseInt32_within _).bind fun _ => sets _

end Frames

theorem readByteFromFile_loads {D : Buffer → Prop} (w : World) {dst : Buffer} (within : D dst)
    (path : String) : Within (Loads D) (readByteFromFile w dst path) :=
  readByteFromFile_within (fun s values => loads_store s within values) path

theorem setInterval_loads (D : Buffer → Prop) (value : Int) :
    Within (Loads D) (setInterval value) := by
  intro s
  unfold exec setInterval
  split
  · rename_i result
    split at result
    · cases result
    · cases result
      exact ⟨rfl, fun _ => rfl, fun _ _ => rfl, id⟩
  · rename_i result
    split at result
    · cases result
      exact refl_of (Loads D) s
    · cases result

theorem checkFreqAndDirection_loads (w : World) :
    Within (Loads (· = .readByteData)) (checkFreqAndDirection w) :=
  checkFreqAndDirection_within (fun s values => loads_store (D := (· = .readByteData)) s rfl values)
    (fun s text => loads_messageBox _ s text "") (loads_setPicture _)

/-- The five buffers of the automatic scan. -/
def IsAuto (b : Buffer) : Prop :=
  ∃ n, b = .autoReadByteData n

theorem autoScanCheckFreq_loads (w : World) :
    Within (Loads IsAuto) (autoScanCheckFreq w) :=
  autoScanCheckFreq_within (fun n s values => loads_store s ⟨n, rfl⟩ values)
    (fun s text => loads_messageBox _ s text "")

theorem setDwell_loads (D : Buffer → Prop) : Within (Loads D) setDwell :=
  setDwell_within (setInterval_loads D)

/-! ### What a selection loads -/

/-- The file of a manual selection, when the selection is valid and the file can be opened. -/
def selectedFile (w : World) (s : Form) : Option (List UInt8) :=
  match convertToInt32 s.comboBox2, convertToInt32 s.comboBox3, convertToInt32 s.comboBox4 with
  | .ok freq, .ok phi, .ok theta =>
      if isPhi phi && isFreq freq && (pictureOf theta).isSome then
        w.readFile (filePath freq phi theta)
      else none
  | _, _, _ => none

/-- The direction selected for a manual frame, when the text is a theta that has a picture. -/
def selectedPicture (s : Form) : Option Picture :=
  match convertToInt32 s.comboBox4 with
  | .ok theta => pictureOf theta
  | .error _ => none

/-- File `n` of an automatic selection. -/
def scanFile (w : World) (s : Form) (n : Fin 5) : Option (List UInt8) :=
  match convertToInt32 s.comboBox2, convertToInt32 s.comboBox3 with
  | .ok freq, .ok phi =>
      if isPhi phi && isFreq freq then w.readFile (filePath freq phi (scanTheta n)) else none
  | _, _ => none

/-- The file, if it is complete: its first 136 bytes. -/
def complete (file : Option (List UInt8)) : Option (List UInt8) :=
  match file with
  | some bytes => if 136 ≤ bytes.length then some (bytes.take 136) else none
  | none => none

theorem parseInt32_ok {text : String} {value : Int} (parses : convertToInt32 text = .ok value)
    (s : Form) : parseInt32 text s = .ok value s := by
  simp only [parseInt32, parses]

theorem parseInt32_error {text : String} {e : Exn} (fails : convertToInt32 text = .error e)
    (s : Form) : parseInt32 text s = .error e s := by
  simp only [parseInt32, fails]

theorem complete_length {file : Option (List UInt8)} {bytes : List UInt8}
    (whole : complete file = some bytes) : bytes.length = 136 := by
  cases file with
  | none => cases whole
  | some all =>
      simp only [complete] at whole
      split at whole
      · rw [← Option.some.inj whole, List.length_take]
        omega
      · cases whole

theorem complete_whole {bytes : List UInt8} (length : bytes.length = 136) :
    complete (some bytes) = some bytes := by
  simp only [complete, length, Nat.le_refl, if_true, List.take_of_length_le]

/-- A complete file is loaded whole. -/
theorem readByteFromFile_complete {w : World} {path : String} {bytes : List UInt8}
    (whole : complete (w.readFile path) = some bytes) (dst : Buffer) (s : Form) :
    readByteFromFile w dst path s = .ok ⟨⟩ (s.store dst 1 bytes) := by
  rw [readByteFromFile_eq]
  cases file : w.readFile path with
  | none =>
      rw [file] at whole
      cases whole
  | some all =>
      simp only [file, complete] at whole
      split at whole
      · rename_i long
        simp only [if_pos long, Option.some.inj whole]
      · cases whole

/-- A load that stores nothing: the file is missing or empty. -/
theorem readByteFromFile_nothing {w : World} {path : String}
    (nothing : (w.readFile path).getD [] = []) (dst : Buffer) (s : Form) :
    ∃ e, readByteFromFile w dst path s = .error e s := by
  rw [readByteFromFile_eq]
  cases file : w.readFile path with
  | none => exact ⟨_, rfl⟩
  | some bytes =>
      rw [file, Option.getD_some] at nothing
      subst nothing
      exact ⟨_, rfl⟩

/-- With three numbers in the boxes, the manual selection is the switch on them. -/
theorem checkFreqAndDirection_parsed {w : World} {s : Form} {freq phi theta : Int}
    (freqText : convertToInt32 s.comboBox2 = .ok freq)
    (phiText : convertToInt32 s.comboBox3 = .ok phi)
    (thetaText : convertToInt32 s.comboBox4 = .ok theta) :
    checkFreqAndDirection w s =
      (if isPhi phi then
        if isFreq freq then
          match pictureOf theta with
          | some picture => do
              readByteFromFile w .readByteData (filePath freq phi theta)
              modify fun s => s.setPicture picture
          | none => modify fun s => s.messageBox "未找到相应文件！" ""
        else modify fun s => s.messageBox "未找到相应文件！" ""
      else modify fun s => s.messageBox "请输入有效φ值" "" : Program PUnit) s := by
  have here : (get : Program Form) s = .ok s s := rfl
  unfold checkFreqAndDirection
  refine (bind_of_ok here).trans ?_
  refine (bind_of_ok (parseInt32_ok freqText s)).trans ?_
  refine (bind_of_ok here).trans ?_
  refine (bind_of_ok (parseInt32_ok phiText s)).trans ?_
  refine (bind_of_ok here).trans ?_
  refine (bind_of_ok (parseInt32_ok thetaText s)).trans ?_
  rfl

/-- A complete file of a valid selection becomes the payload of `ReadByteData`, and its direction is
shown. -/
theorem checkFreqAndDirection_shows {w : World} {s : Form} {bytes : List UInt8}
    (whole : complete (selectedFile w s) = some bytes) :
    ∃ picture, selectedPicture s = some picture ∧ checkFreqAndDirection w s =
      .ok ⟨⟩ ((s.store .readByteData 1 bytes).setPicture picture) := by
  unfold selectedFile at whole
  split at whole
  · rename_i freq phi theta freqText phiText thetaText
    split at whole
    · rename_i valid
      rw [Bool.and_eq_true, Bool.and_eq_true] at valid
      obtain ⟨⟨validPhi, validFreq⟩, validTheta⟩ := valid
      obtain ⟨picture, shown⟩ := Option.isSome_iff_exists.1 validTheta
      refine ⟨picture, by simp only [selectedPicture, thetaText, shown], ?_⟩
      rw [checkFreqAndDirection_parsed freqText phiText thetaText, if_pos validPhi,
        if_pos validFreq, shown]
      simp only
      rw [bind_of_ok (readByteFromFile_complete whole .readByteData s)]
      rfl
    · cases whole
  · cases whole

theorem checkFreqAndDirection_complete {w : World} {s : Form} {bytes : List UInt8}
    (whole : complete (selectedFile w s) = some bytes) :
    ∃ picture, checkFreqAndDirection w s =
      .ok ⟨⟩ ((s.store .readByteData 1 bytes).setPicture picture) := by
  obtain ⟨picture, _, result⟩ := checkFreqAndDirection_shows whole
  exact ⟨picture, result⟩

/-- With an invalid selection, or a missing or empty file, only messages change. -/
theorem checkFreqAndDirection_quiet {w : World} {s : Form}
    (nothing : (selectedFile w s).getD [] = []) :
    ∃ messages, exec (checkFreqAndDirection w) s = { s with messages := messages } := by
  have here : (get : Program Form) s = .ok s s := rfl
  cases freqText : convertToInt32 s.comboBox2 with
  | error e =>
      refine ⟨s.messages, exec_of_error (e := e) ?_⟩
      rw [checkFreqAndDirection, bind_of_ok here, bind_of_error (parseInt32_error freqText s)]
  | ok freq =>
      cases phiText : convertToInt32 s.comboBox3 with
      | error e =>
          refine ⟨s.messages, exec_of_error (e := e) ?_⟩
          rw [checkFreqAndDirection, bind_of_ok here, bind_of_ok (parseInt32_ok freqText s),
            bind_of_ok here, bind_of_error (parseInt32_error phiText s)]
      | ok phi =>
          cases thetaText : convertToInt32 s.comboBox4 with
          | error e =>
              refine ⟨s.messages, exec_of_error (e := e) ?_⟩
              rw [checkFreqAndDirection, bind_of_ok here, bind_of_ok (parseInt32_ok freqText s),
                bind_of_ok here, bind_of_ok (parseInt32_ok phiText s), bind_of_ok here,
                bind_of_error (parseInt32_error thetaText s)]
          | ok theta =>
              have unfolded := checkFreqAndDirection_parsed (w := w) freqText phiText thetaText
              rw [exec, unfolded]
              by_cases validPhi : isPhi phi
              · by_cases validFreq : isFreq freq
                · cases shown : pictureOf theta with
                  | none =>
                      rw [if_pos validPhi, if_pos validFreq]
                      exact ⟨_, rfl⟩
                  | some picture =>
                      rw [if_pos validPhi, if_pos validFreq]
                      simp only [selectedFile, freqText, phiText, thetaText, validPhi, validFreq,
                        shown, Option.isSome_some, Bool.and_self, if_true] at nothing
                      obtain ⟨e, raises⟩ := readByteFromFile_nothing nothing .readByteData s
                      simp only
                      rw [bind_of_error raises]
                      exact ⟨s.messages, rfl⟩
                · rw [if_pos validPhi, if_neg validFreq]
                  exact ⟨_, rfl⟩
              · rw [if_neg validPhi]
                exact ⟨_, rfl⟩

/-- With an invalid selection, or a missing or empty file, no buffer changes. -/
theorem checkFreqAndDirection_nothing {w : World} {s : Form}
    (nothing : (selectedFile w s).getD [] = []) :
    (exec (checkFreqAndDirection w) s).buffers = s.buffers := by
  obtain ⟨messages, result⟩ := checkFreqAndDirection_quiet nothing
  rw [result]

theorem autoScanCheckFreq_parsed {w : World} {s : Form} {freq phi : Int}
    (freqText : convertToInt32 s.comboBox2 = .ok freq)
    (phiText : convertToInt32 s.comboBox3 = .ok phi) :
    autoScanCheckFreq w s =
      (if isPhi phi then
        if isFreq freq then do
          readByteFromFile w (.autoReadByteData 0) (filePath freq phi (scanTheta 0))
          readByteFromFile w (.autoReadByteData 1) (filePath freq phi (scanTheta 1))
          readByteFromFile w (.autoReadByteData 2) (filePath freq phi (scanTheta 2))
          readByteFromFile w (.autoReadByteData 3) (filePath freq phi (scanTheta 3))
          readByteFromFile w (.autoReadByteData 4) (filePath freq phi (scanTheta 4))
        else modify fun s => s.messageBox "未找到相应文件！" ""
      else modify fun s => s.messageBox "请输入有效φ值" "" : Program PUnit) s := by
  have here : (get : Program Form) s = .ok s s := rfl
  rw [autoScanCheckFreq, bind_of_ok here, bind_of_ok (parseInt32_ok freqText s),
    bind_of_ok here, bind_of_ok (parseInt32_ok phiText s)]

/-- The scan's buffers after five complete files. -/
def storeScan (s : Form) (files : Fin 5 → List UInt8) : Form :=
  ((((s.store (.autoReadByteData 0) 1 (files 0)).store
    (.autoReadByteData 1) 1 (files 1)).store
    (.autoReadByteData 2) 1 (files 2)).store
    (.autoReadByteData 3) 1 (files 3)).store
    (.autoReadByteData 4) 1 (files 4)

theorem storeScan_payload (s : Form) {files : Fin 5 → List UInt8}
    (full : ∀ n, (files n).length = 136) (n : Fin 5) :
    payload ((storeScan s files).buffers (.autoReadByteData n)) = files n := by
  have others (t : Form) (m : Fin 5) (values : List UInt8) (differ : n ≠ m) :
      (t.store (.autoReadByteData m) 1 values).buffers (.autoReadByteData n) =
        t.buffers (.autoReadByteData n) :=
    store_other t _ 1 values (by simpa using differ)
  unfold storeScan
  fin_cases n
  · rw [others _ 4 _ (by decide), others _ 3 _ (by decide), others _ 2 _ (by decide),
      others _ 1 _ (by decide)]
    exact store_payload _ _ (full 0)
  · rw [others _ 4 _ (by decide), others _ 3 _ (by decide), others _ 2 _ (by decide)]
    exact store_payload _ _ (full 1)
  · rw [others _ 4 _ (by decide), others _ 3 _ (by decide)]
    exact store_payload _ _ (full 2)
  · rw [others _ 4 _ (by decide)]
    exact store_payload _ _ (full 3)
  · exact store_payload _ _ (full 4)

/-- Five complete files of a valid selection become the payloads of the scan's buffers. -/
theorem autoScanCheckFreq_complete {w : World} {s : Form} {files : Fin 5 → List UInt8}
    (whole : ∀ n, complete (scanFile w s n) = some (files n)) :
    autoScanCheckFreq w s = .ok ⟨⟩ (storeScan s files) := by
  cases freqText : convertToInt32 s.comboBox2 with
  | error e =>
      have none := whole 0
      simp only [scanFile, freqText, complete] at none
      cases none
  | ok freq =>
      cases phiText : convertToInt32 s.comboBox3 with
      | error e =>
          have none := whole 0
          simp only [scanFile, freqText, phiText, complete] at none
          cases none
      | ok phi =>
          simp only [scanFile, freqText, phiText] at whole
          by_cases valid : (isPhi phi && isFreq freq) = true
          · simp only [valid, if_true] at whole
            rw [Bool.and_eq_true] at valid
            rw [autoScanCheckFreq_parsed freqText phiText, if_pos valid.1, if_pos valid.2]
            rw [bind_of_ok (readByteFromFile_complete (whole 0) _ _),
              bind_of_ok (readByteFromFile_complete (whole 1) _ _),
              bind_of_ok (readByteFromFile_complete (whole 2) _ _),
              bind_of_ok (readByteFromFile_complete (whole 3) _ _),
              readByteFromFile_complete (whole 4)]
            rfl
          · have none := whole 0
            rw [if_neg valid] at none
            cases none

/-- With an invalid selection, or a missing or empty first file, no buffer changes. -/
theorem autoScanCheckFreq_nothing {w : World} {s : Form}
    (nothing : (scanFile w s 0).getD [] = []) :
    (exec (autoScanCheckFreq w) s).buffers = s.buffers := by
  have here : (get : Program Form) s = .ok s s := rfl
  cases freqText : convertToInt32 s.comboBox2 with
  | error e =>
      rw [exec_of_error (e := e) (t := s)]
      rw [autoScanCheckFreq, bind_of_ok here, bind_of_error (parseInt32_error freqText s)]
  | ok freq =>
      cases phiText : convertToInt32 s.comboBox3 with
      | error e =>
          rw [exec_of_error (e := e) (t := s)]
          rw [autoScanCheckFreq, bind_of_ok here, bind_of_ok (parseInt32_ok freqText s),
            bind_of_ok here, bind_of_error (parseInt32_error phiText s)]
      | ok phi =>
          rw [exec, autoScanCheckFreq_parsed freqText phiText]
          by_cases validPhi : isPhi phi
          · by_cases validFreq : isFreq freq
            · rw [if_pos validPhi, if_pos validFreq]
              simp only [scanFile, freqText, phiText, validPhi, validFreq, Bool.and_self,
                if_true] at nothing
              obtain ⟨e, raises⟩ := readByteFromFile_nothing nothing (.autoReadByteData 0) s
              rw [bind_of_error raises]
            · rw [if_pos validPhi, if_neg validFreq]
              rfl
          · rw [if_neg validPhi]
            rfl

/-! ### Writes -/

/-- The call of `Write` that a send makes: one when the port is open, none otherwise. -/
def callsOf (s : Form) (buffer : Buffer) (bytes : List UInt8) : List Sent :=
  if s.serialPort1.isOpen then [{ buffer, bytes, portName := s.serialPort1.portName }] else []

/-- A send logs its frame, and shows a message if the write raises. -/
theorem write_eq (w : World) (buffer : Buffer) (s : Form) :
    ∃ messages, writeByteToSerialPort w buffer 0 (dataLength.toNat + 1) s =
      { s with
        sent := s.sent ++ callsOf s buffer (frameOf (s.buffers buffer))
        messages := messages } := by
  have fits : ¬ 200 < 0 + (dataLength.toNat + 1) := by decide
  unfold writeByteToSerialPort callsOf
  by_cases isOpen : s.serialPort1.isOpen = true
  · rw [if_pos isOpen, if_pos isOpen]
    unfold attempt writePort
    simp only [isOpen, Bool.not_true, Bool.false_eq_true, if_false, fits]
    cases w.writeFails with
    | false => exact ⟨_, rfl⟩
    | true => exact ⟨_, rfl⟩
  · rw [if_neg isOpen, if_neg isOpen, List.append_nil]
    exact ⟨s.messages, rfl⟩

/-- The frame of the all-zero pattern. -/
def zeroFrame : List UInt8 :=
  dataLength :: zeroPattern

theorem zeroPattern_length : zeroPattern.length = 136 := by
  simp [zeroPattern]

theorem zeroDataArr_payload (s : Form) :
    payload ((zeroDataArr s).buffers .zeroData) = zeroPattern :=
  store_payload s .zeroData zeroPattern_length

theorem frameOf_setLength (s : Form) (buffer : Buffer) :
    frameOf ((s.setEntry buffer 0 dataLength).buffers buffer) =
      dataLength :: payload (s.buffers buffer) := by
  have first : ((s.buffers buffer).setIfInBounds 0 dataLength).head = dataLength := by
    simp [Vector.head]
  rw [setEntry_same, frameOf_eq, first]
  congr 1
  refine payload_ext (payload_length _) fun i inside => ?_
  rw [payload_entry _ inside, Vector.getElem?_setIfInBounds_ne (by omega)]

/-- With the zero pattern in place, the frame sent is the zero frame. -/
theorem sendZeroData_eq (w : World) {s : Form}
    (ready : payload (s.buffers .zeroData) = zeroPattern) :
    ∃ messages, sendZeroData w s =
      { s with
        buffers := (s.setEntry .zeroData 0 dataLength).buffers
        sent := s.sent ++ callsOf s .zeroData zeroFrame
        messages := messages } := by
  obtain ⟨messages, result⟩ := write_eq w .zeroData (s.setEntry .zeroData 0 dataLength)
  refine ⟨messages, ?_⟩
  rw [sendZeroData, result, frameOf_setLength, ready]
  rfl

/-! ### Ports -/

/-- What opening, closing and scanning may change. -/
def PortOnly (s t : Form) : Prop :=
  t =
    { s with
      serialPort1 := t.serialPort1, comboBox1 := t.comboBox1, button1Text := t.button1Text,
      isSerialPortOpen := t.isSerialPortOpen, messages := t.messages }

instance : Std.Refl PortOnly where
  refl _ := rfl

instance : IsTrans Form PortOnly where
  trans s t u first second := by
    unfold PortOnly at first second ⊢
    rw [first] at second
    exact second

theorem onPort_within (x : EStateM Exn SerialPort PUnit) : Within PortOnly (onPort x) := by
  intro s
  rw [onPort, exec_onField]
  rfl

/-- The same on the scan's state. -/
def ScanOnly (scan scan' : Scan) : Prop :=
  PortOnly scan.form scan'.form

instance : Std.Refl ScanOnly where
  refl scan := refl_of PortOnly scan.form

instance : IsTrans Scan ScanOnly where
  trans _ _ _ first second := trans_of PortOnly first second

theorem scanBody_within (w : World) (i : Nat) : Within ScanOnly (scanBody w i) := by
  have port (x : EStateM Exn SerialPort PUnit) :
      Within ScanOnly (onField Scan.form (fun scan form => { scan with form }) (onPort x)) := by
    intro scan
    rw [exec_onField]
    exact onPort_within x scan.form
  refine (port _).bind fun _ => (port _).bind fun _ => ?_
  refine (Within.modify fun scan => ?_).bind fun _ => (port _).bind fun _ => ?_
  · rfl
  · refine Within.bind (fun scan => refl_of ScanOnly scan) fun scan => ?_
    have last : Within ScanOnly
        (modify fun scan => { scan with cnt := scan.cnt + 1 } : EStateM Exn Scan PUnit) :=
      Within.modify fun scan => refl_of PortOnly scan.form
    have found : Within ScanOnly
        (modify fun scan => { scan with comAbleToUse := "COM" ++ toString i } :
          EStateM Exn Scan PUnit) :=
      Within.modify fun scan => refl_of PortOnly scan.form
    split
    · exact found.bind fun _ => last
    · exact (Within.throw _).bind fun _ => last

theorem search_portOnly (w : World) (s : Form) :
    PortOnly s (searchAndAddSerialToComboBox w s) := by
  have rounds := rel_foldl (R := ScanOnly)
    (fun scan i => (scanBody_within w i).attempt (fun scan => refl_of ScanOnly scan) scan)
    (List.range' 1 20)
    { form := { s with comboBox1 := { s.comboBox1 with items := [] } }, comAbleToUse := "",
      cnt := 0 }
  have cleared : PortOnly s { s with comboBox1 := { s.comboBox1 with items := [] } } := rfl
  refine trans_of PortOnly (trans_of PortOnly cleared rounds) ?_
  rfl

theorem button1Close_within (w : World) : Within PortOnly (button1Close w) :=
  (onPort_within _).bind fun _ => Within.modify fun _ => rfl

theorem button1Open_within (w : World) : Within PortOnly (button1Open w) := by
  refine Within.bind (fun s => refl_of PortOnly s) fun _ => ?_
  exact (onPort_within _).bind fun _ => (onPort_within _).bind fun _ =>
    Within.modify fun _ => rfl

theorem button1Click_portOnly (w : World) (s : Form) : PortOnly s (button1Click w s) := by
  have text (t : Form) : PortOnly t { t with button1Text := "打开串口" } := rfl
  have message (t : Form) (text caption : String) : PortOnly t (t.messageBox text caption) := rfl
  unfold button1Click
  split
  · split
    · exact trans_of PortOnly
        ((button1Close_within w).attempt (fun s => refl_of PortOnly s) s) (text _)
    · exact (button1Open_within w).attempt (fun t => message t _ _) s
  · exact message s _ _

/-! ### Handlers that send nothing -/

/-- The event is neither Stop, manual mode, Start, a tick nor the closing of the form. -/
def Event.silent : Event → Bool
  | .button6 | .button7 | .button8 | .tick | .closing => false
  | .button1 | .button2 | .button3 | .button4 | .button5 | .editComboBox1 _ | .editComboBox2 _
  | .editComboBox3 _ | .editComboBox4 _ | .editTextBox2 _ => true

/-- Nothing is sent, and the scan and its buffers are left alone. -/
structure Idle (s t : Form) : Prop where
  sent : t.sent = s.sent
  enabled : t.timer1.enabled = s.timer1.enabled
  flag : t.autoScanFlag = s.autoScanFlag
  auto : ∀ n, t.buffers (.autoReadByteData n) = s.buffers (.autoReadByteData n)
  closed : t.closed = s.closed

theorem PortOnly.idle {s t : Form} (only : PortOnly s t) : Idle s t := by
  unfold PortOnly at only
  constructor
  · rw [only]
  · rw [only]
  · rw [only]
  · intro n
    rw [only]
  · rw [only]

/-- Loading a buffer that is not the scan's. -/
theorem Loads.idle {D : Buffer → Prop} {s t : Form} (loads : Loads D s t)
    (manual : ∀ n, ¬ D (.autoReadByteData n)) : Idle s t :=
  ⟨loads.sent, loads.enabled, loads.flag, fun n => loads.others _ (manual n), loads.closed⟩

theorem button3Click_loads (w : World) (s : Form) :
    Loads (· = .readByteData) s (button3Click w s) := by
  have reading : Within (Loads (· = .readByteData)) (readByteFromDialog w .readByteData) := by
    unfold readByteFromDialog
    split
    · exact Within.pure _
    · exact readByteFromFile_loads (D := (· = .readByteData)) w rfl _
  have body : Within (Loads (· = .readByteData)) (button3Read w) :=
    reading.bind fun _ => Within.modify fun _ =>
      ⟨rfl, fun _ => rfl, fun _ _ => rfl, fun _ => rfl⟩
  exact body.attempt (fun s => loads_messageBox _ s _ _) s

/-- The write pattern is stored into its own array. -/
theorem dataWriteArr_rest (s : Form) :
    dataWriteArr s = { s with buffers := (dataWriteArr s).buffers } :=
  store_rest s .writeByteData 0 _

theorem dataWriteArr_other (s : Form) {b : Buffer} (other : b ≠ .writeByteData) :
    (dataWriteArr s).buffers b = s.buffers b :=
  store_other s .writeByteData 0 _ other

theorem button4Click_idle (w : World) (s : Form) : Idle s (button4Click w s) := by
  have rest := dataWriteArr_rest s
  have others (n : Fin 5) := dataWriteArr_other s (b := .autoReadByteData n) (by simp)
  have idle : Idle s (dataWriteArr s) := by
    generalize dataWriteArr s = t at rest others ⊢
    constructor
    · rw [rest]
    · rw [rest]
    · rw [rest]
    · exact others
    · rw [rest]
  unfold button4Click
  simp only
  generalize dataWriteArr s = t at idle ⊢
  split
  · exact idle
  · split
    · exact ⟨idle.sent, idle.enabled, idle.flag, idle.auto, idle.closed⟩
    · exact ⟨idle.sent, idle.enabled, idle.flag, idle.auto, idle.closed⟩

theorem button5Click_idle (s : Form) : Idle s (button5Click s) := by
  unfold button5Click
  split
  · exact ⟨rfl, rfl, rfl, fun _ => rfl, rfl⟩
  · exact ⟨rfl, rfl, rfl, fun _ => rfl, rfl⟩

theorem idle_of_silent (w : World) (s : Form) {e : Event} (silent : e.silent = true) :
    Idle s (handle w s e) := by
  cases e with
  | button1 =>
      rw [handle]
      exact (button1Click_portOnly w s).idle
  | button2 =>
      rw [handle, button2Click]
      exact (search_portOnly w s).idle
  | button3 =>
      rw [handle]
      exact (button3Click_loads w s).idle fun n => by simp
  | button4 =>
      rw [handle]
      exact button4Click_idle w s
  | button5 =>
      rw [handle]
      exact button5Click_idle s
  | editComboBox1 | editComboBox2 | editComboBox3 | editComboBox4 | editTextBox2 =>
      rw [handle]
      exact ⟨rfl, rfl, rfl, fun _ => rfl, rfl⟩
  | button6 | button7 | button8 | tick | closing => cases silent

end VoltCtrl.Host
