/-
Module: VoltCtrl.Host.Loading
Layer: Host
Purpose: What the two file loaders leave in the buffer they fill. A byte is stored as soon as it has been
  read, and nothing puts the old bytes back when the file ends early: a file of fewer than 136 bytes
  raises and stays in the buffer as far as it goes, over what was there before.
Trusted boundary: none
Main exports: Loader, Laid, AllOrNothing, LoadsPrefix, Laid.same_iff, allOrNothing_iff,
  loader_stores_prefix
-/
import VoltCtrl.Host.Ports

namespace VoltCtrl.Host

open VoltCtrl.Core

/-- The two loaders, on a path: `ReadByteFromFile` with the path as an argument, and with the path
chosen in the open dialog. -/
inductive Loader (w : World) (dst : Buffer) (path : String) : Program PUnit → Prop where
  | file : Loader w dst path (readByteFromFile w dst path)
  | dialog (chosen : w.openFileName = some path) : Loader w dst path (readByteFromDialog w dst)

/-- `after` is `before` with the bytes laid over the entries from 1 on. -/
def Laid (before after : Vector UInt8 200) (bytes : List UInt8) : Prop :=
  ∀ i < 200, after[i]? = if 1 ≤ i ∧ i ≤ bytes.length then bytes[i - 1]? else before[i]?

/-- Loading is all-or-nothing: a file of at least 136 bytes is loaded; any other raises and changes
nothing in the buffer. -/
def AllOrNothing (x : Program PUnit) (dst : Buffer) (file : Option (List UInt8)) (s : Form) : Prop :=
  (∀ bytes, file = some bytes → 136 ≤ bytes.length →
    returns x s = true ∧
      Laid (s.buffers dst) ((exec x s).buffers dst) (bytes.take 136)) ∧
  (file = none ∨ (∃ bytes, file = some bytes ∧ bytes.length < 136) →
    returns x s = false ∧ (exec x s).buffers dst = s.buffers dst)

/-- Loading stores what there is of a file: it returns exactly when there are 136 bytes, and whether it
returns or raises, the first 136 bytes of the file are laid over the buffer as far as they go. -/
structure LoadsPrefix (x : Program PUnit) (dst : Buffer) (file : Option (List UInt8)) (s : Form) :
    Prop where
  missing : file = none → returns x s = false ∧ (exec x s).buffers dst = s.buffers dst
  stored : ∀ bytes, file = some bytes →
    (returns x s = true ↔ 136 ≤ bytes.length) ∧
      Laid (s.buffers dst) ((exec x s).buffers dst) (bytes.take 136)
  others : ∀ b, b ≠ dst → (exec x s).buffers b = s.buffers b

/-! ### Bytes laid over a buffer -/

theorem laid_store (s : Form) (dst : Buffer) (values : List UInt8) :
    Laid (s.buffers dst) ((s.store dst 1 values).buffers dst) values := by
  intro i inside
  split
  · rename_i covered
    have place : 1 + (i - 1) = i := by omega
    have entry := store_entry s dst 1 values (i := i - 1) (by omega) (by omega)
    rwa [place] at entry
  · rename_i clear
    by_cases first : i < 1
    · exact store_before s dst 1 values first
    · exact store_after s dst 1 values (by omega)

/-- Laying bytes changes nothing exactly when they are there already. -/
theorem Laid.same_iff {before after : Vector UInt8 200} {bytes : List UInt8}
    (laid : Laid before after bytes) (fits : bytes.length ≤ 136) :
    after = before ↔ ∀ i < bytes.length, before[1 + i]? = bytes[i]? := by
  constructor
  · rintro rfl i inside
    have entry := laid (1 + i) (by omega)
    rwa [if_pos (by omega), Nat.add_sub_cancel_left] at entry
  · intro there
    apply Vector.ext
    intro i inside
    have entry := laid i inside
    have same : after[i]? = before[i]? := by
      rw [entry]
      split
      · have place : 1 + (i - 1) = i := by omega
        rw [← there (i - 1) (by omega), place]
      · rfl
    rwa [Vector.getElem?_eq_getElem inside, Vector.getElem?_eq_getElem inside,
      Option.some.injEq] at same

/-! ### The loaders -/

section Loaders

variable {w : World} {dst : Buffer} {path : String} {x : Program PUnit}

/-- Both loaders are the same program once a path is chosen. -/
theorem Loader.same (loader : Loader w dst path x) : x = readByteFromFile w dst path := by
  cases loader with
  | file => rfl
  | dialog chosen => simp only [readByteFromDialog, chosen]

theorem Loader.missing (loader : Loader w dst path x) (s : Form) (none : w.readFile path = none) :
    returns x s = false ∧ exec x s = s := by
  have result := readByteFromFile_eq w dst path s
  rw [none] at result
  rw [loader.same, exec_of_error result]
  simp only [returns, result, and_self]

theorem Loader.stored (loader : Loader w dst path x) (s : Form) {bytes : List UInt8}
    (file : w.readFile path = some bytes) :
    (returns x s = true ↔ 136 ≤ bytes.length) ∧ exec x s = s.store dst 1 (bytes.take 136) := by
  have result := readByteFromFile_eq w dst path s
  rw [file] at result
  rw [loader.same]
  by_cases long : 136 ≤ bytes.length
  · have ends := result.trans (if_pos long)
    rw [exec_of_ok ends]
    simp only [returns, ends, long, and_self]
  · have raises := result.trans (if_neg long)
    rw [exec_of_error raises, List.take_of_length_le (by omega)]
    simp only [returns, raises, long, Bool.false_eq_true, and_self]

/-- A loader is all-or-nothing exactly when a file that ends early has nothing new for the buffer. -/
theorem allOrNothing_iff (loader : Loader w dst path x) (s : Form) :
    AllOrNothing x dst (w.readFile path) s ↔
      ∀ bytes, w.readFile path = some bytes → bytes.length < 136 →
        ∀ i < bytes.length, (s.buffers dst)[1 + i]? = bytes[i]? := by
  -- a file that ends early is laid over the buffer whole
  have short (bytes : List UInt8) (file : w.readFile path = some bytes) (ends : bytes.length < 136) :
      returns x s = false ∧ Laid (s.buffers dst) ((exec x s).buffers dst) bytes := by
    have result := loader.stored s file
    rw [List.take_of_length_le (by omega)] at result
    rw [result.2]
    refine ⟨Bool.eq_false_iff.2 fun whole => ?_, laid_store s dst bytes⟩
    exact absurd (result.1.1 whole) (by omega)
  constructor
  · rintro ⟨_, nothing⟩ bytes file ends
    have same := (nothing (.inr ⟨bytes, file, ends⟩)).2
    exact ((short bytes file ends).2.same_iff (by omega)).1 same
  · intro there
    constructor
    · intro bytes file long
      have result := loader.stored s file
      rw [result.2]
      exact ⟨result.1.2 long, laid_store s dst _⟩
    · rintro (none | ⟨bytes, file, ends⟩)
      · have result := loader.missing s none
        exact ⟨result.1, by rw [result.2]⟩
      · have result := short bytes file ends
        exact ⟨result.1, (result.2.same_iff (by omega)).2 (there bytes file ends)⟩

/-- What both loaders do, for every buffer and every file: a file of at least 136 bytes is loaded, one
that cannot be opened changes nothing, and a shorter one raises and is stored as far as it goes. -/
theorem loader_stores_prefix (w : World) (dst : Buffer) (path : String) (x : Program PUnit)
    (loader : Loader w dst path x) (s : Form) : LoadsPrefix x dst (w.readFile path) s := by
  constructor
  · intro none
    have result := loader.missing s none
    exact ⟨result.1, by rw [result.2]⟩
  · intro bytes file
    have result := loader.stored s file
    rw [result.2]
    exact ⟨result.1, laid_store s dst _⟩
  · intro b other
    cases file : w.readFile path with
    | none => rw [(loader.missing s file).2]
    | some bytes =>
        rw [(loader.stored s file).2]
        exact store_other s dst 1 _ other

end Loaders

theorem dialog_stores_prefix :
    LoadsPrefix (readByteFromDialog { onePort with openFileName := some "a.dat" } .readByteData)
      .readByteData (some (List.replicate 136 1)) Form.initial :=
  loader_stores_prefix { onePort with openFileName := some "a.dat" } .readByteData "a.dat" _
    (.dialog rfl) Form.initial

/-! ### A file of one byte -/

/-- Every file holds one byte, and one is chosen in the open dialog. -/
def shortFiles : World :=
  { onePort with readFile := fun _ => some [7], openFileName := some "a.dat" }

/-- Both loaders raise and leave the byte in entry 1 of a buffer of zeros. -/
theorem short_file_stays :
    ¬ AllOrNothing (readByteFromFile shortFiles .readByteData "a.dat") .readByteData
        (shortFiles.readFile "a.dat") Form.initial ∧
      ¬ AllOrNothing (readByteFromDialog shortFiles .readByteData) .readByteData
        (shortFiles.readFile "a.dat") Form.initial := by
  have differs (x : Program PUnit) (loader : Loader shortFiles .readByteData "a.dat" x) :
      ¬ AllOrNothing x .readByteData (shortFiles.readFile "a.dat") Form.initial := by
    intro all
    have there := (allOrNothing_iff loader Form.initial).1 all [7] rfl (by decide) 0 (by decide)
    have zero : (Form.initial.buffers .readByteData)[1 + 0]? = some 0 := by simp [Form.initial]
    rw [zero] at there
    cases there
  exact ⟨differs _ .file, differs _ (.dialog rfl)⟩

end VoltCtrl.Host
