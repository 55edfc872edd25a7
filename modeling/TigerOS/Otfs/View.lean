import TigerOS.Otfs.Remount

/-! # What readers see

A reader opens a name on a descriptor table of its own, seeks and reads. What it
gets at any place depends on the size of the file, on the bytes of its chain and on
how far the chain reaches (`TigerOS.Otfs.viewed_eq`), so that handles that agree on
these look alike (`TigerOS.Otfs.viewed_congr`).
-/

namespace TigerOS.Otfs

open Foundation

/-- What a reader of a name gets at an offset: the recorded size, and the answer to
reading some bytes there. -/
def viewed (fs : FsHandle) (name : CString) (offset : UInt32) (len : ℕ) :
    Option (UInt32 × Except FsError (List UInt8)) :=
  match fsOpen { fs with openFiles := fun _ => OpenFile.zero } (some name) fsORead with
  | (.error _, _) => none
  | (.ok fd, fs) =>
      some ((fs.dirEntries (fs.openFiles fd).dirIndex).sizeBytes,
        (fsRead (fsSeek fs fd offset).2 fd true len).1)

/-- Readers see the same files in two handles: the same names, and of each the same
size and the same answers to all reads. -/
def SameView (fs fs' : FsHandle) : Prop :=
  ∀ name offset len, viewed fs' name offset len = viewed fs name offset len

/-- The answer to a read of a file: its bytes up to the recorded size, if its chain
reaches that far. -/
def readAnswer (fs : FsHandle) (chains : FileIndex → List BlockIndex) (i : FileIndex)
    (offset : UInt32) (len : ℕ) : Except FsError (List UInt8) :=
  let count := min len ((fs.dirEntries i).sizeBytes.toNat - offset.toNat)
  if count ≠ 0 ∧ fsBlockSize * (chains i).length < offset.toNat + count then .error .state
  else .ok (readRange (contentAt fs.imageFile (chains i)) offset.toNat count)

section Viewed

variable {fs fs' : FsHandle} {chains chains' : FileIndex → List BlockIndex}

/-- **Reading** from a sound handle answers the bytes, or fails where the chain ends. -/
theorem Sound.fsRead_answer {fd : ℤ} {slot : Descriptor} (sound : Sound fs chains)
    (named : Names fs fd slot) (reads : (fs.openFiles slot).flags &&& fsORead ≠ 0) (len : ℕ) :
    (fsRead fs fd true len).1 = readAnswer fs chains (fs.openFiles slot).dirIndex
      (fs.openFiles slot).offset len := by
  have chain := sound.chain _ (sound.opened slot named.2)
  rw [fsRead_loops sound.mounted named (fun missing => by cases missing.2) reads]
  unfold readAnswer
  change (readLoop slot (fs.openFiles slot).dirIndex (readable fs slot len) fs
    (readable fs slot len)).1 = if readable fs slot len ≠ 0 ∧ _ < _ + readable fs slot len then _
      else .ok (readRange _ _ (readable fs slot len))
  by_cases short : readable fs slot len ≠ 0 ∧
      fsBlockSize * (chains (fs.openFiles slot).dirIndex).length <
        (fs.openFiles slot).offset.toNat + readable fs slot len
  · rw [if_pos short]
    exact readLoop_short fs _ _ le_rfl short.1 sound.faultless sound.complete chain short.2
  · rw [if_neg short]
    obtain answered | ⟨_, incomplete⟩ := readLoop_eq fs (readable fs slot len)
      (readable fs slot len) le_rfl sound.faultless chain
      fun some => Nat.le_of_not_lt fun past => short ⟨some, past⟩
    · rw [answered]
    · exact absurd sound.complete incomplete

/-- **What a reader gets** of a sound handle. -/
theorem viewed_eq (sound : Sound fs chains) (name : CString) (offset : UInt32) (len : ℕ) :
    viewed fs name offset len = if validateName (some name.bytes) = .ok () then
      (findDirEntry fs name.bytes).map fun i =>
        ((fs.dirEntries i).sizeBytes, readAnswer fs chains i offset len)
      else none := by
  unfold viewed
  by_cases valid : validateName (some name.bytes) = .ok ()
  · rw [if_pos valid]
    cases found : findDirEntry fs name.bytes with
    | none =>
        obtain ⟨error, after, fails⟩ := sound.fsOpen_reader_none fun _ => found
        rw [fails]
        rfl
    | some i =>
        obtain ⟨used, opens⟩ := sound.fsOpen_reader valid found
        have opened : Sound (readerOf fs i) chains := sound.readerOf used
        have reads : ((sought (readerOf fs i) 0 offset).openFiles 0).flags &&& fsORead ≠ 0 := by
          rw [sought_openFiles_same]
          exact @reads_readerOf fs i
        have answer := (opened.sought named_readerOf.2 offset).fsRead_answer
          (named_readerOf.sought offset) reads len
        rw [sought_openFiles_same, readerOf_slot] at answer
        have seeks : fsSeek (readerOf fs i) ((0 : Descriptor) : ℤ) offset =
            (.ok (), sought (readerOf fs i) 0 offset) := fsSeek_eq opened.mounted named_readerOf
        simp only [opens, readerOf_slot, Option.map_some]
        rw [seeks]
        exact congrArg (fun out => some ((fs.dirEntries i).sizeBytes, out)) answer
  · obtain ⟨error, after, fails⟩ := sound.fsOpen_reader_none fun valid' => absurd valid' valid
    rw [if_neg valid, fails]

/-- A change that keeps the names and what is in use keeps what is found. -/
theorem findDirEntry_congr (used : ∀ i, (fs'.dirEntries i).used = (fs.dirEntries i).used)
    (names : ∀ i, (fs'.dirEntries i).name = (fs.dirEntries i).name) (name : List UInt8) :
    findDirEntry fs' name = findDirEntry fs name := by
  unfold findDirEntry
  simp only [used, names]

/-- Handles with the same names, whose files have the same sizes and chains of the same
bytes and length, look alike. -/
theorem viewed_congr (sound : Sound fs chains) (sound' : Sound fs' chains')
    (find : ∀ name, findDirEntry fs' name = findDirEntry fs name)
    (size : ∀ i, Used fs i → (fs'.dirEntries i).sizeBytes = (fs.dirEntries i).sizeBytes)
    (length : ∀ i, Used fs i → (chains' i).length = (chains i).length)
    (content : ∀ i, Used fs i →
      contentAt fs'.imageFile (chains' i) = contentAt fs.imageFile (chains i)) :
    SameView fs fs' := by
  intro name offset len
  rw [viewed_eq sound, viewed_eq sound', find]
  by_cases valid : validateName (some name.bytes) = .ok ()
  · rw [if_pos valid, if_pos valid]
    cases found : findDirEntry fs name.bytes with
    | none => rfl
    | some i =>
        have used := ((findDirEntry_eq_some sound.distinct name.noNul
          (validateName_eq_ok.mp valid).1.2).mp found).1
        simp only [Option.map_some, readAnswer, size i used, length i used, content i used]
  · rw [if_neg valid, if_neg valid]

end Viewed

end TigerOS.Otfs
