import TigerOS.Otfs.Remount

/-! # The file system as a map of byte strings

`TigerOS.Otfs.FileMap` says what the file system is for: names are bound to byte
strings, descriptors to a name, an offset and flags. Reading takes a range of a
byte string, writing overwrites one, a gap before the written range being filled
with zeros. Calls on a mounted handle answer as the map does, as long as no call
runs out of space (`TigerOS.Otfs.fileMap_refined`).
-/

namespace TigerOS.Otfs

open Foundation

/-! ## The abstract file system -/

/-- What a descriptor is open on. -/
structure OpenName where
  name : List UInt8
  offset : UInt32
  flags : UInt32

/-- Files by name, and the table of descriptors. -/
structure FileMap where
  files : List UInt8 → Option (List UInt8)
  table : Descriptor → Option OpenName

namespace FileMap

/-- No files, nothing open. -/
def empty : FileMap := ⟨fun _ => none, fun _ => none⟩

variable (m : FileMap)

def setFile (name content : List UInt8) : FileMap :=
  { m with files := Function.update m.files name (some content) }

def setSlot (slot : Descriptor) (file : Option OpenName) : FileMap :=
  { m with table := Function.update m.table slot file }

/-- The first descriptor not in use. -/
def freeSlot : Option Descriptor :=
  (List.finRange fsMaxOpenFiles).find? fun fd => (m.table fd).isNone

/-- The content bound to a name. -/
def content (name : List UInt8) : List UInt8 := (m.files name).getD []

/-- The refusal of a call. -/
def refusal (op : FsOp) : Option FsError :=
  Otfs.refusal (fun name => (m.files name).isSome) (fun fd => (m.table fd).map OpenName.flags) op

/-- A call on a descriptor in use. -/
def onSlot (fd : ℤ) (act : Descriptor → OpenName → Except FsError FsValue × FileMap) :
    Except FsError FsValue × FileMap :=
  match slotOf? fd with
  | none => (.error .arg, m)
  | some slot =>
      match m.table slot with
      | none => (.error .state, m)
      | some file => act slot file

/-- A call that is not refused. -/
def act : FsOp → Except FsError FsValue × FileMap
  | .open none _ => (.error .arg, m)
  | .open (some name) flags =>
      match m.freeSlot with
      | none => (.error .noSpace, m)
      | some fd =>
          let content := if flags &&& fsOTrunc ≠ 0 then [] else m.content name.bytes
          (.ok (.descriptor fd),
            (m.setFile name.bytes content).setSlot fd (some ⟨name.bytes, 0, flags⟩))
  | .close fd => m.onSlot fd fun slot _ => (.ok .done, m.setSlot slot none)
  | .seek fd offset => m.onSlot fd fun slot file =>
      (.ok .done, m.setSlot slot (some { file with offset := offset }))
  | .read fd _ len => m.onSlot fd fun slot file =>
      let data := ((m.content file.name).drop file.offset.toNat).take len
      (.ok (.bytes data), m.setSlot slot
        (some { file with offset := file.offset + UInt32.ofNat data.length }))
  | .write fd buf => m.onSlot fd fun slot file =>
      let content := overwrite 0 (m.content file.name) file.offset.toNat buf.data
      (.ok (.written buf.data.length), (m.setFile file.name content).setSlot slot
        (some { file with offset := file.offset + UInt32.ofNat buf.data.length }))

end FileMap

/-- The abstract file system as a machine. -/
def fileMap : Machine FileMap FsOp (Except FsError FsValue) where
  step m op :=
    match m.refusal op with
    | some e => (.error e, m)
    | none => m.act op

/-! ## Representation -/

/-- The bytes of the blocks past the recorded size are zero. -/
def ZeroTail (fs : FsHandle) (chains : FileIndex → List BlockIndex) : Prop :=
  ∀ i, Used fs i → ∀ p, (fs.dirEntries i).sizeBytes.toNat ≤ p →
    contentAt fs.imageFile (chains i) p = 0

/-- What a slot is open on, by name. -/
def openName (fs : FsHandle) (slot : Descriptor) : Option OpenName :=
  if (fs.openFiles slot).inUse then
    some ⟨(fs.dirEntries (fs.openFiles slot).dirIndex).nameString, (fs.openFiles slot).offset,
      (fs.openFiles slot).flags⟩
  else none

/-- A handle represents the map of its files and its open slots. -/
structure Represents (fs : FsHandle) (chains : FileIndex → List BlockIndex) (m : FileMap) :
    Prop where
  backed : AllBacked fs chains
  zeroTail : ZeroTail fs chains
  files : ∀ i, Used fs i → m.files (fs.dirEntries i).nameString = some (fileBytes fs chains i)
  only : ∀ name content, m.files name = some content →
    ∃ i, Used fs i ∧ (fs.dirEntries i).nameString = name
  table : ∀ slot, m.table slot = openName fs slot

section Bytes

variable {fs : FsHandle} {chains : FileIndex → List BlockIndex} {i : FileIndex}

@[simp] theorem length_fileBytes :
    (fileBytes fs chains i).length = (fs.dirEntries i).sizeBytes.toNat := length_readRange

/-- Past the recorded size a file reads as zeros, like its blocks. -/
theorem getD_fileBytes (zero : ∀ p, (fs.dirEntries i).sizeBytes.toNat ≤ p →
    contentAt fs.imageFile (chains i) p = 0) :
    (fun p => (fileBytes fs chains i).getD p 0) = contentAt fs.imageFile (chains i) := by
  funext p
  by_cases inside : p < (fs.dirEntries i).sizeBytes.toNat
  · rw [fileBytes, getD_readRange inside, Nat.zero_add]
  · rw [List.getD_eq_default _ _ (by rw [length_fileBytes]; omega), zero p (by omega)]

/-- A range of the bytes of a file is a range of the bytes of its blocks. -/
theorem take_drop_fileBytes (offset len : ℕ) :
    ((fileBytes fs chains i).drop offset).take len =
      readRange (contentAt fs.imageFile (chains i)) offset
        (min len ((fs.dirEntries i).sizeBytes.toNat - offset)) := by
  apply List.ext_getElem
  · rw [List.length_take, List.length_drop, length_fileBytes, length_readRange]
  · intro k _ _
    simp only [fileBytes, List.getElem_take, List.getElem_drop, getElem_readRange, Nat.zero_add]

/-- Byte strings of one length that agree as filled stores are equal. -/
theorem eq_of_getD {first second : List UInt8} (length : first.length = second.length)
    (same : (fun p => first.getD p 0) = fun p => second.getD p 0) : first = second := by
  apply List.ext_getElem length
  intro p insideFirst insideSecond
  have here := congrFun same p
  simpa [List.getD_eq_getElem, insideFirst, insideSecond] using here

end Bytes

/-! ## Each effect on the map -/

section Effects

variable {fs mid : FsHandle} {chains chains' : FileIndex → List BlockIndex} {m : FileMap}
  {slot : Descriptor} {i : FileIndex}

/-- Slots and their names change together. -/
theorem openName_setOpenFile (file : OpenFile) (other : Descriptor) :
    openName (fs.setOpenFile slot file) other =
      Function.update (openName fs) slot (if file.inUse then
        some ⟨(fs.dirEntries file.dirIndex).nameString, file.offset, file.flags⟩ else none)
        other := by
  by_cases same : other = slot
  · subst same
    simp only [openName, FsHandle.setOpenFile, Function.update_self]
  · simp only [openName, FsHandle.setOpenFile, Function.update_of_ne same]

/-- Slots keep their names where the entries in use keep theirs. -/
theorem openName_congr (sound : Sound fs chains) (files : mid.openFiles = fs.openFiles)
    (names : ∀ j, Used fs j →
      (mid.dirEntries j).nameString = (fs.dirEntries j).nameString) (other : Descriptor) :
    openName mid other = openName fs other := by
  rw [openName, openName, files]
  by_cases inUse : (fs.openFiles other).inUse = true
  · rw [if_pos inUse, if_pos inUse, names _ (sound.opened other inUse)]
  · rw [if_neg inUse, if_neg inUse]

/-- Changing one slot. -/
theorem Represents.setOpenFile (represents : Represents fs chains m) {file : OpenFile}
    {named : Option OpenName} (same : named = if file.inUse then
      some ⟨(fs.dirEntries file.dirIndex).nameString, file.offset, file.flags⟩ else none) :
    Represents (fs.setOpenFile slot file) chains (m.setSlot slot named) where
  backed := represents.backed
  zeroTail := represents.zeroTail
  files := represents.files
  only := represents.only
  table := by
    intro other
    rw [openName_setOpenFile, FileMap.setSlot, same]
    have tables : m.table = openName fs := funext represents.table
    rw [tables]

/-- **Changing one file.** The entry of a used file and its blocks change, all
other entries and their bytes stay; the map rebinds its name. -/
theorem Represents.setFile (represents : Represents fs chains m)
    (distinct : ∀ j k, Used mid j → Used mid k →
      (mid.dirEntries j).nameString = (mid.dirEntries k).nameString → j = k)
    {name content : List UInt8} (used : Used mid i) (named : (mid.dirEntries i).nameString = name)
    (before : Used fs i → (fs.dirEntries i).nameString = name)
    (bytes : fileBytes mid chains' i = content)
    (backed : Backed mid chains' i)
    (zero : ∀ p, (mid.dirEntries i).sizeBytes.toNat ≤ p →
      contentAt mid.imageFile (chains' i) p = 0)
    (others : ∀ j, j ≠ i → mid.dirEntries j = fs.dirEntries j ∧ chains' j = chains j ∧
      (Used fs j → contentAt mid.imageFile (chains j) = contentAt fs.imageFile (chains j)))
    (table : ∀ other, openName mid other = openName fs other) :
    Represents mid chains' (m.setFile name content) where
  backed := by
    intro j used'
    by_cases same : j = i
    · exact same ▸ backed
    · obtain ⟨dir, blocks, _⟩ := others j same
      rw [Used, dir] at used'
      rw [Backed, dir, blocks]
      exact represents.backed j used'
  zeroTail := by
    intro j used' p past
    by_cases same : j = i
    · subst same
      exact zero p past
    · obtain ⟨dir, blocks, kept⟩ := others j same
      rw [Used, dir] at used'
      rw [dir] at past
      rw [blocks, kept used']
      exact represents.zeroTail j used' p past
  files := by
    intro j used'
    by_cases same : j = i
    · subst same
      simp only [FileMap.setFile, named, Function.update_self, bytes]
    · obtain ⟨dir, blocks, kept⟩ := others j same
      have apart : (mid.dirEntries j).nameString ≠ name := fun equal =>
        same (distinct j i used' used (equal.trans named.symm))
      simp only [FileMap.setFile, Function.update_of_ne apart]
      rw [Used, dir] at used'
      rw [dir, represents.files j used', fileBytes, fileBytes, dir, blocks, kept used']
  only := by
    intro other bound held
    by_cases same : other = name
    · exact ⟨i, used, named.trans same.symm⟩
    · simp only [FileMap.setFile, Function.update_of_ne same] at held
      obtain ⟨j, used', named'⟩ := represents.only other bound held
      by_cases here : j = i
      · subst here
        exact absurd (named'.symm.trans (before used')) same
      · obtain ⟨dir, _, _⟩ := others j here
        exact ⟨j, by rwa [Used, dir], by rwa [dir]⟩
  table := by
    intro other
    rw [table]
    exact represents.table other

/-- Coming to an entry binds its name: to what it was bound to, or to the empty
string. -/
theorem Entered.represents {name : CString} {flags : UInt32}
    (entered : Entered fs chains name.bytes flags i mid chains') (sound : Sound fs chains)
    (valid : validateName (some name.bytes) = .ok ()) (represents : Represents fs chains m) :
    Represents mid chains' (m.setFile name.bytes
      (if flags &&& fsOTrunc ≠ 0 then [] else m.content name.bytes)) ∧
      (mid.dirEntries i).nameString = name.bytes ∧ mid.openFiles = fs.openFiles := by
  have short := (validateName_eq_ok.mp valid).1.2
  have kept := (entered.sound valid sound).1
  cases entered with
  | found found keeps =>
      obtain ⟨used, named⟩ := (findDirEntry_eq_some sound.distinct name.noNul short).mp found
      have bound := represents.files i used
      rw [named] at bound
      have same : m.setFile name.bytes (if flags &&& fsOTrunc ≠ 0 then []
          else m.content name.bytes) = m := by
        rw [if_neg (not_not.mpr keeps), FileMap.content, bound, Option.getD_some, FileMap.setFile,
          ← bound, Function.update_eq_self]
      rw [same]
      exact ⟨represents, named, rfl⟩
  | emptied found empties =>
      obtain ⟨used, named⟩ := (findDirEntry_eq_some sound.distinct name.noNul short).mp found
      have here : (synced (truncated fs i (chains i))).dirEntries i =
          { fs.dirEntries i with firstBlock := fatEnd, sizeBytes := 0 } :=
        Function.update_self ..
      have nameString : ((synced (truncated fs i (chains i))).dirEntries i).nameString =
          name.bytes := by
        rw [here]
        exact named
      refine ⟨?_, nameString, rfl⟩
      have other {j : FileIndex} (apart : j ≠ i) :
          (synced (truncated fs i (chains i))).dirEntries j = fs.dirEntries j :=
        Function.update_of_ne apart ..
      rw [if_pos empties]
      refine represents.setFile kept.distinct ?_ nameString (fun _ => named) ?_ ?_ ?_ ?_
        (openName_congr sound rfl ?_)
      · rw [Used, here]
        exact used
      · rw [fileBytes, here]
        rfl
      · rw [Backed, here]
        exact Nat.zero_le _
      · intro p _
        rw [Function.update_self]
        exact contentAt_past (Nat.zero_le _)
      · intro j apart
        exact ⟨other apart, Function.update_of_ne apart .., fun _ => synced_contentAt _⟩
      · intro j _
        by_cases same : j = i
        · subst same
          rw [here]
          rfl
        · rw [other same]
  | made missing unused =>
      have here : (synced (created fs i name.bytes)).dirEntries i = newEntry name.bytes :=
        Function.update_self ..
      have nameString : ((synced (created fs i name.bytes)).dirEntries i).nameString =
          name.bytes := by
        rw [here, nameString_newEntry name.noNul short]
      have other {j : FileIndex} (apart : j ≠ i) :
          (synced (created fs i name.bytes)).dirEntries j = fs.dirEntries j :=
        Function.update_of_ne apart ..
      have unbound : m.files name.bytes = none := by
        cases bound : m.files name.bytes with
        | none => rfl
        | some content =>
            obtain ⟨j, used, named⟩ := represents.only name.bytes content bound
            have found := (findDirEntry_eq_some sound.distinct name.noNul short).mpr ⟨used, named⟩
            rw [missing] at found
            cases found
      refine ⟨?_, nameString, rfl⟩
      have nothing : (if flags &&& fsOTrunc ≠ 0 then [] else m.content name.bytes) = [] := by
        rw [FileMap.content, unbound, Option.getD_none, ite_self]
      rw [nothing]
      refine represents.setFile kept.distinct ?_ nameString (fun used => absurd used unused)
        ?_ ?_ ?_ ?_ (openName_congr sound rfl ?_)
      · rw [Used, here]
        exact (by decide : (1 : UInt8) ≠ 0)
      · rw [fileBytes, here]
        rfl
      · rw [Backed, here]
        exact Nat.zero_le _
      · intro p _
        rw [sound.unused i unused]
        exact contentAt_past (Nat.zero_le _)
      · intro j apart
        exact ⟨other apart, rfl, fun _ => synced_contentAt _⟩
      · intro j used
        rw [other fun same => unused (same ▸ used)]

/-- The bytes of other files are apart from what is stored. -/
theorem Stored.contentAt_other {added : List BlockIndex} {data : List UInt8}
    (stored : Stored fs chains slot mid added data) (sound : Sound fs chains) {j : FileIndex}
    (apart : j ≠ (fs.openFiles slot).dirIndex) (used : Used fs j) :
    contentAt mid.imageFile (chains j) = contentAt fs.imageFile (chains j) := by
  refine contentAt_congr fun b member k inside => stored.extended.apart b ?_ k inside
  rw [List.mem_append, not_or]
  refine ⟨sound.apart j _ apart member, fun fresh => ?_⟩
  exact FatChain.cell_ne_free (sound.chain j used) member (stored.extended.added_free fresh)

/-- Storing bytes and recording the size overwrites the file of the slot. -/
theorem Stored.represents {added : List BlockIndex} {data : List UInt8}
    (stored : Stored fs chains slot mid added data) (sound : Sound fs chains)
    (inUse : (fs.openFiles slot).inUse = true) (nonempty : data ≠ [])
    (represents : Represents fs chains m) {file : OpenName} (bound : m.table slot = some file) :
    Represents (Otfs.synced (grown mid slot (fs.openFiles slot).dirIndex))
      (lengthened fs chains slot added)
      ((m.setFile file.name (overwrite 0 (m.content file.name) file.offset.toNat data)).setSlot
        slot (some { file with offset := file.offset + UInt32.ofNat data.length })) := by
  set i := (fs.openFiles slot).dirIndex with iEq
  have used := sound.opened slot inUse
  rw [represents.table, openName, if_pos inUse] at bound
  have fileEq := (Option.some.inj bound).symm
  subst fileEq
  have held : m.content (fs.dirEntries i).nameString = fileBytes fs chains i := by
    rw [FileMap.content, represents.files i used, Option.getD_some]
  simp only [held, ← iEq]
  set after := Otfs.synced (grown mid slot i) with afterEq
  have soundAfter : Sound after (lengthened fs chains slot added) :=
    ((stored.sound sound inUse).grown slot i).synced
  have files : after.openFiles = Function.update fs.openFiles slot { fs.openFiles slot with
      offset := (fs.openFiles slot).offset + UInt32.ofNat data.length } := by
    rw [afterEq, synced_openFiles, grown_openFiles, stored.moved, FsHandle.advance_openFiles]
  let rest : FsHandle := { after with openFiles := fs.openFiles }
  have split : after = rest.setOpenFile slot { fs.openFiles slot with
      offset := (fs.openFiles slot).offset + UInt32.ofNat data.length } := by
    simp only [rest, FsHandle.setOpenFile, ← files]
  have blocks : lengthened fs chains slot added i = chains i ++ added := Function.update_self ..
  have size : (after.dirEntries i).sizeBytes.toNat = max (fs.dirEntries i).sizeBytes.toNat
      ((fs.openFiles slot).offset.toNat + data.length) := by
    rw [afterEq, synced_dirEntries, toNat_size_grown, stored.extended.sizeBytes, stored.offset]
  have content : contentAt after.imageFile (chains i ++ added) =
      writeRange (contentAt fs.imageFile (chains i)) (fs.openFiles slot).offset.toNat data := by
    rw [afterEq, synced_contentAt, grown_imageFile, stored.extended.content]
  have nameString (j : FileIndex) :
      (after.dirEntries j).nameString = (fs.dirEntries j).nameString := by
    rw [DirEntry.nameString, DirEntry.nameString, afterEq, synced_dirEntries, grown_name,
      stored.extended.name]
  have zero (p : ℕ) (past : (after.dirEntries i).sizeBytes.toNat ≤ p) :
      contentAt after.imageFile (lengthened fs chains slot added i) p = 0 := by
    rw [size] at past
    rw [blocks, content, writeRange_outside (.inr (by omega)),
      represents.zeroTail i used p (by omega)]
  rw [split]
  have table := @openName_congr _ rest _ sound rfl fun j _ => nameString j
  refine Represents.setOpenFile (@Represents.setFile _ rest _ _ _ i represents soundAfter.distinct
    _ _ ?_ (nameString i) (fun _ => rfl) ?_ ?_ zero ?_ table) ?_
  · change (after.dirEntries i).used ≠ 0
    rw [afterEq, synced_dirEntries, grown_used, stored.extended.used]
    exact used
  · change fileBytes after (lengthened fs chains slot added) i = _
    apply eq_of_getD
    · rw [length_fileBytes, length_overwrite, length_fileBytes, size]
    · rw [getD_fileBytes zero, getD_overwrite, getD_fileBytes (represents.zeroTail i used), blocks,
        content]
  · change (after.dirEntries i).sizeBytes.toNat ≤ _
    have before := represents.backed i used
    have reach := stored.reach nonempty
    rw [Backed] at before
    rw [blocks, size]
    rw [← iEq, List.length_append, Nat.mul_add] at reach
    rw [List.length_append, Nat.mul_add]
    omega
  · intro j apart
    refine ⟨?_, Function.update_of_ne apart .., fun used' => ?_⟩
    · change after.dirEntries j = fs.dirEntries j
      rw [afterEq, synced_dirEntries, grown_other _ _ apart, stored.extended.others j apart]
    · change contentAt after.imageFile (chains j) = _
      rw [afterEq, synced_contentAt, grown_imageFile, stored.contentAt_other sound apart used']
  · rw [if_pos inUse]
    exact congrArg (fun name => some (OpenName.mk name _ _)) (nameString i).symm

end Effects

/-! ## The simulation -/

section Simulation

variable {fs mid : FsHandle} {chains chains' : FileIndex → List BlockIndex} {m : FileMap}
  {op : FsOp}

/-- The handle and the map refuse the same calls. -/
theorem Represents.refusal_eq (represents : Represents fs chains m) (sound : Sound fs chains)
    (op : FsOp) : refusal (known fs) (flagsOf fs) op = m.refusal op := by
  have flags : flagsOf fs = fun fd => (m.table fd).map OpenName.flags := by
    funext fd
    rw [represents.table, flagsOf, openName]
    split <;> rfl
  have names (name : CString) (valid : validateName (some name.bytes) = .ok ()) :
      known fs name.bytes = (m.files name.bytes).isSome := by
    have short := (validateName_eq_ok.mp valid).1.2
    rw [known]
    cases found : findDirEntry fs name.bytes with
    | some i =>
        obtain ⟨used, named⟩ := (findDirEntry_eq_some sound.distinct name.noNul short).mp found
        rw [← named, represents.files i used]
        rfl
    | none =>
        cases bound : m.files name.bytes with
        | none => rfl
        | some content =>
            obtain ⟨i, used, named⟩ := represents.only name.bytes content bound
            rw [(findDirEntry_eq_some sound.distinct name.noNul short).mpr ⟨used, named⟩] at found
            cases found
  rw [FileMap.refusal, flags]
  cases op with
  | «open» name flags =>
      cases name with
      | none => rfl
      | some name =>
          by_cases valid : validateName (some name.bytes) = .ok ()
          · simp only [refusal, names name valid]
          · simp only [refusal, valid, ne_eq, not_false_eq_true, true_or, ↓reduceIte]
  | _ => rfl

/-- The map finds the free slot the handle finds. -/
theorem Represents.freeSlot_eq (represents : Represents fs chains m) :
    m.freeSlot = allocFd fs := by
  rw [FileMap.freeSlot, allocFd]
  congr 1
  funext fd
  rw [represents.table, openName]
  cases (fs.openFiles fd).inUse <;> rfl

/-- A call on a slot in use acts on what the slot is open on. -/
theorem Represents.onSlot_eq (represents : Represents fs chains m) {fd : ℤ} {slot : Descriptor}
    (named : Names fs fd slot) (act : Descriptor → OpenName → Except FsError FsValue × FileMap) :
    m.onSlot fd act = act slot
      ⟨(fs.dirEntries (fs.openFiles slot).dirIndex).nameString, (fs.openFiles slot).offset,
        (fs.openFiles slot).flags⟩ := by
  rw [FileMap.onSlot, named.1]
  simp only [represents.table, openName, named.2, ↓reduceIte]

/-- **One call.** A call that is not refused and does not run out of space
answers as the map does, and the handle it leaves represents the map it leaves. -/
theorem Effect.simulates {answer : Except FsError FsValue}
    (effect : Effect fs chains op answer mid chains') (sound : Sound fs chains)
    (represents : Represents fs chains m)
    (admitted : refusal (known fs) (flagsOf fs) op = none) (nonempty : NonEmptyWrite op)
    (spaced : answer ≠ .error .noSpace) :
    answer = (m.act op).1 ∧ Represents mid chains' (m.act op).2 := by
  cases effect with
  | refused refused =>
      rw [admitted] at refused
      cases refused
  | opened valid entered free =>
      obtain ⟨kept, named, files⟩ := entered.represents sound valid represents
      simp only [FileMap.act, represents.freeSlot_eq, free]
      refine ⟨trivial, kept.setOpenFile ?_⟩
      rw [if_pos rfl, named]
  | noSlot => exact absurd rfl spaced
  | noEntry => exact absurd rfl spaced
  | closed named =>
      rw [FileMap.act, represents.onSlot_eq named]
      exact ⟨rfl, represents.setOpenFile rfl⟩
  | sought named =>
      rw [FileMap.act, represents.onSlot_eq named]
      refine ⟨rfl, represents.setOpenFile ?_⟩
      rw [if_pos named.2]
  | @read fd hasBuf len slot moved answer named exact =>
      have used := sound.opened slot named.2
      obtain ⟨rfl, rfl⟩ := exact (represents.backed _ used)
      rw [FileMap.act, represents.onSlot_eq named]
      simp only [FileMap.content, represents.files _ used, Option.getD_some]
      rw [take_drop_fileBytes, length_readRange]
      refine ⟨rfl, represents.setOpenFile ?_⟩
      rw [if_pos named.2]
      rfl
  | @wrote fd buf slot mid added named buffer writes stored sized =>
      rw [FileMap.act, represents.onSlot_eq named]
      refine ⟨rfl, ?_⟩
      have filled : buf.data ≠ [] := by
        intro nothing
        have length := SourceBuffer.length_data buffer
        rw [nothing, List.length_nil] at length
        change 1 ≤ buf.len at nonempty
        omega
      refine @Stored.represents _ _ _ _ _ _ _ stored sound named.2 filled represents ⟨_, _, _⟩ ?_
      rw [represents.table, openName, if_pos named.2]
  | filled => exact absurd rfl spaced

/-- Runs of the file system are simulated by runs of the map, as long as writes
have at least one byte and no call runs out of space. -/
def fileMapSimulation : otfs.Simulation fileMap (fun fs op => Spaced fs op ∧ NonEmptyWrite op) where
  related fs m := ∃ chains, Sound fs chains ∧ Represents fs chains m
  step := by
    rintro fs m op ⟨chains, sound, represents⟩ ⟨spaced, nonempty⟩
    simp only [otfs, fileMap]
    rw [← represents.refusal_eq sound]
    cases refuses : refusal (known fs) (flagsOf fs) op with
    | some e =>
        rw [fsStep_refused sound.mounted refuses]
        exact ⟨rfl, chains, sound, represents⟩
    | none =>
        obtain ⟨chains', effect⟩ := fsStep_effect sound op
        obtain ⟨answer, kept⟩ := effect.simulates sound represents refuses nonempty spaced
        exact ⟨answer, chains', effect.sound sound, kept⟩

/-- A call that fails otherwise than by running out of space changes nothing. -/
theorem Effect.unchanged {e : FsError} (effect : Effect fs chains op (.error e) mid chains')
    (sound : Sound fs chains) (backed : AllBacked fs chains) (other : e ≠ .noSpace) : mid = fs := by
  cases effect with
  | refused _ => rfl
  | noSlot => exact absurd rfl other
  | noEntry => rfl
  | read named exact =>
      obtain ⟨_, answered⟩ := exact (backed _ (sound.opened _ named.2))
      cases answered
  | filled => exact absurd rfl other

end Simulation

/-- The handle shows the files and the open slots of a map: every file is bound,
with its recorded size as length and its bytes as a reader gets them, and
nothing else is. -/
structure Shows (fs : FsHandle) (m : FileMap) : Prop where
  size : ∀ i, Used fs i → ∃ content, m.files (fs.dirEntries i).nameString = some content ∧
    (fs.dirEntries i).sizeBytes.toNat = content.length
  only : ∀ name content, m.files name = some content →
    ∃ i, Used fs i ∧ (fs.dirEntries i).nameString = name
  content : ∀ (name : CString) (content : List UInt8), m.files name.bytes = some content →
    shown fs name = some (UInt32.ofNat content.length, .ok content)
  table : ∀ slot, m.table slot = openName fs slot

theorem Represents.shows {fs : FsHandle} {chains : FileIndex → List BlockIndex} {m : FileMap}
    (represents : Represents fs chains m) (sound : Sound fs chains) : Shows fs m where
  size := fun i used => ⟨_, represents.files i used, length_fileBytes.symm⟩
  only := represents.only
  content := by
    intro name content bound
    obtain ⟨i, used, named⟩ := represents.only _ _ bound
    have valid : validateName (some name.bytes) = .ok () := named ▸ (sound.named i used).2
    have small := (validateName_eq_ok.mp valid).1.2
    have found := (findDirEntry_eq_some sound.distinct name.noNul small).mpr ⟨used, named⟩
    have bytes := represents.files i used
    rw [named, bound] at bytes
    rw [shown_eq sound represents.backed, if_pos valid, found, Option.some.inj bytes,
      length_fileBytes, UInt32.ofNat_toNat]
    rfl
  table := represents.table

/-- **The file system refines the map of byte strings.** In every run from a
freshly formatted image that writes at least one byte at a time and never runs
out of space, all calls answer as the map does, the handle shows the map, and a
call that fails changes nothing. -/
theorem fileMap_refined {file : ImageFile} {fs : FsHandle} (formatted : fsFormatImage [] = .ok file)
    (mounted : fsMount file = .ok fs) {ops : List FsOp} (nonempty : ∀ op ∈ ops, NonEmptyWrite op)
    (spaced : otfs.Along Spaced fs ops) :
    otfs.results fs ops = fileMap.results FileMap.empty ops ∧
      Shows (otfs.state fs ops) (fileMap.state FileMap.empty ops) ∧
      ∀ op e, (fsStep (otfs.state fs ops) op).1 = .error e → e ≠ .noSpace →
        (fsStep (otfs.state fs ops) op).2 = otfs.state fs ops := by
  rw [eq_freshHandle formatted mounted] at spaced ⊢
  have blank := blank_freshHandle
  have fresh : Represents freshHandle (fun _ => []) FileMap.empty := by
    refine ⟨?_, ?_, ?_, ?_, ?_⟩
    · exact fun i used => absurd used (blank.unused i)
    · exact fun i used => absurd used (blank.unused i)
    · exact fun i used => absurd used (blank.unused i)
    · intro name content bound
      cases bound
    · intro slot
      rw [openName, blank.closed slot]
      rfl
  have admitted := spaced.and (@Machine.along_of_forall _ _ _ otfs (fun _ op => NonEmptyWrite op) _
    (fun _ op member => nonempty op member) freshHandle)
  obtain ⟨answers, chains, sound, represents⟩ :=
    fileMapSimulation.run ⟨_, blank.sound, fresh⟩ admitted
  refine ⟨answers, represents.shows sound, ?_⟩
  intro op e failed other
  obtain ⟨chains', effect⟩ := fsStep_effect sound op
  rw [failed] at effect
  exact effect.unchanged sound represents.backed other

theorem fileMap_refined_after_gap :
    otfs.results freshHandle (gapRun ++ readBack) =
        fileMap.results FileMap.empty (gapRun ++ readBack) ∧
      Shows (otfs.state freshHandle (gapRun ++ readBack))
        (fileMap.state FileMap.empty (gapRun ++ readBack)) ∧
      ∀ op e, (fsStep (otfs.state freshHandle (gapRun ++ readBack)) op).1 = .error e →
        e ≠ .noSpace → (fsStep (otfs.state freshHandle (gapRun ++ readBack)) op).2 =
          otfs.state freshHandle (gapRun ++ readBack) :=
  fileMap_refined fsFormatImage_eq fsMount_formatted
    (by simp [gapRun, readBack, NonEmptyWrite, SourceBuffer.len]) blank_freshHandle.spaced_gapRun

end TigerOS.Otfs
