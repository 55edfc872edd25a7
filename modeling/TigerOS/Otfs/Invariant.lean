import TigerOS.Otfs.Mount

/-! # The invariant of a mounted handle

The used entries head chains that share no block (`TigerOS.Otfs.Separate`). With
the descriptors this makes up `TigerOS.Otfs.Linked`, and with the names, the
image and the cells off every chain `TigerOS.Otfs.Sound`, which holds of a
freshly formatted image. Each change a call is made of keeps all three; the lists
of blocks of the changed file are part of the statements, so that later
invariants can speak of them.
-/

namespace TigerOS.Otfs

open Foundation

/-- The entry is in use. -/
def Used (fs : FsHandle) (i : FileIndex) : Prop := (fs.dirEntries i).used ≠ 0

instance (fs : FsHandle) (i : FileIndex) : Decidable (Used fs i) :=
  inferInstanceAs (Decidable (_ ≠ _))

/-- The used entries head chains that share no block. An unused entry is given
no blocks. -/
structure Separate (fs : FsHandle) (chains : FileIndex → List BlockIndex) : Prop where
  chain : ∀ i, Used fs i → FatChain fs.fat (fs.dirEntries i).firstBlock (chains i)
  unused : ∀ i, ¬ Used fs i → chains i = []
  apart : ∀ i j, i ≠ j → (chains i).Disjoint (chains j)

/-- A mounted handle with separate chains, whose open slots name used entries.
This much holds whatever becomes of the transfers. -/
structure Linked (fs : FsHandle) (chains : FileIndex → List BlockIndex) : Prop
    extends Separate fs chains where
  mounted : fs.mounted = true
  opened : ∀ fd, (fs.openFiles fd).inUse = true → Used fs (fs.openFiles fd).dirIndex

/-- The name of an entry is terminated and valid. -/
def Named (entry : DirEntry) : Prop :=
  0 ∈ entry.name.toList ∧ validateName (some entry.nameString) = .ok ()

/-- The invariant of a mounted handle on a healthy image: the chains also cover
the used cells of the FAT, and the names are valid and differ. -/
structure Sound (fs : FsHandle) (chains : FileIndex → List BlockIndex) : Prop
    extends Linked fs chains where
  covered : ∀ b, fs.fat b ≠ fatFree → ∃ i, b ∈ chains i
  faultless : fs.imageFile.Faultless
  complete : fs.imageFile.Complete
  superblock : diskSuperblock fs.imageFile = expectedSuperblock
  named : ∀ i, Used fs i → Named (fs.dirEntries i)
  distinct : ∀ i j, Used fs i → Used fs j →
    (fs.dirEntries i).nameString = (fs.dirEntries j).nameString → i = j

/-! ## Names -/

theorem validateName_eq_ok {name : List UInt8} : validateName (some name) = .ok () ↔
    (0 < name.length ∧ name.length ≤ fsMaxNameLen) ∧ 47 ∉ name ∧ 92 ∉ name := by
  simp only [validateName]
  split
  · refine iff_of_false (fun same => by cases same) ?_
    omega
  · split
    · refine iff_of_false (fun same => by cases same) ?_
      tauto
    · refine iff_of_true rfl ⟨by omega, ?_⟩
      tauto

private theorem toList_nameArray {name : List UInt8} (short : name.length ≤ fsMaxNameLen) :
    (nameArray name).toList = name ++ List.replicate (32 - name.length) 0 := by
  change name.length ≤ 31 at short
  rw [nameArray, Vector.toList_ofFn]
  apply List.ext_getElem
  · rw [List.length_ofFn, List.length_append, List.length_replicate]
    omega
  · intro k bound _
    rw [List.length_ofFn] at bound
    rw [List.getElem_ofFn]
    by_cases inside : k < name.length
    · have kept : k < fsMaxNameLen := inside.trans_le short
      rw [List.getElem_append_left inside, if_pos kept, List.getD_eq_getElem _ _ inside]
    · have past : name.length ≤ k := not_lt.mp inside
      rw [List.getElem_append_right past, List.getElem_replicate, List.getD_eq_default _ _ past,
        ite_self]

/-- A created entry carries the name it was created with. -/
theorem nameString_newEntry {name : List UInt8} (noNul : 0 ∉ name)
    (short : name.length ≤ fsMaxNameLen) : (newEntry name).nameString = name := by
  change cstr 32 (nameArray name).toList = name
  change name.length ≤ 31 at short
  rw [toList_nameArray short, cstr_append_replicate noNul (by omega) _ (by omega)]

theorem named_newEntry {name : List UInt8} (noNul : 0 ∉ name)
    (valid : validateName (some name) = .ok ()) : Named (newEntry name) := by
  have short := (validateName_eq_ok.mp valid).1.2
  refine ⟨?_, by rwa [nameString_newEntry noNul short]⟩
  change 0 ∈ (nameArray name).toList
  change name.length ≤ 31 at short
  rw [toList_nameArray short, List.mem_append, List.mem_replicate]
  exact .inr ⟨by omega, rfl⟩

/-- Where names differ, looking a name up finds the used entry of that name. -/
theorem findDirEntry_eq_some {fs : FsHandle} (distinct : ∀ i j, Used fs i → Used fs j →
      (fs.dirEntries i).nameString = (fs.dirEntries j).nameString → i = j)
    {name : List UInt8} {i : FileIndex} (noNul : 0 ∉ name)
    (short : name.length ≤ fsMaxNameLen) : findDirEntry fs name = some i ↔
      Used fs i ∧ (fs.dirEntries i).nameString = name := by
  have matched (j : FileIndex) : decide ((fs.dirEntries j).used ≠ 0 ∧
      strncmp (fsMaxNameLen + 1) (fs.dirEntries j).name.toList name = 0) = true ↔
        Used fs j ∧ (fs.dirEntries j).nameString = name := by
    rw [decide_eq_true_eq, strncmp_eq_zero, cstr_of_noNul noNul,
      List.take_of_length_le (short.trans (Nat.le_succ _))]
    rfl
  rw [findDirEntry]
  constructor
  · intro found
    have holds := List.find?_some found
    exact (matched i).mp holds
  · rintro ⟨used, same⟩
    cases found : (List.finRange fsMaxFiles).find? fun j => decide ((fs.dirEntries j).used ≠ 0 ∧
        strncmp (fsMaxNameLen + 1) (fs.dirEntries j).name.toList name = 0) with
    | none =>
        have missed := List.find?_eq_none.mp found i (List.mem_finRange i)
        exact absurd ((matched i).mpr ⟨used, same⟩) missed
    | some j =>
        have holds := List.find?_some found
        obtain ⟨used', same'⟩ := (matched j).mp holds
        rw [distinct j i used' used (same'.trans same.symm)]

/-! ## The changes keep the chains separate -/

namespace Separate

variable {fs fs' : FsHandle} {chains : FileIndex → List BlockIndex} {i : FileIndex}

/-- A change that keeps the FAT and the heads of the chains. -/
theorem congr (separate : Separate fs chains) (fat : fs'.fat = fs.fat)
    (used : ∀ j, (fs'.dirEntries j).used = (fs.dirEntries j).used)
    (firstBlock : ∀ j, (fs'.dirEntries j).firstBlock = (fs.dirEntries j).firstBlock) :
    Separate fs' chains where
  chain := by
    intro j used'
    rw [Used, used] at used'
    rw [fat, firstBlock]
    exact separate.chain j used'
  unused := by
    intro j unused
    rw [Used, used] at unused
    exact separate.unused j unused
  apart := separate.apart

/-- Creating an entry in an unused place. -/
theorem created (separate : Separate fs chains) (name : List UInt8) (unused : ¬ Used fs i) :
    Separate (created fs i name) chains where
  chain := by
    intro j used
    by_cases same : j = i
    · subst same
      rw [separate.unused j unused, fatChain_nil, Otfs.created, FsHandle.setEntry_same]
      rfl
    · rw [Used, Otfs.created, FsHandle.setEntry_other _ same] at used
      rw [Otfs.created, FsHandle.setEntry_other _ same]
      exact separate.chain j used
  unused := by
    intro j unused'
    by_cases same : j = i
    · subst same
      exact separate.unused j unused
    · rw [Used, Otfs.created, FsHandle.setEntry_other _ same] at unused'
      exact separate.unused j unused'
  apart := separate.apart

/-- Replacing the blocks of one file by blocks off the other chains. -/
private theorem apart_update (separate : Separate fs chains) {blocks : List BlockIndex}
    (off : ∀ j, j ≠ i → (chains j).Disjoint blocks) {j k : FileIndex} (distinct : j ≠ k) :
    (Function.update chains i blocks j).Disjoint (Function.update chains i blocks k) := by
  by_cases sameJ : j = i
  · have other : k ≠ i := fun same => distinct (sameJ.trans same.symm)
    rw [sameJ, Function.update_self, Function.update_of_ne other]
    exact (off k other).symm
  · rw [Function.update_of_ne sameJ]
    by_cases sameK : k = i
    · rw [sameK, Function.update_self]
      exact off j sameJ
    · rw [Function.update_of_ne sameK]
      exact separate.apart j k distinct

/-- Truncating an entry frees its blocks. -/
theorem truncated (separate : Separate fs chains) (i : FileIndex) :
    Separate (truncated fs i (chains i)) (Function.update chains i []) where
  chain := by
    intro j used
    by_cases same : j = i
    · subst same
      rw [Function.update_self, truncated_here, fatChain_nil]
    · rw [Used, truncated_used] at used
      rw [Function.update_of_ne same, truncated_other same]
      exact Chain.congr (separate.chain j used) fun b member =>
        if_neg (separate.apart j i same member)
  unused := by
    intro j unused
    by_cases same : j = i
    · rw [same, Function.update_self]
    · rw [Used, truncated_used] at unused
      rw [Function.update_of_ne same]
      exact separate.unused j unused
  apart := fun _ _ => separate.apart_update fun _ _ => List.disjoint_nil_right _

/-- A block of one chain is used and lies off the others. -/
theorem off_chain (separate : Separate fs chains) {j : FileIndex} (other : j ≠ i)
    {b : BlockIndex} (member : b ∈ chains j) : b ∉ chains i ∧ fs.fat b ≠ fatFree := by
  refine ⟨separate.apart j i other member, ?_⟩
  by_cases used : Used fs j
  · exact FatChain.cell_ne_free (separate.chain j used) member
  · rw [separate.unused j used] at member
    cases member

/-- Changing one file while sparing the other chains. -/
theorem spares (separate : Separate fs chains) (used : Used fs i) {blocks : List BlockIndex}
    (spares : Spares fs fs' i (chains i) blocks) :
    Separate fs' (Function.update chains i blocks) where
  chain := by
    intro j used'
    by_cases same : j = i
    · subst same
      rw [Function.update_self]
      exact spares.chain
    · rw [Used, spares.used] at used'
      rw [Function.update_of_ne same, spares.others j same]
      refine Chain.congr (separate.chain j used') fun b member => ?_
      obtain ⟨off, taken⟩ := separate.off_chain same member
      exact spares.cells b off taken
  unused := by
    intro j unused
    rw [Used, spares.used] at unused
    have other : j ≠ i := fun same => unused (same ▸ used)
    rw [Function.update_of_ne other]
    exact separate.unused j unused
  apart := by
    refine fun _ _ => separate.apart_update fun j other b member member' => ?_
    obtain ⟨off, taken⟩ := separate.off_chain other member
    exact (spares.fresh b member').elim off taken

end Separate

namespace Linked

variable {fs fs' : FsHandle} {chains chains' : FileIndex → List BlockIndex} {i : FileIndex}

/-- Changing one slot. -/
theorem setOpenFile (linked : Linked fs chains) {fd : Descriptor} {file : OpenFile}
    (used : file.inUse = true → Used fs file.dirIndex) : Linked (fs.setOpenFile fd file) chains :=
  { linked with
    opened := by
      intro other inUse
      by_cases same : other = fd
      · subst same
        simp only [FsHandle.setOpenFile, Function.update_self] at inUse ⊢
        exact used inUse
      · simp only [FsHandle.setOpenFile, Function.update_of_ne same] at inUse ⊢
        exact linked.opened other inUse }

/-- Moving one slot. -/
theorem advance (linked : Linked fs chains) (fd : Descriptor) (chunk : ℕ) :
    Linked (fs.advance fd chunk) chains :=
  linked.setOpenFile fun inUse => linked.opened fd inUse

/-- Seeking in one slot. -/
theorem sought (linked : Linked fs chains) {slot : Descriptor}
    (inUse : (fs.openFiles slot).inUse = true) (offset : UInt32) :
    Linked (sought fs slot offset) chains :=
  linked.setOpenFile fun _ => linked.opened slot inUse

/-- Creating an entry in an unused place. -/
theorem created (linked : Linked fs chains) (name : List UInt8) (unused : ¬ Used fs i) :
    Linked (created fs i name) chains where
  toSeparate := linked.toSeparate.created name unused
  mounted := linked.mounted
  opened := by
    intro fd inUse
    have used := linked.opened fd inUse
    have other : (fs.openFiles fd).dirIndex ≠ i := fun same => unused (same ▸ used)
    change ((fs.setEntry i _).dirEntries (fs.openFiles fd).dirIndex).used ≠ 0
    rw [FsHandle.setEntry_other _ other]
    exact used

/-- A change that keeps the entries in use and the files of the slots. -/
theorem of_separate (linked : Linked fs chains) (separate : Separate fs' chains')
    (mounted : fs'.mounted = fs.mounted)
    (used : ∀ j, (fs'.dirEntries j).used = (fs.dirEntries j).used)
    (slots : ∀ fd, (fs'.openFiles fd).inUse = (fs.openFiles fd).inUse ∧
      (fs'.openFiles fd).dirIndex = (fs.openFiles fd).dirIndex) : Linked fs' chains' :=
  { separate with
    mounted := mounted.trans linked.mounted
    opened := by
      intro fd inUse
      rw [(slots fd).1] at inUse
      rw [Used, used, (slots fd).2]
      exact linked.opened fd inUse }

/-- Truncating an entry. -/
theorem truncated (linked : Linked fs chains) (i : FileIndex) :
    Linked (truncated fs i (chains i)) (Function.update chains i []) :=
  linked.of_separate (linked.toSeparate.truncated i) rfl truncated_used fun _ => ⟨rfl, rfl⟩

/-- Changing one file while sparing the other chains. -/
theorem spares (linked : Linked fs chains) (used : Used fs i) {blocks : List BlockIndex}
    (spares : Spares fs fs' i (chains i) blocks)
    (slots : ∀ fd, (fs'.openFiles fd).inUse = (fs.openFiles fd).inUse ∧
      (fs'.openFiles fd).dirIndex = (fs.openFiles fd).dirIndex) :
    Linked fs' (Function.update chains i blocks) :=
  linked.of_separate (linked.toSeparate.spares used spares) spares.mounted spares.used slots

/-- Recording a size. -/
theorem grown (linked : Linked fs chains) (fd : Descriptor) (i : FileIndex) :
    Linked (grown fs fd i) chains := by
  have separate := linked.toSeparate.congr (grown_fat fs fd i) (grown_used fs fd i)
    (grown_firstBlock fs fd i)
  refine linked.of_separate separate (grown_mounted fs fd i) (grown_used fs fd i) fun _ => ?_
  rw [grown_openFiles]
  exact ⟨rfl, rfl⟩

end Linked

/-! ## The changes keep the invariant -/

namespace Sound

variable {fs mid : FsHandle} {chains : FileIndex → List BlockIndex} {i : FileIndex}

/-- Changing one slot. -/
theorem setOpenFile (sound : Sound fs chains) {fd : Descriptor} {file : OpenFile}
    (used : file.inUse = true → Used fs file.dirIndex) : Sound (fs.setOpenFile fd file) chains :=
  { sound with toLinked := sound.toLinked.setOpenFile used }

/-- Moving one slot. -/
theorem advance (sound : Sound fs chains) (fd : Descriptor) (chunk : ℕ) :
    Sound (fs.advance fd chunk) chains :=
  { sound with toLinked := sound.toLinked.advance fd chunk }

/-- Seeking in one slot. -/
theorem sought (sound : Sound fs chains) {slot : Descriptor}
    (inUse : (fs.openFiles slot).inUse = true) (offset : UInt32) :
    Sound (sought fs slot offset) chains :=
  { sound with toLinked := sound.toLinked.sought inUse offset }

/-- Flushing the metadata. -/
theorem synced (sound : Sound fs chains) : Sound (synced fs) chains :=
  { sound with
    faultless := synced_faultless sound.faultless
    complete := sound.complete.trans size_le_synced
    superblock := by rw [diskSuperblock_synced, sound.superblock] }

/-- Creating an entry in an unused place. -/
theorem created (sound : Sound fs chains) {name : List UInt8} (unused : ¬ Used fs i)
    (noNul : 0 ∉ name) (valid : validateName (some name) = .ok ())
    (fresh : ∀ j, Used fs j → (fs.dirEntries j).nameString ≠ name) :
    Sound (created fs i name) chains where
  toLinked := sound.toLinked.created name unused
  covered := sound.covered
  faultless := sound.faultless
  complete := sound.complete
  superblock := sound.superblock
  named := by
    intro j used
    by_cases same : j = i
    · subst same
      rw [Otfs.created, FsHandle.setEntry_same]
      exact named_newEntry noNul valid
    · rw [Used, Otfs.created, FsHandle.setEntry_other _ same] at used
      rw [Otfs.created, FsHandle.setEntry_other _ same]
      exact sound.named j used
  distinct := by
    have nameString := nameString_newEntry noNul (validateName_eq_ok.mp valid).1.2
    intro j k usedJ usedK
    by_cases sameJ : j = i
    · by_cases sameK : k = i
      · exact fun _ => sameJ.trans sameK.symm
      · subst sameJ
        rw [Used, Otfs.created, FsHandle.setEntry_other _ sameK] at usedK
        rw [Otfs.created, FsHandle.setEntry_same, FsHandle.setEntry_other _ sameK, nameString]
        exact fun same => absurd same.symm (fresh k usedK)
    · rw [Used, Otfs.created, FsHandle.setEntry_other _ sameJ] at usedJ
      by_cases sameK : k = i
      · subst sameK
        rw [Otfs.created, FsHandle.setEntry_same, FsHandle.setEntry_other _ sameJ, nameString]
        exact fun same => absurd same (fresh j usedJ)
      · rw [Used, Otfs.created, FsHandle.setEntry_other _ sameK] at usedK
        rw [Otfs.created, FsHandle.setEntry_other _ sameJ, FsHandle.setEntry_other _ sameK]
        exact sound.distinct j k usedJ usedK

/-- A change that keeps the names and the superblock keeps the invariant as far
as the chains are concerned. -/
private theorem of_linked {fs' : FsHandle} {chains' : FileIndex → List BlockIndex}
    (sound : Sound fs chains) (linked : Linked fs' chains')
    (covered : ∀ b, fs'.fat b ≠ fatFree → ∃ i, b ∈ chains' i)
    (used : ∀ j, (fs'.dirEntries j).used = (fs.dirEntries j).used)
    (name : ∀ j, (fs'.dirEntries j).name = (fs.dirEntries j).name)
    (faultless : fs'.imageFile.Faultless) (size : fs.imageFile.size ≤ fs'.imageFile.size)
    (superblock : diskSuperblock fs'.imageFile = diskSuperblock fs.imageFile) :
    Sound fs' chains' := by
  have usedIff (j : FileIndex) : Used fs' j ↔ Used fs j := by rw [Used, Used, used]
  have nameString (j : FileIndex) :
      (fs'.dirEntries j).nameString = (fs.dirEntries j).nameString := by
    rw [DirEntry.nameString, DirEntry.nameString, name]
  exact {
    linked with
    covered := covered
    faultless := faultless
    complete := sound.complete.trans size
    superblock := superblock.trans sound.superblock
    named := by
      intro j used'
      rw [Named, name, nameString]
      exact sound.named j ((usedIff j).mp used')
    distinct := by
      intro j k usedJ usedK same
      rw [nameString, nameString] at same
      exact sound.distinct j k ((usedIff j).mp usedJ) ((usedIff k).mp usedK) same }

/-- Truncating a used entry frees its blocks. -/
theorem truncated (sound : Sound fs chains) (i : FileIndex) :
    Sound (truncated fs i (chains i)) (Function.update chains i []) := by
  refine sound.of_linked (sound.toLinked.truncated i) ?_ truncated_used ?_ sound.faultless
    le_rfl rfl
  · intro b taken
    by_cases released : b ∈ chains i
    · exact absurd (if_pos released) taken
    · have kept : freed fs.fat (chains i) b = fs.fat b := if_neg released
      obtain ⟨j, member⟩ := sound.covered b (kept ▸ taken)
      have apart : j ≠ i := fun same => released (same ▸ member)
      exact ⟨j, by rwa [Function.update_of_ne apart]⟩
  · intro j
    by_cases same : j = i
    · rw [same, truncated_here]
    · rw [truncated_other same]

/-- Extending a used file by free blocks. -/
theorem extended (sound : Sound fs chains) {added : List BlockIndex} {offset : ℕ}
    {data : List UInt8} (used : Used fs i)
    (extended : Extended fs mid i (chains i) added offset data)
    (slots : ∀ fd, (mid.openFiles fd).inUse = (fs.openFiles fd).inUse ∧
      (mid.openFiles fd).dirIndex = (fs.openFiles fd).dirIndex) :
    Sound mid (Function.update chains i (chains i ++ added)) := by
  refine sound.of_linked (sound.toLinked.spares used extended.spares slots) ?_ extended.used
    extended.name extended.faultless extended.size ?_
  · intro b taken
    by_cases linked : b ∈ chains i ++ added
    · exact ⟨i, by rwa [Function.update_self]⟩
    · rw [extended.cells b linked] at taken
      obtain ⟨j, member⟩ := sound.covered b taken
      have other : j ≠ i := fun same => linked (List.mem_append_left _ (same ▸ member))
      exact ⟨j, by rwa [Function.update_of_ne other]⟩
  · have kept : readRange mid.imageFile.byte 0 fsSuperblockSize =
        readRange fs.imageFile.byte 0 fsSuperblockSize := by
      apply readRange_congr
      intro k inside
      change k < 64 at inside
      exact extended.metadata _ (by omega)
    rw [diskSuperblock, diskSuperblock, kept]

/-- Recording a size. -/
theorem grown (sound : Sound fs chains) (fd : Descriptor) (i : FileIndex) :
    Sound (grown fs fd i) chains := by
  refine sound.of_linked (sound.toLinked.grown fd i) ?_ (grown_used fs fd i) (grown_name fs fd i)
    ?_ ?_ ?_
  · rw [grown_fat]
    exact sound.covered
  · rw [grown_imageFile]
    exact sound.faultless
  · rw [grown_imageFile]
  · rw [grown_imageFile]

end Sound

/-- **A freshly formatted image is sound**, and its entries have no blocks. -/
theorem sound_freshHandle : Sound freshHandle (fun _ => []) where
  chain := by
    intro i used
    exact absurd (congrArg DirEntry.used (freshHandle_dirEntries i)) used
  unused := fun _ _ => rfl
  apart := fun _ _ _ => List.disjoint_nil_left _
  covered := fun b taken => absurd (freshHandle_fat b) taken
  mounted := rfl
  faultless := formattedImage_faultless
  complete := formattedImage_complete
  superblock := diskSuperblock_formatted
  named := by
    intro i used
    exact absurd (congrArg DirEntry.used (freshHandle_dirEntries i)) used
  distinct := by
    intro i j used
    exact absurd (congrArg DirEntry.used (freshHandle_dirEntries i)) used
  opened := fun _ inUse => by cases inUse

end TigerOS.Otfs
