import TigerOS.Otfs.FileMap
import TigerOS.Otfs.Volume

/-! # Drives answer as volumes do

A handle pictures a volume: its entries and chains are the files, its open slots the table.
The metadata on its image pictures what of the files lies on disk
(`TigerOS.Otfs.Pictures`), so that losing the handle and mounting the image again, after a
power cut as after `fs_unmount`, is again a picture. Every operation of a drive keeps this,
whatever it answers (`TigerOS.Otfs.drives_answer_as_volumes`).
-/

namespace TigerOS.Otfs

open Foundation

/-! ## Pictures -/

/-- The file of an entry, of whose chain the image knows the blocks `kept`. -/
def fileOf (fs : FsHandle) (chains kept : FileIndex → List BlockIndex) (i : FileIndex) :
    Option VolumeFile :=
  if Used fs i then
    some ⟨(fs.dirEntries i).nameString, (fs.dirEntries i).sizeBytes, (chains i).length,
      (kept i).length, contentAt fs.imageFile (chains i)⟩
  else none

/-- What a slot is open on, by place. -/
def openPlace (fs : FsHandle) (slot : Descriptor) : Option OpenPlace :=
  if (fs.openFiles slot).inUse then
    some ⟨(fs.openFiles slot).dirIndex, (fs.openFiles slot).offset, (fs.openFiles slot).flags⟩
  else none

/-- A handle whose image on disk has the same names and sizes, and beginnings of the chains,
pictures a volume. -/
structure Pictures (fs : FsHandle) (chains kept : FileIndex → List BlockIndex) (v : Volume) :
    Prop where
  sound : Sound fs chains
  onImage : Sound (mountedOn fs.imageFile) kept
  entry : ∀ i, diskDir fs.imageFile i =
    { fs.dirEntries i with firstBlock := (diskDir fs.imageFile i).firstBlock }
  begins : ∀ i, kept i <+: chains i
  files : v.files = fileOf fs chains kept
  table : v.table = openPlace fs

section Images

variable {fs mid : FsHandle} {file file' : ImageFile} {chains kept : FileIndex → List BlockIndex}

/-- Images with the same metadata regions hold the same metadata. -/
theorem metadata_congr (same : ∀ p < 3584, file'.byte p = file.byte p) :
    diskDir file' = diskDir file ∧ diskFat file' = diskFat file ∧
      diskSuperblock file' = diskSuperblock file := by
  have whole (offset len : ℕ) (inside : offset + len ≤ 3584) :
      readRange file'.byte offset len = readRange file.byte offset len :=
    readRange_congr fun k before => same _ (by omega)
  refine ⟨?_, ?_, ?_⟩
  · rw [diskDir, diskDir, whole _ _ (by decide)]
  · rw [diskFat, diskFat, whole _ _ (by decide)]
  · rw [diskSuperblock, diskSuperblock, whole _ _ (by decide)]

/-- A healthy image with the metadata of a sound handle is sound once mounted. -/
theorem Sound.mountedOn (sound : Sound fs chains) (faultless : file.Faultless)
    (size : fs.imageFile.size ≤ file.size)
    (superblock : diskSuperblock file = diskSuperblock fs.imageFile)
    (dir : diskDir file = fs.dirEntries) (fat : diskFat file = fs.fat) :
    Sound (Otfs.mountedOn file) chains := by
  have entries : (Otfs.mountedOn file).dirEntries = fs.dirEntries := dir
  have cells : (Otfs.mountedOn file).fat = fs.fat := fat
  have used : Used (Otfs.mountedOn file) = Used fs := by
    funext i
    rw [Used, Used, entries]
  exact {
    chain := by rw [used, cells, entries]; exact sound.chain
    unused := by rw [used]; exact sound.unused
    apart := sound.apart
    mounted := rfl
    opened := fun _ inUse => by cases inUse
    covered := by rw [cells]; exact sound.covered
    faultless := faultless
    complete := sound.complete.trans size
    superblock := superblock.trans sound.superblock
    named := by rw [used, entries]; exact sound.named
    distinct := by rw [used, entries]; exact sound.distinct }

/-- The bytes of the first blocks of a chain are the first bytes of the chain. -/
theorem contentAt_begins {first blocks : List BlockIndex} (begins : first <+: blocks) :
    contentAt file first = fun p =>
      if p < fsBlockSize * first.length then contentAt file blocks p else 0 := by
  obtain ⟨rest, rfl⟩ := begins
  funext p
  by_cases inside : p < fsBlockSize * first.length
  · have block : p / fsBlockSize < first.length := by
      simp only [fsBlockSize] at inside ⊢
      omega
    rw [if_pos inside, contentAt, contentAt, List.getElem?_append_left block]
  · rw [if_neg inside, contentAt_past (not_lt.mp inside)]

theorem flushed_fileOf (i : FileIndex) :
    (fileOf fs chains kept i).map VolumeFile.flushed = fileOf fs chains chains i := by
  rw [fileOf, fileOf]
  split <;> rfl

/-- One file of a handle changed. -/
theorem fileOf_update {chains' kept' : FileIndex → List BlockIndex} {i : FileIndex}
    {changed : VolumeFile}
    (others : ∀ j, j ≠ i → mid.dirEntries j = fs.dirEntries j ∧ chains' j = chains j ∧
      kept' j = kept j ∧
      (Used fs j → contentAt mid.imageFile (chains j) = contentAt fs.imageFile (chains j)))
    (here : fileOf mid chains' kept' i = some changed) :
    fileOf mid chains' kept' = Function.update (fileOf fs chains kept) i (some changed) := by
  funext j
  by_cases same : j = i
  · rw [same, here, Function.update_self]
  · obtain ⟨dir, blocks, known, content⟩ := others j same
    rw [Function.update_of_ne same, fileOf, fileOf]
    by_cases used : Used fs j
    · have used' : Used mid j := by rwa [Used, dir]
      rw [if_pos used, if_pos used', dir, blocks, known, content used]
    · have unused : ¬ Used mid j := by rwa [Used, dir]
      rw [if_neg used, if_neg unused]

theorem openPlace_setOpenFile (slot : Descriptor) (open_ : OpenFile) :
    openPlace (fs.setOpenFile slot open_) = Function.update (openPlace fs) slot
      (if open_.inUse then some ⟨open_.dirIndex, open_.offset, open_.flags⟩ else none) := by
  funext other
  by_cases same : other = slot
  · subst same
    simp only [openPlace, FsHandle.setOpenFile, Function.update_self]
  · simp only [openPlace, FsHandle.setOpenFile, Function.update_of_ne same]

end Images

namespace Pictures

variable {fs mid : FsHandle} {chains kept : FileIndex → List BlockIndex} {v : Volume}
  {slot : Descriptor} {i : FileIndex}

/-! ## What a picture shows -/

/-- Looking a name up finds the file of that name. -/
theorem find_eq (pictures : Pictures fs chains kept v) {name : List UInt8} (noNul : 0 ∉ name)
    (short : name.length ≤ fsMaxNameLen) : v.find name = findDirEntry fs name := by
  rw [Volume.find, findDirEntry]
  congr 1
  funext j
  have compared : strncmp (fsMaxNameLen + 1) (fs.dirEntries j).name.toList name = 0 ↔
      (fs.dirEntries j).nameString = name := by
    rw [strncmp_eq_zero, cstr_of_noNul noNul, List.take_of_length_le (short.trans (Nat.le_succ _))]
    rfl
  rw [pictures.files, fileOf]
  by_cases used : Used fs j
  · have used' : (fs.dirEntries j).used ≠ 0 := used
    simp only [if_pos used, Option.any_some, compared, used', not_false_eq_true, true_and, ne_eq]
  · have unused : (fs.dirEntries j).used = 0 := not_not.mp used
    simp only [if_neg used, Option.any_none, unused, ne_eq, not_true_eq_false, false_and,
      decide_false]

theorem freePlace_eq (pictures : Pictures fs chains kept v) :
    v.freePlace = (List.finRange fsMaxFiles).find? fun i =>
      decide ((fs.dirEntries i).used = 0) := by
  rw [Volume.freePlace]
  congr 1
  funext j
  rw [pictures.files, fileOf]
  by_cases used : Used fs j
  · have used' : (fs.dirEntries j).used ≠ 0 := used
    simp only [if_pos used, Option.isNone_some, used', decide_false]
  · have unused : (fs.dirEntries j).used = 0 := not_not.mp used
    simp only [if_neg used, Option.isNone_none, unused, decide_true]

theorem freeSlot_eq (pictures : Pictures fs chains kept v) : v.freeSlot = allocFd fs := by
  rw [Volume.freeSlot, allocFd]
  congr 1
  funext slot
  rw [pictures.table, openPlace]
  cases (fs.openFiles slot).inUse <;> rfl

/-- The space left is in the free blocks. -/
theorem free_eq (pictures : Pictures fs chains kept v) :
    v.free = (freeBlocks fs.fat).length := by
  have held : ∑ i, ((v.files i).map VolumeFile.blocks).getD 0 = ∑ i, (chains i).length := by
    refine Finset.sum_congr rfl fun j _ => ?_
    rw [pictures.files, fileOf]
    by_cases used : Used fs j
    · rw [if_pos used]
      rfl
    · rw [if_neg used, pictures.sound.unused j used]
      rfl
  rw [Volume.free, held, ← pictures.sound.space, Nat.add_sub_cancel_left]

/-- The handle and the volume refuse the same calls. -/
theorem refusal_eq (pictures : Pictures fs chains kept v) (op : FsOp) :
    v.refusal op = refusal (known fs) (flagsOf fs) op := by
  have flags : (fun slot => (v.table slot).map OpenPlace.flags) = flagsOf fs := by
    funext slot
    rw [pictures.table, flagsOf, openPlace]
    split <;> rfl
  rw [Volume.refusal, flags]
  cases op with
  | «open» name flags =>
      cases name with
      | none => rfl
      | some name =>
          by_cases valid : validateName (some name.bytes) = .ok ()
          · have short := (validateName_eq_ok.mp valid).1.2
            have same : (v.find name.bytes).isSome = known fs name.bytes := by
              rw [known, pictures.find_eq name.noNul short]
            simp only [refusal, same]
          · simp only [refusal, valid, ne_eq, not_false_eq_true, true_or, ↓reduceIte]
  | _ => rfl

theorem onSlot_eq (pictures : Pictures fs chains kept v) {fd : ℤ} (named : Names fs fd slot)
    (act : Descriptor → OpenPlace → Except FsError FsValue × Volume) :
    v.onSlot fd act = act slot ⟨(fs.openFiles slot).dirIndex, (fs.openFiles slot).offset,
      (fs.openFiles slot).flags⟩ := by
  rw [Volume.onSlot, named.1]
  simp only [pictures.table, openPlace, named.2, ↓reduceIte]

theorem onFile_eq (pictures : Pictures fs chains kept v) {fd : ℤ} (named : Names fs fd slot)
    (act : Descriptor → VolumeFile → OpenPlace → Except FsError FsValue × Volume) :
    let i := (fs.openFiles slot).dirIndex
    v.onFile fd act = act slot ⟨(fs.dirEntries i).nameString, (fs.dirEntries i).sizeBytes,
      (chains i).length, (kept i).length, contentAt fs.imageFile (chains i)⟩
        ⟨i, (fs.openFiles slot).offset, (fs.openFiles slot).flags⟩ := by
  rw [Volume.onFile, pictures.onSlot_eq named]
  simp only [pictures.files, fileOf, if_pos (pictures.sound.opened slot named.2)]

/-! ## Losing the handle -/

/-- **A handle that is lost** leaves a picture of what lies on disk. -/
theorem dropped (pictures : Pictures fs chains kept v) :
    Pictures (mountedOn fs.imageFile) kept kept v.dropped where
  sound := pictures.onImage
  onImage := pictures.onImage
  entry := by
    intro j
    have dir : (mountedOn fs.imageFile).dirEntries = diskDir fs.imageFile := rfl
    have image : (mountedOn fs.imageFile).imageFile = fs.imageFile := rfl
    rw [dir, image]
  begins := fun _ => List.prefix_rfl
  files := by
    funext j
    have dir : (mountedOn fs.imageFile).dirEntries j = diskDir fs.imageFile j := rfl
    have usedIff : Used (mountedOn fs.imageFile) j ↔ Used fs j := by
      rw [Used, Used, dir, pictures.entry]
    have shown : v.dropped.files j = (fileOf fs chains kept j).map VolumeFile.stored := by
      rw [← pictures.files]
      rfl
    rw [shown, fileOf, fileOf]
    by_cases used : Used fs j
    · have content := @contentAt_begins fs.imageFile _ _ (pictures.begins j)
      have nameString : (diskDir fs.imageFile j).nameString = (fs.dirEntries j).nameString := by
        rw [DirEntry.nameString, DirEntry.nameString, pictures.entry]
      have size : (diskDir fs.imageFile j).sizeBytes = (fs.dirEntries j).sizeBytes := by
        rw [pictures.entry]
      have image : (mountedOn fs.imageFile).imageFile = fs.imageFile := rfl
      rw [if_pos used, if_pos (usedIff.mpr used), dir, nameString, size, image, content]
      simp only [Option.map_some, VolumeFile.stored]
    · rw [if_neg used, if_neg fun used' => used (usedIff.mp used')]
      rfl
  table := by
    funext slot
    rw [openPlace, mountedOn_openFiles]
    rfl

/-- **Mounting** accepts the image of a picture exactly where the volume is accepted. -/
theorem accepted_iff {image : ImageFile} (pictures : Pictures (mountedOn image) kept kept v) :
    v.Accepted ↔ validateMetadata (loaded image) = .ok () := by
  have sound := pictures.sound
  have accepts (i : FileIndex) (used : Used (mountedOn image) i) :
      validateEntryChain (loaded image) ((loaded image).dirEntries i) = .ok () ↔
        requiredBlocks ((mountedOn image).dirEntries i).sizeBytes ≤ (kept i).length ∧
        (requiredBlocks ((mountedOn image).dirEntries i).sizeBytes = 0 → (kept i).length = 0) := by
    rw [validateEntryChain_eq_ok]
    constructor
    · rintro ⟨blocks, chain, reach, bare⟩
      rw [Chain.unique (sound.chain i used) chain]
      exact ⟨reach, fun none => List.length_eq_zero_iff.mpr (bare none)⟩
    · rintro ⟨reach, bare⟩
      exact ⟨kept i, sound.chain i used, reach, fun none => List.length_eq_zero_iff.mp (bare none)⟩
  have file (i : FileIndex) : ((v.files i).all fun file => decide file.Accepted) = true ↔
      (Used (mountedOn image) i →
        validateEntryChain (loaded image) ((loaded image).dirEntries i) = .ok ()) := by
    rw [pictures.files, fileOf]
    by_cases used : Used (mountedOn image) i
    · rw [if_pos used, Option.all_some, decide_eq_true_eq, accepts i used]
      exact ⟨fun accepted _ => accepted, fun accepted => accepted used⟩
    · rw [if_neg used]
      exact ⟨fun _ used' => absurd used' used, fun _ => rfl⟩
  rw [Volume.Accepted, validateMetadata_eq_ok]
  constructor
  · intro accepted
    refine ⟨?_, ?_, ?_⟩
    · intro b
      by_cases free : (mountedOn image).fat b = fatFree
      · exact .inl free
      · obtain ⟨i, member⟩ := sound.covered b free
        have used : Used (mountedOn image) i := by
          by_contra unused
          rw [sound.unused i unused] at member
          cases member
        obtain isEnd | ⟨c, linked⟩ := FatChain.cell_links (sound.chain i used) member
        · exact .inr (.inl isEnd)
        · refine .inr (.inr ?_)
          change blockAt? ((mountedOn image).fat b) ≠ none
          rw [linked, blockAt?_blockLink]
          exact Option.some_ne_none c
    · intro i used
      obtain ⟨terminated, valid⟩ := sound.named i used
      exact ⟨terminated, valid, (file i).mp (accepted i) used⟩
    · intro i j later used used' same
      exact later.ne (sound.distinct i j used used' ((strncmp_eq_zero _ _ _).mp same))
  · intro valid i
    exact (file i).mpr fun used => (valid.2.1 i used).2.2

/-! ## Changes of a picture -/

/-- **Flushing** tells the image of all blocks. -/
theorem of_synced (sound : Sound fs chains) (files : v.files = fileOf fs chains kept)
    (table : v.table = openPlace fs) : Pictures (synced fs) chains chains v.flushed where
  sound := sound.synced
  onImage := sound.mountedOn (synced_faultless sound.faultless) size_le_synced
    diskSuperblock_synced diskDir_synced diskFat_synced
  entry := fun i => by rw [diskDir_synced, synced_dirEntries]
  begins := fun _ => List.prefix_rfl
  files := by
    funext j
    have flushed : v.flushed.files j = (fileOf fs chains kept j).map VolumeFile.flushed := by
      rw [← files]
      rfl
    rw [flushed, flushed_fileOf, fileOf, fileOf, synced_contentAt]
    rfl
  table := table

/-- Changing one slot. -/
theorem setOpenFile (pictures : Pictures fs chains kept v) {open_ : OpenFile}
    {place : Option OpenPlace} (used : open_.inUse = true → Used fs open_.dirIndex)
    (same : place = if open_.inUse then
      some ⟨open_.dirIndex, open_.offset, open_.flags⟩ else none) :
    Pictures (fs.setOpenFile slot open_) chains kept (v.setSlot slot place) where
  sound := pictures.sound.setOpenFile used
  onImage := pictures.onImage
  entry := pictures.entry
  begins := pictures.begins
  files := pictures.files
  table := by rw [Volume.setSlot, same, openPlace_setOpenFile, ← pictures.table]

/-! ## Opening -/

/-- Emptying a file. -/
theorem emptied (pictures : Pictures fs chains kept v) (used : Used fs i) :
    Pictures (synced (truncated fs i (chains i))) (Function.update chains i [])
      (Function.update chains i [])
      (v.setFile i (.empty (fs.dirEntries i).nameString)).flushed := by
  have bare : contentAt fs.imageFile [] = fun _ => 0 :=
    funext fun _ => contentAt_past (Nat.zero_le _)
  apply of_synced (pictures.sound.truncated i)
  · rw [Volume.setFile, pictures.files]
    refine (@fileOf_update _ _ _ _ _ (Function.update kept i []) _ _ (fun j other => ?_) ?_).symm
    · exact ⟨truncated_other other, Function.update_of_ne other .., Function.update_of_ne other ..,
        fun _ => rfl⟩
    · have used' : Used (truncated fs i (chains i)) i := by rwa [Used, truncated_used]
      have image : (truncated fs i (chains i)).imageFile = fs.imageFile := rfl
      rw [fileOf, if_pos used', truncated_here, Function.update_self, Function.update_self, image,
        bare]
      rfl
  · exact pictures.table

/-- Making a file in an unused place. -/
theorem made (pictures : Pictures fs chains kept v) {name : CString} (unused : ¬ Used fs i)
    (valid : validateName (some name.bytes) = .ok ())
    (missing : findDirEntry fs name.bytes = none) :
    Pictures (synced (created fs i name.bytes)) chains chains
      (v.setFile i (.empty name.bytes)).flushed := by
  have short := (validateName_eq_ok.mp valid).1.2
  have fresh (j : FileIndex) (used : Used fs j) : (fs.dirEntries j).nameString ≠ name.bytes := by
    intro same
    have found := (findDirEntry_eq_some pictures.sound.distinct name.noNul short).mpr ⟨used, same⟩
    rw [missing] at found
    cases found
  have bare : contentAt fs.imageFile [] = fun _ => 0 :=
    funext fun _ => contentAt_past (Nat.zero_le _)
  have none := pictures.sound.unused i unused
  have known : kept i = [] := List.prefix_nil.mp (none ▸ pictures.begins i)
  apply of_synced (pictures.sound.created unused name.noNul valid fresh)
  · rw [Volume.setFile, pictures.files]
    refine (@fileOf_update _ _ _ _ _ kept _ _ (fun j other => ?_) ?_).symm
    · exact ⟨FsHandle.setEntry_other _ other _, rfl, rfl, fun _ => rfl⟩
    · have here : (created fs i name.bytes).dirEntries i = newEntry name.bytes :=
        FsHandle.setEntry_same ..
      have used : Used (created fs i name.bytes) i := by
        rw [Used, here]
        exact (by decide : (1 : UInt8) ≠ 0)
      have image : (created fs i name.bytes).imageFile = fs.imageFile := rfl
      rw [fileOf, if_pos used, here, none, known, image, bare,
        nameString_newEntry name.noNul short]
      rfl
  · exact pictures.table

end Pictures

/-- A handle and a volume answer alike, and the handle left pictures the volume left. -/
def Alike (out : Except FsError FsValue × FsHandle) (out' : Except FsError FsValue × Volume) :
    Prop :=
  out.1 = out'.1 ∧ ∃ chains kept, Pictures out.2 chains kept out'.2

namespace Pictures

variable {fs : FsHandle} {chains kept : FileIndex → List BlockIndex} {v : Volume} {i : FileIndex}

/-- The end of an open. -/
theorem openSlot_alike (pictures : Pictures fs chains kept v) (used : Used fs i)
    (flags : UInt32) :
    Alike ((openSlot fs i flags).1.map .descriptor, (openSlot fs i flags).2)
      (v.openSlot i flags) := by
  rw [openSlot, Volume.openSlot, pictures.freeSlot_eq]
  cases allocFd fs with
  | none => exact ⟨rfl, chains, kept, pictures⟩
  | some slot => exact ⟨rfl, chains, kept, pictures.setOpenFile (fun _ => used) rfl⟩

/-- **Opening.** -/
theorem open_alike (pictures : Pictures fs chains kept v) {name : CString} {flags : UInt32}
    (admitted : refusal (known fs) (flagsOf fs) (.open (some name) flags) = none) :
    Alike (fsStep fs (.open (some name) flags)) (v.act (.open (some name) flags)) := by
  have sound := pictures.sound
  simp only [refusal] at admitted
  split at admitted
  · cases admitted
  · rename_i good
    simp only [not_or, ne_eq, not_not] at good
    obtain ⟨valid, good⟩ := good
    have short := (validateName_eq_ok.mp valid).1.2
    simp only [fsStep, fsOpen_eq sound.mounted sound.faultless valid good chains sound.chain,
      Volume.act, Volume.enter, pictures.find_eq name.noNul short]
    cases found : findDirEntry fs name.bytes with
    | some i =>
        obtain ⟨used, named⟩ := (findDirEntry_eq_some sound.distinct name.noNul short).mp found
        simp only [openEntry]
        by_cases empties : flags &&& fsOTrunc ≠ 0
        · rw [if_pos empties, if_pos empties, ← named]
          refine (pictures.emptied used).openSlot_alike ?_ flags
          rw [Used, synced_dirEntries, truncated_used]
          exact used
        · rw [if_neg empties, if_neg empties]
          exact pictures.openSlot_alike used flags
    | none =>
        have creates : flags &&& fsOCreate ≠ 0 := by
          intro zero
          rw [if_pos ⟨by simp [known, found], zero⟩] at admitted
          cases admitted
        simp only [if_neg creates, pictures.freePlace_eq]
        cases place : (List.finRange fsMaxFiles).find? fun i =>
            decide ((fs.dirEntries i).used = 0) with
        | none => exact ⟨rfl, chains, kept, pictures⟩
        | some i =>
            have holds := List.find?_some place
            rw [decide_eq_true_eq] at holds
            simp only [openEntry, truncated_created, synced_synced, ite_self, Option.map_some]
            refine (pictures.made (not_not.mpr holds) valid found).openSlot_alike ?_ flags
            rw [Used, synced_dirEntries, created, FsHandle.setEntry_same]
            exact (by decide : (1 : UInt8) ≠ 0)

/-! ## Reading and writing -/

/-- Moving a slot. -/
theorem advance (pictures : Pictures fs chains kept v) {slot : Descriptor}
    (inUse : (fs.openFiles slot).inUse = true) (count : ℕ) :
    Pictures (fs.advance slot count) chains kept (v.setSlot slot
      (some ⟨(fs.openFiles slot).dirIndex, (fs.openFiles slot).offset + UInt32.ofNat count,
        (fs.openFiles slot).flags⟩)) :=
  pictures.setOpenFile (fun _ => pictures.sound.opened slot inUse) (by rw [if_pos inUse])

/-- **Reading.** -/
theorem read_alike (pictures : Pictures fs chains kept v) {fd : ℤ} {hasBuf : Bool} {len : ℕ}
    (admitted : refusal (known fs) (flagsOf fs) (.read fd hasBuf len) = none) :
    Alike (fsStep fs (.read fd hasBuf len)) (v.act (.read fd hasBuf len)) := by
  obtain ⟨buffer, slot, named, reads⟩ := transferRefusal_eq_none.mp admitted
  simp only [fsStep, Volume.act, pictures.onFile_eq named,
    pictures.sound.fsRead_exact named buffer reads, Volume.read, VolumeFile.held]
  change Alike _ (if readable fs slot len ≤ _ then _ else _)
  by_cases within : readable fs slot len ≤
      fsBlockSize * (chains (fs.openFiles slot).dirIndex).length -
        (fs.openFiles slot).offset.toNat
  · rw [if_pos within, if_pos within]
    exact ⟨rfl, chains, kept, pictures.advance named.2 _⟩
  · rw [if_neg within, if_neg within]
    exact ⟨rfl, chains, kept, pictures.advance named.2 _⟩

/-- The slot of a store moves past the stored bytes. -/
theorem openPlace_stored (pictures : Pictures fs chains kept v) {mid : FsHandle}
    {slot : Descriptor} {added : List BlockIndex} {data : List UInt8}
    (inUse : (fs.openFiles slot).inUse = true) (stored : Stored fs chains slot mid added data) :
    openPlace mid = Function.update v.table slot
      (some ⟨(fs.openFiles slot).dirIndex,
        (fs.openFiles slot).offset + UInt32.ofNat data.length, (fs.openFiles slot).flags⟩) := by
  have moved : openPlace mid = openPlace (fs.advance slot data.length) := by
    funext other
    rw [openPlace, openPlace, stored.moved]
  rw [moved, (pictures.advance inUse data.length).table.symm]
  rfl

/-- A store changes the file of its slot and no other. -/
theorem fileOf_stored (pictures : Pictures fs chains kept v) {mid : FsHandle} {slot : Descriptor}
    {added : List BlockIndex} {data : List UInt8} {size : UInt32}
    (inUse : (fs.openFiles slot).inUse = true) (stored : Stored fs chains slot mid added data)
    (final : FsHandle) (image : final.imageFile = mid.imageFile)
    (others : ∀ j, j ≠ (fs.openFiles slot).dirIndex → final.dirEntries j = mid.dirEntries j)
    (here : final.dirEntries (fs.openFiles slot).dirIndex =
      { mid.dirEntries (fs.openFiles slot).dirIndex with sizeBytes := size }) :
    fileOf final (lengthened fs chains slot added) kept =
      Function.update (fileOf fs chains kept) (fs.openFiles slot).dirIndex
        (some ⟨(fs.dirEntries (fs.openFiles slot).dirIndex).nameString, size,
          (chains (fs.openFiles slot).dirIndex ++ added).length,
          (kept (fs.openFiles slot).dirIndex).length,
          writeRange (contentAt fs.imageFile (chains (fs.openFiles slot).dirIndex))
            (fs.openFiles slot).offset.toNat data⟩) := by
  have extended := stored.extended
  apply fileOf_update
  · intro j other
    refine ⟨(others j other).trans (extended.others j other), Function.update_of_ne other ..,
      rfl, fun used => ?_⟩
    rw [image, stored.contentAt_other pictures.sound other used]
  · have used : Used final (fs.openFiles slot).dirIndex := by
      rw [Used, here, extended.used]
      exact pictures.sound.opened slot inUse
    have nameString : (final.dirEntries (fs.openFiles slot).dirIndex).nameString =
        (fs.dirEntries (fs.openFiles slot).dirIndex).nameString := by
      rw [DirEntry.nameString, DirEntry.nameString, here, extended.name]
    rw [fileOf, if_pos used, nameString, here, image, lengthened, Function.update_self,
      extended.content]

/-- A store that flushes nothing leaves the metadata on the image. -/
theorem stored (pictures : Pictures fs chains kept v) {mid : FsHandle} {slot : Descriptor}
    {added : List BlockIndex} {data : List UInt8} {w : Volume}
    (inUse : (fs.openFiles slot).inUse = true) (stored : Stored fs chains slot mid added data)
    (files : w.files = fileOf mid (lengthened fs chains slot added) kept)
    (table : w.table = openPlace mid) : Pictures mid (lengthened fs chains slot added) kept w := by
  have extended := stored.extended
  obtain ⟨dir, fat, superblock⟩ := metadata_congr extended.metadata
  exact {
    sound := stored.sound pictures.sound inUse
    onImage := pictures.onImage.mountedOn extended.faultless extended.size superblock dir fat
    entry := by
      intro j
      have known := pictures.entry j
      by_cases same : j = (fs.openFiles slot).dirIndex
      · rw [dir, same, extended.entry]
        rw [same] at known
        exact known
      · rw [dir, extended.others j same]
        exact known
    begins := by
      intro j
      by_cases same : j = (fs.openFiles slot).dirIndex
      · rw [same, lengthened, Function.update_self]
        exact (pictures.begins _).trans (List.prefix_append ..)
      · rw [lengthened, Function.update_of_ne same]
        exact pictures.begins j
    files := files
    table := table }

/-- The size a write records. -/
theorem grown_here (fs : FsHandle) (slot : Descriptor) (i : FileIndex) :
    (grown fs slot i).dirEntries i = { fs.dirEntries i with
      sizeBytes := if (fs.dirEntries i).sizeBytes < (fs.openFiles slot).offset then
        (fs.openFiles slot).offset else (fs.dirEntries i).sizeBytes } := by
  rw [grown]
  split
  · rw [FsHandle.setEntry_same]
  · rfl

/-- A write that has its blocks. -/
theorem write_stores (pictures : Pictures fs chains kept v) {mid : FsHandle} {slot : Descriptor}
    {added : List BlockIndex} {data : List UInt8} {needed : ℕ}
    (inUse : (fs.openFiles slot).inUse = true) (stored : Stored fs chains slot mid added data)
    (blocks : (chains (fs.openFiles slot).dirIndex ++ added).length =
      max (chains (fs.openFiles slot).dirIndex).length needed) {file : VolumeFile}
    (held : fileOf fs chains kept (fs.openFiles slot).dirIndex = some file) :
    Pictures (synced (grown mid slot (fs.openFiles slot).dirIndex))
      (lengthened fs chains slot added) (lengthened fs chains slot added)
      (((v.setFile (fs.openFiles slot).dirIndex
        ((file.write needed (fs.openFiles slot).offset data).grown
          ((fs.openFiles slot).offset + UInt32.ofNat data.length))).flushed).setSlot slot
        (some ⟨(fs.openFiles slot).dirIndex,
          (fs.openFiles slot).offset + UInt32.ofNat data.length, (fs.openFiles slot).flags⟩)) := by
  have used := pictures.sound.opened slot inUse
  rw [fileOf, if_pos used] at held
  obtain rfl := Option.some.inj held
  have offset : (mid.openFiles slot).offset =
      (fs.openFiles slot).offset + UInt32.ofNat data.length := by
    rw [stored.moved, FsHandle.advance_openFiles, Function.update_self]
  have here := grown_here mid slot (fs.openFiles slot).dirIndex
  rw [offset, stored.extended.sizeBytes] at here
  apply @of_synced _ _ kept ((v.setFile _ _).setSlot slot _)
    ((stored.sound pictures.sound inUse).grown slot _)
  · rw [pictures.fileOf_stored inUse stored (grown mid slot _) (grown_imageFile ..)
      (fun j other => grown_other _ _ other) here, ← pictures.files, blocks]
    rfl
  · have table : openPlace (grown mid slot (fs.openFiles slot).dirIndex) = openPlace mid := by
      funext other
      rw [openPlace, openPlace, grown_openFiles]
    rw [table, pictures.openPlace_stored inUse stored]
    rfl

/-- A write that runs out of space. -/
theorem write_fills (pictures : Pictures fs chains kept v) {mid : FsHandle} {slot : Descriptor}
    {added : List BlockIndex} {data : List UInt8} {total : ℕ}
    (inUse : (fs.openFiles slot).inUse = true) (stored : Stored fs chains slot mid added data)
    (blocks : (chains (fs.openFiles slot).dirIndex ++ added).length =
      max (chains (fs.openFiles slot).dirIndex).length total) {file : VolumeFile}
    (held : fileOf fs chains kept (fs.openFiles slot).dirIndex = some file) :
    Pictures mid (lengthened fs chains slot added) kept
      ((v.setFile (fs.openFiles slot).dirIndex
        (file.write total (fs.openFiles slot).offset data)).setSlot slot
        (some ⟨(fs.openFiles slot).dirIndex,
          (fs.openFiles slot).offset + UInt32.ofNat data.length, (fs.openFiles slot).flags⟩)) := by
  have used := pictures.sound.opened slot inUse
  rw [fileOf, if_pos used] at held
  obtain rfl := Option.some.inj held
  apply pictures.stored inUse stored
  · rw [pictures.fileOf_stored inUse stored mid rfl (fun _ _ => rfl) rfl, ← pictures.files,
      stored.extended.sizeBytes, blocks]
    rfl
  · rw [pictures.openPlace_stored inUse stored]
    rfl

/-- **Writing.** -/
theorem write_alike (pictures : Pictures fs chains kept v) {fd : ℤ} {buf : SourceBuffer}
    (admitted : refusal (known fs) (flagsOf fs) (.write fd buf) = none) :
    Alike (fsStep fs (.write fd buf)) (v.act (.write fd buf)) := by
  obtain ⟨buffer, slot, named, writes⟩ := transferRefusal_eq_none.mp admitted
  have used := pictures.sound.opened slot named.2
  have held : fileOf fs chains kept (fs.openFiles slot).dirIndex = some _ := if_pos used
  simp only [fsStep, Volume.act, pictures.onFile_eq named, Volume.write, pictures.free_eq]
  by_cases enough : blocksFor (fs.openFiles slot).offset.toNat buf.data.length ≤
      (chains (fs.openFiles slot).dirIndex).length + (freeBlocks fs.fat).length
  · obtain ⟨mid, added, stored, blocks, answer⟩ :=
      pictures.sound.fsWrite_stores named buffer writes enough
    rw [if_pos enough, answer]
    exact ⟨rfl, _, _, pictures.write_stores named.2 stored blocks held⟩
  · obtain ⟨mid, added, stored, blocks, answer⟩ :=
      pictures.sound.fsWrite_fills named buffer writes (not_le.mp enough)
    rw [if_neg enough, answer]
    rw [← Nat.max_eq_right (Nat.le_add_right _ _)] at blocks
    exact ⟨rfl, _, kept, pictures.write_fills named.2 stored blocks held⟩

/-- **One call.** -/
theorem call_alike (pictures : Pictures fs chains kept v) (op : FsOp) :
    Alike (fsStep fs op) (v.call op) := by
  have mounted := pictures.sound.mounted
  rw [Volume.call, pictures.refusal_eq]
  cases refuses : refusal (known fs) (flagsOf fs) op with
  | some e =>
      rw [fsStep_refused mounted refuses]
      exact ⟨rfl, chains, kept, pictures⟩
  | none =>
      cases op with
      | «open» name flags =>
          cases name with
          | none => cases refuses
          | some name => exact pictures.open_alike refuses
      | close fd =>
          obtain ⟨slot, named⟩ := slotRefusal_eq_none.mp refuses
          simp only [fsStep, fsClose_eq mounted named, Volume.act, pictures.onSlot_eq named]
          exact ⟨rfl, chains, kept, pictures.setOpenFile (fun inUse => by cases inUse) rfl⟩
      | seek fd offset =>
          obtain ⟨slot, named⟩ := slotRefusal_eq_none.mp refuses
          simp only [fsStep, fsSeek_eq mounted named, Volume.act, pictures.onSlot_eq named]
          exact ⟨rfl, chains, kept, pictures.setOpenFile
            (fun _ => pictures.sound.opened slot named.2) (by rw [if_pos named.2])⟩
      | read fd hasBuf len => exact pictures.read_alike refuses
      | write fd buf => exact pictures.write_alike refuses

end Pictures

/-! ## Drives -/

/-- A drive depicts a volume: its mounted handle pictures the volume, or, while none is
mounted, a mount of the image would. -/
inductive Depicts : Drive → Volume → Prop where
  | mounted {fs : FsHandle} {chains kept : FileIndex → List BlockIndex} {v : Volume}
      (pictures : Pictures fs chains kept v) (on : v.mounted = true) :
      Depicts ⟨fs.imageFile, fs⟩ v
  | lying {image : ImageFile} {kept : FileIndex → List BlockIndex} {v : Volume}
      (pictures : Pictures (mountedOn image) kept kept v) (off : v.mounted = false) :
      Depicts ⟨image, fsInit⟩ v

section Drives

variable {fs : FsHandle} {chains kept : FileIndex → List BlockIndex} {v : Volume}

/-- A handle that is not mounted refuses every call. -/
theorem fsStep_init (op : FsOp) : fsStep fsInit op = (.error .state, fsInit) := by
  have common : validateCommon fsInit = .error .state := rfl
  cases op <;> simp only [fsStep, fsOpen, fsClose, fsSeek, fsRead, fsWrite, common] <;> rfl

namespace Volume

theorem onSlot_mounted (fd : ℤ) {act : Descriptor → OpenPlace → Except FsError FsValue × Volume}
    (kept : ∀ slot place, (act slot place).2.mounted = v.mounted) :
    (v.onSlot fd act).2.mounted = v.mounted := by
  rw [onSlot]
  split
  · rfl
  · split
    · rfl
    · exact kept _ _

theorem onFile_mounted (fd : ℤ)
    {act : Descriptor → VolumeFile → OpenPlace → Except FsError FsValue × Volume}
    (kept : ∀ slot file place, (act slot file place).2.mounted = v.mounted) :
    (v.onFile fd act).2.mounted = v.mounted := by
  apply onSlot_mounted
  intro slot place
  split
  · rfl
  · exact kept _ _ _

theorem openSlot_mounted (v : Volume) (i : FileIndex) (flags : UInt32) :
    (v.openSlot i flags).2.mounted = v.mounted := by
  rw [openSlot]
  split <;> rfl

/-- A call leaves a volume mounted. -/
theorem call_mounted (v : Volume) (op : FsOp) : (v.call op).2.mounted = v.mounted := by
  rw [call]
  split
  · rfl
  · cases op with
    | «open» name flags =>
        cases name with
        | none => rfl
        | some name =>
            simp only [act, enter]
            cases v.find name.bytes with
            | some i =>
                simp only [openSlot_mounted]
                split <;> rfl
            | none =>
                cases v.freePlace with
                | none => rfl
                | some i => exact openSlot_mounted ..
    | close fd => exact onSlot_mounted fd fun _ _ => rfl
    | seek fd offset => exact onSlot_mounted fd fun _ _ => rfl
    | read fd hasBuf len =>
        apply onFile_mounted
        intro slot file place
        simp only [read]
        split <;> rfl
    | write fd buf =>
        apply onFile_mounted
        intro slot file place
        simp only [write]
        split <;> rfl

end Volume

/-- **Mounting.** Whatever became of the handle, the answer is that of the volume that lies
on disk. -/
theorem Pictures.mount (pictures : Pictures fs chains kept v) {drive : Drive}
    (image : drive.image = fs.imageFile) :
    (driveStep drive .mount).1 = (v.step .mount).1 ∧
      Depicts (driveStep drive .mount).2 (v.step .mount).2 := by
  have lies := pictures.dropped
  have sound := lies.sound
  have faultless : fs.imageFile.Faultless := sound.faultless
  have held : 3584 ≤ fs.imageFile.size := le_trans (by decide) sound.complete
  by_cases validated : validateMetadata (loaded fs.imageFile) = .ok ()
  · have mounts : fsMount fs.imageFile = .ok (mountedOn fs.imageFile) :=
      (fsMount_eq_ok faultless).mpr ⟨held, sound.superblock, validated, rfl⟩
    simp only [driveStep, Volume.step, image, mounts, lies.accepted_iff.mpr validated, ↓reduceIte]
    refine ⟨trivial, @Depicts.mounted _ kept kept { v.dropped with mounted := true } ?_ rfl⟩
    exact ⟨lies.sound, lies.onImage, lies.entry, lies.begins, lies.files, lies.table⟩
  · have rejected : ¬ v.dropped.Accepted := fun accepted =>
      validated (lies.accepted_iff.mp accepted)
    simp only [driveStep, Volume.step, image, fsMount_of_invalid faultless held validated, rejected,
      ↓reduceIte]
    exact ⟨trivial, .lying lies rfl⟩

/-- **One step of a drive.** -/
theorem Depicts.step {drive : Drive} (depicts : Depicts drive v) (op : DriveOp) :
    (driveStep drive op).1 = (v.step op).1 ∧ Depicts (driveStep drive op).2 (v.step op).2 := by
  cases depicts with
  | @mounted fs chains kept v pictures on =>
      have mounted := pictures.sound.mounted
      cases op with
      | init => exact ⟨rfl, .lying pictures.dropped rfl⟩
      | mount => exact pictures.mount rfl
      | unmount =>
          have flushed : Pictures (synced fs) chains chains v.flushed :=
            Pictures.of_synced pictures.sound pictures.files pictures.table
          simp only [driveStep, Volume.step, fsUnmount_eq mounted pictures.sound.faultless, on,
            ↓reduceIte]
          exact ⟨trivial, .lying flushed.dropped rfl⟩
      | call op =>
          obtain ⟨answer, chains', kept', left⟩ := pictures.call_alike op
          have still : (fsStep fs op).2.mounted = true := left.sound.mounted
          simp only [driveStep, Volume.step, Drive.hold, on, still, ↓reduceIte]
          exact ⟨answer, .mounted left ((v.call_mounted op).trans on)⟩
  | @lying image kept v pictures off =>
      cases op with
      | init => exact ⟨rfl, .lying pictures.dropped rfl⟩
      | mount => exact pictures.mount rfl
      | unmount =>
          have refuses : fsUnmount fsInit = (.error .state, fsInit) := rfl
          simp only [driveStep, Volume.step, refuses, off, Drive.hold]
          exact ⟨rfl, .lying pictures off⟩
      | call op =>
          simp only [driveStep, Volume.step, fsStep_init, off, Drive.hold]
          exact ⟨rfl, .lying pictures off⟩

end Drives

/-- Drives answer as volumes, whatever their users do. -/
def drivesSimulation : drives.Simulation volumes (fun _ _ => True) where
  related := Depicts
  step := fun depicts _ => depicts.step _

/-- A freshly formatted image depicts the blank volume. -/
theorem depicts_blank : Depicts ⟨formattedImage, fsInit⟩ Volume.blank := by
  have unused (i : FileIndex) : ¬ Used freshHandle i := blank_freshHandle.unused i
  refine @Depicts.lying _ (fun _ => []) _
    ⟨sound_freshHandle, sound_freshHandle, ?_, ?_, ?_, ?_⟩ rfl
  · intro i
    have dir : (mountedOn formattedImage).dirEntries = diskDir formattedImage := rfl
    have image : (mountedOn formattedImage).imageFile = formattedImage := rfl
    rw [dir, image]
  · exact fun _ => List.prefix_rfl
  · funext i
    exact (if_neg (unused i)).symm
  · funext slot
    rw [openPlace, mountedOn_openFiles]
    rfl

/-- **Drives answer as volumes do**: every call, mount and unmount, in every run from a
freshly formatted image, also when space runs out, when the handle is lost at any point and
when an image does not mount again. -/
theorem drives_answer_as_volumes {file : ImageFile} (formatted : fsFormatImage [] = .ok file)
    (ops : List DriveOp) :
    drives.results ⟨file, fsInit⟩ ops = volumes.results Volume.blank ops := by
  obtain rfl : formattedImage = file := Except.ok.inj (fsFormatImage_eq.symm.trans formatted)
  exact (drivesSimulation.run depicts_blank (Machine.along_of_forall (fun _ _ _ => trivial) _)).1

/-- A file is made and written, the power is cut, and the file is read. -/
def powerCutRun : List DriveOp :=
  [.mount, .call (.open (some nameA) (fsOWrite ||| fsOCreate)), .call (.write 0 (.bytes [7, 8])),
    .init, .mount, .call (.open (some nameA) fsORead), .call (.read 0 true 5)]

theorem drives_answer_as_volumes_powerCut :
    drives.results ⟨formattedImage, fsInit⟩ powerCutRun =
      volumes.results Volume.blank powerCutRun :=
  drives_answer_as_volumes fsFormatImage_eq powerCutRun

example : volumes.results Volume.blank powerCutRun =
    [.ok .done, .ok (.descriptor 0), .ok (.written 2), .ok .done, .ok .done, .ok (.descriptor 0),
      .ok (.bytes [7, 8])] := by
  decide +kernel

end TigerOS.Otfs
