import TigerOS.Otfs.FileMap

/-! # Images the mount accepts

A mounted image need not come from this code: all that is known of it is what
the validator checked (`TigerOS.Otfs.Accepted`). That is enough to read every
file exactly, but for the sizes whose rounding to blocks wraps: for these the
validator demands a chain of no blocks, and every read fails
(`TigerOS.Otfs.reads_exact_iff`).
-/

namespace TigerOS.Otfs

open Foundation

/-- What a mount knows of the handle it answers. -/
structure Accepted (fs : FsHandle) (chains : FileIndex → List BlockIndex) : Prop where
  mounted : fs.mounted = true
  chain : ∀ i, Used fs i → FatChain fs.fat (fs.dirEntries i).firstBlock (chains i)
  unused : ∀ i, ¬ Used fs i → chains i = []
  enough : ∀ i, Used fs i → requiredBlocks (fs.dirEntries i).sizeBytes ≤ (chains i).length
  bare : ∀ i, Used fs i → requiredBlocks (fs.dirEntries i).sizeBytes = 0 → chains i = []
  named : ∀ i, Used fs i → Named (fs.dirEntries i)
  distinct : ∀ i j, Used fs i → Used fs j →
    (fs.dirEntries i).nameString = (fs.dirEntries j).nameString → i = j
  closed : ∀ fd, fs.openFiles fd = OpenFile.zero

section Mounts

variable {file : ImageFile} {fs : FsHandle}

/-- Whatever became of its transfers, a mount that succeeds has validated. -/
theorem fsMount_validated (mounts : fsMount file = .ok fs) :
    validateMetadata { fs with mounted := false } = .ok () ∧ fs.mounted = true ∧
      ∀ fd, fs.openFiles fd = OpenFile.zero := by
  rw [fsMount] at mounts
  split at mounts
  · cases mounts
  · split at mounts
    · cases mounts
    · split at mounts
      · cases mounts
      · split at mounts
        · cases mounts
        · simp only at mounts
          split at mounts
          · cases mounts
          · rename_i validated
            cases mounts
            exact ⟨validated, rfl, fun _ => rfl⟩

/-- **What a mount checks.** -/
theorem accepted_of_mount (mounts : fsMount file = .ok fs) : ∃ chains, Accepted fs chains := by
  obtain ⟨validated, mounted, closed⟩ := fsMount_validated mounts
  obtain ⟨_, entries, twins⟩ := validateMetadata_eq_ok.mp validated
  have backed (i : FileIndex) : ∃ blocks, (Used fs i →
      FatChain fs.fat (fs.dirEntries i).firstBlock blocks ∧
      requiredBlocks (fs.dirEntries i).sizeBytes ≤ blocks.length ∧
      (requiredBlocks (fs.dirEntries i).sizeBytes = 0 → blocks = [])) ∧
      (¬ Used fs i → blocks = []) := by
    by_cases used : Used fs i
    · obtain ⟨blocks, valid⟩ := validateEntryChain_eq_ok.mp (entries i used).2.2
      exact ⟨blocks, fun _ => valid, fun unused => absurd used unused⟩
    · exact ⟨[], fun used' => absurd used' used, fun _ => rfl⟩
  choose chains valid unused using backed
  refine ⟨chains, {
    mounted := mounted
    chain := fun i used => (valid i used).1
    unused := unused
    enough := fun i used => (valid i used).2.1
    bare := fun i used => (valid i used).2.2
    named := fun i used => ⟨(entries i used).1, (entries i used).2.1⟩
    distinct := ?_
    closed := closed }⟩
  intro i j usedI usedJ same
  rcases lt_trichotomy i j with before | equal | after
  · exact absurd ((strncmp_eq_zero _ _ _).mpr same) (twins i j before usedI usedJ)
  · exact equal
  · exact absurd ((strncmp_eq_zero _ _ _).mpr same.symm) (twins j i after usedJ usedI)

end Mounts

/-! ## Reading an accepted image -/

/-- A reader that opens the name with any flags that ask for reading and not for
truncation, moves anywhere and reads any length gets exactly the bytes up to the
recorded size. -/
def ReadsExactly (fs : FsHandle) (name : CString) (size : UInt32) : Prop :=
  ∀ flags, flags &&& fsORead ≠ 0 → flags &&& fsOTrunc = 0 → ∀ offset len,
    ∃ fd opened, fsOpen fs (some name) flags = (.ok fd, opened) ∧
      (fsSeek opened fd offset).1 = .ok () ∧
      ∃ data, (fsRead (fsSeek opened fd offset).2 fd true len).1 = .ok data ∧
        data.length = min len (size.toNat - offset.toNat)

section Reading

variable {fs : FsHandle} {chains : FileIndex → List BlockIndex} {name : CString} {i : FileIndex}
  {flags : UInt32}

private theorem not_badFlags (reads : flags &&& fsORead ≠ 0) (keeps : flags &&& fsOTrunc = 0) :
    ¬ badFlags flags := by
  rintro (neither | ⟨empties, _⟩)
  · refine reads ?_
    have both : (fsORead ||| fsOWrite) &&& fsORead = fsORead := by decide
    rw [← both, ← UInt32.and_assoc, neither, UInt32.zero_and]
  · exact empties keeps

/-- The first open on an accepted image takes the first slot. -/
theorem Accepted.fsOpen_eq (accepted : Accepted fs chains) (faultless : fs.imageFile.Faultless)
    (used : Used fs i) (named : (fs.dirEntries i).nameString = name.bytes)
    (reads : flags &&& fsORead ≠ 0) (keeps : flags &&& fsOTrunc = 0) :
    fsOpen fs (some name) flags = (.ok 0, fs.setOpenFile 0 ⟨true, i, 0, flags⟩) := by
  have valid : validateName (some name.bytes) = .ok () := named ▸ (accepted.named i used).2
  have found := (findDirEntry_eq_some accepted.distinct name.noNul
    (validateName_eq_ok.mp valid).1.2).mpr ⟨used, named⟩
  have slot : allocFd fs = some 0 := by
    rw [allocFd, List.finRange_succ, List.find?_cons_of_pos]
    exact decide_eq_true (congrArg OpenFile.inUse (accepted.closed 0))
  rw [Otfs.fsOpen_eq accepted.mounted faultless valid (not_badFlags reads keeps) chains
    accepted.chain, found]
  simp only [openEntry, if_neg (not_not.mpr keeps), openSlot, slot]

/-- The handle after the first open and a seek. -/
def reader (fs : FsHandle) (i : FileIndex) (flags offset : UInt32) : FsHandle :=
  sought (fs.setOpenFile 0 ⟨true, i, 0, flags⟩) 0 offset

theorem reader_slot (offset : UInt32) :
    (reader fs i flags offset).openFiles 0 = ⟨true, i, offset, flags⟩ := by
  simp only [reader, sought, FsHandle.setOpenFile, Function.update_self]

theorem names_reader (offset : UInt32) : Names (reader fs i flags offset) 0 0 :=
  ⟨rfl, by rw [reader_slot]⟩

theorem fsSeek_reader (mounted : fs.mounted = true) (offset : UInt32) :
    fsSeek (fs.setOpenFile 0 ⟨true, i, 0, flags⟩) 0 offset = (.ok (), reader fs i flags offset) :=
  fsSeek_eq mounted ⟨rfl, by simp only [FsHandle.setOpenFile, Function.update_self]⟩

/-- A size whose rounding wraps is accepted with no blocks, and its first byte
cannot be read. -/
theorem Accepted.unreadable (accepted : Accepted fs chains) (used : Used fs i)
    (reads : flags &&& fsORead ≠ 0)
    (wraps : 2 ^ 32 ≤ (fs.dirEntries i).sizeBytes.toNat + 511) :
    (fsRead (reader fs i flags 0) 0 true 1).1 = .error .state := by
  have bound := (fs.dirEntries i).sizeBytes.toNat_lt
  have none : chains i = [] := by
    refine accepted.bare i used ?_
    rw [requiredBlocks]
    omega
  have chain := accepted.chain i used
  rw [none] at chain
  rw [@fsRead_unbacked (reader fs i flags 0) _ _ _ [] accepted.mounted (names_reader 0)]
  · rw [reader_slot]
    exact reads
  · exact one_ne_zero
  · rw [reader_slot]
    exact chain
  · rw [reader_slot]
    change 0 < (fs.dirEntries i).sizeBytes.toNat
    omega
  · exact Nat.zero_le _

/-- **Reads of an accepted image** are exact for exactly the sizes whose rounding
to blocks does not wrap. -/
theorem reads_exact_iff {file : ImageFile} (faultless : file.Faultless) (complete : file.Complete)
    (mounts : fsMount file = .ok fs) (used : Used fs i)
    (named : (fs.dirEntries i).nameString = name.bytes) :
    ReadsExactly fs name (fs.dirEntries i).sizeBytes ↔
      (fs.dirEntries i).sizeBytes.toNat + 511 < 2 ^ 32 := by
  obtain ⟨chains, accepted⟩ := accepted_of_mount mounts
  have image : fs.imageFile = file := by
    rw [((fsMount_eq_ok faultless).mp mounts).2.2.2]
    rfl
  have faultless' : fs.imageFile.Faultless := by rwa [image]
  constructor
  · intro exact
    by_contra wraps
    have reads : fsORead &&& fsORead ≠ 0 := by decide
    obtain ⟨fd, opened, opens, _, data, answer, _⟩ := exact fsORead reads (by decide) 0 1
    rw [accepted.fsOpen_eq faultless' used named reads (by decide)] at opens
    cases opens
    have seeks := @fsSeek_reader _ i fsORead accepted.mounted 0
    have failed := accepted.unreadable used reads (not_lt.mp wraps)
    have place : ((0 : Descriptor) : ℤ) = 0 := rfl
    rw [place, seeks, failed] at answer
    cases answer
  · intro fits flags reads keeps offset len
    refine ⟨0, _, accepted.fsOpen_eq faultless' used named reads keeps, ?_⟩
    have seeks := @fsSeek_reader _ i flags accepted.mounted offset
    have backed : (fs.dirEntries i).sizeBytes.toNat ≤ fsBlockSize * (chains i).length := by
      have enough := accepted.enough i used
      rw [requiredBlocks] at enough
      change _ ≤ 512 * _
      omega
    have answered := @fsRead_eq (reader fs i flags offset) _ _ true len (chains i) accepted.mounted
      (names_reader offset) (by simp)
      (by rw [reader_slot]; exact reads) faultless'
        (by rw [reader_slot]; exact accepted.chain i used)
      (by rw [reader_slot]; exact backed)
    have place : ((0 : Descriptor) : ℤ) = 0 := rfl
    rw [place, seeks]
    refine ⟨rfl, ?_⟩
    obtain answered | ⟨_, incomplete⟩ := answered
    · refine ⟨_, congrArg Prod.fst answered, ?_⟩
      rw [length_readRange, readable, reader_slot]
      rfl
    · rw [← image] at complete
      exact absurd complete incomplete

end Reading

/-! ## A size that wraps -/

/-- The image of a handle once its directory and FAT are replaced. -/
def imageWith (fs : FsHandle) (dir : FileIndex → DirEntry) (fat : BlockIndex → UInt32) :
    ImageFile :=
  (synced { fs with dirEntries := dir, fat := fat }).imageFile

/-- A handle that is synced writes its own directory and FAT. -/
theorem imageWith_self (fs : FsHandle) :
    imageWith fs fs.dirEntries fs.fat = (synced fs).imageFile := by
  unfold imageWith
  rfl

section ImageWith

variable {fs : FsHandle} {chains : FileIndex → List BlockIndex} {dir : FileIndex → DirEntry}
  {fat : BlockIndex → UInt32}

theorem Sound.imageWith_faultless (sound : Sound fs chains) : (imageWith fs dir fat).Faultless :=
  @synced_faultless { fs with dirEntries := dir, fat := fat } sound.faultless

theorem Sound.imageWith_complete (sound : Sound fs chains) : (imageWith fs dir fat).Complete :=
  sound.complete.trans (@size_le_synced { fs with dirEntries := dir, fat := fat })

/-- The image mounts when the validator accepts what replaced its metadata. -/
theorem Sound.fsMount_imageWith (sound : Sound fs chains)
    (valid : ∀ fs : FsHandle, fs.dirEntries = dir → fs.fat = fat → validateMetadata fs = .ok ()) :
    fsMount (imageWith fs dir fat) = .ok (mountedOn (imageWith fs dir fat)) ∧
      (mountedOn (imageWith fs dir fat)).dirEntries = dir ∧
      (mountedOn (imageWith fs dir fat)).fat = fat := by
  have sameDir : (mountedOn (imageWith fs dir fat)).dirEntries = dir :=
    @diskDir_synced { fs with dirEntries := dir, fat := fat }
  have sameFat : (mountedOn (imageWith fs dir fat)).fat = fat :=
    @diskFat_synced { fs with dirEntries := dir, fat := fat }
  have superblock : diskSuperblock (imageWith fs dir fat) = expectedSuperblock :=
    (@diskSuperblock_synced { fs with dirEntries := dir, fat := fat }).trans
      sound.superblock
  refine ⟨(fsMount_eq_ok sound.imageWith_faultless).mpr ⟨le_trans (by decide)
    sound.imageWith_complete, superblock, ?_, rfl⟩, sameDir, sameFat⟩
  exact valid (loaded (imageWith fs dir fat)) sameDir sameFat

end ImageWith

/-- A directory of one file `a` without blocks, of any recorded size. -/
def bareDir (size : UInt32) : FileIndex → DirEntry := fun i =>
  if i = 0 then { newEntry nameA.bytes with sizeBytes := size } else DirEntry.zero

/-- The image of such a directory. -/
def bareImage (fs : FsHandle) (size : UInt32) : ImageFile :=
  imageWith fs (bareDir size) fun _ => fatFree

/-- It mounts where the validator requires no blocks for the size. -/
theorem Sound.fsMount_bareImage {base : FsHandle} {chains : FileIndex → List BlockIndex}
    {size : UInt32} (sound : Sound base chains) (none : requiredBlocks size = 0) :
    fsMount (bareImage base size) = .ok (mountedOn (bareImage base size)) ∧
      Used (mountedOn (bareImage base size)) 0 ∧
      ((mountedOn (bareImage base size)).dirEntries 0).nameString = nameA.bytes ∧
      ((mountedOn (bareImage base size)).dirEntries 0).sizeBytes = size := by
  have usedIff (i : FileIndex) : (bareDir size i).used ≠ 0 ↔ i = 0 := by
    rw [bareDir]
    split
    · rename_i first
      exact iff_of_true (by decide : (1 : UInt8) ≠ 0) first
    · rename_i other
      exact iff_of_false (by decide) other
  have first : bareDir size 0 = { newEntry nameA.bytes with sizeBytes := size } := if_pos rfl
  have nameString : (bareDir size 0).nameString = nameA.bytes := by
    rw [first]
    exact nameString_newEntry nameA.noNul (by decide)
  have named : Named (bareDir size 0) := by
    rw [first]
    exact named_newEntry nameA.noNul (by decide)
  obtain ⟨mounts, dir, fat⟩ := @Sound.fsMount_imageWith _ _ (bareDir size)
    (fun _ => fatFree) sound (by
      intro fs dir fat
      refine validateMetadata_eq_ok.mpr ⟨?_, ?_, ?_⟩
      · intro b
        rw [fat]
        exact .inl rfl
      · intro i used
        rw [dir] at used ⊢
        obtain rfl := (usedIff i).mp used
        refine ⟨named.1, named.2, validateEntryChain_eq_ok.mpr ⟨[], ?_, ?_, fun _ => rfl⟩⟩
        · rw [fatChain_nil, first]
          rfl
        · rw [first]
          exact none.le
      · intro i j later usedI usedJ
        rw [dir] at usedI usedJ
        exact absurd ((usedIff i).mp usedI |>.trans ((usedIff j).mp usedJ).symm) later.ne)
  refine ⟨mounts, ?_, ?_, ?_⟩
  · rw [Used, bareImage, dir]
    exact (usedIff 0).mpr rfl
  · rw [bareImage, dir, nameString]
  · rw [bareImage, dir, first]

theorem reads_exact_iff_gap : ∃ fs,
    fsMount (synced (otfs.state freshHandle gapRun)).imageFile = .ok fs ∧
      (fs.dirEntries 0).sizeBytes.toNat = 601 ∧
      (ReadsExactly fs nameA (fs.dirEntries 0).sizeBytes ↔
        (fs.dirEntries 0).sizeBytes.toNat + 511 < 2 ^ 32) := by
  obtain ⟨blocks, written⟩ := blank_freshHandle.gapRun_state
  obtain ⟨chains, sound, backed, bare⟩ := @kept_of_fits gapRun
    (by simp [gapRun, NonEmptyWrite, SourceBuffer.len])
    (@Blank.fits_gapRun _ [] blank_freshHandle fun _ => trivial)
  generalize otfs.state freshHandle gapRun = after at written sound backed bare ⊢
  rw [← imageWith_self]
  obtain ⟨mounts, dir, _⟩ := @Sound.fsMount_imageWith _ _ after.dirEntries after.fat sound
    fun _ dir fat => sound.validates backed bare dir fat
  have used : Used after 0 := written.dirIndex ▸ sound.opened 0 written.inUse
  have named : (after.dirEntries 0).nameString = nameA.bytes := by
    rw [DirEntry.nameString, written.name]
    exact nameString_newEntry nameA.noNul (by decide)
  refine ⟨_, mounts, ?_, reads_exact_iff sound.imageWith_faultless sound.imageWith_complete mounts
    ?_ ?_⟩
  · rw [dir, written.sizeBytes]
  · rw [Used, dir]
    exact used
  · rw [dir, named]

/-- An accepted image holds a file whose size wraps; reading its first byte
fails. -/
theorem Sound.bareImage_unreadable {base : FsHandle} {chains : FileIndex → List BlockIndex}
    (sound : Sound base chains) : ∃ fs, fsMount (bareImage base 0xffffffff) = .ok fs ∧
      fsOpen fs (some nameA) fsORead = (.ok 0, fs.setOpenFile 0 ⟨true, 0, 0, fsORead⟩) ∧
      (fsRead (fsSeek (fs.setOpenFile 0 ⟨true, 0, 0, fsORead⟩) 0 0).2 0 true 1).1 =
        .error .state := by
  obtain ⟨mounts, used, named, size⟩ := @Sound.fsMount_bareImage _ _ 0xffffffff sound (by decide)
  obtain ⟨chains, accepted⟩ := accepted_of_mount mounts
  have reads : fsORead &&& fsORead ≠ 0 := by decide
  refine ⟨_, mounts, ?_, ?_⟩
  · exact accepted.fsOpen_eq sound.imageWith_faultless used named reads (by decide)
  · rw [fsSeek_reader accepted.mounted]
    refine accepted.unreadable used reads ?_
    rw [size]
    decide

theorem hugeImage_unreadable : (bareImage freshHandle 0xffffffff).Faultless ∧
    (bareImage freshHandle 0xffffffff).Complete ∧
    ∃ fs, fsMount (bareImage freshHandle 0xffffffff) = .ok fs ∧
      fsOpen fs (some nameA) fsORead = (.ok 0, fs.setOpenFile 0 ⟨true, 0, 0, fsORead⟩) ∧
      (fsRead (fsSeek (fs.setOpenFile 0 ⟨true, 0, 0, fsORead⟩) 0 0).2 0 true 1).1 =
        .error .state :=
  ⟨blank_freshHandle.sound.imageWith_faultless, blank_freshHandle.sound.imageWith_complete,
    blank_freshHandle.sound.bareImage_unreadable⟩

end TigerOS.Otfs
