import TigerOS.Otfs.Reachable

/-! # Mounting again

What a handle shows is, for every name, the recorded size and the bytes a reader
gets. An image that carries the directory, the FAT and the blocks of a sound
handle is accepted and shows the same files, provided sizes are backed by blocks
and files of size zero have none (`TigerOS.Otfs.Sound.remount`). A write that
runs out of space on an empty file is the one call that breaks the second
proviso (`TigerOS.Otfs.remountable`, `TigerOS.Otfs.unmountable_of_filled`).
Without such a write the image is current after every call
(`TigerOS.Otfs.durable`).
-/

namespace TigerOS.Otfs

open Foundation

/-- What a reader that opens a name on its own descriptor table gets: the
recorded size, and the answer to reading that many bytes. -/
def shown (fs : FsHandle) (name : CString) : Option (UInt32 × Except FsError (List UInt8)) :=
  match fsOpen { fs with openFiles := fun _ => OpenFile.zero } (some name) fsORead with
  | (.error _, _) => none
  | (.ok fd, fs) =>
      let size := (fs.dirEntries (fs.openFiles fd).dirIndex).sizeBytes
      some (size, (fsRead fs fd true size.toNat).1)

/-- The bytes of a file. -/
def fileBytes (fs : FsHandle) (chains : FileIndex → List BlockIndex) (i : FileIndex) : List UInt8 :=
  readRange (contentAt fs.imageFile (chains i)) 0 (fs.dirEntries i).sizeBytes.toNat

/-- A handle on which only a reader has opened a file. -/
def readerOf (fs : FsHandle) (i : FileIndex) : FsHandle :=
  ({ fs with openFiles := fun _ => OpenFile.zero } : FsHandle).setOpenFile 0 ⟨true, i, 0, fsORead⟩

section Shown

variable {fs : FsHandle} {chains : FileIndex → List BlockIndex} {i : FileIndex}

theorem readerOf_slot : (readerOf fs i).openFiles 0 = ⟨true, i, 0, fsORead⟩ :=
  FsHandle.setOpenFile_same ..

theorem named_readerOf : Names (readerOf fs i) 0 0 := ⟨rfl, by rw [readerOf_slot]⟩

theorem reads_readerOf : ((readerOf fs i).openFiles 0).flags &&& fsORead ≠ 0 := by
  have reads : fsORead &&& fsORead ≠ 0 := by decide
  rw [readerOf_slot]
  exact reads

theorem Sound.readerOf (sound : Sound fs chains) (used : Used fs i) :
    Sound (readerOf fs i) chains := by
  have fresh : Sound { fs with openFiles := fun _ => OpenFile.zero } chains :=
    { sound with opened := fun _ inUse => by cases inUse }
  exact fresh.setOpenFile fun _ => used

/-- A reader opens the file that it finds, on its first descriptor. -/
theorem Sound.fsOpen_reader (sound : Sound fs chains) {name : CString}
    (valid : validateName (some name.bytes) = .ok ())
    (found : findDirEntry fs name.bytes = some i) :
    Used fs i ∧ fsOpen { fs with openFiles := fun _ => OpenFile.zero } (some name) fsORead =
      (.ok 0, Otfs.readerOf fs i) := by
  have used := ((findDirEntry_eq_some sound.distinct name.noNul
    (validateName_eq_ok.mp valid).1.2).mp found).1
  refine ⟨used, ?_⟩
  set reader : FsHandle := { fs with openFiles := fun _ => OpenFile.zero } with readerEq
  have fresh : Sound reader chains :=
    { sound with opened := fun _ inUse => by cases inUse }
  have found' : findDirEntry reader name.bytes = some i := found
  have slot : allocFd reader = some 0 := by
    rw [allocFd, List.finRange_succ, List.find?_cons_of_pos]
    rfl
  have opens : openEntry reader i (chains i) fsORead =
      (.ok 0, reader.setOpenFile 0 ⟨true, i, 0, fsORead⟩) := by
    rw [openEntry, if_neg (by decide), openSlot, slot]
  rw [fsOpen_eq fresh.mounted fresh.faultless valid (by decide) chains fresh.chain, found']
  exact opens

/-- A reader fails to open what it does not find. -/
theorem Sound.fsOpen_reader_none (sound : Sound fs chains) {name : CString}
    (missing : validateName (some name.bytes) = .ok () → findDirEntry fs name.bytes = none) :
    ∃ error after, fsOpen { fs with openFiles := fun _ => OpenFile.zero } (some name) fsORead =
      (.error error, after) := by
  set reader : FsHandle := { fs with openFiles := fun _ => OpenFile.zero } with readerEq
  have fresh : Sound reader chains :=
    { sound with opened := fun _ inUse => by cases inUse }
  rcases validateName_cases name.bytes with valid | invalid
  · have missing' : findDirEntry reader name.bytes = none := missing valid
    rw [fsOpen_eq fresh.mounted fresh.faultless valid (by decide) chains fresh.chain, missing']
    exact ⟨_, _, rfl⟩
  · have common : validateCommon reader = .ok () := by rw [validateCommon, if_pos fresh.mounted]
    rw [fsOpen, common]
    simp only [invalid]
    exact ⟨_, _, rfl⟩

/-- A reader gets the bytes of the file it finds. -/
theorem shown_eq (sound : Sound fs chains) (backed : AllBacked fs chains) (name : CString) :
    shown fs name = if validateName (some name.bytes) = .ok () then
      (findDirEntry fs name.bytes).map fun i =>
        ((fs.dirEntries i).sizeBytes, .ok (fileBytes fs chains i))
      else none := by
  unfold shown
  by_cases valid : validateName (some name.bytes) = .ok ()
  · rw [if_pos valid]
    cases found : findDirEntry fs name.bytes with
    | none =>
        obtain ⟨error, after, fails⟩ := sound.fsOpen_reader_none fun _ => found
        rw [fails]
        rfl
    | some i =>
        obtain ⟨used, opens⟩ := sound.fsOpen_reader valid found
        have answer := @Sound.fsRead_eq _ _ 0 0 (sound.readerOf used) named_readerOf
          reads_readerOf (by rw [readerOf_slot]; exact backed i used)
          (fs.dirEntries i).sizeBytes.toNat
        have whole : readable (Otfs.readerOf fs i) 0 (fs.dirEntries i).sizeBytes.toNat =
            (fs.dirEntries i).sizeBytes.toNat := by
          rw [readable, readerOf_slot]
          exact min_self _
        rw [whole, readerOf_slot] at answer
        simp only [opens, readerOf_slot, Option.map_some]
        exact congrArg (fun out => some ((fs.dirEntries i).sizeBytes, Prod.fst out)) answer
  · obtain ⟨error, after, fails⟩ := sound.fsOpen_reader_none fun valid' => absurd valid' valid
    rw [if_neg valid, fails]

end Shown

/-! ## Accepting what a sound handle holds -/

/-- A file of size zero has no blocks. -/
def EmptyBare (fs : FsHandle) (chains : FileIndex → List BlockIndex) : Prop :=
  ∀ i, Used fs i → (fs.dirEntries i).sizeBytes = 0 → chains i = []

/-- An image carries the metadata and the blocks of a handle. -/
structure Carries (file : ImageFile) (fs : FsHandle) : Prop where
  faultless : file.Faultless
  size : fs.imageFile.size ≤ file.size
  superblock : diskSuperblock file = diskSuperblock fs.imageFile
  dir : diskDir file = fs.dirEntries
  fat : diskFat file = fs.fat
  block : ∀ b, ∀ j < fsBlockSize, blockByte file b j = blockByte fs.imageFile b j

section Accepting

variable {fs : FsHandle} {chains : FileIndex → List BlockIndex} {file : ImageFile}

private theorem requiredBlocks_le {size : UInt32} {count : ℕ} (short : count ≤ fsDataBlockCount)
    (within : size.toNat ≤ fsBlockSize * count) : requiredBlocks size ≤ count := by
  change count ≤ 249 at short
  change size.toNat ≤ 512 * count at within
  rw [requiredBlocks]
  omega

private theorem eq_zero_of_requiredBlocks {size : UInt32} {count : ℕ}
    (short : count ≤ fsDataBlockCount) (within : size.toNat ≤ fsBlockSize * count)
    (none : requiredBlocks size = 0) : size = 0 := by
  change count ≤ 249 at short
  change size.toNat ≤ 512 * count at within
  rw [requiredBlocks] at none
  rw [← UInt32.toNat_inj, UInt32.toNat_zero]
  omega

/-- The validator accepts the metadata of a sound handle. -/
theorem Sound.validates (sound : Sound fs chains) (backed : AllBacked fs chains)
    (bare : EmptyBare fs chains) {other : FsHandle} (dir : other.dirEntries = fs.dirEntries)
    (fat : other.fat = fs.fat) : validateMetadata other = .ok () := by
  refine validateMetadata_eq_ok.mpr ⟨?_, ?_, ?_⟩
  · intro b
    rw [fat]
    by_cases free : fs.fat b = fatFree
    · exact .inl free
    · obtain ⟨i, member⟩ := sound.covered b free
      have used : Used fs i := by
        by_contra unused
        rw [sound.unused i unused] at member
        cases member
      obtain isEnd | ⟨c, linked⟩ := FatChain.cell_links (sound.chain i used) member
      · exact .inr (.inl isEnd)
      · refine .inr (.inr ?_)
        rw [linked, blockAt?_blockLink]
        exact Option.some_ne_none c
  · intro i used
    rw [dir] at used ⊢
    obtain ⟨terminated, valid⟩ := sound.named i used
    refine ⟨terminated, valid, validateEntryChain_eq_ok.mpr ⟨chains i, ?_, ?_, ?_⟩⟩
    · rw [fat]
      exact sound.chain i used
    · exact requiredBlocks_le (FatChain.length_le (sound.chain i used)) (backed i used)
    · intro none
      exact bare i used (eq_zero_of_requiredBlocks (FatChain.length_le (sound.chain i used))
        (backed i used) none)
  · intro i j later usedI usedJ same
    rw [dir] at usedI usedJ same
    exact later.ne (sound.distinct i j usedI usedJ ((strncmp_eq_zero _ _ _).mp same))

/-- **Mounting again.** An image that carries a sound handle mounts, and the new
handle shows what the old one shows. -/
theorem Sound.remount (sound : Sound fs chains) (backed : AllBacked fs chains)
    (bare : EmptyBare fs chains) (carries : Carries file fs) :
    ∃ fs', fsMount file = .ok fs' ∧ ∀ name, shown fs' name = shown fs name := by
  have complete : file.Complete := sound.complete.trans carries.size
  have dir : (mountedOn file).dirEntries = fs.dirEntries := carries.dir
  have fat : (mountedOn file).fat = fs.fat := carries.fat
  have usedIff (i : FileIndex) : Used (mountedOn file) i ↔ Used fs i := by rw [Used, Used, dir]
  have sound' : Sound (mountedOn file) chains := by
    refine {
      chain := ?_, unused := ?_, apart := sound.apart, covered := ?_, mounted := rfl
      faultless := carries.faultless, complete := complete
      superblock := carries.superblock.trans sound.superblock, named := ?_, distinct := ?_
      opened := fun _ inUse => by cases inUse }
    · intro i used
      rw [fat, dir]
      exact sound.chain i ((usedIff i).mp used)
    · intro i unused
      exact sound.unused i fun used => unused ((usedIff i).mpr used)
    · rw [fat]
      exact sound.covered
    · intro i used
      rw [dir]
      exact sound.named i ((usedIff i).mp used)
    · intro i j usedI usedJ
      rw [dir]
      exact sound.distinct i j ((usedIff i).mp usedI) ((usedIff j).mp usedJ)
  have backed' : AllBacked (mountedOn file) chains := by
    intro i used
    rw [Backed, dir]
    exact backed i ((usedIff i).mp used)
  refine ⟨mountedOn file, ?_, ?_⟩
  · refine (fsMount_eq_ok carries.faultless).mpr ⟨le_trans (by decide) complete,
      carries.superblock.trans sound.superblock, ?_, rfl⟩
    exact sound.validates backed bare carries.dir carries.fat
  · intro name
    have sameFind : findDirEntry (mountedOn file) name.bytes = findDirEntry fs name.bytes := by
      rw [findDirEntry, findDirEntry, dir]
    have sameBytes (i : FileIndex) : fileBytes (mountedOn file) chains i =
        fileBytes fs chains i := by
      have contents : contentAt (mountedOn file).imageFile (chains i) =
          contentAt fs.imageFile (chains i) :=
        contentAt_congr fun b _ j inside => carries.block b j inside
      rw [fileBytes, fileBytes, dir, contents]
    rw [shown_eq sound' backed', shown_eq sound backed, sameFind]
    simp only [sameBytes, dir]

/-- Flushing makes the image carry the handle. -/
theorem Sound.synced_carries (sound : Sound fs chains) : Carries (Otfs.synced fs).imageFile fs where
  faultless := synced_faultless sound.faultless
  size := size_le_synced
  superblock := diskSuperblock_synced
  dir := diskDir_synced
  fat := diskFat_synced
  block := fun b j _ => synced_blockByte b j

end Accepting

/-! ## Runs that stay mountable -/

/-- The call is no write of length zero. -/
def NonEmptyWrite : FsOp → Prop
  | .write _ buf => 1 ≤ buf.len
  | _ => True

/-- A write with a buffer to a file of size zero finds no free block, or enough
to reach its end. -/
def EmptyFileFits (fs : FsHandle) : FsOp → Prop
  | .write fd buf => ¬ buf.Missing → ∀ slot, Names fs fd slot →
      (fs.openFiles slot).flags &&& fsOWrite ≠ 0 →
      (fs.dirEntries (fs.openFiles slot).dirIndex).sizeBytes = 0 → freeBlocks fs.fat = [] ∨
      ((fs.openFiles slot).offset.toNat + buf.len - 1) / fsBlockSize < (freeBlocks fs.fat).length
  | _ => True

theorem SourceBuffer.length_data {buf : SourceBuffer} (buffer : ¬ buf.Missing) :
    buf.data.length = buf.len := by
  cases buf with
  | null len =>
      have none : len = 0 := by
        by_contra some
        exact buffer some
      exact none.symm
  | bytes data => rfl

section Runs

variable {fs mid : FsHandle} {chains chains' : FileIndex → List BlockIndex}

theorem Entered.emptyBare {name : List UInt8} {flags : UInt32} {i : FileIndex}
    (entered : Entered fs chains name flags i mid chains') (sound : Sound fs chains)
    (bare : EmptyBare fs chains) : EmptyBare mid chains' := by
  cases entered with
  | found => exact bare
  | emptied found empties =>
      intro j used zero
      by_cases same : j = i
      · rw [same, Function.update_self]
      · rw [Function.update_of_ne same]
        rw [Used, synced_dirEntries, truncated, FsHandle.setEntry_other _ same] at used
        rw [synced_dirEntries, truncated, FsHandle.setEntry_other _ same] at zero
        exact bare j used zero
  | made missing unused =>
      intro j used zero
      by_cases same : j = i
      · rw [same]
        exact sound.unused i unused
      · rw [Used, synced_dirEntries, created, FsHandle.setEntry_other _ same] at used
        rw [synced_dirEntries, created, FsHandle.setEntry_other _ same] at zero
        exact bare j used zero

/-- Every effect of an admitted call keeps empty files bare. -/
theorem Effect.emptyBare {op : FsOp} {answer : Except FsError FsValue} (sound : Sound fs chains)
    (bare : EmptyBare fs chains) (nonempty : NonEmptyWrite op)
    (fits : answer = .error .noSpace → EmptyFileFits fs op)
    (effect : Effect fs chains op answer mid chains') : EmptyBare mid chains' := by
  cases effect with
  | refused _ => exact bare
  | opened _ entered _ => exact entered.emptyBare sound bare
  | noSlot _ entered => exact entered.emptyBare sound bare
  | noEntry => exact bare
  | closed _ => exact bare
  | sought _ => exact bare
  | read _ _ => exact bare
  | @wrote fd buf slot mid added named buffer writes stored sized =>
      intro j used zero
      rw [Used, synced_dirEntries] at used
      rw [synced_dirEntries] at zero
      by_cases same : j = (fs.openFiles slot).dirIndex
      · have sizeNat := toNat_size_grown mid slot (fs.openFiles slot).dirIndex
        have length := SourceBuffer.length_data buffer
        change 1 ≤ buf.len at nonempty
        rw [same] at zero
        rw [zero, UInt32.toNat_zero, stored.offset] at sizeNat
        omega
      · rw [grown_other _ _ same] at used zero
        rw [stored.extended.used] at used
        rw [stored.extended.sizeBytes] at zero
        rw [lengthened, Function.update_of_ne same]
        exact bare j used zero
  | @filled fd buf slot mid added done named buffer writes stored full short =>
      intro j used zero
      rw [Used, stored.extended.used] at used
      rw [stored.extended.sizeBytes] at zero
      by_cases same : j = (fs.openFiles slot).dirIndex
      · subst same
        have none := bare _ used zero
        have taken : freeBlocks fs.fat = added := by
          rw [stored.extended.free, full, List.append_nil]
        rw [lengthened, Function.update_self, none, List.nil_append]
        obtain nothing | enough := fits rfl buffer slot named writes zero
        · rw [← taken, nothing]
        · rw [none, List.length_nil, Nat.zero_add, blocksFor,
            SourceBuffer.length_data buffer] at short
          rw [taken] at enough
          split at short <;> omega
      · rw [lengthened, Function.update_of_ne same]
        exact bare j used zero

/-- Writes of at least one byte keep the sizes backed. -/
theorem NonEmptyWrite.zeroWriteWithin {op : FsOp} (nonempty : NonEmptyWrite op) (fs : FsHandle) :
    ZeroWriteWithin fs op := by
  cases op with
  | write fd buf =>
      intro zero
      change 1 ≤ buf.len at nonempty
      omega
  | _ => trivial

/-- Admitted runs keep the sizes backed and empty files bare. -/
theorem kept_of_fits {ops : List FsOp} (nonempty : ∀ op ∈ ops, NonEmptyWrite op)
    (fits : otfs.Along EmptyFileFits freshHandle ops) :
    ∃ chains, Sound (otfs.state freshHandle ops) chains ∧
      AllBacked (otfs.state freshHandle ops) chains ∧
      EmptyBare (otfs.state freshHandle ops) chains := by
  have admitted := fits.and (@Machine.along_of_forall _ _ _ otfs (fun _ op => NonEmptyWrite op) _
    (fun _ op member => nonempty op member) freshHandle)
  exact @runInvariant _
    (fun fs chains => AllBacked fs chains ∧ EmptyBare fs chains)
    (fun sound holds admitted _ effect =>
      ⟨effect.allBacked sound holds.1 (admitted.2.zeroWriteWithin _),
        effect.emptyBare sound holds.2 admitted.2 fun _ => admitted.1⟩)
    _ _ sound_freshHandle
    ⟨fun i used => absurd used (blank_freshHandle.unused i), fun _ _ _ => rfl⟩ _ admitted

/-- **An image stays mountable** in every run from a freshly formatted one whose
writes have at least one byte and, with a buffer and on a file of size zero, do not
run out of space after taking a block: it unmounts, mounts again, and shows the
same files. -/
theorem remountable {file : ImageFile} {fs : FsHandle} (formatted : fsFormatImage [] = .ok file)
    (mounted : fsMount file = .ok fs) {ops : List FsOp} (nonempty : ∀ op ∈ ops, NonEmptyWrite op)
    (fits : otfs.Along EmptyFileFits fs ops) :
    ∃ file' fs', (fsUnmount (otfs.state fs ops)).1 = .ok file' ∧ fsMount file' = .ok fs' ∧
      ∀ name, shown fs' name = shown (otfs.state fs ops) name := by
  rw [eq_freshHandle formatted mounted] at fits ⊢
  obtain ⟨chains, sound, backed, bare⟩ := kept_of_fits nonempty fits
  obtain ⟨fs', mounts, same⟩ := sound.remount backed bare sound.synced_carries
  refine ⟨_, fs', ?_, mounts, same⟩
  rw [fsUnmount_eq sound.mounted sound.faultless]

/-- A write that takes every free block for a file of size zero and still runs
out of space leaves an image that does not mount. -/
theorem unmountable_of_filled {fd : ℤ} {slot : Descriptor} {data : List UInt8}
    (sound : Sound fs chains) (bare : EmptyBare fs chains) (named : Names fs fd slot)
    (writes : (fs.openFiles slot).flags &&& fsOWrite ≠ 0)
    (empty : (fs.dirEntries (fs.openFiles slot).dirIndex).sizeBytes = 0)
    (space : freeBlocks fs.fat ≠ []) (nonempty : data ≠ [])
    (past : (freeBlocks fs.fat).length ≤
      ((fs.openFiles slot).offset.toNat + data.length - 1) / fsBlockSize) :
    ∃ after image, fsWrite fs fd (.bytes data) = (.error .noSpace, after) ∧
      (fsUnmount after).1 = .ok image ∧ fsMount image = .error .state := by
  have used := sound.opened slot named.2
  have none := bare _ used empty
  have length : data.length ≠ 0 := fun zero => nonempty (List.length_eq_zero_iff.mp zero)
  have needed : blocksFor (fs.openFiles slot).offset.toNat data.length =
      ((fs.openFiles slot).offset.toNat + data.length - 1) / fsBlockSize + 1 := if_neg length
  obtain ⟨mid, added, done, _, extended, moved, _, outcome⟩ := @fsWrite_spec _ _ _ (.bytes data) _
    sound.mounted named id writes sound.faultless (sound.chain _ used)
  have taken := congrArg List.length extended.free
  rw [List.length_append] at taken
  obtain ⟨rfl, sized, _⟩ | ⟨full, _, fails⟩ | ⟨incomplete, _⟩ := outcome
  · rw [none, List.length_nil, SourceBuffer.data, needed] at sized
    omega
  · have soundMid : Sound mid (Function.update chains (fs.openFiles slot).dirIndex
        (chains (fs.openFiles slot).dirIndex ++ added)) := by
      refine sound.extended used extended fun other => ?_
      rw [moved]
      exact slot_advance fs slot _ other
    refine ⟨mid, (synced mid).imageFile, fails, ?_, ?_⟩
    · rw [fsUnmount_eq soundMid.mounted soundMid.faultless]
    · refine fsMount_of_invalid (synced_faultless soundMid.faultless)
        (le_trans (by decide) (soundMid.complete.trans size_le_synced)) fun valid => ?_
      have entry := (validateMetadata_eq_ok.mp valid).2.1 (fs.openFiles slot).dirIndex
      have dir : (loaded (synced mid).imageFile).dirEntries = mid.dirEntries := diskDir_synced
      have fat : (loaded (synced mid).imageFile).fat = mid.fat := diskFat_synced
      rw [dir, extended.used] at entry
      obtain ⟨_, _, accepted⟩ := entry used
      obtain ⟨blocks, chain, _, bare'⟩ := validateEntryChain_eq_ok.mp accepted
      rw [extended.sizeBytes, empty] at bare'
      rw [fat, bare' rfl] at chain
      have nothing := Chain.unique extended.chain chain
      rw [none, List.nil_append] at nothing
      rw [full, nothing, List.length_nil] at taken
      exact space (List.length_eq_zero_iff.mp taken)
  · exact absurd (sound.complete.trans extended.size) incomplete

end Runs

/-- A write past a gap of the first file has the blocks it needs. -/
theorem Blank.fits_gapRun {fs : FsHandle} {ops : List FsOp} (blank : Blank fs)
    (rest : ∀ fs, otfs.Along EmptyFileFits fs ops) :
    otfs.Along EmptyFileFits fs (gapRun ++ ops) := by
  refine blank.along_gapRun trivial trivial ?_ fun after _ _ => rest after
  intro _ slot named _ _
  obtain rfl := named.eq_zero
  rw [sought_openFiles_same, sought_fat, blank.freeBlocks_firstOpened, List.length_finRange]
  exact .inr (by decide : ((600 : UInt32).toNat + 1 - 1) / fsBlockSize < fsDataBlockCount)

/-- The descriptor is moved past the last block of the image, and a write there is
refused for its missing buffer. -/
def refusedRun : List FsOp := [.seek 0 127488, .write 0 (.null 1)]

theorem remountable_after_gap : ∃ file' fs',
    (fsUnmount (otfs.state freshHandle (gapRun ++ refusedRun))).1 = .ok file' ∧
      fsMount file' = .ok fs' ∧ ∀ name, shown fs' name =
        shown (otfs.state freshHandle (gapRun ++ refusedRun)) name :=
  remountable fsFormatImage_eq fsMount_formatted
    (by simp [gapRun, refusedRun, NonEmptyWrite, SourceBuffer.len])
    (blank_freshHandle.fits_gapRun fun _ =>
      ⟨trivial, fun buffer => absurd (by decide) buffer, trivial⟩)

/-- A file is created and one byte written past the last block of the image. -/
def fillingRun : List FsOp :=
  [.open (some nameA) (fsOWrite ||| fsOCreate), .seek 0 127488, .write 0 (.bytes [0])]

/-- The write runs out of space, and the image unmounted then does not mount
again. -/
theorem Blank.filling_fails {fs : FsHandle} (blank : Blank fs) :
    ∃ image, (fsUnmount (otfs.state fs fillingRun)).1 = .ok image ∧
      fsMount image = .error .state := by
  let flags := fsOWrite ||| fsOCreate
  have sound := @Blank.sound_firstOpened _ _ flags blank valid_nameA
  have named : Names (firstOpened fs nameA flags) 0 0 := named_firstOpened
  have opens : fsOpen fs (some nameA) (fsOWrite ||| fsOCreate) =
      (.ok 0, firstOpened fs nameA flags) := blank.fsOpen_eq valid_nameA (by decide) (by decide)
  set past := sought (firstOpened fs nameA flags) 0 127488 with pastEq
  have slot : past.openFiles 0 = ⟨true, 0, 127488, flags⟩ := by
    rw [pastEq, sought_openFiles_same, firstOpened_slot]
  have allFree : freeBlocks past.fat = List.finRange fsDataBlockCount := by
    rw [pastEq, sought_fat, blank.freeBlocks_firstOpened]
  have size : (past.dirEntries 0).sizeBytes = 0 := by
    rw [pastEq, sought_dirEntries]
    change ((created fs 0 nameA.bytes).dirEntries 0).sizeBytes = 0
    rw [created, FsHandle.setEntry_same]
    rfl
  obtain ⟨after, image, fills, unmounts, rejected⟩ := @unmountable_of_filled _ _ _ _
    [0] (sound.sought named.2 127488) (fun _ _ _ => rfl) (named.sought 127488)
    (by rw [slot]; decide) (by rw [slot]; exact size)
    (List.ne_nil_of_length_pos (by rw [allFree, List.length_finRange]; decide)) (by decide)
    (by rw [allFree, slot, List.length_finRange]; decide)
  refine ⟨image, ?_, rejected⟩
  have reached : otfs.state fs fillingRun = after := by
    simp only [fillingRun, Machine.state_cons, Machine.state_nil, otfs, fsStep, opens,
      fsSeek_eq sound.mounted named, fills]
  rw [reached, unmounts]

theorem fillingRun_unmountable : fsFormatImage [] = .ok formattedImage ∧
    fsMount formattedImage = .ok freshHandle ∧ (∀ op ∈ fillingRun, NonEmptyWrite op) ∧
    ∃ image, (fsUnmount (otfs.state freshHandle fillingRun)).1 = .ok image ∧
      fsMount image = .error .state := by
  refine ⟨fsFormatImage_eq, fsMount_formatted, ?_, blank_freshHandle.filling_fails⟩
  simp [fillingRun, NonEmptyWrite, SourceBuffer.len]

/-! ## Durability between calls -/

/-- The image holds the directory and the FAT of the handle. -/
structure OnDisk (fs : FsHandle) : Prop where
  dir : diskDir fs.imageFile = fs.dirEntries
  fat : diskFat fs.imageFile = fs.fat

theorem onDisk_mountedOn (file : ImageFile) : OnDisk (mountedOn file) := ⟨rfl, rfl⟩

theorem onDisk_synced (fs : FsHandle) : OnDisk (synced fs) := ⟨diskDir_synced, diskFat_synced⟩

/-- Every effect but running out of space leaves the metadata on the image. -/
theorem Effect.onDisk {fs mid : FsHandle} {chains chains' : FileIndex → List BlockIndex} {op : FsOp}
    {answer : Except FsError FsValue} (current : OnDisk fs) (spaced : answer ≠ .error .noSpace)
    (effect : Effect fs chains op answer mid chains') : OnDisk mid := by
  cases effect with
  | refused _ => exact current
  | opened _ entered _ =>
      cases entered with
      | found => exact ⟨current.dir, current.fat⟩
      | emptied => exact ⟨diskDir_synced, diskFat_synced⟩
      | made => exact ⟨diskDir_synced, diskFat_synced⟩
  | noSlot => exact absurd rfl spaced
  | noEntry => exact absurd rfl spaced
  | closed _ => exact ⟨current.dir, current.fat⟩
  | sought _ => exact ⟨current.dir, current.fat⟩
  | read _ _ => exact ⟨current.dir, current.fat⟩
  | wrote _ _ _ _ _ => exact onDisk_synced _
  | filled => exact absurd rfl spaced

/-- The call does not run out of space. -/
def Spaced (fs : FsHandle) (op : FsOp) : Prop := (fsStep fs op).1 ≠ .error .noSpace

/-- **Durability.** At every point of a run from a freshly formatted image that
writes at least one byte at a time and never runs out of space, the image as it
is mounts and shows what the live handle shows. -/
theorem durable {file : ImageFile} {fs : FsHandle} (formatted : fsFormatImage [] = .ok file)
    (mounted : fsMount file = .ok fs) {before after : List FsOp}
    (nonempty : ∀ op ∈ before ++ after, NonEmptyWrite op)
    (spaced : otfs.Along Spaced fs (before ++ after)) :
    ∃ fs', fsMount (otfs.state fs before).imageFile = .ok fs' ∧
      ∀ name, shown fs' name = shown (otfs.state fs before) name := by
  rw [eq_freshHandle formatted mounted] at spaced ⊢
  have nonempties := @Machine.along_of_forall _ _ _ otfs (fun _ op => NonEmptyWrite op) _
    (fun _ op member => nonempty op (List.mem_append_left _ member)) freshHandle
  have admitted := spaced.of_append.and nonempties
  obtain ⟨chains, sound, backed, bare, current⟩ := @runInvariant _
    (fun fs chains => AllBacked fs chains ∧ EmptyBare fs chains ∧ OnDisk fs)
    (by
      intro fs chains op answer mid chains' sound holds admitted same effect
      have spaced : answer ≠ .error .noSpace := by
        have here := admitted.1
        rwa [Spaced, same] at here
      exact ⟨effect.allBacked sound holds.1 (admitted.2.zeroWriteWithin _),
        effect.emptyBare sound holds.2.1 admitted.2 fun full => absurd full spaced,
        effect.onDisk holds.2.2 spaced⟩)
    _ _ sound_freshHandle
    ⟨fun i used => absurd used (blank_freshHandle.unused i), fun _ _ _ => rfl,
      onDisk_mountedOn formattedImage⟩ _ admitted
  exact sound.remount backed bare {
    faultless := sound.faultless
    size := le_rfl
    superblock := rfl
    dir := current.dir
    fat := current.fat
    block := fun _ _ _ => rfl }

/-- The descriptor is moved back and the file read. -/
def readBack : List FsOp := [.seek 0 0, .read 0 true 601]

/-- Writing past a gap and reading back never runs out of space. -/
theorem Blank.spaced_gapRun {fs : FsHandle} (blank : Blank fs) :
    otfs.Along Spaced fs (gapRun ++ readBack) := by
  obtain ⟨_, _, opens, seeks, writes, _⟩ := blank.gapRun_steps
  refine blank.along_gapRun ?_ ?_ ?_ fun after blocks written => ⟨?_, ?_, trivial⟩
  · exact fun full => by cases (congrArg Prod.fst opens).symm.trans full
  · exact fun full => by cases (congrArg Prod.fst seeks).symm.trans full
  · exact fun full => by cases (congrArg Prod.fst writes).symm.trans full
  · simp only [Spaced, fsStep, fsSeek_eq written.sound.mounted written.named]
    exact fun full => by cases full
  · have reads : (sought after 0 0).openFiles 0 = ⟨true, 0, 0, gapFlags⟩ := by
      simp only [sought_openFiles_same, written.inUse, written.dirIndex, written.flags]
    have backed : Backed (sought after 0 0) (Function.update (fun _ => []) 0 blocks) 0 := by
      rw [Backed, sought_dirEntries, written.sizeBytes, Function.update_self]
      exact written.reach
    simp only [otfs, fsStep, fsSeek_eq written.sound.mounted written.named, Spaced,
      (written.sound.sought written.inUse 0).fsRead_eq (written.named.sought 0)
        (by rw [reads]; decide) (by rw [reads]; exact backed)]
    exact fun full => by cases full

theorem durable_after_gap : ∃ fs', fsMount (otfs.state freshHandle gapRun).imageFile = .ok fs' ∧
    ∀ name, shown fs' name = shown (otfs.state freshHandle gapRun) name :=
  @durable _ _ fsFormatImage_eq fsMount_formatted gapRun readBack
    (by simp [gapRun, readBack, NonEmptyWrite, SourceBuffer.len]) blank_freshHandle.spaced_gapRun

end TigerOS.Otfs
