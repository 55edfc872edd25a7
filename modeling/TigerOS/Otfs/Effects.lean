import TigerOS.Otfs.Transfer

/-! # What the calls do

Where the image I/O succeeds, each call is one of a few changes of the handle:
an entry is created, an entry is truncated, a file is extended and its size
recorded, the metadata is flushed, a descriptor moves. This file names these
changes and states each call through them; later proofs follow the changes and
never the loops.
-/

namespace TigerOS.Otfs

open Foundation

/-! ## Flushing -/

/-- The handle after its metadata is flushed. -/
def synced (fs : FsHandle) : FsHandle :=
  { fs with imageFile := (fs.imageFile.store (blockOffset fsDirStartBlock)
      (encodeDir fs.dirEntries)).store (blockOffset fsFatStartBlock) (encodeFat fs.fat) }

/-- The directory stored on an image. -/
def diskDir (file : ImageFile) : FileIndex → DirEntry :=
  decodeDir (readRange file.byte (blockOffset fsDirStartBlock) (fsDirBlockCount * fsBlockSize))

/-- The FAT stored on an image. -/
def diskFat (file : ImageFile) : BlockIndex → UInt32 :=
  decodeFat (readRange file.byte (blockOffset fsFatStartBlock) (fsFatBlockCount * fsBlockSize))

/-- The superblock stored on an image. -/
def diskSuperblock (file : ImageFile) : Superblock :=
  decodeSuperblock (readRange file.byte 0 fsSuperblockSize)

section Sync

variable {fs : FsHandle}

theorem syncMetadata_of_faultless (faultless : fs.imageFile.Faultless) :
    syncMetadata fs = (.ok (), synced fs) := by
  have second : (fs.imageFile.store (blockOffset fsDirStartBlock)
      (encodeDir fs.dirEntries)).Faultless := faultless
  simp only [syncMetadata, seekAndWrite_of_faultless _ _ faultless,
    seekAndWrite_of_faultless _ _ second]
  rfl

@[simp] theorem synced_dirEntries : (synced fs).dirEntries = fs.dirEntries := rfl

@[simp] theorem synced_fat : (synced fs).fat = fs.fat := rfl

@[simp] theorem synced_openFiles : (synced fs).openFiles = fs.openFiles := rfl

theorem synced_faultless (faultless : fs.imageFile.Faultless) :
    (synced fs).imageFile.Faultless := faultless

theorem size_le_synced : fs.imageFile.size ≤ (synced fs).imageFile.size :=
  ImageFile.size_le_store.trans ImageFile.size_le_store

/-- Flushing writes nothing outside the directory and FAT regions. -/
theorem synced_byte {p : ℕ} (outside : p < 512 ∨ 3584 ≤ p) :
    (synced fs).imageFile.byte p = fs.imageFile.byte p := by
  simp only [synced, ImageFile.store]
  rw [writeRange_outside, writeRange_outside]
  · rw [length_encodeDir]
    change p < 512 ∨ 512 + 2048 ≤ p
    omega
  · rw [length_encodeFat]
    change p < 2560 ∨ 2560 + 1024 ≤ p
    omega

theorem synced_blockByte (b : BlockIndex) (j : ℕ) :
    blockByte (synced fs).imageFile b j = blockByte fs.imageFile b j :=
  synced_byte (.inr ((metadata_le_dataOffset b).trans (Nat.le_add_right _ _)))

@[simp] theorem synced_contentAt (blocks : List BlockIndex) :
    contentAt (synced fs).imageFile blocks = contentAt fs.imageFile blocks :=
  contentAt_congr fun b _ j _ => synced_blockByte b j

/-- Flushing twice flushes once. -/
theorem synced_synced (fs : FsHandle) : synced (synced fs) = synced fs := by
  have apart : blockOffset fsDirStartBlock + (encodeDir fs.dirEntries).length ≤
      blockOffset fsFatStartBlock := by
    rw [length_encodeDir]
    decide
  simp only [synced, FsHandle.mk.injEq, and_true]
  rw [← ImageFile.store_comm _ (.inl apart), ImageFile.store_idem, ImageFile.store_idem]

/-- Flushing puts the directory of the handle on the image. -/
@[simp] theorem diskDir_synced : diskDir (synced fs).imageFile = fs.dirEntries := by
  have kept : readRange (synced fs).imageFile.byte (blockOffset fsDirStartBlock)
      (fsDirBlockCount * fsBlockSize) = encodeDir fs.dirEntries := by
    rw [synced, ImageFile.store, readRange_writeRange_disjoint (by
      rw [length_encodeFat]
      exact .inl (by decide)), ImageFile.store, ← length_encodeDir fs.dirEntries,
      readRange_writeRange_same]
  rw [diskDir, kept, decodeDir_encodeDir]

/-- Flushing puts the FAT of the handle on the image. -/
@[simp] theorem diskFat_synced : diskFat (synced fs).imageFile = fs.fat := by
  have kept : readRange (synced fs).imageFile.byte (blockOffset fsFatStartBlock)
      (fsFatBlockCount * fsBlockSize) = encodeFat fs.fat := by
    rw [synced, ImageFile.store, ← length_encodeFat fs.fat, readRange_writeRange_same]
  rw [diskFat, kept, decodeFat_encodeFat]

@[simp] theorem diskSuperblock_synced :
    diskSuperblock (synced fs).imageFile = diskSuperblock fs.imageFile := by
  have kept : readRange (synced fs).imageFile.byte 0 fsSuperblockSize =
      readRange fs.imageFile.byte 0 fsSuperblockSize := by
    apply readRange_congr
    intro k inside
    change k < 64 at inside
    exact synced_byte (.inl (by omega))
  rw [diskSuperblock, diskSuperblock, kept]

end Sync

/-! ## Releasing a chain -/

/-- The FAT after the cells of a list of blocks are freed. -/
def freed (fat : BlockIndex → UInt32) (blocks : List BlockIndex) : BlockIndex → UInt32 :=
  fun b => if b ∈ blocks then fatFree else fat b

@[simp] theorem freed_nil (fat : BlockIndex → UInt32) : freed fat [] = fat := by
  funext b
  simp [freed]

/-- Releasing a chain frees its cells. -/
theorem releaseFrom_eq {fs : FsHandle} {blocks : List BlockIndex} {allowance : ℕ} {link : UInt32}
    (chain : FatChain fs.fat link blocks) (within : blocks.length ≤ allowance) :
    releaseFrom fs allowance link = (.ok (), { fs with fat := freed fs.fat blocks }) := by
  induction blocks generalizing fs allowance link with
  | nil =>
      rw [releaseFrom, if_pos (fatChain_nil.mp chain), freed_nil]
  | cons b blocks ih =>
      obtain ⟨rfl, tail⟩ := fatChain_cons.mp chain
      obtain ⟨allowance, rfl⟩ := Nat.exists_eq_succ_of_ne_zero
        (by simp at within; omega : allowance ≠ 0)
      have notAgain : b ∉ blocks := (List.nodup_cons.mp (Chain.nodup chain)).1
      have tail' : FatChain (fs.setCell b fatFree).fat (fs.fat b) blocks := by
        refine Chain.congr tail fun visited member => ?_
        have other : visited ≠ b := fun same => notAgain (same ▸ member)
        exact Function.update_of_ne other ..
      rw [releaseFrom, if_neg (blockLink_ne_fatEnd b), blockAt?_blockLink]
      simp only
      rw [ih tail' (by simpa using within)]
      simp only [FsHandle.setCell, Prod.mk.injEq, true_and, FsHandle.mk.injEq, and_true]
      funext c
      by_cases same : c = b
      · subst same
        simp [freed, notAgain]
      · simp [freed, same]

/-! ## Changes of the directory -/

/-- The handle after an entry is created. -/
def created (fs : FsHandle) (i : FileIndex) (name : List UInt8) : FsHandle :=
  fs.setEntry i (newEntry name)

/-- The handle after an entry whose chain is `blocks` is truncated. -/
def truncated (fs : FsHandle) (i : FileIndex) (blocks : List BlockIndex) : FsHandle :=
  { fs with fat := freed fs.fat blocks }.setEntry i
    { fs.dirEntries i with firstBlock := fatEnd, sizeBytes := 0 }

section Truncated

variable {fs : FsHandle} {i j : FileIndex} {blocks : List BlockIndex}

theorem truncated_here : (truncated fs i blocks).dirEntries i =
    { fs.dirEntries i with firstBlock := fatEnd, sizeBytes := 0 } := Function.update_self ..

theorem truncated_other (other : j ≠ i) :
    (truncated fs i blocks).dirEntries j = fs.dirEntries j := Function.update_of_ne other ..

theorem truncated_used (j : FileIndex) :
    ((truncated fs i blocks).dirEntries j).used = (fs.dirEntries j).used := by
  by_cases same : j = i
  · rw [same, truncated_here]
  · rw [truncated_other same]

end Truncated

/-- Truncating an entry just created changes nothing. -/
theorem truncated_created (fs : FsHandle) (i : FileIndex) (name : List UInt8) :
    truncated (synced (created fs i name)) i [] = synced (created fs i name) := by
  have blank : { (synced (created fs i name)).dirEntries i with
      firstBlock := fatEnd, sizeBytes := 0 } = newEntry name := by
    rw [synced_dirEntries, created, FsHandle.setEntry_same]
    rfl
  rw [truncated, blank, freed_nil, FsHandle.setEntry, created]
  simp only [synced_dirEntries, FsHandle.setEntry, Function.update_idem]
  rfl

/-- The handle after the recorded size of an entry follows a descriptor. -/
def grown (fs : FsHandle) (fd : Descriptor) (i : FileIndex) : FsHandle :=
  if (fs.dirEntries i).sizeBytes < (fs.openFiles fd).offset then
    fs.setEntry i { fs.dirEntries i with sizeBytes := (fs.openFiles fd).offset }
  else fs

section Grown

variable (fs : FsHandle) (fd : Descriptor) (i : FileIndex)

/-- The recorded size only grows. -/
theorem toNat_size_grown : ((grown fs fd i).dirEntries i).sizeBytes.toNat =
    max (fs.dirEntries i).sizeBytes.toNat (fs.openFiles fd).offset.toNat := by
  rw [grown]
  split
  · rename_i behind
    have behindNat := UInt32.lt_iff_toNat_lt.mp behind
    rw [FsHandle.setEntry_same]
    change (fs.openFiles fd).offset.toNat = _
    omega
  · rename_i ahead
    have aheadNat := UInt32.le_iff_toNat_le.mp (UInt32.not_lt.mp ahead)
    omega

variable {i} in
theorem grown_other {j : FileIndex} (other : j ≠ i) :
    (grown fs fd i).dirEntries j = fs.dirEntries j := by
  rw [grown]
  split
  · exact FsHandle.setEntry_other _ other _
  · rfl

/-- Only a size is recorded. -/
private theorem grown_entry (j : FileIndex) :
    ∃ size, (grown fs fd i).dirEntries j = { fs.dirEntries j with sizeBytes := size } := by
  by_cases same : j = i
  · subst same
    rw [grown]
    split
    · exact ⟨_, FsHandle.setEntry_same ..⟩
    · exact ⟨_, rfl⟩
  · exact ⟨_, grown_other fs fd same⟩

theorem grown_name (j : FileIndex) :
    ((grown fs fd i).dirEntries j).name = (fs.dirEntries j).name := by
  obtain ⟨size, same⟩ := grown_entry fs fd i j
  rw [same]

theorem grown_used (j : FileIndex) :
    ((grown fs fd i).dirEntries j).used = (fs.dirEntries j).used := by
  obtain ⟨size, same⟩ := grown_entry fs fd i j
  rw [same]

theorem grown_firstBlock (j : FileIndex) :
    ((grown fs fd i).dirEntries j).firstBlock = (fs.dirEntries j).firstBlock := by
  obtain ⟨size, same⟩ := grown_entry fs fd i j
  rw [same]

@[simp] theorem grown_mounted : (grown fs fd i).mounted = fs.mounted := by
  rw [grown]
  split <;> rfl

@[simp] theorem grown_fat : (grown fs fd i).fat = fs.fat := by
  rw [grown]
  split <;> rfl

@[simp] theorem grown_imageFile : (grown fs fd i).imageFile = fs.imageFile := by
  rw [grown]
  split <;> rfl

@[simp] theorem grown_openFiles : (grown fs fd i).openFiles = fs.openFiles := by
  rw [grown]
  split <;> rfl

end Grown

/-- The end of a write records the size and flushes. -/
theorem finishWrite_grown (fs : FsHandle) (fd : Descriptor) (entry : FileIndex) (done : ℕ) :
    finishWrite fs fd entry done = match syncMetadata (grown fs fd entry) with
      | (.error _, fs) => (.error .io, fs)
      | (.ok (), fs) => (.ok done, fs) := rfl

section Calls

variable {fs : FsHandle}

/-- Truncation frees the chain and flushes. -/
theorem truncateEntry_released {i : FileIndex} {blocks : List BlockIndex}
    (chain : FatChain fs.fat (fs.dirEntries i).firstBlock blocks) :
    truncateEntry fs i = match syncMetadata (truncated fs i blocks) with
      | (.error _, fs) => (.error .io, fs)
      | (.ok (), fs) => (.ok (), fs) := by
  have released : (if (fs.dirEntries i).firstBlock ≠ fatEnd then
      releaseChain fs (fs.dirEntries i).firstBlock else (.ok (), fs)) =
        (.ok (), { fs with fat := freed fs.fat blocks }) := by
    split
    · exact releaseFrom_eq chain ((FatChain.length_le chain).trans (Nat.le_succ _))
    · rename_i isEnd
      have nothing := (FatChain.eq_nil_iff chain).mpr (not_not.mp isEnd)
      subst nothing
      rw [freed_nil]
  rw [truncateEntry, released]
  rfl

theorem truncateEntry_eq {i : FileIndex} {blocks : List BlockIndex}
    (faultless : fs.imageFile.Faultless)
    (chain : FatChain fs.fat (fs.dirEntries i).firstBlock blocks) :
    truncateEntry fs i = (.ok (), synced (truncated fs i blocks)) := by
  have kept : (truncated fs i blocks).imageFile.Faultless := faultless
  rw [truncateEntry_released chain, syncMetadata_of_faultless kept]

/-- The open of a found entry: truncation where asked, then a slot. -/
def openEntry (fs : FsHandle) (i : FileIndex) (blocks : List BlockIndex) (flags : UInt32) :
    Except FsError Descriptor × FsHandle :=
  openSlot (if flags &&& fsOTrunc ≠ 0 then synced (truncated fs i blocks) else fs) i flags

/-- **Opening.** After its argument checks `fs_open` opens a found entry, or
creates one in the first unused place and opens that. -/
theorem fsOpen_eq {name : CString} {flags : UInt32} (mounted : fs.mounted = true)
    (faultless : fs.imageFile.Faultless) (named : validateName (some name.bytes) = .ok ())
    (good : ¬ badFlags flags) (chains : FileIndex → List BlockIndex)
    (chain : ∀ i, (fs.dirEntries i).used ≠ 0 →
      FatChain fs.fat (fs.dirEntries i).firstBlock (chains i)) :
    fsOpen fs (some name) flags =
      match findDirEntry fs name.bytes with
      | some i => openEntry fs i (chains i) flags
      | none =>
          if flags &&& fsOCreate = 0 then (.error .notFound, fs)
          else
            match (List.finRange fsMaxFiles).find? (fun i => (fs.dirEntries i).used = 0) with
            | none => (.error .noSpace, fs)
            | some i => openEntry (synced (created fs i name.bytes)) i [] flags := by
  have common : validateCommon fs = .ok () := by rw [validateCommon, if_pos mounted]
  simp only [fsOpen, common, named, good, ↓reduceIte, lookupOrCreate]
  cases found : findDirEntry fs name.bytes with
  | some i =>
      have used : (fs.dirEntries i).used ≠ 0 := by
        have holds := List.find?_some found
        simp only [decide_eq_true_eq] at holds
        exact holds.1
      simp only [openEntry, truncateEntry_eq faultless (chain i used)]
      split <;> rfl
  | none =>
      by_cases creates : flags &&& fsOCreate = 0
      · simp only [creates, ↓reduceIte]
      · simp only [creates, ↓reduceIte, allocDirEntry]
        cases free : (List.finRange fsMaxFiles).find?
            (fun i => decide ((fs.dirEntries i).used = 0)) with
        | none => rfl
        | some i =>
            have kept : (created fs i name.bytes).imageFile.Faultless := faultless
            have flushed := syncMetadata_of_faultless kept
            rw [created] at flushed
            have empty : FatChain (synced (created fs i name.bytes)).fat
                ((synced (created fs i name.bytes)).dirEntries i).firstBlock [] := by
              rw [fatChain_nil, synced_dirEntries, created, FsHandle.setEntry_same]
              rfl
            have truncating := truncateEntry_eq (synced_faultless kept) empty
            rw [created] at truncating
            simp only [flushed, openEntry, created, truncating]
            split <;> rfl

/-- A descriptor argument names a slot in use. -/
def Names (fs : FsHandle) (fd : ℤ) (slot : Descriptor) : Prop :=
  slotOf? fd = some slot ∧ (fs.openFiles slot).inUse = true

/-- **Closing** clears the slot. -/
theorem fsClose_eq {fd : ℤ} {slot : Descriptor} (mounted : fs.mounted = true)
    (named : Names fs fd slot) : fsClose fs fd = (.ok (), fs.setOpenFile slot OpenFile.zero) := by
  simp only [fsClose, validateCommon, mounted, named.1, named.2, ↓reduceIte]
  rfl

/-- The handle after a slot is moved. -/
def sought (fs : FsHandle) (slot : Descriptor) (offset : UInt32) : FsHandle :=
  fs.setOpenFile slot { fs.openFiles slot with offset := offset }

@[simp] theorem sought_openFiles_same (fs : FsHandle) (slot : Descriptor) (offset : UInt32) :
    (sought fs slot offset).openFiles slot = { fs.openFiles slot with offset := offset } := by
  simp only [sought, FsHandle.setOpenFile, Function.update_self]

@[simp] theorem sought_fat (fs : FsHandle) (slot : Descriptor) (offset : UInt32) :
    (sought fs slot offset).fat = fs.fat := rfl

@[simp] theorem sought_dirEntries (fs : FsHandle) (slot : Descriptor) (offset : UInt32) :
    (sought fs slot offset).dirEntries = fs.dirEntries := rfl

/-- **Seeking** moves the slot. -/
theorem fsSeek_eq {fd : ℤ} {slot : Descriptor} {offset : UInt32} (mounted : fs.mounted = true)
    (named : Names fs fd slot) : fsSeek fs fd offset = (.ok (), sought fs slot offset) := by
  have inUse : ¬ (fs.openFiles slot).inUse = false := by rw [named.2]; exact Bool.noConfusion
  simp only [fsSeek, validateCommon, mounted, named.1, ↓reduceIte, if_neg inUse]
  rfl

theorem Names.sought {fd : ℤ} {slot : Descriptor} (named : Names fs fd slot) (offset : UInt32) :
    Names (sought fs slot offset) fd slot :=
  ⟨named.1, by rw [sought_openFiles_same]; exact named.2⟩

/-- The number of bytes a read answers. -/
def readable (fs : FsHandle) (slot : Descriptor) (len : ℕ) : ℕ :=
  min len ((fs.dirEntries (fs.openFiles slot).dirIndex).sizeBytes.toNat -
    (fs.openFiles slot).offset.toNat)

/-- A read that is not refused runs the loop on the bytes it can answer. -/
theorem fsRead_loops {fd : ℤ} {slot : Descriptor} {hasBuf : Bool} {len : ℕ}
    (mounted : fs.mounted = true) (named : Names fs fd slot)
    (buffer : ¬ (len ≠ 0 ∧ hasBuf = false)) (reads : (fs.openFiles slot).flags &&& fsORead ≠ 0) :
    fsRead fs fd hasBuf len = readLoop slot (fs.openFiles slot).dirIndex
      (readable fs slot len) fs (readable fs slot len) := by
  have permitted : ¬ ((fs.openFiles slot).inUse = false ∨
      (fs.openFiles slot).flags &&& fsORead = 0) := by simp [named.2, reads]
  simp only [fsRead, validateCommon, mounted, named.1, ↓reduceIte, buffer, permitted]
  by_cases nothing : (fs.dirEntries (fs.openFiles slot).dirIndex).sizeBytes ≤
      (fs.openFiles slot).offset ∨ len = 0
  · have none : readable fs slot len = 0 := by
      rcases nothing with past | zero
      · have pastNat := UInt32.le_iff_toNat_le.mp past
        simp only [readable]
        omega
      · simp only [readable, zero, Nat.zero_min]
    rw [if_pos nothing, none]
    rfl
  · have before : (fs.openFiles slot).offset ≤
        (fs.dirEntries (fs.openFiles slot).dirIndex).sizeBytes := by
      rw [not_or, UInt32.not_le] at nothing
      exact UInt32.le_of_lt nothing.1
    have clamp : min len ((fs.dirEntries (fs.openFiles slot).dirIndex).sizeBytes -
        (fs.openFiles slot).offset).toNat = readable fs slot len := by
      rw [UInt32.toNat_sub_of_le _ _ before, readable]
    rw [if_neg nothing, clamp]

/-- The bytes a read answers lie before the recorded size. -/
private theorem readable_within {slot : Descriptor} {len : ℕ} (some : readable fs slot len ≠ 0) :
    (fs.openFiles slot).offset.toNat + readable fs slot len ≤
      (fs.dirEntries (fs.openFiles slot).dirIndex).sizeBytes.toNat := by
  simp only [readable] at some ⊢
  omega

/-- **Reading** answers the bytes from the offset, clamped at the recorded size,
and moves the slot past them, provided blocks back the size. -/
theorem fsRead_eq {fd : ℤ} {slot : Descriptor} {hasBuf : Bool} {len : ℕ}
    {blocks : List BlockIndex} (mounted : fs.mounted = true) (named : Names fs fd slot)
    (buffer : ¬ (len ≠ 0 ∧ hasBuf = false)) (reads : (fs.openFiles slot).flags &&& fsORead ≠ 0)
    (faultless : fs.imageFile.Faultless)
    (chain : FatChain fs.fat (fs.dirEntries (fs.openFiles slot).dirIndex).firstBlock blocks)
    (backed : (fs.dirEntries (fs.openFiles slot).dirIndex).sizeBytes.toNat ≤
      fsBlockSize * blocks.length) :
    fsRead fs fd hasBuf len =
      (.ok (readRange (contentAt fs.imageFile blocks) (fs.openFiles slot).offset.toNat
        (readable fs slot len)), fs.advance slot (readable fs slot len)) ∨
    ((fsRead fs fd hasBuf len).1 = .error .io ∧ ¬ fs.imageFile.Complete) := by
  rw [fsRead_loops mounted named buffer reads]
  exact readLoop_eq fs _ _ le_rfl faultless chain fun some => (readable_within some).trans backed

/-- Whatever a read answers, it moved only its slot. -/
theorem fsRead_moves {fd : ℤ} {slot : Descriptor} {hasBuf : Bool} {len : ℕ}
    {blocks : List BlockIndex} (mounted : fs.mounted = true) (named : Names fs fd slot)
    (buffer : ¬ (len ≠ 0 ∧ hasBuf = false)) (reads : (fs.openFiles slot).flags &&& fsORead ≠ 0)
    (faultless : fs.imageFile.Faultless)
    (chain : FatChain fs.fat (fs.dirEntries (fs.openFiles slot).dirIndex).firstBlock blocks) :
    ∃ moved, (fsRead fs fd hasBuf len).2 = fs.advance slot moved := by
  rw [fsRead_loops mounted named buffer reads]
  exact readLoop_moves fs _ _ faultless chain

/-- A read before the recorded size but past the blocks fails. -/
theorem fsRead_unbacked {fd : ℤ} {slot : Descriptor} {len : ℕ} {blocks : List BlockIndex}
    (mounted : fs.mounted = true) (named : Names fs fd slot)
    (reads : (fs.openFiles slot).flags &&& fsORead ≠ 0) (some : len ≠ 0)
    (chain : FatChain fs.fat (fs.dirEntries (fs.openFiles slot).dirIndex).firstBlock blocks)
    (before : (fs.openFiles slot).offset.toNat <
      (fs.dirEntries (fs.openFiles slot).dirIndex).sizeBytes.toNat)
    (past : fsBlockSize * blocks.length ≤ (fs.openFiles slot).offset.toNat) :
    fsRead fs fd true len = (.error .state, fs) := by
  have nonempty : readable fs slot len ≠ 0 := by
    rw [readable]
    omega
  obtain ⟨rounds, sized⟩ := Nat.exists_eq_succ_of_ne_zero nonempty
  rw [fsRead_loops mounted named (by simp) reads, sized]
  refine readLoop_unbacked rounds (Nat.succ_ne_zero _) chain ?_
  change 512 * blocks.length ≤ _ at past
  change blocks.length ≤ _ / 512
  omega

/-- A write that is not refused runs the loop, and then records the size. -/
theorem fsWrite_loops {fd : ℤ} {slot : Descriptor} {buf : SourceBuffer}
    (mounted : fs.mounted = true) (named : Names fs fd slot) (buffer : ¬ buf.Missing)
    (writes : (fs.openFiles slot).flags &&& fsOWrite ≠ 0) : fsWrite fs fd buf =
      match writeLoop slot (fs.openFiles slot).dirIndex buf.data.length fs buf.data with
      | (.error e, mid) => (.error e, mid)
      | (.ok (), mid) => finishWrite mid slot (fs.openFiles slot).dirIndex buf.data.length := by
  have permitted : ¬ ((fs.openFiles slot).inUse = false ∨
      (fs.openFiles slot).flags &&& fsOWrite = 0) := by simp [named.2, writes]
  rcases ends : writeLoop slot (fs.openFiles slot).dirIndex buf.data.length fs buf.data with
    ⟨e | done, mid⟩
  · simp only [fsWrite, validateCommon, mounted, named.1, ↓reduceIte, buffer, permitted, ends]
  · simp only [fsWrite, validateCommon, mounted, named.1, ↓reduceIte, buffer, permitted, ends]

/-- Writing no bytes records the offset as the size where it lies past it. -/
theorem fsWrite_nothing {fd : ℤ} {slot : Descriptor} (mounted : fs.mounted = true)
    (named : Names fs fd slot) (writes : (fs.openFiles slot).flags &&& fsOWrite ≠ 0)
    (faultless : fs.imageFile.Faultless) : fsWrite fs fd (.bytes []) =
      (.ok 0, synced (grown fs slot (fs.openFiles slot).dirIndex)) := by
  have buffer : ¬ (SourceBuffer.bytes []).Missing := fun missing => missing
  have kept : (grown fs slot (fs.openFiles slot).dirIndex).imageFile.Faultless := by
    rw [grown_imageFile]
    exact faultless
  simp only [fsWrite_loops mounted named buffer writes, SourceBuffer.data, List.length_nil,
    writeLoop, finishWrite_grown, syncMetadata_of_faultless kept]

/-- **Writing** extends the file, and on success records the size and flushes;
out of space it stops after a prefix. -/
theorem fsWrite_spec {fd : ℤ} {slot : Descriptor} {buf : SourceBuffer} {blocks : List BlockIndex}
    (mounted : fs.mounted = true) (named : Names fs fd slot) (buffer : ¬ buf.Missing)
    (writes : (fs.openFiles slot).flags &&& fsOWrite ≠ 0) (faultless : fs.imageFile.Faultless)
    (chain : FatChain fs.fat (fs.dirEntries (fs.openFiles slot).dirIndex).firstBlock blocks) :
    ∃ mid added done, done ≤ buf.data.length ∧
      Extended fs mid (fs.openFiles slot).dirIndex blocks added
        (fs.openFiles slot).offset.toNat (buf.data.take done) ∧
      mid.openFiles = (fs.advance slot done).openFiles ∧
      (done ≠ 0 → (fs.openFiles slot).offset.toNat + done ≤
        fsBlockSize * (blocks ++ added).length) ∧
      ((done = buf.data.length ∧
          added.length = blocksFor (fs.openFiles slot).offset.toNat done - blocks.length ∧
          fsWrite fs fd buf =
            (.ok done, synced (grown mid slot (fs.openFiles slot).dirIndex))) ∨
        (freeBlocks mid.fat = [] ∧ blocks.length + added.length <
            blocksFor (fs.openFiles slot).offset.toNat buf.data.length ∧
          fsWrite fs fd buf = (.error .noSpace, mid)) ∨
        (¬ mid.imageFile.Complete ∧ fsWrite fs fd buf = (.error .io, mid))) := by
  obtain ⟨added, done, doneLe, extended, files, reach, ends⟩ :=
    writeLoop_spec slot fs blocks buf.data.length buf.data le_rfl faultless chain
  refine ⟨_, added, done, doneLe, extended, files, reach, ?_⟩
  rw [fsWrite_loops mounted named buffer writes]
  generalize writeLoop slot (fs.openFiles slot).dirIndex buf.data.length fs buf.data = out at *
  obtain ⟨answer, mid⟩ := out
  obtain ⟨rfl, rfl, sized⟩ | ⟨rfl, full, short⟩ | ⟨rfl, incomplete⟩ := ends
  · refine .inl ⟨rfl, sized, ?_⟩
    have kept : (grown mid slot (fs.openFiles slot).dirIndex).imageFile.Faultless := by
      rw [grown_imageFile]
      exact extended.faultless
    simp only [finishWrite_grown, syncMetadata_of_faultless kept]
  · exact .inr (.inl ⟨full, short, rfl⟩)
  · exact .inr (.inr ⟨incomplete, rfl⟩)

end Calls

end TigerOS.Otfs
