import TigerOS.Otfs.Effects

/-! # Formatting, mounting and unmounting

A mount reads the three metadata regions, demands the expected superblock, and
validates the directory and the FAT. `fsMount_eq_ok` says exactly which images
it accepts, `fsFormatImage_eq` gives the image a format leaves, and
`fsMount_formatted` the handle its mount answers.
-/

namespace TigerOS.Otfs

open Foundation

/-- The handle a mount validates. -/
def loaded (file : ImageFile) : FsHandle :=
  { fsInit with imageFile := file, dirEntries := diskDir file, fat := diskFat file }

/-- The handle a mount answers. -/
def mountedOn (file : ImageFile) : FsHandle := { loaded file with mounted := true }

theorem mountedOn_openFiles (file : ImageFile) (fd : Descriptor) :
    (mountedOn file).openFiles fd = OpenFile.zero := rfl

/-- The validator accepts exactly valid cells, valid used entries, and used
entries with different names. -/
theorem validateMetadata_eq_ok {fs : FsHandle} : validateMetadata fs = .ok () ↔
    (∀ b, validCell (fs.fat b)) ∧
    (∀ i, (fs.dirEntries i).used ≠ 0 → validEntry fs (fs.dirEntries i)) ∧
    (∀ i j, i < j → (fs.dirEntries i).used ≠ 0 → (fs.dirEntries j).used ≠ 0 →
      ¬ sameName (fs.dirEntries i) (fs.dirEntries j)) := by
  rw [validateMetadata]
  by_cases cells : ∃ b, ¬ validCell (fs.fat b)
  · rw [if_pos cells]
    obtain ⟨b, broken⟩ := cells
    exact iff_of_false (by simp) fun valid => broken (valid.1 b)
  · rw [if_neg cells]
    by_cases entries : ∃ i, (fs.dirEntries i).used ≠ 0 ∧ ¬ validEntry fs (fs.dirEntries i)
    · rw [if_pos entries]
      obtain ⟨i, used, invalid⟩ := entries
      exact iff_of_false (by simp) fun valid => invalid (valid.2.1 i used)
    · rw [if_neg entries]
      by_cases twins : ∃ i, (fs.dirEntries i).used ≠ 0 ∧ ∃ j, i < j ∧
          (fs.dirEntries j).used ≠ 0 ∧ sameName (fs.dirEntries i) (fs.dirEntries j)
      · rw [if_pos twins]
        obtain ⟨i, used, j, later, used', same⟩ := twins
        exact iff_of_false (by simp) fun valid => valid.2.2 i j later used used' same
      · rw [if_neg twins]
        refine iff_of_true rfl ⟨?_, ?_, ?_⟩
        · intro b
          by_contra broken
          exact cells ⟨b, broken⟩
        · intro i used
          by_contra invalid
          exact entries ⟨i, used, invalid⟩
        · intro i j later used used' same
          exact twins ⟨i, used, j, later, used', same⟩

section Mount

variable {file : ImageFile} {fs : FsHandle}

/-- Mounting an image that holds its metadata regions. -/
theorem fsMount_of_held (faultless : file.Faultless) (held : 3584 ≤ file.size) :
    fsMount file =
      if diskSuperblock file ≠ expectedSuperblock then .error .state
      else
        match validateMetadata (loaded file) with
        | .error _ => .error .state
        | .ok () => .ok (mountedOn file) := by
  have whole (offset len : ℕ) (inside : offset + len ≤ 3584) :
      seekAndRead file offset len = (.ok (readRange file.byte offset len), file) := by
    rw [seekAndRead_of_faultless _ _ faultless, if_pos (inside.trans held)]
  have first := whole 0 fsSuperblockSize (by decide)
  have second := whole (blockOffset fsDirStartBlock) (fsDirBlockCount * fsBlockSize) (by decide)
  have third := whole (blockOffset fsFatStartBlock) (fsFatBlockCount * fsBlockSize) (by decide)
  simp only [fsMount, first, second, third]
  refine if_congr Iff.rfl rfl ?_
  unfold mountedOn loaded diskDir diskFat
  generalize validateMetadata _ = validated
  cases validated <;> rfl

/-- An image whose metadata the validator rejects does not mount. -/
theorem fsMount_of_invalid (faultless : file.Faultless) (held : 3584 ≤ file.size)
    (invalid : validateMetadata (loaded file) ≠ .ok ()) : fsMount file = .error .state := by
  rw [fsMount_of_held faultless held]
  split
  · rfl
  · cases validated : validateMetadata (loaded file) with
    | error e => rfl
    | ok done => exact absurd validated invalid

/-- An image that lacks part of its metadata regions does not mount. -/
theorem fsMount_of_short (faultless : file.Faultless) (short : file.size < 3584) :
    fsMount file ≠ .ok fs := by
  have last : seekAndRead file (blockOffset fsFatStartBlock) (fsFatBlockCount * fsBlockSize) =
      (.error .io, file) := by
    rw [seekAndRead_of_faultless _ _ faultless, if_neg]
    change ¬ 3584 ≤ file.size
    omega
  rw [fsMount, seekAndRead_of_faultless _ _ faultless]
  by_cases first : 0 + fsSuperblockSize ≤ file.size
  · rw [if_pos first]
    simp only
    split
    · exact fun same => by cases same
    · rw [seekAndRead_of_faultless _ _ faultless]
      by_cases second : blockOffset fsDirStartBlock + fsDirBlockCount * fsBlockSize ≤ file.size
      · rw [if_pos second]
        simp only [last]
        exact fun same => by cases same
      · rw [if_neg second]
        exact fun same => by cases same
  · rw [if_neg first]
    exact fun same => by cases same

/-- **Mounting.** Without faults an image is accepted exactly when it holds the
metadata regions, the expected superblock, and metadata the validator accepts. -/
theorem fsMount_eq_ok (faultless : file.Faultless) :
    fsMount file = .ok fs ↔ 3584 ≤ file.size ∧ diskSuperblock file = expectedSuperblock ∧
      validateMetadata (loaded file) = .ok () ∧ fs = mountedOn file := by
  by_cases held : 3584 ≤ file.size
  · rw [fsMount_of_held faultless held]
    by_cases known : diskSuperblock file = expectedSuperblock
    · rw [if_neg (not_not.mpr known)]
      cases validated : validateMetadata (loaded file) with
      | error e => exact iff_of_false (fun same => by cases same) (fun same => by cases same.2.2.1)
      | ok done =>
          simp only [Except.ok.injEq]
          exact ⟨fun same => ⟨held, known, trivial, same.symm⟩,
            fun accepted => accepted.2.2.2.symm⟩
    · rw [if_pos known]
      exact iff_of_false (fun same => by cases same) (fun accepted => known accepted.2.1)
  · exact iff_of_false (fsMount_of_short faultless (not_le.mp held))
      (fun accepted => held accepted.1)

end Mount

/-- **Unmounting** flushes and closes. -/
theorem fsUnmount_eq {fs : FsHandle} (mounted : fs.mounted = true)
    (faultless : fs.imageFile.Faultless) :
    fsUnmount fs = (.ok (synced fs).imageFile, fsInit) := by
  have closes : closeFile (synced fs).imageFile = .ok (synced fs).imageFile := by
    have kept : (synced fs).imageFile.transfers = [] := faultless
    simp only [closeFile, ImageFile.nextTransfer, kept]
  simp only [fsUnmount, validateCommon, mounted, ↓reduceIte, syncMetadata_of_faultless faultless,
    closes]

/-! ## Formatting -/

/-- The entry a format writes. -/
def blankEntry : DirEntry := { DirEntry.zero with firstBlock := fatEnd }

/-- An image of zero blocks. -/
def zeroImage (count : ℕ) : ImageFile where
  size := count * fsBlockSize
  byte := fun _ => 0
  transfers := []
  zeroPast := fun _ _ => rfl

/-- The image a format leaves. -/
def formattedImage : ImageFile :=
  (((zeroImage fsTotalBlocks).store 0 (encodeSuperblock expectedSuperblock)).store
    (blockOffset fsDirStartBlock) (encodeDir fun _ => blankEntry)).store
      (blockOffset fsFatStartBlock) (List.replicate (fsFatBlockCount * fsBlockSize) 0xff)

private theorem writeZeroBlocks_eq (count : ℕ) :
    writeZeroBlocks count (ImageFile.empty []) = (.ok (), zeroImage count) := by
  induction count with
  | zero => rfl
  | succ count ih =>
      rw [writeZeroBlocks, ih]
      simp only
      rw [seekAndWrite_of_faultless _ _ (rfl : (zeroImage count).Faultless)]
      have some : List.replicate fsBlockSize (0 : UInt8) ≠ [] := by
        rw [Ne, List.replicate_eq_nil_iff]
        decide
      simp only [ImageFile.store, zeroImage, some, ↓reduceIte, List.length_replicate,
        Prod.mk.injEq, true_and, ImageFile.mk.injEq, and_true]
      constructor
      · change max (count * 512) (count * 512 + 512) = (count + 1) * 512
        omega
      · funext p
        by_cases inside : blockOffset count ≤ p ∧ p - blockOffset count < fsBlockSize
        · rw [writeRange_inside inside.1 (by rw [List.length_replicate]; exact inside.2),
            List.getElem_replicate]
        · apply writeRange_outside
          rw [List.length_replicate]
          omega

/-- **Formatting** without faults. -/
theorem fsFormatImage_eq : fsFormatImage [] = .ok formattedImage := by
  have first := seekAndWrite_of_faultless 0 (encodeSuperblock expectedSuperblock)
    (rfl : (zeroImage fsTotalBlocks).Faultless)
  have second := seekAndWrite_of_faultless (blockOffset fsDirStartBlock)
    (encodeDir fun _ => blankEntry)
    (rfl : ((zeroImage fsTotalBlocks).store 0 (encodeSuperblock expectedSuperblock)).Faultless)
  have third := seekAndWrite_of_faultless (blockOffset fsFatStartBlock)
    (List.replicate (fsFatBlockCount * fsBlockSize) (0xff : UInt8))
    (rfl : (((zeroImage fsTotalBlocks).store 0 (encodeSuperblock expectedSuperblock)).store
      (blockOffset fsDirStartBlock) (encodeDir fun _ => blankEntry)).Faultless)
  have closes : closeFile formattedImage = .ok formattedImage := rfl
  simp only [blankEntry] at second third
  unfold fsFormatImage
  simp only [writeZeroBlocks_eq, first, second, third]
  exact closes

theorem formattedImage_faultless : formattedImage.Faultless := rfl

theorem formattedImage_complete : formattedImage.Complete := by
  refine le_trans ?_ (ImageFile.size_le_store.trans
    (ImageFile.size_le_store.trans ImageFile.size_le_store))
  exact le_rfl

/-- The data blocks of a formatted image are zero. -/
theorem formattedImage_byte {p : ℕ} (data : 3584 ≤ p) : formattedImage.byte p = 0 := by
  have past (file : ImageFile) {offset : ℕ} {stored : List UInt8}
      (before : offset + stored.length ≤ 3584) : (file.store offset stored).byte p = file.byte p :=
    (store_changed file offset stored).byte p fun inside => by omega
  rw [formattedImage, past, past, past]
  · rfl
  · rw [length_encodeSuperblock]
    decide
  · rw [length_encodeDir]
    decide
  · rw [List.length_replicate]
    decide

@[simp] theorem diskSuperblock_formatted : diskSuperblock formattedImage = expectedSuperblock := by
  have kept : readRange formattedImage.byte 0 fsSuperblockSize =
      encodeSuperblock expectedSuperblock := by
    rw [formattedImage, ImageFile.store, readRange_writeRange_disjoint (.inl (by decide)),
      ImageFile.store, readRange_writeRange_disjoint (.inl (by decide)), ImageFile.store,
      ← length_encodeSuperblock expectedSuperblock, readRange_writeRange_same]
  rw [diskSuperblock, kept, decodeSuperblock_encodeSuperblock]

@[simp] theorem diskDir_formatted : diskDir formattedImage = fun _ => blankEntry := by
  have kept : readRange formattedImage.byte (blockOffset fsDirStartBlock)
      (fsDirBlockCount * fsBlockSize) = encodeDir fun _ => blankEntry := by
    rw [formattedImage, ImageFile.store, readRange_writeRange_disjoint (.inl (by decide)),
      ImageFile.store, ← length_encodeDir fun _ => blankEntry, readRange_writeRange_same]
  rw [diskDir, kept, decodeDir_encodeDir]

@[simp] theorem diskFat_formatted : diskFat formattedImage = fun _ => fatFree := by
  have kept : readRange formattedImage.byte (blockOffset fsFatStartBlock)
      (fsFatBlockCount * fsBlockSize) = List.replicate (fsFatBlockCount * fsBlockSize) 0xff := by
    have same := @readRange_writeRange_same _ (((zeroImage fsTotalBlocks).store 0
      (encodeSuperblock expectedSuperblock)).store (blockOffset fsDirStartBlock)
        (encodeDir fun _ => blankEntry)).byte (blockOffset fsFatStartBlock)
      (List.replicate (fsFatBlockCount * fsBlockSize) (0xff : UInt8))
    rwa [List.length_replicate] at same
  rw [diskFat, kept]
  funext b
  apply u32At_u32Bytes
  intro k inside
  have bound : b.val < 249 := b.isLt
  rw [List.getD_replicate _ (by change b.val * 4 + k < 1024; omega)]
  interval_cases k <;> decide

/-- The handle on a freshly formatted image. -/
def freshHandle : FsHandle := mountedOn formattedImage

theorem freshHandle_imageFile : freshHandle.imageFile = formattedImage := rfl

@[simp] theorem freshHandle_dirEntries (i : FileIndex) :
    freshHandle.dirEntries i = blankEntry := congrFun diskDir_formatted i

@[simp] theorem freshHandle_fat (b : BlockIndex) : freshHandle.fat b = fatFree :=
  congrFun diskFat_formatted b

/-- **A freshly formatted image mounts.** -/
theorem fsMount_formatted : fsMount formattedImage = .ok freshHandle := by
  refine (fsMount_eq_ok formattedImage_faultless).mpr
    ⟨?_, diskSuperblock_formatted, ?_, rfl⟩
  · exact le_trans (by decide) formattedImage_complete
  · have unused (i : FileIndex) : ((loaded formattedImage).dirEntries i).used = 0 :=
      congrArg DirEntry.used (congrFun diskDir_formatted i)
    refine validateMetadata_eq_ok.mpr ⟨?_, ?_, ?_⟩
    · intro b
      exact .inl (congrFun diskFat_formatted b)
    · intro i used
      exact absurd (unused i) used
    · intro i j _ used
      exact absurd (unused i) used

/-- What a format and a mount answer is the fresh handle. -/
theorem eq_freshHandle {file : ImageFile} {fs : FsHandle} (formatted : fsFormatImage [] = .ok file)
    (mounted : fsMount file = .ok fs) : fs = freshHandle := by
  have same : formattedImage = file := Except.ok.inj (fsFormatImage_eq.symm.trans formatted)
  subst same
  exact Except.ok.inj (mounted.symm.trans fsMount_formatted)

end TigerOS.Otfs
