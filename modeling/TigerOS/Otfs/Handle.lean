import TigerOS.Otfs.Layout

/-! # The mounted file system

`FsHandle` is `fs_handle_t` with the image file it holds. This file models the
internal operations of `otfs.c`: metadata flushing and validation, block
allocation and release, chain walking, and directory lookup. Each returns its
status together with the handle it leaves, also on failure.
-/

namespace TigerOS.Otfs

open Foundation

/-- `fs_open_file_t`. -/
structure OpenFile where
  inUse : Bool
  dirIndex : FileIndex
  offset : UInt32
  flags : UInt32
  deriving DecidableEq

/-- A table slot after `memset`. -/
def OpenFile.zero : OpenFile := ⟨false, 0, 0, 0⟩

/-- `fs_handle_t`; the FAT is kept for the data blocks only. -/
structure FsHandle where
  imageFile : ImageFile
  mounted : Bool
  dirEntries : FileIndex → DirEntry
  fat : BlockIndex → UInt32
  openFiles : Descriptor → OpenFile

namespace FsHandle

variable (fs : FsHandle)

def setEntry (i : FileIndex) (entry : DirEntry) : FsHandle :=
  { fs with dirEntries := Function.update fs.dirEntries i entry }

def setFirstBlock (i : FileIndex) (link : UInt32) : FsHandle :=
  fs.setEntry i { fs.dirEntries i with firstBlock := link }

def setCell (b : BlockIndex) (link : UInt32) : FsHandle :=
  { fs with fat := Function.update fs.fat b link }

def setOpenFile (fd : Descriptor) (file : OpenFile) : FsHandle :=
  { fs with openFiles := Function.update fs.openFiles fd file }

/-- `open_file->offset += (uint32_t)chunk`. -/
def advance (fd : Descriptor) (chunk : ℕ) : FsHandle :=
  fs.setOpenFile fd { fs.openFiles fd with
    offset := (fs.openFiles fd).offset + UInt32.ofNat chunk }

@[simp] theorem setEntry_same (i : FileIndex) (entry : DirEntry) :
    (fs.setEntry i entry).dirEntries i = entry := Function.update_self ..

theorem setEntry_other {i j : FileIndex} (other : j ≠ i) (entry : DirEntry) :
    (fs.setEntry i entry).dirEntries j = fs.dirEntries j := Function.update_of_ne other ..

@[simp] theorem setOpenFile_same (fd : Descriptor) (file : OpenFile) :
    (fs.setOpenFile fd file).openFiles fd = file := Function.update_self ..

theorem setOpenFile_other {fd other : Descriptor} (apart : other ≠ fd) (file : OpenFile) :
    (fs.setOpenFile fd file).openFiles other = fs.openFiles other :=
  Function.update_of_ne apart ..

end FsHandle

/-! ## Metadata -/

/-- `sync_metadata`. -/
def syncMetadata (fs : FsHandle) : Except FsError Unit × FsHandle :=
  match seekAndWrite fs.imageFile (blockOffset fsDirStartBlock) (encodeDir fs.dirEntries) with
  | (.error _, file) => (.error .io, { fs with imageFile := file })
  | (.ok (), file) =>
      match seekAndWrite file (blockOffset fsFatStartBlock) (encodeFat fs.fat) with
      | (.error _, file) => (.error .io, { fs with imageFile := file })
      | (.ok (), file) => (.ok (), { fs with imageFile := file })

/-- `valid_block_index`, answering the cell the index names. -/
def blockAt? (index : UInt32) : Option BlockIndex :=
  if valid : index.toNat < fsDataBlockCount then some ⟨index.toNat, valid⟩ else none

/-- The index of a block as a link to it. -/
def blockLink (b : BlockIndex) : UInt32 := UInt32.ofNat b

/-- `validate_name`. -/
def validateName : Option (List UInt8) → Except FsError Unit
  | none => .error .arg
  | some name =>
      if name.length = 0 ∨ fsMaxNameLen < name.length then .error .arg
      -- '/' and '\\'
      else if 47 ∈ name ∨ 92 ∈ name then .error .arg
      else .ok ()

/-- The loop of `validate_entry_chain`, counting the blocks from `cur` to the
end; `allowance` is `FS_DATA_BLOCK_COUNT - blocks`. -/
def countChain (fat : BlockIndex → UInt32) (allowance : ℕ) (cur : UInt32) : Except FsError ℕ :=
  if cur = fatEnd then .ok 0
  else
    match blockAt? cur with
    | none => .error .state
    | some b =>
        match allowance with
        | 0 => .error .state
        | allowance + 1 => (countChain fat allowance (fat b)).map (· + 1)

/-- `validate_entry_chain`. -/
def validateEntryChain (fs : FsHandle) (entry : DirEntry) : Except FsError Unit :=
  -- 32-bit arithmetic, as in the source: the sum wraps
  let requiredBlocks : UInt32 :=
    (entry.sizeBytes + UInt32.ofNat (fsBlockSize - 1)) / UInt32.ofNat fsBlockSize
  if requiredBlocks = 0 then
    if entry.firstBlock = fatEnd then .ok () else .error .state
  else if entry.firstBlock = fatEnd ∨ blockAt? entry.firstBlock = none then .error .state
  else
    match countChain fs.fat fsDataBlockCount entry.firstBlock with
    | .error _ => .error .state
    | .ok blocks => if blocks < requiredBlocks.toNat then .error .state else .ok ()

/-- A FAT cell is free, an end, or names a block. -/
def validCell (link : UInt32) : Prop :=
  link = fatFree ∨ link = fatEnd ∨ blockAt? link ≠ none

/-- The checks of `validate_metadata` on one used entry. -/
def validEntry (fs : FsHandle) (entry : DirEntry) : Prop :=
  0 ∈ entry.name.toList ∧ validateName (some entry.nameString) = .ok () ∧
    validateEntryChain fs entry = .ok ()

/-- The names of two used entries compare equal. -/
def sameName (first second : DirEntry) : Prop :=
  strncmp (fsMaxNameLen + 1) first.name.toList second.name.toList = 0

instance (link : UInt32) : Decidable (validCell link) :=
  inferInstanceAs (Decidable (_ ∨ _))

instance (fs : FsHandle) (entry : DirEntry) : Decidable (validEntry fs entry) :=
  inferInstanceAs (Decidable (_ ∧ _))

instance (first second : DirEntry) : Decidable (sameName first second) :=
  inferInstanceAs (Decidable (_ = _))

/-- `validate_metadata`. -/
def validateMetadata (fs : FsHandle) : Except FsError Unit :=
  if ∃ b, ¬ validCell (fs.fat b) then .error .state
  else if ∃ i, (fs.dirEntries i).used ≠ 0 ∧ ¬ validEntry fs (fs.dirEntries i) then .error .state
  else if ∃ i, (fs.dirEntries i).used ≠ 0 ∧ ∃ j, i < j ∧ (fs.dirEntries j).used ≠ 0 ∧
      sameName (fs.dirEntries i) (fs.dirEntries j) then .error .state
  else .ok ()

/-! ## Data blocks -/

/-- `read_data_block`; every `BlockIndex` is valid. -/
def readDataBlock (fs : FsHandle) (b : BlockIndex) : Except FsError (List UInt8) × FsHandle :=
  let out := seekAndRead fs.imageFile (blockOffset (fsDataStartBlock + b)) fsBlockSize
  (out.1, { fs with imageFile := out.2 })

/-- `write_data_block`. -/
def writeDataBlock (fs : FsHandle) (b : BlockIndex) (data : List UInt8) :
    Except FsError Unit × FsHandle :=
  let out := seekAndWrite fs.imageFile (blockOffset (fsDataStartBlock + b)) data
  (out.1, { fs with imageFile := out.2 })

/-- `allocate_data_block`: the first free cell is marked before its block is
cleared on the image. -/
def allocateDataBlock (fs : FsHandle) : Except FsError BlockIndex × FsHandle :=
  match (List.finRange fsDataBlockCount).find? (fun index => fs.fat index = fatFree) with
  | none => (.error .noSpace, fs)
  | some index =>
      match writeDataBlock (fs.setCell index fatEnd) index (List.replicate fsBlockSize 0) with
      | (.error _, fs) => (.error .io, fs)
      | (.ok (), fs) => (.ok index, fs)

/-- The loop of `release_chain`; `allowance` is
`FS_DATA_BLOCK_COUNT + 1 - seen`. -/
def releaseFrom (fs : FsHandle) (allowance : ℕ) (cur : UInt32) : Except FsError Unit × FsHandle :=
  if cur = fatEnd then (.ok (), fs)
  else
    match blockAt? cur with
    | none => (.error .state, fs)
    | some b =>
        match allowance with
        | 0 => (.error .state, fs)
        | allowance + 1 => releaseFrom (fs.setCell b fatFree) allowance (fs.fat b)

/-- `release_chain`. -/
def releaseChain (fs : FsHandle) (firstBlock : UInt32) : Except FsError Unit × FsHandle :=
  releaseFrom fs (fsDataBlockCount + 1) firstBlock

/-- The loop of `resolve_data_block`: `steps` links from `cur`, extending the
chain at its end when allocating. -/
def followChain (allocate : Bool) : ℕ → FsHandle → BlockIndex →
    Except FsError BlockIndex × FsHandle
  | 0, fs, cur => (.ok cur, fs)
  | steps + 1, fs, cur =>
      if fs.fat cur = fatEnd then
        if allocate then
          match allocateDataBlock fs with
          | (.error _, fs) => (.error .noSpace, fs)
          | (.ok next, fs) => followChain allocate steps (fs.setCell cur (blockLink next)) next
        else (.error .notFound, fs)
      else
        match blockAt? (fs.fat cur) with
        | none => (.error .state, fs)
        | some next => followChain allocate steps fs next

/-- The first part of `resolve_data_block`: an empty chain gets a first block
when allocating. -/
def attachFirst (fs : FsHandle) (entry : FileIndex) (allocate : Bool) :
    Except FsError Unit × FsHandle :=
  if (fs.dirEntries entry).firstBlock = fatEnd then
    if allocate then
      match allocateDataBlock fs with
      | (.error _, fs) => (.error .noSpace, fs)
      | (.ok first, fs) => (.ok (), fs.setFirstBlock entry (blockLink first))
    else (.error .notFound, fs)
  else (.ok (), fs)

/-- `resolve_data_block`. -/
def resolveDataBlock (fs : FsHandle) (entry : FileIndex) (logicalBlockIndex : ℕ)
    (allocate : Bool) : Except FsError BlockIndex × FsHandle :=
  match attachFirst fs entry allocate with
  | (.error e, fs) => (.error e, fs)
  | (.ok (), fs) =>
      match blockAt? (fs.dirEntries entry).firstBlock with
      | none => (.error .state, fs)
      | some cur => followChain allocate logicalBlockIndex fs cur

/-! ## Directory -/

/-- `find_dir_entry`. -/
def findDirEntry (fs : FsHandle) (name : List UInt8) : Option FileIndex :=
  (List.finRange fsMaxFiles).find? fun i => (fs.dirEntries i).used ≠ 0 ∧
    strncmp (fsMaxNameLen + 1) (fs.dirEntries i).name.toList name = 0

/-- The name array after `strncpy` and the final NUL. -/
def nameArray (name : List UInt8) : Vector UInt8 32 :=
  Vector.ofFn fun k => if k < fsMaxNameLen then name.getD k 0 else 0

/-- The entry `alloc_dir_entry` makes. -/
def newEntry (name : List UInt8) : DirEntry :=
  { DirEntry.zero with used := 1, firstBlock := fatEnd, name := nameArray name }

/-- `alloc_dir_entry`. -/
def allocDirEntry (fs : FsHandle) (name : List UInt8) : Option FileIndex × FsHandle :=
  match (List.finRange fsMaxFiles).find? (fun i => (fs.dirEntries i).used = 0) with
  | none => (none, fs)
  | some i => (some i, fs.setEntry i (newEntry name))

/-- `valid_fd`, answering the table slot the descriptor names. -/
def slotOf? (fd : ℤ) : Option Descriptor :=
  if valid : 0 ≤ fd ∧ fd < fsMaxOpenFiles then some ⟨fd.toNat, by omega⟩ else none

/-- `alloc_fd`. -/
def allocFd (fs : FsHandle) : Option Descriptor :=
  (List.finRange fsMaxOpenFiles).find? fun fd => (fs.openFiles fd).inUse = false

/-- `validate_common` on a non-null handle. -/
def validateCommon (fs : FsHandle) : Except FsError Unit :=
  if fs.mounted then .ok () else .error .state

end TigerOS.Otfs
