import TigerOS.Foundation.CString
import TigerOS.Otfs.Image

/-! # The on-disk format

Block 0 holds the superblock, blocks 1 to 4 the directory, blocks 5 and 6 the
FAT, and blocks 7 to 255 the data. The records are packed structs, so a region
of the image is the byte sequence of its records. What an encoder writes its
decoder reads back (`TigerOS.Otfs.decodeDir_encodeDir`,
`TigerOS.Otfs.decodeFat_encodeFat`,
`TigerOS.Otfs.decodeSuperblock_encodeSuperblock`).
-/

namespace TigerOS.Otfs

open Foundation

abbrev fsBlockSize : ℕ := 512
abbrev fsTotalBlocks : ℕ := 256
abbrev fsMaxFiles : ℕ := 32
abbrev fsMaxOpenFiles : ℕ := 16
abbrev fsMaxNameLen : ℕ := 31

abbrev fsDirEntrySize : ℕ := 64
abbrev fsSuperblockSize : ℕ := 64
abbrev fsVersion : ℕ := 1
abbrev fsDirStartBlock : ℕ := 1
abbrev fsDirBlockCount : ℕ := 4
abbrev fsFatStartBlock : ℕ := fsDirStartBlock + fsDirBlockCount
abbrev fsFatBlockCount : ℕ := 2
abbrev fsDataStartBlock : ℕ := fsFatStartBlock + fsFatBlockCount
abbrev fsDataBlockCount : ℕ := fsTotalBlocks - fsDataStartBlock

/-- The content of a FAT cell whose block is free. -/
def fatFree : UInt32 := 0xffffffff

/-- The link that ends a chain. -/
def fatEnd : UInt32 := 0xfffffffe

theorem fsMaxFiles_ne_zero : fsMaxFiles ≠ 0 := Nat.succ_ne_zero _
theorem fsMaxOpenFiles_ne_zero : fsMaxOpenFiles ≠ 0 := Nat.succ_ne_zero _

instance : NeZero fsMaxFiles := ⟨fsMaxFiles_ne_zero⟩
instance : NeZero fsMaxOpenFiles := ⟨fsMaxOpenFiles_ne_zero⟩

abbrev FileIndex := Fin fsMaxFiles
abbrev BlockIndex := Fin fsDataBlockCount
abbrev Descriptor := Fin fsMaxOpenFiles

/-- `block_offset`. -/
def blockOffset (blockIndex : ℕ) : ℕ := blockIndex * fsBlockSize

/-- `fs_superblock_disk_t`, its reserved words left out. -/
structure Superblock where
  magic : Vector UInt8 8
  version : UInt32
  blockSize : UInt32
  totalBlocks : UInt32
  dirStartBlock : UInt32
  dirBlockCount : UInt32
  fatStartBlock : UInt32
  fatBlockCount : UInt32
  dataStartBlock : UInt32
  dataBlockCount : UInt32
  maxFiles : UInt32
  deriving DecidableEq

/-- `fs_dir_entry_disk_t`. -/
structure DirEntry where
  used : UInt8
  reserved0 : Vector UInt8 3
  name : Vector UInt8 32
  firstBlock : UInt32
  sizeBytes : UInt32
  reserved1 : Vector UInt8 20
  deriving DecidableEq

/-- `k_magic`. -/
def kMagic : Vector UInt8 8 := #v[79, 84, 70, 83, 118, 49, 0, 0]

/-- An entry of all zeros. -/
def DirEntry.zero : DirEntry where
  used := 0
  reserved0 := Vector.replicate 3 0
  name := Vector.replicate 32 0
  firstBlock := 0
  sizeBytes := 0
  reserved1 := Vector.replicate 20 0

/-- The C string in the name array of an entry. -/
def DirEntry.nameString (entry : DirEntry) : List UInt8 :=
  cstr (fsMaxNameLen + 1) entry.name.toList

/-! ## Encoding -/

def encodeEntry (entry : DirEntry) : List UInt8 :=
  entry.used :: (entry.reserved0.toList ++ entry.name.toList ++ u32Bytes entry.firstBlock ++
    u32Bytes entry.sizeBytes ++ entry.reserved1.toList)

def encodeDir (dir : FileIndex → DirEntry) : List UInt8 :=
  (List.ofFn dir).flatMap encodeEntry

/-- The FAT region: the cells of the data blocks, the rest left at `0xff`. -/
def encodeFat (fat : BlockIndex → UInt32) : List UInt8 :=
  (List.ofFn fat).flatMap u32Bytes ++
    List.replicate (fsFatBlockCount * fsBlockSize - 4 * fsDataBlockCount) 0xff

/-- The words of a superblock, in the order of its fields. -/
def Superblock.words (sb : Superblock) : List UInt32 :=
  [sb.version, sb.blockSize, sb.totalBlocks, sb.dirStartBlock, sb.dirBlockCount,
    sb.fatStartBlock, sb.fatBlockCount, sb.dataStartBlock, sb.dataBlockCount, sb.maxFiles]

def encodeSuperblock (sb : Superblock) : List UInt8 :=
  sb.magic.toList ++ sb.words.flatMap u32Bytes ++ List.replicate 16 0

/-! ## Decoding -/

def decodeEntry (byte : ℕ → UInt8) : DirEntry where
  used := byte 0
  reserved0 := Vector.ofFn fun k => byte (1 + k)
  name := Vector.ofFn fun k => byte (4 + k)
  firstBlock := u32At fun k => byte (36 + k)
  sizeBytes := u32At fun k => byte (40 + k)
  reserved1 := Vector.ofFn fun k => byte (44 + k)

def decodeDir (bytes : List UInt8) : FileIndex → DirEntry := fun i =>
  decodeEntry fun k => bytes.getD (i * fsDirEntrySize + k) 0

def decodeFat (bytes : List UInt8) : BlockIndex → UInt32 := fun b =>
  u32At fun k => bytes.getD (b * 4 + k) 0

def decodeSuperblock (bytes : List UInt8) : Superblock :=
  let word (i : ℕ) : UInt32 := u32At fun k => bytes.getD (8 + (i * 4 + k)) 0
  { magic := Vector.ofFn fun k => bytes.getD k 0
    version := word 0
    blockSize := word 1
    totalBlocks := word 2
    dirStartBlock := word 3
    dirBlockCount := word 4
    fatStartBlock := word 5
    fatBlockCount := word 6
    dataStartBlock := word 7
    dataBlockCount := word 8
    maxFiles := word 9 }

/-! ## Round trips -/

@[simp] theorem length_u32Bytes (word : UInt32) : (u32Bytes word).length = 4 := rfl

@[simp] theorem length_encodeEntry (entry : DirEntry) :
    (encodeEntry entry).length = fsDirEntrySize := by
  simp [encodeEntry]

@[simp] theorem length_encodeDir (dir : FileIndex → DirEntry) :
    (encodeDir dir).length = fsDirBlockCount * fsBlockSize := by
  rw [encodeDir, length_flatMap_records length_encodeEntry, List.length_ofFn]
  rfl

@[simp] theorem length_encodeFat (fat : BlockIndex → UInt32) :
    (encodeFat fat).length = fsFatBlockCount * fsBlockSize := by
  rw [encodeFat, List.length_append, length_flatMap_records length_u32Bytes, List.length_ofFn,
    List.length_replicate]
  rfl

@[simp] theorem length_encodeSuperblock (sb : Superblock) :
    (encodeSuperblock sb).length = fsSuperblockSize := by
  simp [encodeSuperblock, Superblock.words]

theorem decodeEntry_encodeEntry {byte : ℕ → UInt8} {entry : DirEntry}
    (stored : ∀ k < fsDirEntrySize, byte k = (encodeEntry entry).getD k 0) :
    decodeEntry byte = entry := by
  obtain ⟨used, reserved0, name, firstBlock, sizeBytes, reserved1⟩ := entry
  simp only [encodeEntry, List.append_assoc, fsDirEntrySize] at stored
  simp only [decodeEntry, DirEntry.mk.injEq]
  refine ⟨stored 0 (by omega), ?_, ?_, ?_, ?_, ?_⟩
  · ext k inside
    rw [Vector.getElem_ofFn, stored _ (by omega), Nat.add_comm,
      List.getD_cons_succ, List.getD_append _ _ _ _ (by simpa using inside)]
    simp [List.getD_eq_getElem?_getD, inside]
  · ext k inside
    rw [Vector.getElem_ofFn, stored _ (by omega), show 4 + k = k + 3 + 1 by omega,
      List.getD_cons_succ, List.getD_append_right _ _ _ _ (by simp),
      List.getD_append _ _ _ _ (by simpa using inside)]
    simp [List.getD_eq_getElem?_getD, inside]
  · apply u32At_u32Bytes
    intro k inside
    rw [stored _ (by omega), show 36 + k = k + 35 + 1 by omega, List.getD_cons_succ,
      List.getD_append_right _ _ _ _ (by simp), List.getD_append_right _ _ _ _ (by simp),
      List.getD_append _ _ _ _ (by simpa using inside)]
    simp
  · apply u32At_u32Bytes
    intro k inside
    rw [stored _ (by omega), show 40 + k = k + 39 + 1 by omega, List.getD_cons_succ,
      List.getD_append_right _ _ _ _ (by simp), List.getD_append_right _ _ _ _ (by simp),
      List.getD_append_right _ _ _ _ (by simp), List.getD_append _ _ _ _ (by simpa using inside)]
    simp
  · ext k inside
    rw [Vector.getElem_ofFn, stored _ (by omega), show 44 + k = k + 43 + 1 by omega,
      List.getD_cons_succ, List.getD_append_right _ _ _ _ (by simp),
      List.getD_append_right _ _ _ _ (by simp), List.getD_append_right _ _ _ _ (by simp),
      List.getD_append_right _ _ _ _ (by simp)]
    simp [List.getD_eq_getElem?_getD, inside]

/-- A directory region decodes to the entries it was encoded from. -/
theorem decodeDir_encodeDir (dir : FileIndex → DirEntry) : decodeDir (encodeDir dir) = dir := by
  funext i
  apply decodeEntry_encodeEntry
  intro k inside
  rw [encodeDir, getD_flatMap_records length_encodeEntry _ (by rw [List.length_ofFn]; exact i.isLt)
    inside, List.getElem_ofFn]

/-- A FAT region decodes to the cells it was encoded from. -/
theorem decodeFat_encodeFat (fat : BlockIndex → UInt32) : decodeFat (encodeFat fat) = fat := by
  funext b
  apply u32At_u32Bytes
  intro k inside
  have cells : ((List.ofFn fat).flatMap u32Bytes).length = fsDataBlockCount * 4 := by
    rw [length_flatMap_records length_u32Bytes, List.length_ofFn]
  have bound := b.isLt
  rw [encodeFat, List.getD_append _ _ _ _ (by rw [cells]; omega),
    getD_flatMap_records length_u32Bytes _ (by rw [List.length_ofFn]; exact bound) inside,
    List.getElem_ofFn]

/-- A superblock decodes to the record it was encoded from. -/
theorem decodeSuperblock_encodeSuperblock (sb : Superblock) :
    decodeSuperblock (encodeSuperblock sb) = sb := by
  have magic : Vector.ofFn (fun k : Fin 8 => (encodeSuperblock sb).getD k 0) = sb.magic := by
    ext k inside
    rw [Vector.getElem_ofFn, encodeSuperblock, List.append_assoc,
      List.getD_append _ _ _ _ (by simpa using inside)]
    simp [List.getD_eq_getElem?_getD, inside]
  have word (i : ℕ) (row : i < sb.words.length) :
      u32At (fun k => (encodeSuperblock sb).getD (8 + (i * 4 + k)) 0) = sb.words[i] := by
    apply u32At_u32Bytes
    intro k inside
    have ten : sb.words.length = 10 := rfl
    rw [encodeSuperblock, List.append_assoc, List.getD_append_right _ _ _ _ (by simp),
      Vector.length_toList, Nat.add_sub_cancel_left,
      List.getD_append _ _ _ _ (by simp [Superblock.words]; omega),
      getD_flatMap_records length_u32Bytes _ row inside]
  simp only [decodeSuperblock, magic, word 0 (by simp [Superblock.words]),
    word 1 (by simp [Superblock.words]), word 2 (by simp [Superblock.words]),
    word 3 (by simp [Superblock.words]), word 4 (by simp [Superblock.words]),
    word 5 (by simp [Superblock.words]), word 6 (by simp [Superblock.words]),
    word 7 (by simp [Superblock.words]), word 8 (by simp [Superblock.words]),
    word 9 (by simp [Superblock.words])]
  rfl

end TigerOS.Otfs
