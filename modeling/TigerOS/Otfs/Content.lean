import TigerOS.Otfs.Chain

/-! # The bytes of a chain

A chain of blocks holds a store of bytes: position `p` lies in block `p / 512`
of the chain at offset `p % 512`, and positions past the chain read as zero.
With this reading, adding a cleared block to a chain does not change its bytes
(`TigerOS.Otfs.contentAt_append_zero`), and overwriting part of one block
overwrites a range (`TigerOS.Otfs.contentAt_writeBlock`).
-/

namespace TigerOS.Otfs

open Foundation

/-- The offset of a data block in the image. -/
def dataOffset (b : BlockIndex) : ℕ := blockOffset (fsDataStartBlock + b)

/-- Byte `j` of a data block. -/
def blockByte (file : ImageFile) (b : BlockIndex) (j : ℕ) : UInt8 := file.byte (dataOffset b + j)

/-- The bytes a chain of blocks holds. -/
def contentAt (file : ImageFile) (blocks : List BlockIndex) (p : ℕ) : UInt8 :=
  match blocks[p / fsBlockSize]? with
  | some b => blockByte file b (p % fsBlockSize)
  | none => 0

/-- The image holds every block. -/
def ImageFile.Complete (file : ImageFile) : Prop := fsTotalBlocks * fsBlockSize ≤ file.size

/-! ## Storing a block -/

theorem dataOffset_eq (b : BlockIndex) : dataOffset b = (7 + b.val) * 512 := rfl

/-- The end of the metadata regions. -/
theorem metadata_le_dataOffset (b : BlockIndex) : 3584 ≤ dataOffset b := by
  rw [dataOffset_eq]
  omega

theorem dataOffset_add_le (b : BlockIndex) :
    dataOffset b + fsBlockSize ≤ fsTotalBlocks * fsBlockSize := by
  have bound : b.val < 249 := b.isLt
  rw [dataOffset_eq]
  change (7 + b.val) * 512 + 512 ≤ 131072
  omega

section Store

variable {file : ImageFile} {b c : BlockIndex} {j : ℕ} {data : List UInt8}

theorem blockByte_store_same (inside : j < data.length) :
    blockByte (file.store (dataOffset b) data) b j = data[j] := by
  simp only [blockByte, ImageFile.store]
  rw [writeRange_inside (Nat.le_add_right _ _) (by omega)]
  congr 1
  omega

theorem blockByte_store_other (apart : c ≠ b) (inside : j < fsBlockSize)
    (sized : data.length = fsBlockSize) :
    blockByte (file.store (dataOffset b) data) c j = blockByte file c j := by
  have distinct : c.val ≠ b.val := fun same => apart (Fin.ext same)
  simp only [blockByte, ImageFile.store]
  change j < 512 at inside
  change data.length = 512 at sized
  exact writeRange_outside (by rw [dataOffset_eq, dataOffset_eq, sized]; omega)

theorem byte_store_dataOffset {p : ℕ} (metadata : p < 3584) :
    (file.store (dataOffset b) data).byte p = file.byte p :=
  writeRange_outside (.inl (metadata.trans_le (metadata_le_dataOffset b)))

end Store

/-! ## Contents -/

section Content

variable {file file' : ImageFile} {blocks : List BlockIndex} {b : BlockIndex} {p : ℕ}

theorem contentAt_of_getElem? (here : blocks[p / fsBlockSize]? = some b) :
    contentAt file blocks p = blockByte file b (p % fsBlockSize) := by
  simp only [contentAt, here]

theorem contentAt_past (past : fsBlockSize * blocks.length ≤ p) : contentAt file blocks p = 0 := by
  have none : blocks[p / fsBlockSize]? = none := by
    rw [List.getElem?_eq_none_iff]
    change 512 * blocks.length ≤ p at past
    change blocks.length ≤ p / 512
    omega
  simp only [contentAt, none]

theorem contentAt_congr (same : ∀ b ∈ blocks, ∀ j < fsBlockSize,
    blockByte file' b j = blockByte file b j) : contentAt file' blocks = contentAt file blocks := by
  funext p
  cases here : blocks[p / fsBlockSize]? with
  | none => simp only [contentAt, here]
  | some b =>
      rw [contentAt_of_getElem? here, contentAt_of_getElem? here]
      exact same b (List.mem_of_getElem? here) _ (Nat.mod_lt _ (by decide))

/-- A cleared block at the end of a chain leaves its bytes. -/
theorem contentAt_append_zero (cleared : ∀ j < fsBlockSize, blockByte file b j = 0) :
    contentAt file (blocks ++ [b]) = contentAt file blocks := by
  funext p
  by_cases inside : p / fsBlockSize < blocks.length
  · simp only [contentAt, List.getElem?_append_left inside]
  · have past : contentAt file blocks p = 0 := by
      apply contentAt_past
      change ¬ p / 512 < blocks.length at inside
      change 512 * blocks.length ≤ p
      omega
    rw [past]
    cases here : (blocks ++ [b])[p / fsBlockSize]? with
    | none => simp only [contentAt, here]
    | some c =>
        rw [contentAt_of_getElem? here]
        rw [List.getElem?_append_right (by omega)] at here
        have last : c = b := by
          have member := List.mem_of_getElem? here
          simpa using member
        rw [last]
        exact cleared _ (Nat.mod_lt _ (by decide))

/-- Overwriting part of one block of a chain overwrites a range of its bytes. -/
theorem contentAt_writeBlock {index intra : ℕ} {data : List UInt8} (nodup : blocks.Nodup)
    (here : blocks[index]? = some b) (fits : intra + data.length ≤ fsBlockSize)
    (written : ∀ j < fsBlockSize,
      blockByte file' b j = writeRange (blockByte file b) intra data j)
    (spared : ∀ c ∈ blocks, c ≠ b → ∀ j < fsBlockSize, blockByte file' c j = blockByte file c j) :
    contentAt file' blocks =
      writeRange (contentAt file blocks) (index * fsBlockSize + intra) data := by
  change intra + data.length ≤ 512 at fits
  funext p
  by_cases inBlock : p / fsBlockSize = index
  · subst inBlock
    rw [contentAt_of_getElem? here, written _ (Nat.mod_lt _ (by decide))]
    change writeRange _ intra data (p % 512) = writeRange _ (p / 512 * 512 + intra) data p
    by_cases inside : intra ≤ p % 512 ∧ p % 512 - intra < data.length
    · rw [writeRange_inside inside.1 inside.2, writeRange_inside (by omega) (by omega)]
      congr 1
      omega
    · rw [writeRange_outside (by omega), writeRange_outside (by omega),
        contentAt_of_getElem? here]
  · rw [writeRange_outside (by
      change p / 512 ≠ index at inBlock
      change p < index * 512 + intra ∨ index * 512 + intra + data.length ≤ p
      omega)]
    cases other : blocks[p / fsBlockSize]? with
    | none => simp only [contentAt, other]
    | some c =>
        have apart : c ≠ b := by
          rintro rfl
          obtain ⟨inside, _⟩ := List.getElem?_eq_some_iff.mp other
          exact inBlock ((List.getElem?_inj inside nodup).mp (other.trans here.symm))
        rw [contentAt_of_getElem? other, contentAt_of_getElem? other]
        exact spared c (List.mem_of_getElem? other) apart _ (Nat.mod_lt _ (by decide))

end Content

end TigerOS.Otfs
