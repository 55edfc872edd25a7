import TigerOS.Otfs.Api
import TigerOS.Otfs.Extension

/-! # The read and write loops

A read answers a range of the bytes of a chain and moves only its descriptor
(`TigerOS.Otfs.readLoop_eq`). A write extends the chain to reach its range and
overwrites the range (`TigerOS.Otfs.writeLoop_spec`); when it runs out of space
it has taken every free block and stored a prefix.
-/

namespace TigerOS.Otfs

open Foundation

/-- The number of blocks that reach the end of a range; an empty range needs
none. -/
def blocksFor (offset len : ℕ) : ℕ := if len = 0 then 0 else (offset + len - 1) / fsBlockSize + 1

/-- A range needs the block it starts in and the blocks of what lies past that
block. -/
theorem blocksFor_round (offset : ℕ) {len : ℕ} (nonempty : len ≠ 0) :
    let chunk := min (fsBlockSize - offset % fsBlockSize) len
    blocksFor offset len =
      max (offset / fsBlockSize + 1) (blocksFor (offset + chunk) (len - chunk)) := by
  intro chunk
  simp only [chunk, blocksFor, nonempty, ↓reduceIte, fsBlockSize]
  split <;> omega

/-! ## Descriptors -/

namespace FsHandle

variable (fs : FsHandle) (fd : Descriptor)

@[simp] theorem advance_zero : fs.advance fd 0 = fs := by
  simp only [advance, setOpenFile]
  congr 1
  rw [Function.update_eq_self_iff]
  simp

@[simp] theorem advance_advance (first second : ℕ) :
    (fs.advance fd first).advance fd second = fs.advance fd (first + second) := by
  simp only [advance, setOpenFile, Function.update_self, Function.update_idem]
  congr 3
  rw [UInt32.ofNat_add, UInt32.add_assoc]

@[simp] theorem advance_imageFile (chunk : ℕ) : (fs.advance fd chunk).imageFile = fs.imageFile :=
  rfl

@[simp] theorem advance_fat (chunk : ℕ) : (fs.advance fd chunk).fat = fs.fat := rfl

@[simp] theorem advance_dirEntries (chunk : ℕ) :
    (fs.advance fd chunk).dirEntries = fs.dirEntries := rfl

theorem advance_openFiles (chunk : ℕ) : (fs.advance fd chunk).openFiles =
    Function.update fs.openFiles fd { fs.openFiles fd with
      offset := (fs.openFiles fd).offset + UInt32.ofNat chunk } := rfl

/-- Moving a descriptor to a place the chains reach does not wrap. -/
theorem toNat_offset_advance {fs : FsHandle} {fd : Descriptor} {chunk count : ℕ}
    (short : count ≤ fsDataBlockCount)
    (reach : chunk ≠ 0 → (fs.openFiles fd).offset.toNat + chunk ≤ fsBlockSize * count) :
    ((fs.advance fd chunk).openFiles fd).offset.toNat =
      (fs.openFiles fd).offset.toNat + chunk := by
  have bound := (fs.openFiles fd).offset.toNat_lt
  change count ≤ 249 at short
  change chunk ≠ 0 → _ ≤ 512 * count at reach
  rw [advance_openFiles, Function.update_self, UInt32.toNat_add, UInt32.toNat_ofNat']
  omega

end FsHandle

/-! ## Reading -/

section Read

variable {fs : FsHandle} {i : FileIndex} {blocks : List BlockIndex} {fd : Descriptor}

theorem readDataBlock_of_faultless {b : BlockIndex} (faultless : fs.imageFile.Faultless) :
    readDataBlock fs b = (if dataOffset b + fsBlockSize ≤ fs.imageFile.size then
      .ok (readRange fs.imageFile.byte (dataOffset b) fsBlockSize) else .error .io, fs) := by
  simp only [readDataBlock, seekAndRead_of_faultless _ _ faultless]
  rfl

/-- A block of a chain holds the range of its bytes at its place. -/
theorem take_drop_block {b : BlockIndex} {offset chunk : ℕ}
    (here : blocks[offset / fsBlockSize]? = some b)
    (fits : offset % fsBlockSize + chunk ≤ fsBlockSize) :
    ((readRange fs.imageFile.byte (dataOffset b) fsBlockSize).drop (offset % fsBlockSize)).take
        chunk = readRange (contentAt fs.imageFile blocks) offset chunk := by
  change offset % 512 + chunk ≤ 512 at fits
  apply List.ext_getElem
  · simp only [List.length_take, List.length_drop, length_readRange, fsBlockSize]
    omega
  · intro k _ inside
    rw [length_readRange] at inside
    have sameBlock : (offset + k) / fsBlockSize = offset / fsBlockSize := by
      change (offset + k) / 512 = offset / 512
      omega
    rw [List.getElem_take, List.getElem_drop, getElem_readRange, getElem_readRange,
      contentAt_of_getElem? (sameBlock ▸ here), blockByte]
    congr 1
    change dataOffset b + (offset % 512 + k) = dataOffset b + (offset + k) % 512
    omega

/-- One round of the read loop, in a block the chain has. -/
private theorem readLoop_round (rounds : ℕ) {len : ℕ} {b : BlockIndex} (nonempty : len ≠ 0)
    (faultless : fs.imageFile.Faultless)
    (chain : FatChain fs.fat (fs.dirEntries i).firstBlock blocks)
    (here : blocks[(fs.openFiles fd).offset.toNat / fsBlockSize]? = some b)
    (held : dataOffset b + fsBlockSize ≤ fs.imageFile.size) :
    let offset := (fs.openFiles fd).offset.toNat
    let chunk := min (fsBlockSize - offset % fsBlockSize) len
    readLoop fd i (rounds + 1) fs len =
      match readLoop fd i rounds (fs.advance fd chunk) (len - chunk) with
      | (.error e, fs) => (.error e, fs)
      | (.ok rest, after) => (.ok (readRange (contentAt fs.imageFile blocks) offset chunk ++ rest),
          after) := by
  intro offset chunk
  have found : resolveDataBlock fs i (offset / fsBlockSize) false = (.ok b, fs) := by
    rw [resolveDataBlock_lookup _ chain, here]
  have got : readDataBlock fs b =
      (.ok (readRange fs.imageFile.byte (dataOffset b) fsBlockSize), fs) := by
    rw [readDataBlock_of_faultless faultless, if_pos held]
  have bytes : ((readRange fs.imageFile.byte (dataOffset b) fsBlockSize).drop
      (offset % fsBlockSize)).take chunk =
      readRange (contentAt fs.imageFile blocks) offset chunk :=
    take_drop_block here (by simp only [chunk, fsBlockSize]; omega)
  rcases rest : readLoop fd i rounds (fs.advance fd chunk) (len - chunk) with ⟨e | data, after⟩
  · rw [readLoop, if_neg nonempty]
    simp only [offset, chunk] at found rest ⊢
    simp only [found, got, rest]
  · rw [readLoop, if_neg nonempty]
    simp only [offset, chunk] at found bytes rest ⊢
    simp only [found, got, bytes, rest]

/-- The read loop fails in a block the image lacks. -/
private theorem readLoop_cut (rounds : ℕ) {len : ℕ} {b : BlockIndex} (nonempty : len ≠ 0)
    (faultless : fs.imageFile.Faultless)
    (chain : FatChain fs.fat (fs.dirEntries i).firstBlock blocks)
    (here : blocks[(fs.openFiles fd).offset.toNat / fsBlockSize]? = some b)
    (lacking : ¬ dataOffset b + fsBlockSize ≤ fs.imageFile.size) :
    readLoop fd i (rounds + 1) fs len = (.error .io, fs) := by
  have found : resolveDataBlock fs i ((fs.openFiles fd).offset.toNat / fsBlockSize) false =
      (.ok b, fs) := by
    rw [resolveDataBlock_lookup _ chain, here]
  have short : readDataBlock fs b = (.error .io, fs) := by
    rw [readDataBlock_of_faultless faultless, if_neg lacking]
  rw [readLoop, if_neg nonempty]
  simp only [found, short]

/-- The read loop answers the bytes of its range, provided the chain reaches it
and the image holds every block. -/
theorem readLoop_eq (fs : FsHandle) (rounds len : ℕ) (enough : len ≤ rounds)
    (faultless : fs.imageFile.Faultless)
    (chain : FatChain fs.fat (fs.dirEntries i).firstBlock blocks)
    (within : len ≠ 0 → (fs.openFiles fd).offset.toNat + len ≤ fsBlockSize * blocks.length) :
    readLoop fd i rounds fs len =
      (.ok (readRange (contentAt fs.imageFile blocks) (fs.openFiles fd).offset.toNat len),
        fs.advance fd len) ∨
    ((readLoop fd i rounds fs len).1 = .error .io ∧ ¬ fs.imageFile.Complete) := by
  induction rounds generalizing fs len with
  | zero =>
      obtain rfl : len = 0 := by omega
      left
      rw [FsHandle.advance_zero, readRange_zero]
      rfl
  | succ rounds ih =>
      by_cases nothing : len = 0
      · subst nothing
        left
        rw [FsHandle.advance_zero, readRange_zero, readLoop, if_pos rfl]
      · have reach := within nothing
        set offset := (fs.openFiles fd).offset.toNat with offsetEq
        let chunk := min (fsBlockSize - offset % fsBlockSize) len
        have bounds : 0 < chunk ∧ chunk ≤ len := by
          simp only [chunk, fsBlockSize]
          omega
        have inside : offset / fsBlockSize < blocks.length := by
          simp only [fsBlockSize] at reach ⊢
          omega
        obtain ⟨b, here⟩ : ∃ b, blocks[offset / fsBlockSize]? = some b :=
          ⟨_, List.getElem?_eq_getElem inside⟩
        by_cases held : dataOffset b + fsBlockSize ≤ fs.imageFile.size
        · have moved : ((fs.advance fd chunk).openFiles fd).offset.toNat = offset + chunk :=
            FsHandle.toNat_offset_advance (FatChain.length_le chain) (fun _ => by omega)
          rw [readLoop_round rounds nothing faultless chain here held]
          have rest := ih (fs.advance fd chunk) (len - chunk) (by omega) faultless chain
            (fun _ => by omega)
          rw [moved, FsHandle.advance_advance, Nat.add_sub_cancel' bounds.2] at rest
          obtain answered | ⟨failed, incomplete⟩ := rest
          · left
            rw [answered]
            simp only [FsHandle.advance_imageFile]
            rw [← readRange_add, Nat.add_sub_cancel' bounds.2]
          · right
            refine ⟨?_, incomplete⟩
            revert failed
            generalize readLoop fd i rounds (fs.advance fd chunk) (len - chunk) = out
            obtain ⟨answer | answer, after⟩ := out
            · exact id
            · intro failed
              cases failed
        · right
          rw [readLoop_cut rounds nothing faultless chain here held]
          exact ⟨rfl, fun complete => held ((dataOffset_add_le b).trans complete)⟩

/-- A read past the blocks of a chain fails in its first round. -/
theorem readLoop_unbacked (rounds : ℕ) {len : ℕ} (nonempty : len ≠ 0)
    (chain : FatChain fs.fat (fs.dirEntries i).firstBlock blocks)
    (past : blocks.length ≤ (fs.openFiles fd).offset.toNat / fsBlockSize) :
    readLoop fd i (rounds + 1) fs len = (.error .state, fs) := by
  have missing : resolveDataBlock fs i ((fs.openFiles fd).offset.toNat / fsBlockSize) false =
      (.error .notFound, fs) := by
    rw [resolveDataBlock_lookup _ chain, List.getElem?_eq_none past]
  rw [readLoop, if_neg nonempty]
  simp only [missing]

/-- A read that reaches past a chain fails where the chain ends, its descriptor moved up
to there. -/
theorem readLoop_stops (fs : FsHandle) (rounds len : ℕ) (enough : len ≤ rounds)
    (nonempty : len ≠ 0) (faultless : fs.imageFile.Faultless) (complete : fs.imageFile.Complete)
    (chain : FatChain fs.fat (fs.dirEntries i).firstBlock blocks)
    (past : fsBlockSize * blocks.length < (fs.openFiles fd).offset.toNat + len) :
    readLoop fd i rounds fs len = (.error .state,
      fs.advance fd (fsBlockSize * blocks.length - (fs.openFiles fd).offset.toNat)) := by
  induction rounds generalizing fs len with
  | zero => exact absurd (Nat.le_zero.mp enough) nonempty
  | succ rounds ih =>
      set offset := (fs.openFiles fd).offset.toNat with offsetEq
      cases here : blocks[offset / fsBlockSize]? with
      | none =>
          have ends := List.getElem?_eq_none_iff.mp here
          have none : fsBlockSize * blocks.length - offset = 0 := by
            simp only [fsBlockSize] at ends ⊢
            omega
          rw [readLoop_unbacked rounds nonempty chain ends, none, FsHandle.advance_zero]
      | some b =>
          let chunk := min (fsBlockSize - offset % fsBlockSize) len
          have inside : offset / fsBlockSize < blocks.length :=
            (List.getElem?_eq_some_iff.mp here).1
          have bounds : 0 < chunk ∧ chunk ≤ len ∧ offset + chunk ≤ fsBlockSize * blocks.length := by
            simp only [chunk, fsBlockSize] at inside ⊢
            omega
          have moved : ((fs.advance fd chunk).openFiles fd).offset.toNat = offset + chunk :=
            FsHandle.toNat_offset_advance (FatChain.length_le chain) fun _ => bounds.2.2
          have rest := ih (fs.advance fd chunk) (len - chunk) (by omega) (by omega) faultless
            complete chain (by rw [moved]; omega)
          rw [moved, FsHandle.advance_advance, Nat.sub_add_eq,
            Nat.add_sub_cancel' (Nat.le_sub_of_add_le' bounds.2.2)] at rest
          rw [readLoop_round rounds nonempty faultless chain here
            ((dataOffset_add_le b).trans complete), rest]

/-- A read that starts on a chain and reaches past it fails where the chain ends. -/
theorem readLoop_short (fs : FsHandle) (rounds len : ℕ) (enough : len ≤ rounds)
    (nonempty : len ≠ 0) (faultless : fs.imageFile.Faultless) (complete : fs.imageFile.Complete)
    (chain : FatChain fs.fat (fs.dirEntries i).firstBlock blocks)
    (past : fsBlockSize * blocks.length < (fs.openFiles fd).offset.toNat + len) :
    (readLoop fd i rounds fs len).1 = .error .state := by
  rw [readLoop_stops fs rounds len enough nonempty faultless complete chain past]

/-- Whatever a read loop answers, it moved only its descriptor. -/
theorem readLoop_moves (fs : FsHandle) (rounds len : ℕ) (faultless : fs.imageFile.Faultless)
    (chain : FatChain fs.fat (fs.dirEntries i).firstBlock blocks) :
    ∃ moved, (readLoop fd i rounds fs len).2 = fs.advance fd moved := by
  induction rounds generalizing fs len with
  | zero => exact ⟨0, (FsHandle.advance_zero ..).symm⟩
  | succ rounds ih =>
      by_cases nothing : len = 0
      · refine ⟨0, ?_⟩
        rw [readLoop, if_pos nothing, FsHandle.advance_zero]
      · set offset := (fs.openFiles fd).offset.toNat with offsetEq
        cases here : blocks[offset / fsBlockSize]? with
        | none =>
            refine ⟨0, ?_⟩
            rw [readLoop_unbacked rounds nothing chain (List.getElem?_eq_none_iff.mp here),
              FsHandle.advance_zero]
        | some b =>
            by_cases held : dataOffset b + fsBlockSize ≤ fs.imageFile.size
            · rw [readLoop_round rounds nothing faultless chain here held]
              obtain ⟨moved, same⟩ := ih (fs.advance fd
                (min (fsBlockSize - offset % fsBlockSize) len))
                (len - min (fsBlockSize - offset % fsBlockSize) len) faultless chain
              rw [FsHandle.advance_advance] at same
              refine ⟨_, Eq.trans ?_ same⟩
              generalize readLoop fd i rounds _ _ = out
              obtain ⟨answer | answer, after⟩ := out <;> rfl
            · refine ⟨0, ?_⟩
              rw [readLoop_cut rounds nothing faultless chain here held, FsHandle.advance_zero]

end Read

/-! ## Writing -/

section Write

variable {fs : FsHandle} {i : FileIndex} {blocks : List BlockIndex} {fd : Descriptor}

/-- The handle after a block of the image is stored. -/
def storeBlock (fs : FsHandle) (b : BlockIndex) (data : List UInt8) : FsHandle :=
  { fs with imageFile := fs.imageFile.store (dataOffset b) data }

/-- Overwriting part of one block of a chain is an extension without new
blocks. -/
theorem extended_writeBlock {b : BlockIndex} {index intra : ℕ} {piece : List UInt8}
    (faultless : fs.imageFile.Faultless)
    (chain : FatChain fs.fat (fs.dirEntries i).firstBlock blocks)
    (here : blocks[index]? = some b) (fits : intra + piece.length ≤ fsBlockSize) :
    Extended fs (storeBlock fs b
        (overwrite 0 (readRange fs.imageFile.byte (dataOffset b) fsBlockSize) intra piece))
      i blocks [] (index * fsBlockSize + intra) piece := by
  set buffer := readRange fs.imageFile.byte (dataOffset b) fsBlockSize with bufferEq
  have sized : (overwrite 0 buffer intra piece).length = fsBlockSize := by
    rw [length_overwrite, bufferEq, length_readRange, max_eq_left fits]
  have spared : ∀ c, c ≠ b → ∀ j < fsBlockSize,
      blockByte (fs.imageFile.store (dataOffset b) (overwrite 0 buffer intra piece)) c j =
        blockByte fs.imageFile c j :=
    fun c apart j inside => blockByte_store_other apart inside sized
  have written : ∀ j < fsBlockSize,
      blockByte (fs.imageFile.store (dataOffset b) (overwrite 0 buffer intra piece)) b j =
        writeRange (blockByte fs.imageFile b) intra piece j := by
    intro j inside
    rw [blockByte_store_same (sized ▸ inside), ← List.getD_eq_getElem _ 0]
    have store := congrFun (getD_overwrite 0 buffer intra piece) j
    rw [store]
    by_cases touched : intra ≤ j ∧ j - intra < piece.length
    · rw [writeRange_inside touched.1 touched.2, writeRange_inside touched.1 touched.2]
    · rw [writeRange_outside (by omega), writeRange_outside (by omega), bufferEq,
        getD_readRange inside]
      rfl
  have member := List.mem_of_getElem? here
  exact {
    mounted := rfl
    faultless := faultless
    size := ImageFile.size_le_store
    entry := rfl
    others := fun _ _ => rfl
    chain := by rwa [List.append_nil]
    free := rfl
    cells := fun _ _ => rfl
    metadata := fun p inside => byte_store_dataOffset inside
    apart := by
      intro c outside j inside
      rw [List.append_nil] at outside
      exact spared c (fun same => outside (same ▸ member)) j inside
    content := by
      rw [List.append_nil]
      exact contentAt_writeBlock (Chain.nodup chain) here fits written
        (fun c _ apart j inside => spared c apart j inside) }

/-- The spliced block a write stores is its overwritten content. -/
private theorem splice_eq_overwrite {buffer piece : List UInt8} {intra chunk : ℕ}
    (inside : intra ≤ buffer.length) (sized : piece.length = chunk) :
    buffer.take intra ++ piece ++ buffer.drop (intra + chunk) =
      overwrite 0 buffer intra piece := by
  rw [overwrite, Nat.sub_eq_zero_of_le inside, sized, List.replicate_zero, List.append_nil]

/-- How a write loop ends: with all bytes stored and the chain just long enough,
with no block left, or on an image that lacks blocks. -/
def WriteEnds (out : Except FsError Unit × FsHandle) (blocks added : List BlockIndex)
    (offset done len : ℕ) : Prop :=
  (out.1 = .ok () ∧ done = len ∧ added.length = blocksFor offset len - blocks.length) ∨
  (out.1 = .error .noSpace ∧ freeBlocks out.2.fat = [] ∧
    blocks.length + added.length < blocksFor offset len) ∨
  (out.1 = .error .io ∧ ¬ out.2.imageFile.Complete)

/-- The rounds after the first end as the loop with it ends. -/
private theorem WriteEnds.round {out : Except FsError Unit × FsHandle}
    {added more : List BlockIndex}
    {offset done len : ℕ} (nonempty : len ≠ 0)
    (sized : added.length = offset / fsBlockSize + 1 - blocks.length)
    (ends : WriteEnds out (blocks ++ added) more
      (offset + min (fsBlockSize - offset % fsBlockSize) len) done
      (len - min (fsBlockSize - offset % fsBlockSize) len)) :
    WriteEnds out blocks (added ++ more) offset
      (min (fsBlockSize - offset % fsBlockSize) len + done) len := by
  have needed := blocksFor_round offset nonempty
  simp only at needed
  obtain ⟨answer, all, grown⟩ | ⟨answer, none, short⟩ | failed := ends
  · refine .inl ⟨answer, by omega, ?_⟩
    rw [List.length_append] at grown ⊢
    omega
  · refine .inr (.inl ⟨answer, none, ?_⟩)
    rw [List.length_append] at short ⊢
    omega
  · exact .inr (.inr failed)

/-- A descriptor that moves over a stored piece does not wrap. -/
private theorem toNat_offset_stored {mid : FsHandle} {chunk count : ℕ} (b : BlockIndex)
    (block : List UInt8) (files : mid.openFiles = fs.openFiles)
    (short : count ≤ fsDataBlockCount)
    (reach : (fs.openFiles fd).offset.toNat + chunk ≤ fsBlockSize * count) :
    (((storeBlock mid b block).advance fd chunk).openFiles fd).offset.toNat =
      (fs.openFiles fd).offset.toNat + chunk := by
  have storedFiles : (storeBlock mid b block).openFiles = fs.openFiles := files
  rw [FsHandle.toNat_offset_advance short (fun _ => by rw [storedFiles]; exact reach), storedFiles]

/-- A round extends the chain by the blocks it resolved and stores its piece. -/
private theorem extended_round (fd : Descriptor) {mid : FsHandle} {added : List BlockIndex}
    {b : BlockIndex} {place offset : ℕ} {piece : List UInt8}
    (extended : Extended fs mid i blocks added place [])
    (here : (blocks ++ added)[offset / fsBlockSize]? = some b)
    (fits : offset % fsBlockSize + piece.length ≤ fsBlockSize) (chunk : ℕ) :
    Extended fs ((storeBlock mid b (overwrite 0
        (readRange mid.imageFile.byte (dataOffset b) fsBlockSize) (offset % fsBlockSize)
          piece)).advance fd chunk) i blocks added offset piece := by
  have writing := extended_writeBlock extended.faultless extended.chain here fits
  rw [show offset / fsBlockSize * fsBlockSize + offset % fsBlockSize = offset from
    Nat.div_add_mod' ..] at writing
  have both := (extended.reoffset offset).trans writing
  rw [List.append_nil, List.nil_append] at both
  exact both.advance fd chunk

/-- One round of the write loop that resolves its block. -/
private theorem writeLoop_round (rounds : ℕ) {data : List UInt8} {b : BlockIndex}
    {mid : FsHandle} (nonempty : data ≠ []) (faultless : mid.imageFile.Faultless)
    (resolved : resolveDataBlock fs i ((fs.openFiles fd).offset.toNat / fsBlockSize) true =
      (.ok b, mid)) :
    let intra := (fs.openFiles fd).offset.toNat % fsBlockSize
    let chunk := min (fsBlockSize - intra) data.length
    writeLoop fd i (rounds + 1) fs data =
      if dataOffset b + fsBlockSize ≤ mid.imageFile.size then
        writeLoop fd i rounds
          ((storeBlock mid b (overwrite 0 (readRange mid.imageFile.byte (dataOffset b) fsBlockSize)
            intra (data.take chunk))).advance fd chunk) (data.drop chunk)
      else (.error .io, mid) := by
  intro intra chunk
  have within : intra ≤ fsBlockSize := (Nat.mod_lt _ (by decide)).le
  rw [writeLoop, if_neg nonempty]
  simp only [resolved, readDataBlock_of_faultless faultless]
  by_cases held : dataOffset b + fsBlockSize ≤ mid.imageFile.size
  · simp only [held, ↓reduceIte]
    rw [splice_eq_overwrite (by rwa [length_readRange])
      (by rw [List.length_take]; omega)]
    simp only [writeDataBlock, seekAndWrite_of_faultless _ _ faultless]
    rfl
  · simp only [held, ↓reduceIte]

/-- **The write loop.** It extends the chain of its entry and stores a prefix of
its bytes at the offset of the descriptor, which moves along. -/
theorem writeLoop_spec (fd : Descriptor) (fs : FsHandle) (blocks : List BlockIndex) (rounds : ℕ)
    (data : List UInt8) (enough : data.length ≤ rounds) (faultless : fs.imageFile.Faultless)
    (chain : FatChain fs.fat (fs.dirEntries i).firstBlock blocks) :
    ∃ added done, done ≤ data.length ∧
      Extended fs (writeLoop fd i rounds fs data).2 i blocks added
        (fs.openFiles fd).offset.toNat (data.take done) ∧
      (writeLoop fd i rounds fs data).2.openFiles = (fs.advance fd done).openFiles ∧
      (done ≠ 0 → (fs.openFiles fd).offset.toNat + done ≤
        fsBlockSize * (blocks ++ added).length) ∧
      WriteEnds (writeLoop fd i rounds fs data) blocks added (fs.openFiles fd).offset.toNat done
        data.length := by
  induction rounds generalizing fs blocks data with
  | zero =>
      obtain rfl : data = [] := List.length_eq_zero_iff.mp (by omega)
      refine ⟨[], 0, le_rfl, .refl faultless chain, by rw [FsHandle.advance_zero]; rfl,
        fun moved => absurd rfl moved, .inl ⟨rfl, rfl, ?_⟩⟩
      simp [blocksFor]
  | succ rounds ih =>
      by_cases nothing : data = []
      · subst nothing
        rw [writeLoop, if_pos rfl]
        refine ⟨[], 0, le_rfl, .refl faultless chain, by rw [FsHandle.advance_zero],
          fun moved => absurd rfl moved, .inl ⟨rfl, rfl, ?_⟩⟩
        simp [blocksFor]
      · set offset := (fs.openFiles fd).offset.toNat with offsetEq
        let intra := offset % fsBlockSize
        let chunk := min (fsBlockSize - intra) data.length
        have some : data.length ≠ 0 := fun zero => nothing (List.length_eq_zero_iff.mp zero)
        have bounds : 0 < chunk ∧ chunk ≤ data.length ∧ intra + chunk ≤ fsBlockSize := by
          simp only [chunk, intra, fsBlockSize]
          omega
        obtain ⟨added, extended, files, found | full⟩ :=
          resolveDataBlock_allocate (offset / fsBlockSize) faultless chain
        · obtain ⟨b, answer, here, sized⟩ := found
          set mid := (resolveDataBlock fs i (offset / fsBlockSize) true).2 with midEq
          have resolved : resolveDataBlock fs i (offset / fsBlockSize) true = (.ok b, mid) :=
            Prod.ext answer rfl
          rw [writeLoop_round rounds nothing extended.faultless resolved]
          by_cases held : dataOffset b + fsBlockSize ≤ mid.imageFile.size
          · rw [if_pos held]
            set piece := data.take chunk with pieceEq
            have pieceLength : piece.length = chunk := by
              rw [pieceEq, List.length_take]
              omega
            have round := extended_round fd extended here
              (by omega : intra + piece.length ≤ fsBlockSize) chunk
            set stored := storeBlock mid b (overwrite 0
              (readRange mid.imageFile.byte (dataOffset b) fsBlockSize) intra piece) with storedEq
            have inside : offset / fsBlockSize < (blocks ++ added).length :=
              (List.getElem?_eq_some_iff.mp here).1
            have storedFiles : stored.openFiles = fs.openFiles := files
            have reach : offset + chunk ≤ fsBlockSize * (blocks ++ added).length := by
              simp only [intra, fsBlockSize] at bounds inside ⊢
              omega
            have moved : ((stored.advance fd chunk).openFiles fd).offset.toNat =
                offset + chunk :=
              toNat_offset_stored b _ files (FatChain.length_le round.chain) reach
            obtain ⟨more, done, doneLe, further, moreFiles, moreReach, ends⟩ :=
              ih (stored.advance fd chunk) (blocks ++ added) (data.drop chunk)
                (by rw [List.length_drop]; omega) round.faultless round.chain
            rw [moved, List.length_drop] at *
            refine ⟨added ++ more, chunk + done, by omega, ?_, ?_, ?_, ?_⟩
            · rw [List.take_add]
              rw [show offset + chunk = offset + piece.length by rw [pieceLength]] at further
              exact round.trans further
            · rw [moreFiles, FsHandle.advance_advance]
              simp only [FsHandle.advance_openFiles, storedFiles]
            · intro _
              by_cases last : done = 0
              · rw [List.length_append, List.length_append] at *
                have wider := Nat.mul_le_mul_left fsBlockSize
                  (by omega : blocks.length + added.length ≤
                    blocks.length + (added.length + more.length))
                omega
              · have final := moreReach last
                rw [← List.append_assoc]
                omega
            · exact WriteEnds.round some sized ends
          · rw [if_neg held]
            refine ⟨added, 0, Nat.zero_le _, extended.reoffset _,
              by rw [FsHandle.advance_zero, files], fun moved =>
                absurd rfl moved, .inr (.inr ⟨rfl, fun complete => held ?_⟩)⟩
            exact (dataOffset_add_le b).trans complete
        · obtain ⟨answer, none, short⟩ := full
          set mid := (resolveDataBlock fs i (offset / fsBlockSize) true).2 with midEq
          have resolved : resolveDataBlock fs i (offset / fsBlockSize) true =
              (.error .noSpace, mid) := Prod.ext answer rfl
          have stops : writeLoop fd i (rounds + 1) fs data = (.error .noSpace, mid) := by
            rw [writeLoop, if_neg nothing]
            simp only [← offsetEq, resolved]
          rw [stops]
          refine ⟨added, 0, Nat.zero_le _, extended.reoffset _,
            by rw [FsHandle.advance_zero, files], fun moved =>
              absurd rfl moved, .inr (.inl ⟨rfl, none, ?_⟩)⟩
          have blocksEq := blocksFor_round offset some
          simp only at blocksEq
          omega

/-- A write whose first block is there moves its descriptor. -/
theorem writeLoop_moves {rounds : ℕ} {data : List UInt8} (enough : data.length ≤ rounds)
    (nonempty : data ≠ []) (faultless : fs.imageFile.Faultless)
    (complete : fs.imageFile.Complete)
    (chain : FatChain fs.fat (fs.dirEntries i).firstBlock blocks)
    (inside : (fs.openFiles fd).offset.toNat / fsBlockSize < blocks.length) :
    (((writeLoop fd i rounds fs data).2).openFiles fd).offset.toNat ≠
      (fs.openFiles fd).offset.toNat := by
  obtain ⟨rounds, rfl⟩ := Nat.exists_eq_succ_of_ne_zero
    (fun zero => nonempty (List.length_eq_zero_iff.mp (Nat.le_zero.mp (zero ▸ enough))) :
      rounds ≠ 0)
  set offset := (fs.openFiles fd).offset.toNat with offsetEq
  have some : data.length ≠ 0 := fun zero => nonempty (List.length_eq_zero_iff.mp zero)
  obtain ⟨added, extended, files, ⟨b, answer, here, _⟩ | ⟨_, _, short⟩⟩ :=
    resolveDataBlock_allocate (offset / fsBlockSize) faultless chain
  · set mid := (resolveDataBlock fs i (offset / fsBlockSize) true).2 with midEq
    have resolved : resolveDataBlock fs i (offset / fsBlockSize) true = (.ok b, mid) :=
      Prod.ext answer rfl
    rw [writeLoop_round rounds nonempty extended.faultless resolved,
      if_pos ((dataOffset_add_le b).trans (complete.trans extended.size))]
    generalize overwrite 0 (readRange mid.imageFile.byte (dataOffset b) fsBlockSize) _ _ = block
    set chunk := min (fsBlockSize - offset % fsBlockSize) data.length with chunkEq
    have reach : 0 < chunk ∧ offset + chunk ≤ fsBlockSize * (blocks ++ added).length := by
      rw [List.length_append]
      simp only [chunkEq, fsBlockSize] at inside ⊢
      omega
    have moved : (((storeBlock mid b block).advance fd chunk).openFiles fd).offset.toNat =
        offset + chunk :=
      toNat_offset_stored b block files (FatChain.length_le extended.chain) reach.2
    obtain ⟨more, done, _, further, moreFiles, moreReach, _⟩ :=
      writeLoop_spec fd ((storeBlock mid b block).advance fd chunk) (blocks ++ added) rounds
        (data.drop chunk) (by rw [List.length_drop]; omega) extended.faultless extended.chain
    rw [moreFiles, FsHandle.toNat_offset_advance (FatChain.length_le further.chain) moreReach,
      moved]
    omega
  · omega

/-- A write that runs out of space moved its descriptor to the end of all the blocks there
were for it. -/
theorem writeLoop_fills (fs : FsHandle) (blocks : List BlockIndex) (rounds : ℕ)
    (data : List UInt8) (enough : data.length ≤ rounds) (faultless : fs.imageFile.Faultless)
    (chain : FatChain fs.fat (fs.dirEntries i).firstBlock blocks)
    (fails : (writeLoop fd i rounds fs data).1 = .error .noSpace) :
    fsBlockSize * (blocks.length + (freeBlocks fs.fat).length) ≤
      ((writeLoop fd i rounds fs data).2.openFiles fd).offset.toNat := by
  induction rounds generalizing fs blocks data with
  | zero => cases fails
  | succ rounds ih =>
      by_cases nothing : data = []
      · rw [writeLoop, if_pos nothing] at fails
        cases fails
      · set offset := (fs.openFiles fd).offset.toNat with offsetEq
        obtain ⟨added, extended, files, found | full⟩ :=
          resolveDataBlock_allocate (offset / fsBlockSize) faultless chain
        · obtain ⟨b, answer, here, _⟩ := found
          set mid := (resolveDataBlock fs i (offset / fsBlockSize) true).2 with midEq
          have resolved : resolveDataBlock fs i (offset / fsBlockSize) true = (.ok b, mid) :=
            Prod.ext answer rfl
          rw [writeLoop_round rounds nothing extended.faultless resolved] at fails ⊢
          split at fails
          · rename_i held
            rw [if_pos held]
            have taken := congrArg List.length extended.free
            rw [List.length_append] at taken
            rw [taken, ← Nat.add_assoc, ← List.length_append]
            revert fails
            generalize overwrite 0 (readRange mid.imageFile.byte (dataOffset b) fsBlockSize) _ _ =
              block
            set chunk := min (fsBlockSize - offset % fsBlockSize) data.length with chunkEq
            have some : data.length ≠ 0 := fun zero => nothing (List.length_eq_zero_iff.mp zero)
            have shorter : (data.drop chunk).length ≤ rounds := by
              rw [List.length_drop, chunkEq]
              simp only [fsBlockSize]
              omega
            exact ih ((storeBlock mid b block).advance fd chunk) (blocks ++ added) (data.drop chunk)
              shorter extended.faultless extended.chain
          · cases fails
        · obtain ⟨answer, none, short⟩ := full
          set mid := (resolveDataBlock fs i (offset / fsBlockSize) true).2 with midEq
          have resolved : resolveDataBlock fs i (offset / fsBlockSize) true =
              (.error .noSpace, mid) := Prod.ext answer rfl
          have stops : writeLoop fd i (rounds + 1) fs data = (.error .noSpace, mid) := by
            rw [writeLoop, if_neg nothing]
            simp only [← offsetEq, resolved]
          have taken := congrArg List.length extended.free
          rw [List.length_append, none, List.length_nil, Nat.add_zero] at taken
          rw [stops, taken]
          change _ ≤ (mid.openFiles fd).offset.toNat
          rw [files, ← offsetEq]
          simp only [fsBlockSize] at short ⊢
          omega

end Write

end TigerOS.Otfs
