import TigerOS.Otfs.Accepted

/-! # Whatever becomes of the transfers

The transfers of the image may fail at any point. A call then stops early, but it
still changes no more than its own file: it spares every other chain
(`TigerOS.Otfs.fsWrite_spares`), and the handle keeps separate chains after every
run, on any accepted image whose chains were separate at the mount
(`TigerOS.Otfs.Linked.run`).
-/

namespace TigerOS.Otfs

open Foundation

/-- The handle with another image file. -/
def onImage (fs : FsHandle) (file : ImageFile) : FsHandle := { fs with imageFile := file }

/-- The bytes of a data block. -/
def InBlock (b : BlockIndex) (p : ℕ) : Prop := dataOffset b ≤ p ∧ p < dataOffset b + fsBlockSize

/-- The bytes of the directory and the FAT. -/
def InMetadata (p : ℕ) : Prop := 512 ≤ p ∧ p < 3584

section Bytes

variable {file file' : ImageFile} {b c : BlockIndex} {j : ℕ}

theorem blockByte_of_inBlock (changed : file.Changed file' (InBlock b)) (apart : c ≠ b)
    (inside : j < fsBlockSize) : blockByte file' c j = blockByte file c j := by
  have distinct : c.val ≠ b.val := fun same => apart (Fin.ext same)
  refine changed.byte _ fun within => ?_
  simp only [InBlock, dataOffset_eq, fsBlockSize] at within inside
  omega

theorem blockByte_of_inMetadata (changed : file.Changed file' InMetadata) :
    blockByte file' b j = blockByte file b j := by
  refine changed.byte _ fun within => ?_
  have past := metadata_le_dataOffset b
  have before : dataOffset b + j < 3584 := within.2
  omega

end Bytes

/-! ## Single transfers -/

theorem readDataBlock_image (fs : FsHandle) (b : BlockIndex) : ∃ file,
    (readDataBlock fs b).2 = onImage fs file ∧ file.size = fs.imageFile.size ∧
      fs.imageFile.Changed file fun _ => False :=
  ⟨_, rfl, seekAndRead_size .., seekAndRead_changed ..⟩

theorem writeDataBlock_image (fs : FsHandle) (b : BlockIndex) {data : List UInt8}
    (sized : data.length ≤ fsBlockSize) : ∃ file,
    (writeDataBlock fs b data).2 = onImage fs file ∧ fs.imageFile.Changed file (InBlock b) := by
  refine ⟨_, rfl, (seekAndWrite_changed ..).mono fun p inside => ?_⟩
  exact ⟨inside.1, inside.2.trans_le (Nat.add_le_add_left sized _)⟩

theorem syncMetadata_image (fs : FsHandle) : ∃ file,
    (syncMetadata fs).2 = onImage fs file ∧ fs.imageFile.Changed file InMetadata := by
  have first : fs.imageFile.Changed _ InMetadata :=
    (seekAndWrite_changed fs.imageFile (blockOffset fsDirStartBlock)
      (encodeDir fs.dirEntries)).mono fun p inside => by
      rw [length_encodeDir] at inside
      change 512 ≤ p ∧ p < 512 + 2048 at inside
      exact ⟨inside.1, by omega⟩
  rw [syncMetadata]
  split
  · rename_i file written
    rw [written] at first
    exact ⟨file, rfl, first⟩
  · rename_i file written
    rw [written] at first
    have second : file.Changed _ InMetadata :=
      (seekAndWrite_changed file (blockOffset fsFatStartBlock)
        (encodeFat fs.fat)).mono fun p inside => by
        rw [length_encodeFat] at inside
        change 2560 ≤ p ∧ p < 2560 + 1024 at inside
        exact ⟨by omega, by omega⟩
    split
    · rename_i after written'
      rw [written'] at second
      exact ⟨after, rfl, first.trans second⟩
    · rename_i after written'
      rw [written'] at second
      exact ⟨after, rfl, first.trans second⟩

/-! ## Allocation -/

/-- The handle after a free block is marked, whatever became of clearing it. -/
def marked (fs : FsHandle) (b : BlockIndex) (file : ImageFile) : FsHandle :=
  onImage (fs.setCell b fatEnd) file

/-- The allocator finds no block, or marks a free one; a fault leaves the mark. -/
theorem allocateDataBlock_cases (fs : FsHandle) :
    allocateDataBlock fs = (.error .noSpace, fs) ∨
    ∃ b file, fs.fat b = fatFree ∧ fs.imageFile.Changed file (InBlock b) ∧
      (allocateDataBlock fs = (.ok b, marked fs b file) ∨
        allocateDataBlock fs = (.error .io, marked fs b file)) := by
  rw [allocateDataBlock]
  split
  · exact .inl rfl
  · rename_i b found
    have free : fs.fat b = fatFree := by
      have holds := List.find?_some found
      exact of_decide_eq_true holds
    obtain ⟨file, same, changed⟩ := writeDataBlock_image (fs.setCell b fatEnd) b
      (List.length_replicate (n := fsBlockSize) (a := (0 : UInt8))).le
    right
    refine ⟨b, file, free, changed, ?_⟩
    split
    · rename_i after written
      rw [written] at same
      exact .inr (by rw [show after = _ from same]; rfl)
    · rename_i after written
      rw [written] at same
      exact .inl (by rw [show after = _ from same]; rfl)

section Marked

variable {fs : FsHandle} {i : FileIndex} {b cur : BlockIndex} {blocks before : List BlockIndex}
  {file : ImageFile}

/-- Marking a free block and linking it, by a write to the FAT cell of a block of
the chain or to the entry alone, spares the other chains. -/
private theorem spares_of_link (fs' : FsHandle) {blocks' : List BlockIndex}
    (free : fs.fat b = fatFree) (changed : fs.imageFile.Changed file (InBlock b))
    (mounted : fs'.mounted = fs.mounted) (image : fs'.imageFile = file)
    (entry : fs'.dirEntries i =
      { fs.dirEntries i with firstBlock := (fs'.dirEntries i).firstBlock })
    (others : ∀ j, j ≠ i → fs'.dirEntries j = fs.dirEntries j)
    (linked : FatChain fs'.fat (fs'.dirEntries i).firstBlock blocks')
    (fresh : ∀ c ∈ blocks', c ∈ blocks ∨ c = b)
    (cells : ∀ c, c ∉ blocks → c ≠ b → fs'.fat c = fs.fat c) :
    Spares fs fs' i blocks blocks' where
  mounted := mounted
  size := image ▸ changed.size
  entry := entry
  others := others
  chain := linked
  fresh := fun c member => (fresh c member).imp_right fun same : c = b => same ▸ free
  cells := fun c off taken => cells c off fun same => taken (same ▸ free)
  apart := by
    intro c _ taken j inside
    have apart : c ≠ b := fun same => taken (same ▸ free)
    rw [image]
    exact blockByte_of_inBlock changed apart inside

theorem spares_marked (chain : FatChain fs.fat (fs.dirEntries i).firstBlock blocks)
    (free : fs.fat b = fatFree) (changed : fs.imageFile.Changed file (InBlock b)) :
    Spares fs (marked fs b file) i blocks blocks := by
  refine spares_of_link _ free changed rfl rfl rfl (fun _ _ => rfl) ?_ (fun _ => .inl) ?_
  · refine Chain.congr chain fun c member => Function.update_of_ne ?_ ..
    exact fun same => FatChain.cell_ne_free chain member (same ▸ free)
  · exact fun c _ apart => Function.update_of_ne apart ..

theorem spares_attach (free : fs.fat b = fatFree)
    (changed : fs.imageFile.Changed file (InBlock b)) :
    Spares fs ((marked fs b file).setFirstBlock i (blockLink b)) i [] [b] := by
  have entryEq : ((marked fs b file).setFirstBlock i (blockLink b)).dirEntries i =
      { fs.dirEntries i with firstBlock := blockLink b } := Function.update_self ..
  refine spares_of_link _ free changed rfl rfl ?_ ?_ ?_ ?_ ?_
  · rw [entryEq]
  · exact fun j other => Function.update_of_ne other ..
  · rw [entryEq]
    refine fatChain_cons.mpr ⟨rfl, fatChain_nil.mpr ?_⟩
    exact Function.update_self ..
  · exact fun c member => .inr (List.mem_singleton.mp member)
  · exact fun c _ apart => Function.update_of_ne apart ..

theorem spares_append (chain : FatChain fs.fat (fs.dirEntries i).firstBlock (before ++ [cur]))
    (free : fs.fat b = fatFree) (changed : fs.imageFile.Changed file (InBlock b)) :
    Spares fs ((marked fs b file).setCell cur (blockLink b)) i (before ++ [cur])
      (before ++ [cur] ++ [b]) := by
  refine spares_of_link _ free changed rfl rfl rfl (fun _ _ => rfl) (FatChain.append chain free)
    ?_ ?_
  · exact fun c member => (List.mem_append.mp member).imp_right List.mem_singleton.mp
  · intro c off apart
    have notCur : c ≠ cur := fun same => off (by simp [same])
    change Function.update (Function.update fs.fat b fatEnd) cur _ c = fs.fat c
    rw [Function.update_of_ne notCur, Function.update_of_ne apart]

end Marked

/-! ## Resolving a block -/

/-- The allocating walk spares the other chains, and answers a block of its
own. -/
theorem followChain_spares {fs : FsHandle} {i : FileIndex} (before : List BlockIndex)
    {rest : List BlockIndex} {cur : BlockIndex} (steps : ℕ)
    (chain : FatChain fs.fat (fs.dirEntries i).firstBlock (before ++ cur :: rest)) :
    ∃ blocks, Spares fs (followChain true steps fs cur).2 i (before ++ cur :: rest) blocks ∧
      (followChain true steps fs cur).2.openFiles = fs.openFiles ∧
      ∀ b, (followChain true steps fs cur).1 = .ok b → b ∈ blocks := by
  induction steps generalizing fs cur before rest with
  | zero =>
      refine ⟨_, .refl chain, rfl, fun b answer => ?_⟩
      cases answer
      simp
  | succ steps ih =>
      have tail : FatChain fs.fat (fs.fat cur) rest := Chain.after chain
      cases rest with
      | cons next rest =>
          have regroup := List.append_cons before cur (next :: rest)
          rw [regroup] at chain
          rw [followChain_next true steps tail, regroup]
          exact ih (before ++ [cur]) chain
      | nil =>
          rw [followChain, if_pos (fatChain_nil.mp tail), if_pos rfl]
          obtain none | ⟨b, file, free, changed, found | failed⟩ := allocateDataBlock_cases fs
          · rw [none]
            exact ⟨_, .refl chain, rfl, fun b answer => by cases answer⟩
          · have spares := spares_append chain free changed
            obtain ⟨blocks, further, files, member⟩ := ih (before ++ [cur]) spares.chain
            rw [found]
            exact ⟨blocks, spares.trans further, files, member⟩
          · rw [failed]
            exact ⟨_, spares_marked chain free changed, rfl, fun b answer => by cases answer⟩

/-- Resolving a block for a write spares the other chains. -/
theorem resolveDataBlock_spares {fs : FsHandle} {i : FileIndex} {blocks : List BlockIndex}
    (index : ℕ) (chain : FatChain fs.fat (fs.dirEntries i).firstBlock blocks) :
    ∃ blocks', Spares fs (resolveDataBlock fs i index true).2 i blocks blocks' ∧
      (resolveDataBlock fs i index true).2.openFiles = fs.openFiles ∧
      ∀ b, (resolveDataBlock fs i index true).1 = .ok b → b ∈ blocks' := by
  cases blocks with
  | cons first rest =>
      have linked := (fatChain_cons.mp chain).1
      rw [resolveDataBlock, attachFirst, if_neg (by simp [linked])]
      simp only [linked, blockAt?_blockLink]
      exact followChain_spares [] index chain
  | nil =>
      rw [resolveDataBlock, attachFirst, if_pos (fatChain_nil.mp chain), if_pos rfl]
      obtain none | ⟨b, file, free, changed, found | failed⟩ := allocateDataBlock_cases fs
      · rw [none]
        exact ⟨_, .refl chain, rfl, fun b answer => by cases answer⟩
      · have spares := spares_attach (i := i) free changed
        have head : (((marked fs b file).setFirstBlock i (blockLink b)).dirEntries i).firstBlock =
            blockLink b := (fatChain_cons.mp spares.chain).1
        obtain ⟨blocks, further, files, member⟩ := followChain_spares [] index spares.chain
        simp only [found, head, blockAt?_blockLink]
        exact ⟨blocks, spares.trans further, files, member⟩
      · rw [failed]
        exact ⟨_, spares_marked chain free changed, rfl, fun b answer => by cases answer⟩

/-! ## The loops -/

section Loops

variable {fs fs' : FsHandle} {i : FileIndex} {blocks : List BlockIndex} {fd : Descriptor}

/-- One round of a read loop over a chain. -/
private theorem readLoop_succ (rounds len : ℕ)
    (chain : FatChain fs.fat (fs.dirEntries i).firstBlock blocks) :
    readLoop fd i (rounds + 1) fs len =
      if len = 0 then (.ok [], fs)
      else
        let offset := (fs.openFiles fd).offset.toNat
        let chunk := min (fsBlockSize - offset % fsBlockSize) len
        match blocks[offset / fsBlockSize]? with
        | none => (.error .state, fs)
        | some b =>
            match readDataBlock fs b with
            | (.error _, fs) => (.error .io, fs)
            | (.ok buffer, fs) =>
                match readLoop fd i rounds (fs.advance fd chunk) (len - chunk) with
                | (.error e, fs) => (.error e, fs)
                | (.ok rest, fs) =>
                    (.ok ((buffer.drop (offset % fsBlockSize)).take chunk ++ rest), fs) := by
  rw [readLoop]
  simp only [resolveDataBlock_lookup _ chain]
  cases blocks[(fs.openFiles fd).offset.toNat / fsBlockSize]? <;> rfl

/-- A read loop moves its descriptor and uses up transfers, no more. -/
theorem readLoop_image (fs : FsHandle) (rounds len : ℕ)
    (chain : FatChain fs.fat (fs.dirEntries i).firstBlock blocks) : ∃ file moved,
    (readLoop fd i rounds fs len).2 = onImage (fs.advance fd moved) file ∧
      fs.imageFile.Changed file fun _ => False := by
  have still : ∃ file moved, fs = onImage (fs.advance fd moved) file ∧
      fs.imageFile.Changed file fun _ => False :=
    ⟨fs.imageFile, 0, by rw [FsHandle.advance_zero]; rfl, .refl _ _⟩
  induction rounds generalizing fs len with
  | zero => exact still
  | succ rounds ih =>
      rw [readLoop_succ rounds len chain]
      split
      · exact still
      · simp only
        cases blocks[(fs.openFiles fd).offset.toNat / fsBlockSize]? with
        | none => exact still
        | some b =>
            obtain ⟨file, same, _, changed⟩ := readDataBlock_image fs b
            simp only
            split
            · rename_i after got
              rw [got] at same
              refine ⟨file, 0, ?_, changed⟩
              rw [FsHandle.advance_zero]
              exact same
            · rename_i buffer after got
              rw [got] at same
              obtain rfl : after = onImage fs file := same
              obtain ⟨final, moved, next, changed'⟩ := ih ((onImage fs file).advance fd
                (min (fsBlockSize - (fs.openFiles fd).offset.toNat % fsBlockSize) len))
                (len - min (fsBlockSize - (fs.openFiles fd).offset.toNat % fsBlockSize) len) chain
                ⟨file, 0, by rw [FsHandle.advance_zero]; rfl, .refl _ _⟩
              rw [FsHandle.advance_advance] at next
              refine ⟨final, _, Eq.trans ?_ next, changed.trans changed'⟩
              generalize readLoop fd i rounds _ _ = out
              obtain ⟨answer | answer, after⟩ := out <;> rfl

/-- Two handles that agree on one slot, its chain and the bytes there. -/
structure Agrees (fs fs' : FsHandle) (fd : Descriptor) (i : FileIndex)
    (blocks : List BlockIndex) : Prop where
  offset : (fs'.openFiles fd).offset = (fs.openFiles fd).offset
  chain : FatChain fs.fat (fs.dirEntries i).firstBlock blocks
  chain' : FatChain fs'.fat (fs'.dirEntries i).firstBlock blocks
  size : fs.imageFile.size ≤ fs'.imageFile.size
  bytes : ∀ b ∈ blocks, ∀ j < fsBlockSize,
    blockByte fs'.imageFile b j = blockByte fs.imageFile b j

/-- A block that one of two agreeing handles reads, the other reads too, unless
its transfer fails. -/
private theorem Agrees.readDataBlock (agrees : Agrees fs fs' fd i blocks) {b : BlockIndex}
    (member : b ∈ blocks) {buffer : List UInt8} {after : FsHandle}
    (got : readDataBlock fs b = (.ok buffer, after)) :
    (Otfs.readDataBlock fs' b).1 = .ok buffer ∨
    ((Otfs.readDataBlock fs' b).1 = .error .io ∧ ¬ fs'.imageFile.Faultless) := by
  have read : seekAndRead fs.imageFile (dataOffset b) fsBlockSize =
      (.ok buffer, after.imageFile) := by
    have answer : (Otfs.readDataBlock fs b).1 = .ok buffer := by rw [got]
    have image : (Otfs.readDataBlock fs b).2.imageFile = after.imageFile := by rw [got]
    exact Prod.ext answer image
  obtain ⟨held, answer⟩ := seekAndRead_ok _ _ _ read
  have same : readRange fs'.imageFile.byte (dataOffset b) fsBlockSize =
      readRange fs.imageFile.byte (dataOffset b) fsBlockSize :=
    readRange_congr fun k inside => agrees.bytes b member k inside
  rw [answer, ← same]
  exact seekAndRead_held fs'.imageFile (dataOffset b) fsBlockSize (held.trans agrees.size)

/-- Agreeing handles still agree once both have read and moved on. -/
private theorem Agrees.moved (agrees : Agrees fs fs' fd i blocks) {file file' : ImageFile}
    (size : file.size = fs.imageFile.size) (changed : fs.imageFile.Changed file fun _ => False)
    (changed' : fs'.imageFile.Changed file' fun _ => False) (chunk : ℕ) :
    Agrees ((onImage fs file).advance fd chunk) ((onImage fs' file').advance fd chunk) fd i
      blocks where
  offset := by
    simp only [FsHandle.advance_openFiles, Function.update_self]
    exact congrArg (· + UInt32.ofNat chunk) agrees.offset
  chain := agrees.chain
  chain' := agrees.chain'
  size := by
    change file.size ≤ file'.size
    rw [size]
    exact agrees.size.trans changed'.size
  bytes := by
    intro b member j inside
    change file'.byte _ = file.byte _
    rw [changed.byte _ id, changed'.byte _ id]
    exact agrees.bytes b member j inside

/-- **Agreeing handles read alike**: what one reads the other reads too, unless a
transfer of its read fails. -/
theorem Agrees.readLoop (rounds len : ℕ) (agrees : Agrees fs fs' fd i blocks)
    {data : List UInt8} (answered : (readLoop fd i rounds fs len).1 = .ok data) :
    (Otfs.readLoop fd i rounds fs' len).1 = .ok data ∨
    ((Otfs.readLoop fd i rounds fs' len).1 = .error .io ∧ ¬ fs'.imageFile.Faultless) := by
  induction rounds generalizing fs fs' len data with
  | zero => exact .inl answered
  | succ rounds ih =>
      rw [readLoop_succ rounds len agrees.chain] at answered
      rw [readLoop_succ rounds len agrees.chain', agrees.offset]
      split at answered
      · rename_i nothing
        rw [if_pos nothing]
        exact .inl answered
      · rename_i some
        rw [if_neg some]
        simp only at answered ⊢
        cases here : blocks[(fs.openFiles fd).offset.toNat / fsBlockSize]? with
        | none =>
            rw [here] at answered
            cases answered
        | some b =>
            simp only [here] at answered ⊢
            split at answered
            · cases answered
            · rename_i buffer after got
              have alike := agrees.readDataBlock (List.mem_of_getElem? here) got
              obtain ⟨file, same, size, changed⟩ := readDataBlock_image fs b
              obtain ⟨file', same', _, changed'⟩ := readDataBlock_image fs' b
              rw [got] at same
              obtain rfl : after = onImage fs file := same
              have next := agrees.moved size changed changed'
                (min (fsBlockSize - (fs.openFiles fd).offset.toNat % fsBlockSize) len)
              generalize Otfs.readDataBlock fs' b = out at alike same' ⊢
              obtain ⟨answer, after'⟩ := out
              obtain rfl : after' = onImage fs' file' := same'
              obtain rfl | ⟨rfl, faults⟩ := alike
              · simp only
                split at answered
                · cases answered
                · rename_i rest final loops
                  cases answered
                  obtain further | ⟨failed, faults⟩ := ih _ next (congrArg Prod.fst loops)
                  · left
                    generalize Otfs.readLoop fd i rounds ((onImage fs' file').advance _ _) _ = out
                      at further ⊢
                    obtain ⟨answer, last⟩ := out
                    obtain rfl := further
                    rfl
                  · right
                    refine ⟨?_, fun faultless => faults (changed'.faultless faultless)⟩
                    generalize Otfs.readLoop fd i rounds ((onImage fs' file').advance _ _) _ = out
                      at failed ⊢
                    obtain ⟨answer, last⟩ := out
                    obtain rfl := failed
                    rfl
              · exact .inr ⟨rfl, faults⟩

/-- Transfers inside one block of a chain spare the others. -/
theorem spares_image {b : BlockIndex} {file : ImageFile}
    (chain : FatChain fs.fat (fs.dirEntries i).firstBlock blocks) (member : b ∈ blocks)
    (changed : fs.imageFile.Changed file (InBlock b)) :
    Spares fs (onImage fs file) i blocks blocks where
  mounted := rfl
  size := changed.size
  entry := rfl
  others := fun _ _ => rfl
  chain := chain
  fresh := fun _ => .inl
  cells := fun _ _ _ => rfl
  apart := fun c off _ _ inside =>
    blockByte_of_inBlock changed (fun same : c = b => off (same ▸ member)) inside

theorem Spares.advance {blocks' : List BlockIndex} (spares : Spares fs fs' i blocks blocks')
    (fd : Descriptor) (chunk : ℕ) : Spares fs (fs'.advance fd chunk) i blocks blocks' :=
  ⟨spares.mounted, spares.size, spares.entry, spares.others, spares.chain, spares.fresh,
    spares.cells, spares.apart⟩

/-- A spliced block is as long as the block read. -/
private theorem length_splice {buffer data : List UInt8} {intra chunk : ℕ}
    (sized : buffer.length = fsBlockSize) (fits : intra + chunk ≤ fsBlockSize) :
    (buffer.take intra ++ data.take chunk ++ buffer.drop (intra + chunk)).length ≤
      fsBlockSize := by
  simp only [List.length_append, List.length_take, List.length_drop, sized]
  omega

/-- **A write loop spares the other chains** and moves only its descriptor,
whatever becomes of its transfers. -/
theorem writeLoop_spares (fs : FsHandle) (rounds : ℕ) (data : List UInt8)
    (chain : FatChain fs.fat (fs.dirEntries i).firstBlock blocks) : ∃ blocks' moved,
    Spares fs (writeLoop fd i rounds fs data).2 i blocks blocks' ∧
      (writeLoop fd i rounds fs data).2.openFiles = (fs.advance fd moved).openFiles := by
  induction rounds generalizing fs data blocks with
  | zero => exact ⟨blocks, 0, .refl chain, by rw [FsHandle.advance_zero]; rfl⟩
  | succ rounds ih =>
      rw [writeLoop]
      split
      · exact ⟨blocks, 0, .refl chain, by rw [FsHandle.advance_zero]⟩
      · obtain ⟨blocks', resolving, files, member⟩ :=
          resolveDataBlock_spares ((fs.openFiles fd).offset.toNat / fsBlockSize) chain
        simp only
        generalize resolveDataBlock fs i ((fs.openFiles fd).offset.toNat / fsBlockSize) true =
          out at resolving files member ⊢
        obtain ⟨answer, mid⟩ := out
        have stops : mid.openFiles = (fs.advance fd 0).openFiles := by
          rw [FsHandle.advance_zero]
          exact files
        split
        · rename_i after resolved
          cases resolved
          exact ⟨blocks', 0, resolving, stops⟩
        · rename_i after _ resolved
          cases resolved
          exact ⟨blocks', 0, resolving, stops⟩
        · rename_i b after resolved
          cases resolved
          have inside := member b rfl
          obtain ⟨file, same, _, changed⟩ := readDataBlock_image mid b
          have reading := resolving.trans (spares_image resolving.chain inside
            (changed.mono fun _ => False.elim))
          split
          · rename_i after got
            rw [got] at same
            obtain rfl : after = onImage mid file := same
            exact ⟨blocks', 0, reading, stops⟩
          · rename_i buffer after got
            rw [got] at same
            obtain rfl : after = onImage mid file := same
            have sized : buffer.length = fsBlockSize := by
              have answer : (readDataBlock mid b).1 = .ok buffer := by rw [got]
              have read : seekAndRead mid.imageFile (dataOffset b) fsBlockSize =
                  (.ok buffer, (seekAndRead mid.imageFile (dataOffset b) fsBlockSize).2) :=
                Prod.ext answer rfl
              rw [(seekAndRead_ok _ _ _ read).2, length_readRange]
            set chunk := min (fsBlockSize - (fs.openFiles fd).offset.toNat % fsBlockSize)
              data.length with chunkEq
            have fits : (fs.openFiles fd).offset.toNat % fsBlockSize + chunk ≤ fsBlockSize := by
              simp only [chunkEq, fsBlockSize]
              omega
            obtain ⟨file', same', changed'⟩ := writeDataBlock_image (onImage mid file) b
              (@length_splice _ data _ _ sized fits)
            have writing := reading.trans (spares_image reading.chain inside changed')
            split
            · rename_i after put
              rw [put] at same'
              obtain rfl : after = onImage (onImage mid file) file' := same'
              exact ⟨blocks', 0, writing, stops⟩
            · rename_i after put
              rw [put] at same'
              obtain rfl : after = onImage (onImage mid file) file' := same'
              obtain ⟨final, moved, further, moves⟩ := ih
                ((onImage (onImage mid file) file').advance fd chunk) (data.drop chunk)
                (writing.advance fd chunk).chain
              refine ⟨final, chunk + moved, (writing.advance fd chunk).trans further, ?_⟩
              rw [moves, FsHandle.advance_advance]
              have same : (onImage (onImage mid file) file').openFiles = fs.openFiles := files
              simp only [FsHandle.advance_openFiles, same]

end Loops

/-! ## The calls -/

section Calls

variable {fs fs' : FsHandle} {chains : FileIndex → List BlockIndex} {i : FileIndex}
  {slot : Descriptor} {fd : ℤ}

/-- A write that is not refused spares the other chains, and then records a size
and flushes, or stops before. -/
theorem fsWrite_spares {buf : SourceBuffer} {blocks : List BlockIndex}
    (mounted : fs.mounted = true) (named : Names fs fd slot) (buffer : ¬ buf.Missing)
    (writes : (fs.openFiles slot).flags &&& fsOWrite ≠ 0)
    (chain : FatChain fs.fat (fs.dirEntries (fs.openFiles slot).dirIndex).firstBlock blocks) :
    ∃ mid blocks' moved, Spares fs mid (fs.openFiles slot).dirIndex blocks blocks' ∧
      mid.openFiles = (fs.advance slot moved).openFiles ∧
      ((fsWrite fs fd buf).2 = mid ∨ ∃ file, mid.imageFile.Changed file InMetadata ∧
        (fsWrite fs fd buf).2 = onImage (grown mid slot (fs.openFiles slot).dirIndex) file) := by
  obtain ⟨blocks', moved, spares, files⟩ :=
    @writeLoop_spares _ _ slot fs buf.data.length buf.data chain
  refine ⟨_, blocks', moved, spares, files, ?_⟩
  rw [fsWrite_loops mounted named buffer writes]
  generalize writeLoop slot (fs.openFiles slot).dirIndex buf.data.length fs buf.data = out
  obtain ⟨answer | answer, mid⟩ := out
  · exact .inl rfl
  · right
    obtain ⟨file, same, changed⟩ :=
      syncMetadata_image (grown mid slot (fs.openFiles slot).dirIndex)
    rw [grown_imageFile] at changed
    refine ⟨file, changed, Eq.trans ?_ same⟩
    simp only [finishWrite_grown]
    generalize syncMetadata (grown mid slot (fs.openFiles slot).dirIndex) = out
    obtain ⟨answer | answer, after⟩ := out <;> rfl

/-- **A read that succeeds on one of two agreeing handles** succeeds alike on the
other, unless a transfer fails there. -/
theorem fsRead_agrees {hasBuf : Bool} {len : ℕ} {blocks : List BlockIndex}
    (mounted : fs.mounted = true) (mounted' : fs'.mounted = true)
    (slots : fs'.openFiles slot = fs.openFiles slot) (named : Names fs fd slot)
    (size : (fs'.dirEntries (fs.openFiles slot).dirIndex).sizeBytes =
      (fs.dirEntries (fs.openFiles slot).dirIndex).sizeBytes)
    (agrees : Agrees fs fs' slot (fs.openFiles slot).dirIndex blocks) {data : List UInt8}
    (answered : (fsRead fs fd hasBuf len).1 = .ok data) :
    (fsRead fs' fd hasBuf len).1 = .ok data ∨
    ((fsRead fs' fd hasBuf len).1 = .error .io ∧ ¬ fs'.imageFile.Faultless) := by
  have admitted : refusal (known fs) (flagsOf fs) (.read fd hasBuf len) = none := by
    cases refuses : refusal (known fs) (flagsOf fs) (.read fd hasBuf len) with
    | none => rfl
    | some e =>
        have fails := congrArg Prod.fst (fsStep_refused mounted refuses)
        simp only [fsStep, answered] at fails
        cases fails
  obtain ⟨buffer, slot', named', reads⟩ := transferRefusal_eq_none.mp admitted
  obtain rfl : slot = slot' := Option.some.inj (named.1.symm.trans named'.1)
  have named'' : Names fs' fd slot := ⟨named.1, by rw [slots]; exact named.2⟩
  have same : readable fs' slot len = readable fs slot len := by
    rw [readable, readable, slots, size]
  rw [fsRead_loops mounted named buffer reads] at answered
  rw [fsRead_loops mounted' named'' buffer (by rw [slots]; exact reads), same, slots]
  exact agrees.readLoop _ _ answered

end Calls

/-! ## Runs -/

section Runs

variable {fs : FsHandle} {chains : FileIndex → List BlockIndex} {i : FileIndex}

/-- Transfers change nothing in memory. -/
theorem Linked.onImage (linked : Linked fs chains) (file : ImageFile) :
    Linked (onImage fs file) chains :=
  ⟨⟨linked.chain, linked.unused, linked.apart⟩, linked.mounted, linked.opened⟩

private theorem lookupOrCreate_linked (linked : Linked fs chains) (name : List UInt8)
    (flags : UInt32) : ∃ chains', Linked (lookupOrCreate fs name flags).2 chains' ∧
      ∀ i, (lookupOrCreate fs name flags).1 = .ok i →
        Used (lookupOrCreate fs name flags).2 i := by
  rw [lookupOrCreate]
  split
  · rename_i i found
    have holds := List.find?_some found
    rw [decide_eq_true_eq] at holds
    refine ⟨chains, linked, fun j answer => ?_⟩
    cases answer
    exact holds.1
  · split
    · exact ⟨chains, linked, fun j answer => by cases answer⟩
    · rw [allocDirEntry]
      cases place : (List.finRange fsMaxFiles).find? fun i =>
          decide ((fs.dirEntries i).used = 0) with
      | none => exact ⟨chains, linked, fun j answer => by cases answer⟩
      | some i =>
          have holds := List.find?_some place
          rw [decide_eq_true_eq] at holds
          have making := linked.created name (not_not.mpr holds)
          obtain ⟨file, same, _⟩ := syncMetadata_image (created fs i name)
          simp only
          split
          · rename_i after flushed
            rw [created, flushed] at same
            rw [show after = _ from same]
            exact ⟨chains, making.onImage file, fun j answer => by cases answer⟩
          · rename_i after flushed
            rw [created, flushed] at same
            rw [show after = _ from same]
            refine ⟨chains, making.onImage file, fun j answer => ?_⟩
            cases answer
            change ((created fs i name).dirEntries i).used ≠ 0
            rw [created, FsHandle.setEntry_same]
            exact (by decide : (1 : UInt8) ≠ 0)

private theorem truncateEntry_linked (linked : Linked fs chains) (used : Used fs i) :
    ∃ chains', Linked (truncateEntry fs i).2 chains' ∧ Used (truncateEntry fs i).2 i := by
  obtain ⟨file, same, _⟩ := syncMetadata_image (truncated fs i (chains i))
  have kept : (truncateEntry fs i).2 = onImage (truncated fs i (chains i)) file := by
    rw [truncateEntry_released (linked.chain i used), ← same]
    generalize syncMetadata (truncated fs i (chains i)) = out
    obtain ⟨answer | answer, after⟩ := out <;> rfl
  rw [kept]
  refine ⟨_, (linked.truncated i).onImage file, ?_⟩
  change ((truncated fs i (chains i)).dirEntries i).used ≠ 0
  rw [truncated_used]
  exact used

private theorem openSlot_linked (linked : Linked fs chains) (used : Used fs i) (flags : UInt32) :
    Linked (openSlot fs i flags).2 chains := by
  rw [openSlot]
  split
  · exact linked
  · exact linked.setOpenFile fun _ => used

private theorem fsOpen_linked (linked : Linked fs chains) (name : CString) (flags : UInt32) :
    ∃ chains', Linked (fsOpen fs (some name) flags).2 chains' := by
  rw [fsOpen]
  split
  · exact ⟨chains, linked⟩
  · split
    · exact ⟨chains, linked⟩
    · split
      · exact ⟨chains, linked⟩
      · obtain ⟨chains', entering, entry⟩ := lookupOrCreate_linked linked name.bytes flags
        split
        · rename_i e after looked
          rw [looked] at entering
          exact ⟨chains', entering⟩
        · rename_i i after looked
          rw [looked] at entering entry
          have used : Used after i := entry i rfl
          split
          · obtain ⟨chains'', emptying, used'⟩ := truncateEntry_linked entering used
            split
            · rename_i e final emptied
              rw [emptied] at emptying
              exact ⟨chains'', emptying⟩
            · rename_i final emptied
              rw [emptied] at emptying used'
              exact ⟨chains'', openSlot_linked emptying used' flags⟩
          · exact ⟨chains', openSlot_linked entering used flags⟩

/-- **Every call keeps separate chains**, whatever becomes of its transfers. -/
theorem fsStep_linked (linked : Linked fs chains) (op : FsOp) :
    ∃ chains', Linked (fsStep fs op).2 chains' := by
  cases refuses : refusal (known fs) (flagsOf fs) op with
  | some e =>
      rw [fsStep_refused linked.mounted refuses]
      exact ⟨chains, linked⟩
  | none =>
      cases op with
      | «open» name flags =>
          cases name with
          | none => cases refuses
          | some name => exact fsOpen_linked linked name flags
      | close fd =>
          obtain ⟨slot, named⟩ := slotRefusal_eq_none.mp refuses
          simp only [fsStep, fsClose_eq linked.mounted named]
          exact ⟨chains, linked.setOpenFile fun inUse => by cases inUse⟩
      | seek fd offset =>
          obtain ⟨slot, named⟩ := slotRefusal_eq_none.mp refuses
          simp only [fsStep, fsSeek_eq linked.mounted named]
          exact ⟨chains, linked.sought named.2 offset⟩
      | read fd hasBuf len =>
          obtain ⟨buffer, slot, named, reads⟩ := transferRefusal_eq_none.mp refuses
          obtain ⟨file, moved, same, _⟩ := @readLoop_image _ _ slot fs (readable fs slot len)
            (readable fs slot len) (linked.chain _ (linked.opened slot named.2))
          simp only [fsStep, fsRead_loops linked.mounted named buffer reads, same]
          exact ⟨chains, (linked.advance slot moved).onImage file⟩
      | write fd buf =>
          obtain ⟨buffer, slot, named, writes⟩ := transferRefusal_eq_none.mp refuses
          have used := linked.opened slot named.2
          obtain ⟨mid, blocks, moved, spares, files, outcome⟩ :=
            fsWrite_spares linked.mounted named buffer writes (linked.chain _ used)
          have writing := linked.spares used spares fun fd => by
            rw [files]
            exact slot_advance fs slot moved fd
          simp only [fsStep]
          obtain same | ⟨file, _, same⟩ := outcome
          · rw [same]
            exact ⟨_, writing⟩
          · rw [same]
            exact ⟨_, (writing.grown slot _).onImage file⟩

/-- **Every run keeps separate chains**, whatever becomes of its transfers. -/
theorem Linked.run (linked : Linked fs chains) (ops : List FsOp) :
    ∃ chains, Linked (otfs.state fs ops) chains :=
  @Machine.state_invariant _ _ _ otfs (fun fs => ∃ chains, Linked fs chains)
    (fun _ op ⟨_, linked⟩ => fsStep_linked linked op) _ ⟨chains, linked⟩ ops

end Runs

end TigerOS.Otfs
