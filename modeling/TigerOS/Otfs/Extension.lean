import TigerOS.Otfs.Content

/-! # Extending one file

Everything a write does to the blocks has one shape: it appends free blocks to
the chain of one entry and overwrites a range of the bytes that chain holds.
`Extended` states this shape together with its frame: other entries, the cells
and blocks off the chain, and the metadata regions of the image keep their
values. Extensions compose, so the specification of a loop follows from that of
one round.
-/

namespace TigerOS.Otfs

open Foundation

/-- `fs'` is `fs` after the free blocks `added` joined the chain `blocks` of entry
`i`, and `data` was stored at `offset` of its bytes. -/
structure Extended (fs fs' : FsHandle) (i : FileIndex) (blocks added : List BlockIndex)
    (offset : ℕ) (data : List UInt8) : Prop where
  mounted : fs'.mounted = fs.mounted
  faultless : fs'.imageFile.Faultless
  size : fs.imageFile.size ≤ fs'.imageFile.size
  entry : fs'.dirEntries i =
    { fs.dirEntries i with firstBlock := (fs'.dirEntries i).firstBlock }
  others : ∀ j, j ≠ i → fs'.dirEntries j = fs.dirEntries j
  chain : FatChain fs'.fat (fs'.dirEntries i).firstBlock (blocks ++ added)
  free : freeBlocks fs.fat = added ++ freeBlocks fs'.fat
  cells : ∀ b, b ∉ blocks ++ added → fs'.fat b = fs.fat b
  metadata : ∀ p < 3584, fs'.imageFile.byte p = fs.imageFile.byte p
  apart : ∀ b, b ∉ blocks ++ added → ∀ j < fsBlockSize,
    blockByte fs'.imageFile b j = blockByte fs.imageFile b j
  content : contentAt fs'.imageFile (blocks ++ added) =
    writeRange (contentAt fs.imageFile blocks) offset data

namespace Extended

variable {fs mid fs' : FsHandle} {i : FileIndex} {blocks added more : List BlockIndex}
  {offset : ℕ} {data rest : List UInt8}

theorem refl (faultless : fs.imageFile.Faultless)
    (chain : FatChain fs.fat (fs.dirEntries i).firstBlock blocks) :
    Extended fs fs i blocks [] offset [] where
  mounted := rfl
  faultless := faultless
  size := le_rfl
  entry := rfl
  others := fun _ _ => rfl
  chain := by rwa [List.append_nil]
  free := rfl
  cells := fun _ _ => rfl
  metadata := fun _ _ => rfl
  apart := fun _ _ _ _ => rfl
  content := by rw [List.append_nil, writeRange_nil]

theorem trans (first : Extended fs mid i blocks added offset data)
    (second : Extended mid fs' i (blocks ++ added) more (offset + data.length) rest) :
    Extended fs fs' i blocks (added ++ more) offset (data ++ rest) where
  mounted := second.mounted.trans first.mounted
  faultless := second.faultless
  size := first.size.trans second.size
  entry := by rw [second.entry, first.entry]
  others := fun j other => (second.others j other).trans (first.others j other)
  chain := by simpa only [List.append_assoc] using second.chain
  free := by rw [first.free, second.free, List.append_assoc]
  cells := by
    intro b outside
    rw [← List.append_assoc] at outside
    rw [second.cells b outside,
      first.cells b fun inside => outside (List.mem_append_left _ inside)]
  metadata := fun p inside => (second.metadata p inside).trans (first.metadata p inside)
  apart := by
    intro b outside j inside
    rw [← List.append_assoc] at outside
    rw [second.apart b outside j inside,
      first.apart b (fun member => outside (List.mem_append_left _ member)) j inside]
  content := by
    rw [← List.append_assoc, second.content, first.content, writeRange_append]

/-- An extension that stores nothing may be read at any offset. -/
theorem reoffset (extended : Extended fs fs' i blocks added offset []) (offset' : ℕ) :
    Extended fs fs' i blocks added offset' [] where
  mounted := extended.mounted
  faultless := extended.faultless
  size := extended.size
  entry := extended.entry
  others := extended.others
  chain := extended.chain
  free := extended.free
  cells := extended.cells
  metadata := extended.metadata
  apart := extended.apart
  content := by rw [extended.content, writeRange_nil, writeRange_nil]

/-- Moving a descriptor is no part of an extension. -/
theorem advance (extended : Extended fs fs' i blocks added offset data) (fd : Descriptor)
    (chunk : ℕ) : Extended fs (fs'.advance fd chunk) i blocks added offset data where
  mounted := extended.mounted
  faultless := extended.faultless
  size := extended.size
  entry := extended.entry
  others := extended.others
  chain := extended.chain
  free := extended.free
  cells := extended.cells
  metadata := extended.metadata
  apart := extended.apart
  content := extended.content

theorem sizeBytes (extended : Extended fs fs' i blocks added offset data) (j : FileIndex) :
    (fs'.dirEntries j).sizeBytes = (fs.dirEntries j).sizeBytes := by
  by_cases same : j = i
  · subst same
    rw [extended.entry]
  · rw [extended.others j same]

theorem used (extended : Extended fs fs' i blocks added offset data) (j : FileIndex) :
    (fs'.dirEntries j).used = (fs.dirEntries j).used := by
  by_cases same : j = i
  · subst same
    rw [extended.entry]
  · rw [extended.others j same]

theorem name (extended : Extended fs fs' i blocks added offset data) (j : FileIndex) :
    (fs'.dirEntries j).name = (fs.dirEntries j).name := by
  by_cases same : j = i
  · subst same
    rw [extended.entry]
  · rw [extended.others j same]

/-- Added blocks were free. -/
theorem added_free (extended : Extended fs fs' i blocks added offset data) {b : BlockIndex}
    (member : b ∈ added) : fs.fat b = fatFree := by
  rw [← mem_freeBlocks, extended.free]
  exact List.mem_append_left _ member

end Extended

/-! ## What survives faults -/

/-- `fs'` is `fs` after the chain `blocks` of entry `i` became `blocks'` by free
blocks joining it. This much of an extension holds whatever becomes of the
transfers: blocks on other chains keep their cells and their bytes. -/
structure Spares (fs fs' : FsHandle) (i : FileIndex) (blocks blocks' : List BlockIndex) :
    Prop where
  mounted : fs'.mounted = fs.mounted
  size : fs.imageFile.size ≤ fs'.imageFile.size
  entry : fs'.dirEntries i =
    { fs.dirEntries i with firstBlock := (fs'.dirEntries i).firstBlock }
  others : ∀ j, j ≠ i → fs'.dirEntries j = fs.dirEntries j
  chain : FatChain fs'.fat (fs'.dirEntries i).firstBlock blocks'
  fresh : ∀ b ∈ blocks', b ∈ blocks ∨ fs.fat b = fatFree
  cells : ∀ b, b ∉ blocks → fs.fat b ≠ fatFree → fs'.fat b = fs.fat b
  apart : ∀ b, b ∉ blocks → fs.fat b ≠ fatFree → ∀ j < fsBlockSize,
    blockByte fs'.imageFile b j = blockByte fs.imageFile b j

namespace Spares

variable {fs mid fs' : FsHandle} {i : FileIndex} {blocks blocks' blocks'' : List BlockIndex}

theorem refl (chain : FatChain fs.fat (fs.dirEntries i).firstBlock blocks) :
    Spares fs fs i blocks blocks where
  mounted := rfl
  size := le_rfl
  entry := rfl
  others := fun _ _ => rfl
  chain := chain
  fresh := fun _ member => .inl member
  cells := fun _ _ _ => rfl
  apart := fun _ _ _ _ _ => rfl

theorem trans (first : Spares fs mid i blocks blocks')
    (second : Spares mid fs' i blocks' blocks'') : Spares fs fs' i blocks blocks'' := by
  -- a used block off the first chain is still one off the second
  have outside {b : BlockIndex} (off : b ∉ blocks) (taken : fs.fat b ≠ fatFree) :
      b ∉ blocks' ∧ mid.fat b ≠ fatFree :=
    ⟨fun member => (first.fresh b member).elim off taken, (first.cells b off taken).symm ▸ taken⟩
  exact {
    mounted := second.mounted.trans first.mounted
    size := first.size.trans second.size
    entry := by rw [second.entry, first.entry]
    others := fun j other => (second.others j other).trans (first.others j other)
    chain := second.chain
    fresh := by
      intro b member
      rcases second.fresh b member with linked | free
      · exact first.fresh b linked
      · by_cases taken : fs.fat b = fatFree
        · exact .inr taken
        · by_contra neither
          rw [not_or] at neither
          exact (outside neither.1 taken).2 free
    cells := by
      intro b off taken
      obtain ⟨off', taken'⟩ := outside off taken
      rw [second.cells b off' taken', first.cells b off taken]
    apart := by
      intro b off taken j inside
      obtain ⟨off', taken'⟩ := outside off taken
      rw [second.apart b off' taken' j inside, first.apart b off taken j inside] }

theorem used (spares : Spares fs fs' i blocks blocks') (j : FileIndex) :
    (fs'.dirEntries j).used = (fs.dirEntries j).used := by
  by_cases same : j = i
  · subst same
    rw [spares.entry]
  · rw [spares.others j same]

end Spares

/-- An extension spares every other chain. -/
theorem Extended.spares {fs fs' : FsHandle} {i : FileIndex} {blocks added : List BlockIndex}
    {offset : ℕ} {data : List UInt8} (extended : Extended fs fs' i blocks added offset data) :
    Spares fs fs' i blocks (blocks ++ added) := by
  have outside {b : BlockIndex} (off : b ∉ blocks) (taken : fs.fat b ≠ fatFree) :
      b ∉ blocks ++ added := by
    rw [List.mem_append, not_or]
    exact ⟨off, fun member => taken (extended.added_free member)⟩
  exact {
    mounted := extended.mounted
    size := extended.size
    entry := extended.entry
    others := extended.others
    chain := extended.chain
    fresh := fun b member => (List.mem_append.mp member).imp_right extended.added_free
    cells := fun b off taken => extended.cells b (outside off taken)
    apart := fun b off taken => extended.apart b (outside off taken) }

/-! ## Allocation -/

/-- The handle after a free block is marked and cleared. -/
def cleared (fs : FsHandle) (b : BlockIndex) : FsHandle :=
  { fs.setCell b fatEnd with
    imageFile := fs.imageFile.store (dataOffset b) (List.replicate fsBlockSize 0) }

/-- Without faults the allocator takes the first free block and clears it. -/
theorem allocateDataBlock_eq {fs : FsHandle} (faultless : fs.imageFile.Faultless) :
    allocateDataBlock fs =
      match freeBlocks fs.fat with
      | [] => (.error .noSpace, fs)
      | b :: _ => (.ok b, cleared fs b) := by
  rw [allocateDataBlock, find?_free]
  cases freeBlocks fs.fat with
  | nil => rfl
  | cons b rest =>
      have written := seekAndWrite_of_faultless (blockOffset (fsDataStartBlock + b))
        (List.replicate fsBlockSize 0) faultless
      simp only [List.head?_cons, writeDataBlock, FsHandle.setCell, written]
      rfl

private theorem blockByte_cleared {fs : FsHandle} {b : BlockIndex} {j : ℕ}
    (inside : j < fsBlockSize) : blockByte (cleared fs b).imageFile b j = 0 := by
  rw [cleared, blockByte_store_same (by rwa [List.length_replicate]), List.getElem_replicate]

private theorem blockByte_cleared_other {fs : FsHandle} {b c : BlockIndex} (apart : c ≠ b)
    {j : ℕ} (inside : j < fsBlockSize) :
    blockByte (cleared fs b).imageFile c j = blockByte fs.imageFile c j :=
  blockByte_store_other apart inside List.length_replicate

/-- Clearing a free block and linking it after a chain, by a write to the FAT
or to the entry alone, extends the chain by it. -/
private theorem extended_of_link {fs : FsHandle} (fs' : FsHandle) {i : FileIndex}
    {blocks : List BlockIndex} {b : BlockIndex} {rest : List BlockIndex}
    (faultless : fs.imageFile.Faultless)
    (chain : FatChain fs.fat (fs.dirEntries i).firstBlock blocks)
    (free : freeBlocks fs.fat = b :: rest)
    (mounted : fs'.mounted = fs.mounted)
    (image : fs'.imageFile = (cleared fs b).imageFile)
    (entry : fs'.dirEntries i =
      { fs.dirEntries i with firstBlock := (fs'.dirEntries i).firstBlock })
    (others : ∀ j, j ≠ i → fs'.dirEntries j = fs.dirEntries j)
    (linked : FatChain fs'.fat (fs'.dirEntries i).firstBlock (blocks ++ [b]))
    (left : freeBlocks fs'.fat = rest)
    (cells : ∀ c, c ∉ blocks ++ [b] → fs'.fat c = fs.fat c) :
    Extended fs fs' i blocks [b] 0 [] where
  mounted := mounted
  faultless := by rw [image]; exact faultless
  size := by rw [image]; exact ImageFile.size_le_store
  entry := entry
  others := others
  chain := linked
  free := by rw [free, left]; rfl
  cells := cells
  metadata := by
    intro p metadata
    rw [image]
    exact byte_store_dataOffset metadata
  apart := by
    intro c outside j inside
    have apart : c ≠ b := fun same => outside (by simp [same])
    rw [image, blockByte_cleared_other apart inside]
  content := by
    have fresh : fs.fat b = fatFree := mem_freeBlocks.mp (free ▸ List.mem_cons_self)
    rw [writeRange_nil, image, contentAt_append_zero (fun j inside => blockByte_cleared inside)]
    apply contentAt_congr
    intro c member j inside
    have apart : c ≠ b := fun same => FatChain.cell_ne_free chain member (same ▸ fresh)
    exact blockByte_cleared_other apart inside

/-- A first block attached to an entry without blocks. -/
theorem extended_attach {fs : FsHandle} {i : FileIndex} {b : BlockIndex} {rest : List BlockIndex}
    (faultless : fs.imageFile.Faultless) (isEnd : (fs.dirEntries i).firstBlock = fatEnd)
    (free : freeBlocks fs.fat = b :: rest) :
    Extended fs ((cleared fs b).setFirstBlock i (blockLink b)) i [] [b] 0 [] := by
  have entryEq : ((cleared fs b).setFirstBlock i (blockLink b)).dirEntries i =
      { fs.dirEntries i with firstBlock := blockLink b } := Function.update_self ..
  refine extended_of_link _ faultless (fatChain_nil.mpr isEnd) free rfl rfl ?_ ?_ ?_ ?_ ?_
  · rw [entryEq]
  · intro j other
    exact Function.update_of_ne other ..
  · rw [entryEq]
    refine fatChain_cons.mpr ⟨rfl, fatChain_nil.mpr ?_⟩
    exact Function.update_self ..
  · exact freeBlocks_update_head free fatEnd_ne_fatFree
  · intro c outside
    exact Function.update_of_ne (by simpa using outside) ..

/-- A block linked after the last block of a chain. -/
theorem extended_append {fs : FsHandle} {i : FileIndex} {before : List BlockIndex}
    {cur b : BlockIndex} {rest : List BlockIndex} (faultless : fs.imageFile.Faultless)
    (chain : FatChain fs.fat (fs.dirEntries i).firstBlock (before ++ [cur]))
    (free : freeBlocks fs.fat = b :: rest) :
    Extended fs ((cleared fs b).setCell cur (blockLink b)) i (before ++ [cur]) [b] 0 [] := by
  have fresh : fs.fat b = fatFree := mem_freeBlocks.mp (free ▸ List.mem_cons_self)
  have curApart : cur ≠ b := fun same =>
    FatChain.cell_ne_free chain (by simp : cur ∈ before ++ [cur]) (same ▸ fresh)
  refine extended_of_link _ faultless chain free rfl rfl rfl (fun _ _ => rfl)
    (FatChain.append chain fresh) ?_ ?_
  · change freeBlocks (Function.update (Function.update fs.fat b fatEnd) cur _) = rest
    rw [freeBlocks_update_used, freeBlocks_update_head free fatEnd_ne_fatFree]
    · rw [Function.update_of_ne curApart]
      exact FatChain.cell_ne_free chain (by simp)
    · exact blockLink_ne_fatFree b
  · intro c outside
    simp only [List.mem_append, List.mem_singleton, not_or] at outside
    change Function.update (Function.update fs.fat b fatEnd) cur _ c = fs.fat c
    rw [Function.update_of_ne outside.1.2, Function.update_of_ne outside.2]

/-! ## Resolving a block -/

/-- The answer of a resolution that may allocate: the block at the asked place
of the extended chain, or no space with every block in use. -/
def Resolved (out : Except FsError BlockIndex × FsHandle) (blocks added : List BlockIndex)
    (index : ℕ) : Prop :=
  (∃ b, out.1 = .ok b ∧ (blocks ++ added)[index]? = some b ∧
    added.length = index + 1 - blocks.length) ∨
  (out.1 = .error .noSpace ∧ freeBlocks out.2.fat = [] ∧ blocks.length + added.length ≤ index)

/-- The walk goes on to the next block of the chain. -/
theorem followChain_next {fs : FsHandle} {cur next : BlockIndex} {rest : List BlockIndex}
    (allocate : Bool) (steps : ℕ) (tail : FatChain fs.fat (fs.fat cur) (next :: rest)) :
    followChain allocate (steps + 1) fs cur = followChain allocate steps fs next := by
  have linked := (fatChain_cons.mp tail).1
  rw [followChain, if_neg (by simp [linked]), linked, blockAt?_blockLink]

/-- The allocating walk extends the chain just as far as it walks. -/
theorem followChain_allocate {fs : FsHandle} {i : FileIndex} (before : List BlockIndex)
    {rest : List BlockIndex} {cur : BlockIndex} (steps : ℕ) (faultless : fs.imageFile.Faultless)
    (chain : FatChain fs.fat (fs.dirEntries i).firstBlock (before ++ cur :: rest)) :
    ∃ added, Extended fs (followChain true steps fs cur).2 i (before ++ cur :: rest) added 0 [] ∧
      (followChain true steps fs cur).2.openFiles = fs.openFiles ∧
      Resolved (followChain true steps fs cur) (before ++ cur :: rest) added
        (before.length + steps) := by
  induction steps generalizing fs cur before rest with
  | zero =>
      refine ⟨[], .refl faultless chain, rfl, .inl ⟨cur, rfl, ?_, ?_⟩⟩
      · simp
      · simp only [List.length_nil, List.length_append, List.length_cons]
        omega
  | succ steps ih =>
      have tail : FatChain fs.fat (fs.fat cur) rest := Chain.after chain
      cases rest with
      | cons next rest =>
          have regroup := List.append_cons before cur (next :: rest)
          rw [regroup] at chain
          rw [followChain_next true steps tail, regroup]
          have place : before.length + (steps + 1) = (before ++ [cur]).length + steps := by
            rw [List.length_append, List.length_singleton]
            omega
          rw [place]
          exact ih (before ++ [cur]) faultless chain
      | nil =>
          have isEnd := fatChain_nil.mp tail
          cases free : freeBlocks fs.fat with
          | nil =>
              have walk : followChain true (steps + 1) fs cur = (.error .noSpace, fs) := by
                rw [followChain, if_pos isEnd, if_pos rfl, allocateDataBlock_eq faultless, free]
              rw [walk]
              refine ⟨[], .refl faultless chain, rfl, .inr ⟨rfl, free, ?_⟩⟩
              simp only [List.length_append, List.length_cons, List.length_nil]
              omega
          | cons b left =>
              let linked := (cleared fs b).setCell cur (blockLink b)
              have walk : followChain true (steps + 1) fs cur =
                  followChain true steps linked b := by
                rw [followChain, if_pos isEnd, if_pos rfl, allocateDataBlock_eq faultless, free]
              have extended := extended_append faultless chain free
              obtain ⟨added, further, files, resolved⟩ :=
                ih (before ++ [cur]) extended.faultless extended.chain
              rw [walk]
              refine ⟨b :: added, ?_, files, ?_⟩
              · exact extended.trans (further.reoffset _)
              · obtain ⟨found, answer, here, sized⟩ | ⟨answer, full, short⟩ := resolved
                · refine .inl ⟨found, answer, ?_, ?_⟩
                  · rw [← here]
                    simp only [List.append_assoc, List.cons_append, List.nil_append,
                      List.length_append, List.length_singleton]
                    congr 1
                    omega
                  · simp only [List.length_append, List.length_cons, List.length_nil] at sized ⊢
                    omega
                · refine .inr ⟨answer, full, ?_⟩
                  simp only [List.length_append, List.length_cons, List.length_nil] at short ⊢
                  omega

/-- Resolving a block for a write extends the chain of the entry to hold it, as
far as the free blocks reach. -/
theorem resolveDataBlock_allocate {fs : FsHandle} {i : FileIndex} {blocks : List BlockIndex}
    (index : ℕ) (faultless : fs.imageFile.Faultless)
    (chain : FatChain fs.fat (fs.dirEntries i).firstBlock blocks) :
    ∃ added, Extended fs (resolveDataBlock fs i index true).2 i blocks added 0 [] ∧
      (resolveDataBlock fs i index true).2.openFiles = fs.openFiles ∧
      Resolved (resolveDataBlock fs i index true) blocks added index := by
  cases blocks with
  | cons first rest =>
      have linked := (fatChain_cons.mp chain).1
      have walk : resolveDataBlock fs i index true = followChain true index fs first := by
        rw [resolveDataBlock, attachFirst, if_neg (by simp [linked])]
        simp only [linked, blockAt?_blockLink]
      rw [walk]
      simpa using followChain_allocate [] index faultless chain
  | nil =>
      have isEnd := fatChain_nil.mp chain
      cases free : freeBlocks fs.fat with
      | nil =>
          have walk : resolveDataBlock fs i index true = (.error .noSpace, fs) := by
            rw [resolveDataBlock, attachFirst, if_pos isEnd, if_pos rfl,
              allocateDataBlock_eq faultless, free]
          rw [walk]
          exact ⟨[], .refl faultless chain, rfl, .inr ⟨rfl, free, Nat.zero_le _⟩⟩
      | cons b left =>
          let attached := (cleared fs b).setFirstBlock i (blockLink b)
          have entryEq : (attached.dirEntries i).firstBlock = blockLink b := by
            simp only [attached, FsHandle.setFirstBlock, FsHandle.setEntry, Function.update_self]
          have walk : resolveDataBlock fs i index true = followChain true index attached b := by
            have here : blockAt? (attached.dirEntries i).firstBlock = some b := by
              rw [entryEq, blockAt?_blockLink]
            rw [resolveDataBlock, attachFirst, if_pos isEnd, if_pos rfl,
              allocateDataBlock_eq faultless, free]
            simp only [attached] at here ⊢
            simp only [here]
          have extended := extended_attach faultless isEnd free
          obtain ⟨added, further, files, resolved⟩ :=
            followChain_allocate [] index extended.faultless extended.chain
          rw [walk]
          refine ⟨b :: added, extended.trans (further.reoffset _), files, ?_⟩
          obtain ⟨found, answer, here, sized⟩ | ⟨answer, full, short⟩ := resolved
          · refine .inl ⟨found, answer, by simpa using here, ?_⟩
            simp only [List.length_cons, List.length_nil, List.nil_append] at sized ⊢
            omega
          · refine .inr ⟨answer, full, ?_⟩
            simp only [List.length_cons, List.length_nil, List.nil_append] at short ⊢
            omega

/-- Resolving a block for a read answers a block of the chain, and changes
nothing. -/
theorem resolveDataBlock_lookup {fs : FsHandle} {i : FileIndex} {blocks : List BlockIndex}
    (index : ℕ) (chain : FatChain fs.fat (fs.dirEntries i).firstBlock blocks) :
    resolveDataBlock fs i index false =
      (match blocks[index]? with | some b => .ok b | none => .error .notFound, fs) := by
  have walk : ∀ (steps : ℕ) (cur : BlockIndex) (rest : List BlockIndex),
      FatChain fs.fat (fs.fat cur) rest → followChain false steps fs cur =
        (match (cur :: rest)[steps]? with | some b => .ok b | none => .error .notFound, fs) := by
    intro steps
    induction steps with
    | zero => intro cur rest _; rfl
    | succ steps ih =>
        intro cur rest tail
        cases rest with
        | nil =>
            rw [followChain, if_pos (fatChain_nil.mp tail)]
            rfl
        | cons next rest =>
            rw [followChain_next false steps tail]
            exact ih next rest (fatChain_cons.mp tail).2
  cases blocks with
  | nil =>
      rw [resolveDataBlock, attachFirst, if_pos (fatChain_nil.mp chain)]
      rfl
  | cons first rest =>
      obtain ⟨linked, tail⟩ := fatChain_cons.mp chain
      rw [resolveDataBlock, attachFirst, if_neg (by simp [linked])]
      simp only [linked, blockAt?_blockLink]
      exact walk index first rest tail

end TigerOS.Otfs
