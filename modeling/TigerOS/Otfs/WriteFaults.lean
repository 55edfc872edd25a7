import TigerOS.Otfs.Struck
import TigerOS.Otfs.FailedWrite

/-! # Writes struck by a fault

A write makes its image calls in an order that its state and its length decide
(`TigerOS.Otfs.writeCalls`), and it stops at the first that fails. It then answers an I/O
error and leaks no block exactly when that call was not the clearing of a fresh block
(`TigerOS.Otfs.struck_write_handled`): the failed clearing is reported as a lack of space,
and leaves its block marked and linked nowhere.
-/

namespace TigerOS.Otfs

open Foundation

/-! ## The calls of a write -/

/-- The calls of a write loop on the blocks `chunks` from the one at `index` on, with `held`
blocks on the chain and `free` blocks left. -/
def loopCalls : ℕ → ℕ → ℕ → ℕ → List IoCall
  | 0, _, _, _ => []
  | chunks + 1, index, held, free =>
      List.replicate (min (index + 1 - held) free) .clear ++
        if index + 1 ≤ held + free then
          [.load, .store] ++
            loopCalls chunks (index + 1) (max held (index + 1)) (free - (index + 1 - held))
        else []

/-- The calls of a write loop on the bytes of a range. -/
def rangeCalls (offset len held free : ℕ) : List IoCall :=
  loopCalls (blocksFor offset len - offset / fsBlockSize) (offset / fsBlockSize) held free

/-- **The calls of a write** in order, where none fails: for each block of the range the
clearing of the blocks it lacks, a load and a store, as far as the free blocks reach, and
then the flush. -/
def writeCalls (offset len held free : ℕ) : List IoCall :=
  rangeCalls offset len held free ++
    if blocksFor offset len ≤ held + free then [.directory, .fat] else []

theorem rangeCalls_nothing (offset held free : ℕ) : rangeCalls offset 0 held free = [] := by
  rw [rangeCalls, blocksFor, if_pos rfl, Nat.zero_sub, loopCalls]

/-- The calls of the first round and of the rounds after it. -/
theorem rangeCalls_round (offset held free : ℕ) {len : ℕ} (nonempty : len ≠ 0) :
    let index := offset / fsBlockSize
    let chunk := min (fsBlockSize - offset % fsBlockSize) len
    rangeCalls offset len held free =
      List.replicate (min (index + 1 - held) free) .clear ++
        if index + 1 ≤ held + free then
          [.load, .store] ++ rangeCalls (offset + chunk) (len - chunk) (max held (index + 1))
            (free - (index + 1 - held))
        else [] := by
  intro index chunk
  by_cases last : len - chunk = 0
  · have one : blocksFor offset len - index = 1 := by
      simp only [blocksFor, nonempty, ↓reduceIte, index, chunk, fsBlockSize] at last ⊢
      omega
    rw [last, rangeCalls_nothing, rangeCalls, one, loopCalls, loopCalls]
  · have more : blocksFor offset len - index =
        blocksFor (offset + chunk) (len - chunk) - (index + 1) + 1 := by
      simp only [blocksFor, nonempty, last, ↓reduceIte]
      simp only [index, chunk, fsBlockSize] at last ⊢
      omega
    have next : (offset + chunk) / fsBlockSize = index + 1 := by
      simp only [index, chunk, fsBlockSize] at last ⊢
      omega
    rw [rangeCalls, more, loopCalls, rangeCalls, next]

/-- How a write or a part of it ends, by the call struck in it: it answers `whole` where
none is, a struck clearing is no space and leaks a block, another call is an I/O error and
leaks none. -/
inductive EndsBy {α : Type} (fs : FsHandle) (i : FileIndex) (blocks : List BlockIndex)
    (whole : Except FsError α) : Option IoCall → Except FsError α × FsHandle → Prop where
  | passed {fs' : FsHandle} {added : List BlockIndex} (joined : Joined fs fs' i blocks added) :
      EndsBy fs i blocks whole none (whole, fs')
  | cleared {fs' : FsHandle} (leaked : Leaked fs fs' i blocks) :
      EndsBy fs i blocks whole (some .clear) (.error .noSpace, fs')
  | failed {call : IoCall} {fs' : FsHandle} {added : List BlockIndex} (other : call ≠ .clear)
      (joined : Joined fs fs' i blocks added) :
      EndsBy fs i blocks whole (some call) (.error .io, fs')

namespace EndsBy

variable {α : Type} {fs mid : FsHandle} {i : FileIndex} {blocks added : List BlockIndex}
  {call : IoCall} {hit : Option IoCall} {whole : Except FsError α}
  {out : Except FsError α × FsHandle}

/-- Blocks that joined before are among those that joined. -/
theorem after (joined : Joined fs mid i blocks added)
    (ends : EndsBy mid i (blocks ++ added) whole hit out) : EndsBy fs i blocks whole hit out := by
  cases ends with
  | passed further => exact .passed (joined.trans further)
  | cleared leaked => exact .cleared (joined.leaked leaked)
  | failed other further => exact .failed other (joined.trans further)

/-- The value answered is no matter of the calls. -/
theorem map {β : Type} (f : α → β) (ends : EndsBy fs i blocks whole hit out) :
    EndsBy fs i blocks (whole.map f) hit (out.1.map f, out.2) := by
  cases ends with
  | passed joined => exact .passed joined
  | cleared leaked => exact .cleared leaked
  | failed other joined => exact .failed other joined

/-- A struck part fails, and so does the whole. -/
theorem fails (ends : EndsBy fs i blocks whole (some call) out) : ∃ e, out.1 = .error e ∧
    ∀ {β : Type} (whole : Except FsError β),
      EndsBy fs i blocks whole (some call) (.error e, out.2) := by
  cases ends with
  | cleared leaked => exact ⟨_, rfl, fun _ => .cleared leaked⟩
  | failed other joined => exact ⟨_, rfl, fun _ => .failed other joined⟩

theorem leaks (ends : EndsBy fs i blocks whole (some .clear) out) :
    out.1 = .error .noSpace ∧ Leaked fs out.2 i blocks := by
  cases ends with
  | cleared leaked => exact ⟨rfl, leaked⟩
  | failed other joined => exact absurd rfl other

theorem spares (ends : EndsBy fs i blocks whole (some call) out) (other : call ≠ .clear) :
    out.1 = .error .io ∧ ∃ added, Joined fs out.2 i blocks added := by
  cases ends with
  | cleared leaked => exact absurd rfl other
  | failed _ joined => exact ⟨rfl, _, joined⟩

end EndsBy

/-- A write or a part of it made `calls`, and ended by the one struck. -/
structure WrittenUnder {α : Type} (fs : FsHandle) (i : FileIndex) (blocks : List BlockIndex)
    (calls : List IoCall) (whole : Except FsError α) (out : Except FsError α × FsHandle) :
    Prop where
  meets : Meets calls fs.imageFile out.2.imageFile
  ends : EndsBy fs i blocks whole (struck calls fs.imageFile.transfers).1 out

namespace WrittenUnder

variable {α : Type} {fs mid : FsHandle} {i : FileIndex} {blocks added : List BlockIndex}
  {calls more : List IoCall} {call : IoCall} {whole : Except FsError α}
  {out : Except FsError α × FsHandle}

/-- No call is made. -/
theorem done (chain : FatChain fs.fat (fs.dirEntries i).firstBlock blocks) :
    WrittenUnder fs i blocks [] whole (whole, fs) :=
  ⟨.refl _, .passed (.refl chain)⟩

/-- Calls that pass are followed by those of the rest. -/
theorem after (meets : Meets calls fs.imageFile mid.imageFile)
    (passed : (struck calls fs.imageFile.transfers).1 = none)
    (joined : Joined fs mid i blocks added)
    (rest : WrittenUnder mid i (blocks ++ added) more whole out) :
    WrittenUnder fs i blocks (calls ++ more) whole out where
  meets := meets.trans passed rest.meets
  ends := by
    rw [meets.struck_append passed more]
    exact rest.ends.after joined

/-- What keeps the chains goes before the rest. -/
theorem unchanged (meets : Meets calls fs.imageFile mid.imageFile)
    (passed : (struck calls fs.imageFile.transfers).1 = none)
    (joined : Joined fs mid i blocks []) (rest : WrittenUnder mid i blocks more whole out) :
    WrittenUnder fs i blocks (calls ++ more) whole out := by
  apply after meets passed joined
  rwa [List.append_nil]

/-- One call that passes. -/
theorem afterCall {file : ImageFile} (meets : Meets [call] fs.imageFile file)
    (passed : (struck [call] fs.imageFile.transfers).1 = none)
    (chain : FatChain fs.fat (fs.dirEntries i).firstBlock blocks)
    (rest : WrittenUnder (onImage fs file) i blocks more whole out) :
    WrittenUnder fs i blocks (call :: more) whole out :=
  unchanged meets passed (joined_onImage chain file) rest

/-- The calls of a part are struck, and the rest is not made. -/
theorem stop {β : Type} {whole' : Except FsError β} {e : FsError}
    (meets : Meets calls fs.imageFile mid.imageFile)
    (hit : (struck calls fs.imageFile.transfers).1 = some call)
    (ends : EndsBy fs i blocks whole' (some call) (.error e, mid)) :
    WrittenUnder fs i blocks (calls ++ more) whole' (.error e, mid) where
  meets := meets.stop hit more
  ends := by rwa [struck_stop hit more]

/-- The first call is struck, and it is no clearing. -/
theorem stopCall {file : ImageFile} (meets : Meets [call] fs.imageFile file)
    (hit : (struck [call] fs.imageFile.transfers).1 = some call) (other : call ≠ .clear)
    (chain : FatChain fs.fat (fs.dirEntries i).firstBlock blocks) :
    WrittenUnder fs i blocks (call :: more) whole (.error .io, onImage fs file) :=
  stop meets hit (.failed other (joined_onImage chain file))

/-- Moving a descriptor is no call. -/
theorem ofAdvance (fd : Descriptor) (chunk : ℕ)
    (chain : FatChain fs.fat (fs.dirEntries i).firstBlock blocks)
    (rest : WrittenUnder (fs.advance fd chunk) i blocks calls whole out) :
    WrittenUnder fs i blocks calls whole out := by
  have joined : Joined fs (fs.advance fd chunk) i blocks [] :=
    (Joined.refl chain).congr rfl (fun _ => rfl) fun _ => rfl
  have still : Meets [] fs.imageFile (fs.advance fd chunk).imageFile := .refl _
  exact unchanged still (congrArg Prod.fst (strike_nil _)) joined rest

/-- One block is loaded, changed and stored. -/
theorem block {b : BlockIndex} {splice : List UInt8 → List UInt8}
    {next : FsHandle → Except FsError α × FsHandle} (complete : fs.imageFile.Complete)
    (chain : FatChain fs.fat (fs.dirEntries i).firstBlock blocks)
    (rest : ∀ file : ImageFile, file.Complete →
      WrittenUnder (onImage fs file) i blocks more whole (next (onImage fs file))) :
    WrittenUnder fs i blocks ([.load, .store] ++ more) whole
      (match readDataBlock fs b with
        | (.error _, fs) => (.error .io, fs)
        | (.ok buffer, fs) =>
            match writeDataBlock fs b (splice buffer) with
            | (.error _, fs) => (.error .io, fs)
            | (.ok (), fs) => next fs) := by
  have load := seekAndRead_called .load ((dataOffset_add_le b).trans complete)
  have same : readDataBlock fs b = ((seekAndRead fs.imageFile (dataOffset b) fsBlockSize).1,
      onImage fs (seekAndRead fs.imageFile (dataOffset b) fsBlockSize).2) := rfl
  rw [same]
  generalize seekAndRead fs.imageFile (dataOffset b) fsBlockSize = read at *
  obtain ⟨answer, file⟩ := read
  obtain ⟨meets, ⟨passed, buffer, rfl⟩ | ⟨hit, rfl⟩⟩ := load
  · apply afterCall meets passed chain
    have store := seekAndWrite_called .store file (dataOffset b) (splice buffer)
    have same' : writeDataBlock (onImage fs file) b (splice buffer) =
        ((seekAndWrite file (dataOffset b) (splice buffer)).1,
          onImage fs (seekAndWrite file (dataOffset b) (splice buffer)).2) := rfl
    simp only [same']
    generalize seekAndWrite file (dataOffset b) (splice buffer) = write at *
    obtain ⟨answer, file'⟩ := write
    obtain ⟨meets', ⟨passed', _, rfl⟩ | ⟨hit, rfl⟩⟩ := store
    · refine afterCall meets' passed' chain ?_
      exact rest file' ((complete.trans meets.size).trans meets'.size)
    · exact stopCall meets' hit IoCall.noConfusion chain
  · exact stopCall meets hit IoCall.noConfusion chain

end WrittenUnder

section Loop

variable {fs : FsHandle} {i : FileIndex} {blocks : List BlockIndex} {fd : Descriptor}

/-- What a write loop answers where no call is struck. -/
def loopAnswer (offset len held free : ℕ) : Except FsError Unit :=
  if blocksFor offset len ≤ held + free then .ok () else .error .noSpace

/-- **The write loop** under any fates. -/
theorem writeLoop_under (fs : FsHandle) (rounds : ℕ) (data : List UInt8)
    (enough : data.length ≤ rounds) (complete : fs.imageFile.Complete)
    (chain : FatChain fs.fat (fs.dirEntries i).firstBlock blocks) :
    WrittenUnder fs i blocks
      (rangeCalls (fs.openFiles fd).offset.toNat data.length blocks.length
        (freeBlocks fs.fat).length)
      (loopAnswer (fs.openFiles fd).offset.toNat data.length blocks.length
        (freeBlocks fs.fat).length)
      (writeLoop fd i rounds fs data) := by
  induction rounds generalizing fs data blocks with
  | zero =>
      obtain rfl : data = [] := List.length_eq_zero_iff.mp (by omega)
      rw [List.length_nil, rangeCalls_nothing, loopAnswer, blocksFor, if_pos rfl,
        if_pos (Nat.zero_le _)]
      exact .done chain
  | succ rounds ih =>
      by_cases nothing : data = []
      · subst nothing
        rw [List.length_nil, rangeCalls_nothing, loopAnswer, blocksFor, if_pos rfl,
          if_pos (Nat.zero_le _), writeLoop, if_pos rfl]
        exact .done chain
      · have nonempty : data.length ≠ 0 := fun zero => nothing (List.length_eq_zero_iff.mp zero)
        have resolving := resolveDataBlock_under
          ((fs.openFiles fd).offset.toNat / fsBlockSize) chain
        have first := rangeCalls_round (fs.openFiles fd).offset.toNat blocks.length
          (freeBlocks fs.fat).length nonempty
        have needed := blocksFor_round (fs.openFiles fd).offset.toNat nonempty
        rw [first, writeLoop, if_neg nothing]
        simp only at needed ⊢
        generalize offsetEq : (fs.openFiles fd).offset.toNat = offset at *
        generalize resolveDataBlock fs i (offset / fsBlockSize) true = out at *
        obtain ⟨answer, mid⟩ := out
        obtain ⟨meets, files, ⟨passed, added, joined, resolved⟩ | ⟨hit, rfl, leaked⟩⟩ := resolving
        · have taken := congrArg List.length joined.free
          rw [List.length_append] at taken
          rcases resolved with ⟨b, rfl, here, sized⟩ | ⟨rfl, full, short⟩
          · simp only at sized here joined
            have fits : offset / fsBlockSize + 1 ≤
                blocks.length + (freeBlocks fs.fat).length := by omega
            rw [if_pos fits]
            refine .after meets passed joined (.block (complete.trans meets.size) joined.chain ?_)
            intro file complete'
            set chunk := min (fsBlockSize - offset % fsBlockSize) data.length with chunkEq
            refine .ofAdvance fd chunk joined.chain ?_
            have bounds : 0 < chunk ∧ chunk ≤ data.length ∧
                offset + chunk ≤ fsBlockSize * (offset / fsBlockSize + 1) := by
              simp only [chunkEq, fsBlockSize]
              omega
            have sizes : (blocks ++ added).length =
                max blocks.length (offset / fsBlockSize + 1) := by
              rw [List.length_append]
              omega
            have moved : (((onImage mid file).advance fd chunk).openFiles fd).offset.toNat =
                offset + chunk := by
              have slot : (onImage mid file).openFiles = fs.openFiles := files
              rw [FsHandle.toNat_offset_advance (FatChain.length_le joined.chain), slot, offsetEq]
              intro _
              rw [slot, offsetEq, sizes]
              exact bounds.2.2.trans (Nat.mul_le_mul_left _ (le_max_right ..))
            have answers : loopAnswer offset data.length blocks.length (freeBlocks fs.fat).length =
                loopAnswer (offset + chunk) (data.length - chunk)
                  (max blocks.length (offset / fsBlockSize + 1))
                  ((freeBlocks fs.fat).length - (offset / fsBlockSize + 1 - blocks.length)) := by
              have same : blocksFor offset data.length ≤
                  blocks.length + (freeBlocks fs.fat).length ↔
                  blocksFor (offset + chunk) (data.length - chunk) ≤
                    max blocks.length (offset / fsBlockSize + 1) +
                      ((freeBlocks fs.fat).length -
                        (offset / fsBlockSize + 1 - blocks.length)) := by omega
              simp only [loopAnswer, same]
            have left : (freeBlocks mid.fat).length =
                (freeBlocks fs.fat).length - (offset / fsBlockSize + 1 - blocks.length) := by
              change _ = added.length + (freeBlocks mid.fat).length at taken
              omega
            have further := ih ((onImage mid file).advance fd chunk) (data.drop chunk)
              (by rw [List.length_drop]; omega) complete' joined.chain
            rw [moved, List.length_drop, sizes] at further
            rw [answers, ← left]
            exact further
          · have stops : ¬ offset / fsBlockSize + 1 ≤
                blocks.length + (freeBlocks fs.fat).length := by
              rw [show freeBlocks (Except.error FsError.noSpace, mid).2.fat = [] from full,
                List.length_nil] at taken
              omega
            have answer : loopAnswer offset data.length blocks.length (freeBlocks fs.fat).length =
                .error .noSpace := if_neg (by omega)
            rw [if_neg stops, answer]
            exact .after meets passed joined (.done joined.chain)
        · exact .stop meets hit (.cleared leaked)

end Loop

/-! ## The call -/

section Call

variable {fs : FsHandle} {chains : FileIndex → List BlockIndex} {i : FileIndex}
  {blocks : List BlockIndex} {fd : ℤ} {slot : Descriptor} {buf : SourceBuffer}

/-- The flush of both metadata regions. -/
theorem syncMetadata_under (chain : FatChain fs.fat (fs.dirEntries i).firstBlock blocks) :
    WrittenUnder fs i blocks [.directory, .fat] (.ok ()) (syncMetadata fs) := by
  have directory := seekAndWrite_called .directory fs.imageFile (blockOffset fsDirStartBlock)
    (encodeDir fs.dirEntries)
  rw [syncMetadata]
  generalize seekAndWrite fs.imageFile (blockOffset fsDirStartBlock) (encodeDir fs.dirEntries) =
    write at *
  obtain ⟨answer, file⟩ := write
  obtain ⟨meets, ⟨passed, _, rfl⟩ | ⟨hit, rfl⟩⟩ := directory
  · apply WrittenUnder.afterCall meets passed chain
    have fat := seekAndWrite_called .fat file (blockOffset fsFatStartBlock) (encodeFat fs.fat)
    simp only
    generalize seekAndWrite file (blockOffset fsFatStartBlock) (encodeFat fs.fat) = write at *
    obtain ⟨answer, file'⟩ := write
    obtain ⟨meets', ⟨passed', _, rfl⟩ | ⟨hit, rfl⟩⟩ := fat
    · refine .afterCall meets' passed' chain ?_
      exact .done chain
    · exact .stopCall meets' hit IoCall.noConfusion chain
  · exact .stopCall meets hit IoCall.noConfusion chain

/-- A flush fails only by an I/O error. -/
private theorem syncMetadata_answer (fs : FsHandle) :
    (syncMetadata fs).1 = .ok () ∨ (syncMetadata fs).1 = .error .io := by
  rw [syncMetadata]
  split
  · exact .inr rfl
  · split
    · exact .inr rfl
    · exact .inl rfl

/-- The end of a write is its flush. -/
theorem finishWrite_under (done : ℕ)
    (chain : FatChain fs.fat (fs.dirEntries i).firstBlock blocks) (slot : Descriptor) :
    WrittenUnder fs i blocks [.directory, .fat] (.ok done) (finishWrite fs slot i done) := by
  have joined : Joined fs (grown fs slot i) i blocks [] :=
    (Joined.refl chain).congr (grown_fat ..) (grown_used fs slot i)
      (grown_firstBlock fs slot i)
  have flushed := syncMetadata_under joined.chain
  have same : finishWrite fs slot i done = ((syncMetadata (grown fs slot i)).1.map fun _ => done,
      (syncMetadata (grown fs slot i)).2) := by
    have answer := syncMetadata_answer (grown fs slot i)
    rw [finishWrite_grown]
    generalize syncMetadata (grown fs slot i) = out at answer ⊢
    obtain ⟨_, after⟩ := out
    rcases answer with rfl | rfl
    · rfl
    · rfl
  have still : Meets [] fs.imageFile (grown fs slot i).imageFile := by
    rw [grown_imageFile]
    exact .refl _
  rw [same]
  exact .after still (congrArg Prod.fst (strike_nil _)) joined
    ⟨flushed.meets, flushed.ends.map fun _ => done⟩

/-- What a write answers where no call is struck. -/
def writeAnswer (offset len held free : ℕ) : Except FsError ℕ :=
  if blocksFor offset len ≤ held + free then .ok len else .error .noSpace

/-- **A write that is not refused**, under any fates. -/
theorem fsWrite_under (mounted : fs.mounted = true) (named : Names fs fd slot)
    (buffer : ¬ buf.Missing) (writes : (fs.openFiles slot).flags &&& fsOWrite ≠ 0)
    (complete : fs.imageFile.Complete)
    (chain : FatChain fs.fat (fs.dirEntries (fs.openFiles slot).dirIndex).firstBlock blocks) :
    WrittenUnder fs (fs.openFiles slot).dirIndex blocks
      (writeCalls (fs.openFiles slot).offset.toNat buf.data.length blocks.length
        (freeBlocks fs.fat).length)
      (writeAnswer (fs.openFiles slot).offset.toNat buf.data.length blocks.length
        (freeBlocks fs.fat).length)
      (fsWrite fs fd buf) := by
  have loop := @writeLoop_under (fs.openFiles slot).dirIndex blocks slot fs
    buf.data.length buf.data le_rfl complete chain
  rw [fsWrite_loops mounted named buffer writes, writeCalls]
  generalize writeLoop slot (fs.openFiles slot).dirIndex buf.data.length fs buf.data = out at *
  generalize rangeCalls (fs.openFiles slot).offset.toNat buf.data.length blocks.length
    (freeBlocks fs.fat).length = calls at *
  obtain ⟨answer, mid⟩ := out
  obtain ⟨meets, ends⟩ := loop
  cases hit : (struck calls fs.imageFile.transfers).1 with
  | none =>
      rw [hit] at ends
      cases ends with | passed joined =>
      by_cases fits : blocksFor (fs.openFiles slot).offset.toNat buf.data.length ≤
          blocks.length + (freeBlocks fs.fat).length
      · simp only [writeAnswer, loopAnswer, if_pos fits]
        exact .after meets hit joined (finishWrite_under _ joined.chain slot)
      · simp only [writeAnswer, loopAnswer, if_neg fits]
        exact .after meets hit joined (.done joined.chain)
  | some call =>
      rw [hit] at ends
      obtain ⟨e, rfl, stops⟩ := ends.fails
      exact .stop meets hit (stops _)

end Call

/-! ## Writes during which a call fails -/

section Handled

variable {fs mid fs' : FsHandle} {chains : FileIndex → List BlockIndex} {i : FileIndex}
  {added : List BlockIndex}

/-- Blocks that join the chain of one entry leave the other chains. -/
theorem Joined.chain_of (joined : Joined fs fs' i (chains i) added) (separate : Separate fs chains)
    {j : FileIndex} (used : Used fs j) : FatChain fs'.fat (fs'.dirEntries j).firstBlock
      (Function.update chains i (chains i ++ added) j) := by
  by_cases same : j = i
  · rw [same, Function.update_self]
    exact joined.chain
  · rw [Function.update_of_ne same, joined.others j same]
    apply Chain.congr (separate.chain j used)
    intro b member
    apply joined.cells
    intro inside
    rcases List.mem_append.mp inside with own | fresh
    · exact separate.apart j i same member own
    · have free : b ∈ freeBlocks fs.fat := joined.free ▸ List.mem_append_left _ fresh
      exact FatChain.cell_ne_free (separate.chain j used) member (mem_freeBlocks.mp free)

/-- Blocks that join a chain are accounted for. -/
theorem Joined.accounted (joined : Joined fs fs' i (chains i) added)
    (separate : Separate fs chains) (covered : ∀ b, fs.fat b ≠ fatFree → ∃ j, b ∈ chains j)
    (used : Used fs i) : Accounted fs' := by
  have owned {j : FileIndex} (usedHere : Used fs j) {b : BlockIndex}
      (member : b ∈ Function.update chains i (chains i ++ added) j) : ∃ j, Used fs' j ∧ ∃ blocks,
        FatChain fs'.fat (fs'.dirEntries j).firstBlock blocks ∧ b ∈ blocks := by
    refine ⟨j, ?_, _, joined.chain_of separate usedHere, member⟩
    rw [Used, joined.used]
    exact usedHere
  intro b taken
  by_cases inside : b ∈ chains i ++ added
  · exact owned used (by rwa [Function.update_self])
  · rw [joined.cells b inside] at taken
    obtain ⟨j, member⟩ := covered b taken
    have usedJ : Used fs j := by
      by_contra unused
      rw [separate.unused j unused] at member
      exact List.not_mem_nil member
    have other : j ≠ i := fun same => inside (List.mem_append_left _ (same ▸ member))
    exact owned usedJ (by rwa [Function.update_of_ne other])

/-- A leaked block is not accounted for. -/
theorem Leaked.not_accounted (leaked : Leaked fs fs' i (chains i))
    (separate : Separate fs chains) : ¬ Accounted fs' := by
  obtain ⟨mid, added, b, file, joined, free, rfl⟩ := leaked
  intro accounted
  have mark : (marked mid b file).fat b = fatEnd := Function.update_self ..
  obtain ⟨j, used, blocks, chain, member⟩ := accounted b (by rw [mark]; exact fatEnd_ne_fatFree)
  have usedBefore : Used fs j := by
    rw [Used, ← joined.used]
    exact used
  have chain' := joined.chain_of separate usedBefore
  have off : b ∉ Function.update chains i (chains i ++ added) j :=
    fun inside => FatChain.cell_ne_free chain' inside free
  have kept : FatChain (marked mid b file).fat ((marked mid b file).dirEntries j).firstBlock
      (Function.update chains i (chains i ++ added) j) := by
    apply Chain.congr chain'
    intro c inside
    exact Function.update_of_ne (fun same : c = b => off (same ▸ inside)) ..
  exact off (Chain.unique chain kept ▸ member)

end Handled

/-- A write during which an image call fails answers an I/O error, and every cell that is
not free still lies on the chain of a used entry. -/
def FaultHandled (fs : FsHandle) (fd : ℤ) (buf : SourceBuffer) (fates : List Transfer) : Prop :=
  let out := fsWrite (underFates fs fates) fd buf
  Failed (fun fate => fate ≠ Transfer.done) fates out.2.imageFile.transfers →
    out.1 = .error .io ∧ Accounted out.2

/-- The call of a write that is not refused which the fates strike is not the clearing of a
fresh block. -/
def ClearingSpared (fs : FsHandle) (fd : ℤ) (buf : SourceBuffer) (fates : List Transfer) : Prop :=
  ¬ buf.Missing → ∀ slot, Names fs fd slot → (fs.openFiles slot).flags &&& fsOWrite ≠ 0 →
    ∀ blocks, FatChain fs.fat (fs.dirEntries (fs.openFiles slot).dirIndex).firstBlock blocks →
      (struck (writeCalls (fs.openFiles slot).offset.toNat buf.data.length blocks.length
        (freeBlocks fs.fat).length) fates).1 ≠ some .clear

section FaultHandled

variable {fs : FsHandle} {chains : FileIndex → List BlockIndex} {fd : ℤ} {slot : Descriptor}
  {buf : SourceBuffer} {fates : List Transfer}

/-- The calls of a write on a sound handle under any fates. -/
theorem Sound.fsWrite_under (sound : Sound fs chains) (fates : List Transfer)
    (named : Names fs fd slot) (buffer : ¬ buf.Missing)
    (writes : (fs.openFiles slot).flags &&& fsOWrite ≠ 0) :
    let i := (fs.openFiles slot).dirIndex
    WrittenUnder (underFates fs fates) i (chains i)
      (writeCalls (fs.openFiles slot).offset.toNat buf.data.length (chains i).length
        (freeBlocks fs.fat).length)
      (writeAnswer (fs.openFiles slot).offset.toNat buf.data.length (chains i).length
        (freeBlocks fs.fat).length)
      (fsWrite (underFates fs fates) fd buf) :=
  Otfs.fsWrite_under sound.mounted named buffer writes sound.complete
    (sound.chain _ (sound.opened slot named.2))

/-- **A failed clearing** is reported as a lack of space, and leaks its block. -/
theorem Sound.clearing_leaks (sound : Sound fs chains) (named : Names fs fd slot)
    (buffer : ¬ buf.Missing) (writes : (fs.openFiles slot).flags &&& fsOWrite ≠ 0)
    (hit : (struck (writeCalls (fs.openFiles slot).offset.toNat buf.data.length
      (chains (fs.openFiles slot).dirIndex).length (freeBlocks fs.fat).length) fates).1 =
        some .clear) :
    Failed (fun fate => fate ≠ Transfer.done) fates
        (fsWrite (underFates fs fates) fd buf).2.imageFile.transfers ∧
      (fsWrite (underFates fs fates) fd buf).1 = .error .noSpace ∧
      ¬ Accounted (fsWrite (underFates fs fates) fd buf).2 := by
  obtain ⟨meets, ends⟩ := sound.fsWrite_under fates named buffer writes
  have separate := (sound.toLinked.onImage { fs.imageFile with transfers := fates }).toSeparate
  have failed := meets.failed_iff
  rw [underFates_transfers, hit] at ends failed
  exact ⟨failed.mpr (Option.some_ne_none _), ends.leaks.1, ends.leaks.2.not_accounted separate⟩

/-- **A write during which a call fails** is handled exactly where the call is not the
clearing of a fresh block. -/
theorem Sound.faultHandled_iff (sound : Sound fs chains) (fd : ℤ) (buf : SourceBuffer)
    (fates : List Transfer) : FaultHandled fs fd buf fates ↔ ClearingSpared fs fd buf fates := by
  constructor
  · intro handled buffer slot named writes blocks chain hit
    have same := Chain.unique chain (sound.chain _ (sound.opened slot named.2))
    rw [same] at hit
    obtain ⟨failed, answer, _⟩ := sound.clearing_leaks named buffer writes hit
    rw [(handled failed).1] at answer
    cases answer
  · intro spared failed
    cases refuses : refusal (known (underFates fs fates)) (flagsOf (underFates fs fates))
        (.write fd buf) with
    | some e =>
        -- a write that is refused makes no call
        have mounted : (underFates fs fates).mounted = true := sound.mounted
        have still := congrArg Prod.snd (fsStep_refused mounted refuses)
        simp only [fsStep] at still
        have idle : Meets [] (underFates fs fates).imageFile
            (fsWrite (underFates fs fates) fd buf).2.imageFile := by
          rw [still]
          exact .refl _
        exact absurd (congrArg Prod.fst (strike_nil _)) (idle.failed_iff.mp failed)
    | none =>
        obtain ⟨buffer, slot, named, writes⟩ := transferRefusal_eq_none.mp refuses
        have used := sound.opened slot named.2
        have spared' := spared buffer slot named writes _ (sound.chain _ used)
        obtain ⟨meets, ends⟩ := sound.fsWrite_under fates named buffer writes
        have hits := meets.failed_iff.mp failed
        rw [underFates_transfers] at ends hits
        have separate :=
          (sound.toLinked.onImage { fs.imageFile with transfers := fates }).toSeparate
        obtain ⟨call, hit⟩ := Option.ne_none_iff_exists'.mp hits
        rw [hit] at ends spared'
        obtain ⟨answer, added, joined⟩ :=
          ends.spares fun cleared => spared' (congrArg some cleared)
        exact ⟨answer, joined.accounted separate sound.covered used⟩

/-- **Image faults during a write.** After any run from a freshly formatted image without
faults, a write during which an image call fails answers an I/O error and leaks no block,
whatever the fates of its calls, exactly where the call that fails first is not the
clearing of a fresh block. -/
theorem struck_write_handled {file : ImageFile} (formatted : fsFormatImage [] = .ok file)
    (mounted : fsMount file = .ok fs) (ops : List FsOp) (fd : ℤ) (buf : SourceBuffer)
    (fates : List Transfer) : FaultHandled (otfs.state fs ops) fd buf fates ↔
      ClearingSpared (otfs.state fs ops) fd buf fates := by
  rw [eq_freshHandle formatted mounted]
  obtain ⟨chains, sound⟩ := sound_run sound_freshHandle ops
  exact sound.faultHandled_iff fd buf fates

theorem struck_write_handled_gap :
    FaultHandled (otfs.state freshHandle gapRun) 0 (.bytes [1]) [.done, .cut 0] ↔
      ClearingSpared (otfs.state freshHandle gapRun) 0 (.bytes [1]) [.done, .cut 0] :=
  struck_write_handled fsFormatImage_eq fsMount_formatted gapRun 0 (.bytes [1]) [.done, .cut 0]

/-- A file is created. -/
def creatingRun : List FsOp := [.open (some nameA) (fsOWrite ||| fsOCreate)]

/-- The first call of its first write clears a block. -/
theorem Blank.clearing_leaks (blank : Blank fs) :
    (fsWrite (underFates (otfs.state fs creatingRun) [.cut 0]) 0 (.bytes [1])).1 =
        .error .noSpace ∧
      ¬ Accounted (fsWrite (underFates (otfs.state fs creatingRun) [.cut 0]) 0 (.bytes [1])).2 ∧
      ¬ FaultHandled (otfs.state fs creatingRun) 0 (.bytes [1]) [.cut 0] := by
  let flags := fsOWrite ||| fsOCreate
  have sound := @Blank.sound_firstOpened _ _ flags blank valid_nameA
  have named : Names (firstOpened fs nameA flags) 0 0 := named_firstOpened
  have opens : fsOpen fs (some nameA) (fsOWrite ||| fsOCreate) =
      (.ok 0, firstOpened fs nameA flags) := blank.fsOpen_eq valid_nameA (by decide) (by decide)
  have reached : otfs.state fs creatingRun = firstOpened fs nameA flags := by
    simp only [creatingRun, Machine.state_cons, Machine.state_nil, otfs, fsStep, opens]
  have hit : (struck (writeCalls ((firstOpened fs nameA flags).openFiles 0).offset.toNat 1 0
      (freeBlocks (firstOpened fs nameA flags).fat).length) [.cut 0]).1 = some .clear := by
    rw [firstOpened_slot, blank.freeBlocks_firstOpened, List.length_finRange]
    decide
  have writes : ((firstOpened fs nameA flags).openFiles 0).flags &&& fsOWrite ≠ 0 := by
    rw [firstOpened_slot]
    decide
  obtain ⟨failed, answer, leaks⟩ := @Sound.clearing_leaks _ _ 0 0 (.bytes [1]) _ sound named id
    writes hit
  rw [reached]
  exact ⟨answer, leaks, fun handled => leaks (handled failed).2⟩

theorem creatingRun_leaks : fsFormatImage [] = .ok formattedImage ∧
    fsMount formattedImage = .ok freshHandle ∧
    (fsWrite (underFates (otfs.state freshHandle creatingRun) [.cut 0]) 0 (.bytes [1])).1 =
        .error .noSpace ∧
    ¬ Accounted
        (fsWrite (underFates (otfs.state freshHandle creatingRun) [.cut 0]) 0 (.bytes [1])).2 ∧
    ¬ FaultHandled (otfs.state freshHandle creatingRun) 0 (.bytes [1]) [.cut 0] :=
  ⟨fsFormatImage_eq, fsMount_formatted, blank_freshHandle.clearing_leaks⟩

end FaultHandled

end TigerOS.Otfs
