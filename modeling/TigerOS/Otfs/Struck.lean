import TigerOS.Foundation.Strike
import TigerOS.Otfs.Faults

/-! # Image calls struck by a fault

Each part of a write makes a known list of image calls, and stops at the first that the
fates of the transfers strike. This file states that for single calls and for resolving a
block (`TigerOS.Otfs.resolveDataBlock_under`): the blocks the chain lacks are cleared one by
one, and where a clearing is struck its block stays marked and linked nowhere.
-/

namespace TigerOS.Otfs

open Foundation

/-- The image calls of a write. -/
inductive IoCall where
  | clear
  | load
  | store
  | directory
  | fat
  deriving DecidableEq, Repr

/-- The call that a fault strikes, if any, and the fates left. -/
def struck (calls : List IoCall) (fates : List Transfer) : Option IoCall × List Transfer :=
  strike (fun fate => fate ≠ Transfer.done) calls fates

/-- The handle with the fates of its coming transfers. -/
def underFates (fs : FsHandle) (fates : List Transfer) : FsHandle :=
  onImage fs { fs.imageFile with transfers := fates }

@[simp] theorem underFates_transfers (fs : FsHandle) (fates : List Transfer) :
    (underFates fs fates).imageFile.transfers = fates := rfl

/-- The calls between two images are `calls`, up to the one struck. -/
structure Meets (calls : List IoCall) (file file' : ImageFile) : Prop where
  transfers : file'.transfers = (struck calls file.transfers).2
  size : file.size ≤ file'.size

section Meets

variable {file mid file' : ImageFile} {calls more : List IoCall} {call : IoCall}

theorem Meets.refl (file : ImageFile) : Meets [] file file :=
  ⟨by rw [struck, strike_nil], le_rfl⟩

/-- Calls that pass are followed by others. -/
theorem Meets.trans (first : Meets calls file mid)
    (passed : (struck calls file.transfers).1 = none) (second : Meets more mid file') :
    Meets (calls ++ more) file file' where
  transfers := by
    rw [second.transfers, first.transfers]
    simp only [struck] at passed ⊢
    rw [strike_append_of_none passed]
  size := first.size.trans second.size

/-- The calls after the one struck are not made. -/
theorem Meets.stop (first : Meets calls file file')
    (hit : (struck calls file.transfers).1 = some call) (more : List IoCall) :
    Meets (calls ++ more) file file' where
  transfers := by
    rw [first.transfers]
    simp only [struck] at hit ⊢
    rw [strike_append_of_some hit]
  size := first.size

/-- Calls that pass leave the next to be struck. -/
theorem Meets.struck_append (first : Meets calls file mid)
    (passed : (struck calls file.transfers).1 = none) (more : List IoCall) :
    (struck (calls ++ more) file.transfers).1 = (struck more mid.transfers).1 := by
  rw [first.transfers]
  simp only [struck] at passed ⊢
  rw [strike_append_of_none passed]

/-- A failing fate is used up exactly where a call is struck. -/
theorem Meets.failed_iff (meets : Meets calls file file') :
    Failed (fun fate => fate ≠ Transfer.done) file.transfers file'.transfers ↔
      (struck calls file.transfers).1 ≠ none := by
  rw [meets.transfers]
  exact failed_strike _ _ _

theorem struck_stop {fates : List Transfer} (hit : (struck calls fates).1 = some call)
    (more : List IoCall) : (struck (calls ++ more) fates).1 = some call := by
  rw [← hit]
  simp only [struck] at hit ⊢
  rw [strike_append_of_some hit]

end Meets

/-! ## Single calls -/

/-- One image call answers, or a fault strikes it and it answers an I/O error. -/
structure Called {α : Type} (call : IoCall) (file : ImageFile)
    (out : Except FsError α × ImageFile) : Prop where
  meets : Meets [call] file out.2
  answer : ((struck [call] file.transfers).1 = none ∧ ∃ value, out.1 = .ok value) ∨
    ((struck [call] file.transfers).1 = some call ∧ out.1 = .error .io)

section Called

/-- The fate of the next transfer strikes the next call. -/
private theorem nextTransfer_struck (call : IoCall) (file : ImageFile) :
    file.nextTransfer.2.transfers = (struck [call] file.transfers).2 ∧
      ((file.nextTransfer.1 = .done ∧ (struck [call] file.transfers).1 = none) ∨
        ((∃ count, file.nextTransfer.1 = .cut count) ∧
          (struck [call] file.transfers).1 = some call)) := by
  rw [ImageFile.nextTransfer]
  cases fates : file.transfers with
  | nil => exact ⟨fates, .inl ⟨rfl, rfl⟩⟩
  | cons fate rest =>
      cases fate with
      | done => exact ⟨rfl, .inl ⟨rfl, rfl⟩⟩
      | cut count => exact ⟨rfl, .inr ⟨⟨count, rfl⟩, rfl⟩⟩

/-- A read of a range the file holds. -/
theorem seekAndRead_called (call : IoCall) {file : ImageFile} {offset len : ℕ}
    (held : offset + len ≤ file.size) : Called call file (seekAndRead file offset len) := by
  obtain ⟨left, fate⟩ := nextTransfer_struck call file
  have sized := (seekAndRead_size file offset len).ge
  have held' : offset + len ≤ file.nextTransfer.2.size := by rwa [nextTransfer_size]
  rw [seekAndRead] at sized ⊢
  generalize file.nextTransfer = next at *
  obtain ⟨kind, rest⟩ := next
  rcases fate with ⟨rfl, passed⟩ | ⟨⟨count, rfl⟩, hit⟩
  · simp only [if_pos held'] at sized ⊢
    exact ⟨⟨left, sized⟩, .inl ⟨passed, _, rfl⟩⟩
  · exact ⟨⟨left, sized⟩, .inr ⟨hit, rfl⟩⟩

theorem seekAndWrite_called (call : IoCall) (file : ImageFile) (offset : ℕ) (data : List UInt8) :
    Called call file (seekAndWrite file offset data) := by
  obtain ⟨left, fate⟩ := nextTransfer_struck call file
  have sized := (seekAndWrite_changed file offset data).size
  rw [seekAndWrite] at sized ⊢
  generalize file.nextTransfer = next at *
  obtain ⟨kind, rest⟩ := next
  rcases fate with ⟨rfl, passed⟩ | ⟨⟨count, rfl⟩, hit⟩
  · exact ⟨⟨left, sized⟩, .inl ⟨passed, _, rfl⟩⟩
  · exact ⟨⟨left, sized⟩, .inr ⟨hit, rfl⟩⟩

end Called

/-! ## Blocks that join a chain -/

/-- The free blocks `added` joined the chain `blocks` of entry `i`. This much of an
extension is in memory alone. -/
structure Joined (fs fs' : FsHandle) (i : FileIndex) (blocks added : List BlockIndex) : Prop where
  used : ∀ j, (fs'.dirEntries j).used = (fs.dirEntries j).used
  others : ∀ j, j ≠ i → (fs'.dirEntries j).firstBlock = (fs.dirEntries j).firstBlock
  chain : FatChain fs'.fat (fs'.dirEntries i).firstBlock (blocks ++ added)
  free : freeBlocks fs.fat = added ++ freeBlocks fs'.fat
  cells : ∀ b, b ∉ blocks ++ added → fs'.fat b = fs.fat b

/-- A block was marked but linked nowhere, after others joined the chain of entry `i`. -/
def Leaked (fs fs' : FsHandle) (i : FileIndex) (blocks : List BlockIndex) : Prop :=
  ∃ mid added b file, Joined fs mid i blocks added ∧ mid.fat b = fatFree ∧
    fs' = marked mid b file

/-- Every cell that is not free lies on the chain of a used entry. -/
def Accounted (fs : FsHandle) : Prop :=
  ∀ b, fs.fat b ≠ fatFree → ∃ i, Used fs i ∧ ∃ blocks,
    FatChain fs.fat (fs.dirEntries i).firstBlock blocks ∧ b ∈ blocks

section Joined

variable {fs mid fs' : FsHandle} {chains : FileIndex → List BlockIndex} {i : FileIndex}
  {blocks added more : List BlockIndex}

theorem Joined.refl (chain : FatChain fs.fat (fs.dirEntries i).firstBlock blocks) :
    Joined fs fs i blocks [] where
  used := fun _ => rfl
  others := fun _ _ => rfl
  chain := by rwa [List.append_nil]
  free := rfl
  cells := fun _ _ => rfl

theorem Joined.trans (first : Joined fs mid i blocks added)
    (second : Joined mid fs' i (blocks ++ added) more) :
    Joined fs fs' i blocks (added ++ more) where
  used := fun j => (second.used j).trans (first.used j)
  others := fun j other => (second.others j other).trans (first.others j other)
  chain := by
    rw [← List.append_assoc]
    exact second.chain
  free := by rw [first.free, second.free, List.append_assoc]
  cells := by
    intro b outside
    rw [← List.append_assoc] at outside
    rw [second.cells b outside,
      first.cells b fun inside => outside (List.mem_append_left _ inside)]

/-- What keeps the chains of a handle keeps what joined them. -/
theorem Joined.congr (joined : Joined fs mid i blocks added) (fat : fs'.fat = mid.fat)
    (used : ∀ j, (fs'.dirEntries j).used = (mid.dirEntries j).used)
    (firstBlock : ∀ j, (fs'.dirEntries j).firstBlock = (mid.dirEntries j).firstBlock) :
    Joined fs fs' i blocks added where
  used := fun j => (used j).trans (joined.used j)
  others := fun j other => (firstBlock j).trans (joined.others j other)
  chain := by
    rw [fat, firstBlock]
    exact joined.chain
  free := by rw [fat, joined.free]
  cells := by
    rw [fat]
    exact joined.cells

/-- Transfers join nothing. -/
theorem joined_onImage (chain : FatChain fs.fat (fs.dirEntries i).firstBlock blocks)
    (file : ImageFile) : Joined fs (onImage fs file) i blocks [] :=
  (Joined.refl chain).congr rfl (fun _ => rfl) fun _ => rfl

theorem Joined.leaked (joined : Joined fs mid i blocks added)
    (leaked : Leaked mid fs' i (blocks ++ added)) : Leaked fs fs' i blocks := by
  obtain ⟨last, more, b, file, further, free, same⟩ := leaked
  exact ⟨last, added ++ more, b, file, joined.trans further, free, same⟩

/-- An extension joins its blocks, whatever the fates of the image. -/
theorem Extended.joined {offset : ℕ} {data : List UInt8}
    (extended : Extended fs fs' i blocks added offset data) : Joined fs fs' i blocks added where
  used := extended.used
  others := fun j other => congrArg DirEntry.firstBlock (extended.others j other)
  chain := extended.chain
  free := extended.free
  cells := extended.cells

end Joined

/-! ## Resolving a block -/

section Resolve

variable {fs : FsHandle} {i : FileIndex} {blocks before : List BlockIndex} {b cur : BlockIndex}
  {left : List BlockIndex}

/-- A free block is marked, and taken unless clearing it is struck. -/
theorem allocateDataBlock_called (free : freeBlocks fs.fat = b :: left) : ∃ file,
    Meets [.clear] fs.imageFile file ∧
      (((struck [.clear] fs.imageFile.transfers).1 = none ∧
          allocateDataBlock fs = (.ok b, marked fs b file)) ∨
        ((struck [.clear] fs.imageFile.transfers).1 = some .clear ∧
          allocateDataBlock fs = (.error .io, marked fs b file))) := by
  have call := seekAndWrite_called .clear fs.imageFile (blockOffset (fsDataStartBlock + b))
    (List.replicate fsBlockSize 0)
  refine ⟨_, call.meets, ?_⟩
  have found : (List.finRange fsDataBlockCount).find? (fun index => fs.fat index = fatFree) =
      some b := by
    rw [find?_free, free, List.head?_cons]
  rw [allocateDataBlock, found]
  simp only [writeDataBlock, FsHandle.setCell]
  rcases call.answer with ⟨passed, _, answer⟩ | ⟨hit, answer⟩
  · left
    refine ⟨passed, ?_⟩
    simp only [answer]
    rfl
  · right
    refine ⟨hit, ?_⟩
    simp only [answer]
    rfl

/-- Without a free block nothing is taken. -/
theorem allocateDataBlock_full (full : freeBlocks fs.fat = []) :
    allocateDataBlock fs = (.error .noSpace, fs) := by
  have none : (List.finRange fsDataBlockCount).find? (fun index => fs.fat index = fatFree) =
      none := by
    rw [find?_free, full, List.head?_nil]
  rw [allocateDataBlock, none]

theorem joined_attach (isEnd : (fs.dirEntries i).firstBlock = fatEnd)
    (free : freeBlocks fs.fat = b :: left) (file : ImageFile) :
    Joined fs ((marked fs b file).setFirstBlock i (blockLink b)) i [] [b] := by
  have joined := (@extended_attach (underFates fs []) i b left rfl isEnd free).joined
  exact ⟨joined.used, joined.others, joined.chain, joined.free, joined.cells⟩

theorem joined_append (chain : FatChain fs.fat (fs.dirEntries i).firstBlock (before ++ [cur]))
    (free : freeBlocks fs.fat = b :: left) (file : ImageFile) :
    Joined fs ((marked fs b file).setCell cur (blockLink b)) i (before ++ [cur]) [b] := by
  have joined := (@extended_append (underFates fs []) i before cur b left rfl chain free).joined
  exact ⟨joined.used, joined.others, joined.chain, joined.free, joined.cells⟩

/-- How a resolution ends that clears `needed` blocks as far as they are free. -/
structure ResolvedUnder (fs : FsHandle) (i : FileIndex) (blocks : List BlockIndex)
    (needed index : ℕ) (out : Except FsError BlockIndex × FsHandle) : Prop where
  meets : Meets (List.replicate (min needed (freeBlocks fs.fat).length) .clear)
    fs.imageFile out.2.imageFile
  files : out.2.openFiles = fs.openFiles
  ends : ((struck (List.replicate (min needed (freeBlocks fs.fat).length) .clear)
        fs.imageFile.transfers).1 = none ∧
      ∃ added, Joined fs out.2 i blocks added ∧ Resolved out blocks added index) ∨
    ((struck (List.replicate (min needed (freeBlocks fs.fat).length) .clear)
        fs.imageFile.transfers).1 = some .clear ∧
      out.1 = .error .noSpace ∧ Leaked fs out.2 i blocks)

namespace ResolvedUnder

variable {needed index : ℕ} {file : ImageFile} {linked : FsHandle}
  {out : Except FsError BlockIndex × FsHandle}

/-- No block is needed. -/
theorem here (chain : FatChain fs.fat (fs.dirEntries i).firstBlock blocks)
    (found : blocks[index]? = some cur) : ResolvedUnder fs i blocks 0 index (.ok cur, fs) where
  meets := by
    rw [Nat.zero_min]
    exact .refl _
  files := rfl
  ends := by
    rw [Nat.zero_min]
    refine .inl ⟨congrArg Prod.fst (strike_nil _), [], .refl chain, .inl ⟨cur, rfl, ?_, ?_⟩⟩
    · rwa [List.append_nil]
    · have inside := (List.getElem?_eq_some_iff.mp found).1
      rw [List.length_nil]
      omega

/-- A block is needed, and none is free. -/
theorem full (chain : FatChain fs.fat (fs.dirEntries i).firstBlock blocks)
    (full : freeBlocks fs.fat = []) (short : blocks.length ≤ index) :
    ResolvedUnder fs i blocks needed index (.error .noSpace, fs) where
  meets := by
    rw [full, List.length_nil, Nat.min_zero]
    exact .refl _
  files := rfl
  ends := by
    rw [full, List.length_nil, Nat.min_zero]
    refine .inl ⟨congrArg Prod.fst (strike_nil _), [], .refl chain, .inr ⟨rfl, full, ?_⟩⟩
    rwa [List.length_nil, Nat.add_zero]

/-- The clearing of the first block that is needed is struck. -/
theorem hit (chain : FatChain fs.fat (fs.dirEntries i).firstBlock blocks)
    (free : freeBlocks fs.fat = b :: left) (meets : Meets [.clear] fs.imageFile file)
    (hit : (struck [.clear] fs.imageFile.transfers).1 = some .clear) :
    ResolvedUnder fs i blocks (needed + 1) index (.error .noSpace, marked fs b file) where
  meets := by
    rw [free, List.length_cons, Nat.succ_min_succ, List.replicate_succ]
    exact meets.stop hit _
  files := rfl
  ends := by
    rw [free, List.length_cons, Nat.succ_min_succ, List.replicate_succ]
    refine .inr ⟨struck_stop hit _, rfl, fs, [], b, file, .refl chain, ?_, rfl⟩
    exact mem_freeBlocks.mp (free ▸ List.mem_cons_self)

/-- The first block that is needed is cleared and linked. -/
theorem after (short : blocks.length ≤ index) (joined : Joined fs linked i blocks [b])
    (files : linked.openFiles = fs.openFiles) (meets : Meets [.clear] fs.imageFile linked.imageFile)
    (passed : (struck [.clear] fs.imageFile.transfers).1 = none)
    (rest : ResolvedUnder linked i (blocks ++ [b]) needed index out) :
    ResolvedUnder fs i blocks (needed + 1) index out := by
  have fewer : (freeBlocks fs.fat).length = (freeBlocks linked.fat).length + 1 := by
    rw [joined.free, List.length_append, List.length_singleton, Nat.add_comm]
  have calls : List.replicate (min (needed + 1) (freeBlocks fs.fat).length) IoCall.clear =
      [.clear] ++ List.replicate (min needed (freeBlocks linked.fat).length) .clear := by
    rw [fewer, Nat.succ_min_succ, List.replicate_succ]
    rfl
  have next := meets.struck_append passed
    (List.replicate (min needed (freeBlocks linked.fat).length) .clear)
  refine ⟨?_, rest.files.trans files, ?_⟩
  · rw [calls]
    exact meets.trans passed rest.meets
  · rw [calls, next]
    rcases rest.ends with ⟨unhit, added, further, resolved⟩ | ⟨hit, answer, leaked⟩
    · refine .inl ⟨unhit, b :: added, joined.trans further, ?_⟩
      rcases resolved with ⟨found, answer, here, sized⟩ | ⟨answer, full, short⟩
      · refine .inl ⟨found, answer, ?_, ?_⟩
        · rwa [List.append_assoc] at here
        · rw [List.length_append, List.length_singleton] at sized
          rw [List.length_cons]
          omega
      · refine .inr ⟨answer, full, ?_⟩
        rw [List.length_append, List.length_singleton] at short
        rw [List.length_cons]
        omega
    · exact .inr ⟨hit, answer, joined.leaked leaked⟩

end ResolvedUnder

/-- The allocating walk clears the blocks it lacks, one by one. -/
theorem followChain_under {fs : FsHandle} (before : List BlockIndex) {rest : List BlockIndex}
    {cur : BlockIndex} (steps : ℕ)
    (chain : FatChain fs.fat (fs.dirEntries i).firstBlock (before ++ cur :: rest)) :
    ResolvedUnder fs i (before ++ cur :: rest) (steps - rest.length) (before.length + steps)
      (followChain true steps fs cur) := by
  induction steps generalizing fs cur before rest with
  | zero =>
      rw [Nat.zero_sub]
      refine .here chain ?_
      simp
  | succ steps ih =>
      have tail : FatChain fs.fat (fs.fat cur) rest := Chain.after chain
      cases rest with
      | cons next rest =>
          have regroup := List.append_cons before cur (next :: rest)
          have place : before.length + (steps + 1) = (before ++ [cur]).length + steps := by
            rw [List.length_append, List.length_singleton]
            omega
          rw [regroup] at chain ⊢
          rw [followChain_next true steps tail, place, List.length_cons, Nat.add_sub_add_right]
          exact ih (before ++ [cur]) chain
      | nil =>
          have isEnd := fatChain_nil.mp tail
          have short : (before ++ [cur]).length ≤ before.length + (steps + 1) := by
            rw [List.length_append, List.length_singleton]
            omega
          rw [followChain, if_pos isEnd, if_pos rfl, List.length_nil, Nat.sub_zero]
          cases free : freeBlocks fs.fat with
          | nil =>
              rw [allocateDataBlock_full free]
              exact .full chain free short
          | cons b left =>
              obtain ⟨file, meets, ⟨passed, answer⟩ | ⟨hit, answer⟩⟩ :=
                allocateDataBlock_called free
              · have joined := joined_append chain free file
                have further := ih (before ++ [cur]) joined.chain
                rw [List.length_append, List.length_singleton, Nat.add_assoc, Nat.add_comm 1,
                  List.length_nil, Nat.sub_zero] at further
                rw [answer]
                exact .after short joined rfl meets passed further
              · rw [answer]
                exact .hit chain free meets hit

/-- **Resolving a block** for a write clears the blocks the chain lacks, one by one. -/
theorem resolveDataBlock_under (index : ℕ)
    (chain : FatChain fs.fat (fs.dirEntries i).firstBlock blocks) :
    ResolvedUnder fs i blocks (index + 1 - blocks.length) index
      (resolveDataBlock fs i index true) := by
  cases blocks with
  | cons first rest =>
      have linked := (fatChain_cons.mp chain).1
      have walk := followChain_under [] index chain
      rw [List.length_nil, Nat.zero_add] at walk
      rw [resolveDataBlock, attachFirst, if_neg (by simp [linked]), List.length_cons,
        Nat.add_sub_add_right]
      simp only [linked, blockAt?_blockLink]
      exact walk
  | nil =>
      have isEnd := fatChain_nil.mp chain
      rw [resolveDataBlock, attachFirst, if_pos isEnd, if_pos rfl, List.length_nil, Nat.sub_zero]
      cases free : freeBlocks fs.fat with
      | nil =>
          rw [allocateDataBlock_full free]
          exact .full chain free (Nat.zero_le index)
      | cons b left =>
          obtain ⟨file, meets, ⟨passed, answer⟩ | ⟨hit, answer⟩⟩ := allocateDataBlock_called free
          · have joined := joined_attach isEnd free file
            have head :
                (((marked fs b file).setFirstBlock i (blockLink b)).dirEntries i).firstBlock =
                  blockLink b := (fatChain_cons.mp joined.chain).1
            have further := followChain_under [] index joined.chain
            rw [List.length_nil, Nat.zero_add, Nat.sub_zero] at further
            simp only [answer, head, blockAt?_blockLink]
            exact .after (Nat.zero_le index) joined rfl meets passed further
          · rw [answer]
            exact .hit chain free meets hit

end Resolve

end TigerOS.Otfs
