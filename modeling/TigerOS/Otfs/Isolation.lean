import TigerOS.Otfs.Faults

/-! # Files do not disturb each other

A mount checks the chain of each entry by itself, so an accepted image may hold
two entries on one block, and a write to one of them shows in the other
(`TigerOS.Otfs.crossedRun_leaks`). Where no two chains share a block, a write
through one file leaves the size and the bytes of every other
(`TigerOS.Otfs.files_isolated`).
-/

namespace TigerOS.Otfs

open Foundation

/-- No block lies on the chains of two used entries. -/
def Uncrossed (fs : FsHandle) : Prop :=
  ∀ i j, Used fs i → Used fs j → i ≠ j → ∀ blocks blocks',
    FatChain fs.fat (fs.dirEntries i).firstBlock blocks →
    FatChain fs.fat (fs.dirEntries j).firstBlock blocks' → blocks.Disjoint blocks'

/-- A write through one file is not seen through the others: sizes stay, and what
could be read at any place can be read again, unless a transfer of the second
read fails. -/
def Unseen (before after : FsHandle) (i : FileIndex) : Prop :=
  (∀ j, j ≠ i → (after.dirEntries j).sizeBytes = (before.dirEntries j).sizeBytes) ∧
  ∀ fd slot, Names before fd slot → (before.openFiles slot).dirIndex ≠ i →
    ∀ offset len data, (fsRead (fsSeek before fd offset).2 fd true len).1 = .ok data →
      (fsRead (fsSeek after fd offset).2 fd true len).1 = .ok data ∨
      ((fsRead (fsSeek after fd offset).2 fd true len).1 = .error .io ∧
        ¬ after.imageFile.Faultless)

section Isolation

variable {fs after : FsHandle} {chains : FileIndex → List BlockIndex} {i : FileIndex}
  {slot : Descriptor}

/-- What a write leaves of the other files. -/
private theorem unseen_of_linked (linked : Linked fs chains)
    (mounted : after.mounted = true) (size : fs.imageFile.size ≤ after.imageFile.size)
    (others : ∀ j, j ≠ i → after.dirEntries j = fs.dirEntries j)
    (slots : ∀ fd, (fs.openFiles fd).dirIndex ≠ i → after.openFiles fd = fs.openFiles fd)
    (cells : ∀ b, b ∉ chains i → fs.fat b ≠ fatFree → after.fat b = fs.fat b)
    (bytes : ∀ b, b ∉ chains i → fs.fat b ≠ fatFree → ∀ j < fsBlockSize,
      blockByte after.imageFile b j = blockByte fs.imageFile b j) : Unseen fs after i := by
  refine ⟨fun j other => congrArg DirEntry.sizeBytes (others j other), ?_⟩
  intro fd slot named other offset len data answered
  have kept := slots slot other
  have named' : Names after fd slot := ⟨named.1, by rw [kept]; exact named.2⟩
  rw [fsSeek_eq linked.mounted named] at answered
  rw [fsSeek_eq mounted named']
  have chain := linked.chain _ (linked.opened slot named.2)
  refine @fsRead_agrees (sought fs slot offset) (sought after slot offset) _ _ _ _
    (chains (fs.openFiles slot).dirIndex) linked.mounted mounted ?_ (named.sought offset) ?_ ?_ _
    answered
  · rw [sought_openFiles_same, sought_openFiles_same, kept]
  · rw [sought_openFiles_same]
    exact congrArg DirEntry.sizeBytes (others _ other)
  · rw [sought_openFiles_same]
    exact {
      offset := by rw [sought_openFiles_same, sought_openFiles_same]
      chain := chain
      chain' := by
        rw [sought_fat, sought_dirEntries, others _ other]
        refine Chain.congr chain fun b member => ?_
        obtain ⟨off, taken⟩ := linked.off_chain other member
        exact cells b off taken
      size := size
      bytes := by
        intro b member
        obtain ⟨off, taken⟩ := linked.off_chain other member
        exact bytes b off taken }

/-- A write on separate chains is not seen through other files, whatever becomes
of its transfers. -/
theorem fsWrite_unseen (linked : Linked fs chains) {fd : ℤ} (named : Names fs fd slot)
    (buf : SourceBuffer) : Unseen fs (fsWrite fs fd buf).2 (fs.openFiles slot).dirIndex := by
  cases refuses : refusal (known fs) (flagsOf fs) (.write fd buf) with
  | some e =>
      have same : (fsWrite fs fd buf).2 = fs :=
        congrArg Prod.snd (fsStep_refused linked.mounted refuses)
      rw [same]
      exact unseen_of_linked linked linked.mounted le_rfl (fun _ _ => rfl) (fun _ _ => rfl)
        (fun _ _ _ => rfl) (fun _ _ _ _ _ => rfl)
  | none =>
      obtain ⟨buffer, slot', named', writes⟩ := transferRefusal_eq_none.mp refuses
      obtain rfl : slot = slot' := Option.some.inj (named.1.symm.trans named'.1)
      obtain ⟨mid, blocks, moved, spares, files, outcome⟩ := fsWrite_spares linked.mounted named
        buffer writes (linked.chain _ (linked.opened slot named.2))
      have slots (fd : Descriptor)
          (other : (fs.openFiles fd).dirIndex ≠ (fs.openFiles slot).dirIndex) :
          mid.openFiles fd = fs.openFiles fd := by
        have apart : fd ≠ slot := fun same => other (by rw [same])
        rw [files, FsHandle.advance_openFiles, Function.update_of_ne apart]
      have mounted : mid.mounted = true := spares.mounted.trans linked.mounted
      obtain same | ⟨file, changed, same⟩ := outcome
      · rw [same]
        exact unseen_of_linked linked mounted spares.size spares.others slots spares.cells
          spares.apart
      · rw [same]
        refine unseen_of_linked linked ?_ ?_ ?_ ?_ ?_ ?_
        · exact (grown_mounted mid slot _).trans mounted
        · exact spares.size.trans changed.size
        · intro j other
          exact (grown_other mid slot other).trans (spares.others j other)
        · intro fd other
          exact (congrFun (grown_openFiles mid slot _) fd).trans (slots fd other)
        · intro b off taken
          exact (congrFun (grown_fat mid slot _) b).trans (spares.cells b off taken)
        · intro b off taken j inside
          exact (blockByte_of_inMetadata changed).trans (spares.apart b off taken j inside)

/-- **Files are isolated** on every accepted image whose chains share no block:
after any run, a write through one file is not seen through the others. -/
theorem files_isolated {file : ImageFile} (mounts : fsMount file = .ok fs)
    (uncrossed : Uncrossed fs) (ops : List FsOp) {fd : ℤ}
    (named : Names (otfs.state fs ops) fd slot) (buf : SourceBuffer) :
    Unseen (otfs.state fs ops) (fsWrite (otfs.state fs ops) fd buf).2
      ((otfs.state fs ops).openFiles slot).dirIndex := by
  obtain ⟨chains, accepted⟩ := accepted_of_mount mounts
  have linked : Linked fs chains := {
    chain := accepted.chain
    unused := accepted.unused
    apart := by
      intro i j distinct
      by_cases usedI : Used fs i
      · by_cases usedJ : Used fs j
        · exact uncrossed i j usedI usedJ distinct _ _ (accepted.chain i usedI)
            (accepted.chain j usedJ)
        · rw [accepted.unused j usedJ]
          exact List.disjoint_nil_right _
      · rw [accepted.unused i usedI]
        exact List.disjoint_nil_left _
    mounted := accepted.mounted
    opened := by
      intro fd inUse
      rw [accepted.closed fd] at inUse
      cases inUse }
  obtain ⟨chains', kept⟩ := linked.run ops
  exact fsWrite_unseen kept named buf

end Isolation

/-! ## Two files of one byte -/

/-- A file of one byte in one block. -/
def byteEntry (name : CString) (b : BlockIndex) : DirEntry :=
  { newEntry name.bytes with firstBlock := blockLink b, sizeBytes := 1 }

def blockZero : BlockIndex := ⟨0, by decide⟩

def blockOne : BlockIndex := ⟨1, by decide⟩

/-- A directory of the files `a` in block 0 and `b` in block `b`. -/
def pairDir (b : BlockIndex) : FileIndex → DirEntry := fun i =>
  if i = 0 then byteEntry nameA blockZero
  else if i = 1 then byteEntry nameB b
  else DirEntry.zero

/-- The FAT with the two blocks in use. -/
def pairFat (b : BlockIndex) : BlockIndex → UInt32 := fun c =>
  if c = blockZero ∨ c = b then fatEnd else fatFree

/-- The image of such a directory. -/
def pairImage (fs : FsHandle) (b : BlockIndex) : ImageFile := imageWith fs (pairDir b) (pairFat b)

section Pair

variable {base fs : FsHandle} {chains : FileIndex → List BlockIndex} {b : BlockIndex}

/-- The handle of a pair image. -/
structure Paired (fs : FsHandle) (b : BlockIndex) : Prop where
  mounted : fs.mounted = true
  faultless : fs.imageFile.Faultless
  complete : fs.imageFile.Complete
  dir : fs.dirEntries = pairDir b
  fat : fs.fat = pairFat b

private theorem pairDir_used (i : FileIndex) : (pairDir b i).used ≠ 0 ↔ i = 0 ∨ i = 1 := by
  rw [pairDir]
  split
  · rename_i first
    exact iff_of_true (by decide : (1 : UInt8) ≠ 0) (.inl first)
  · split
    · rename_i second
      exact iff_of_true (by decide : (1 : UInt8) ≠ 0) (.inr second)
    · rename_i first second
      exact iff_of_false (by decide) (not_or.mpr ⟨first, second⟩)

private theorem nameString_byteEntry {name : CString}
    (valid : validateName (some name.bytes) = .ok ()) :
    (byteEntry name b).nameString = name.bytes :=
  nameString_newEntry name.noNul (validateName_eq_ok.mp valid).1.2

private theorem pairFat_chain {c : BlockIndex} (member : c = blockZero ∨ c = b) :
    FatChain (pairFat b) (blockLink c) [c] :=
  fatChain_cons.mpr ⟨rfl, fatChain_nil.mpr (if_pos member)⟩

/-- The block of each of the two files. -/
def pairBlock (b : BlockIndex) (i : FileIndex) : BlockIndex := if i = 0 then blockZero else b

private theorem pairDir_chain {i : FileIndex} (used : (pairDir b i).used ≠ 0) :
    FatChain (pairFat b) (pairDir b i).firstBlock [pairBlock b i] ∧
      (pairDir b i).sizeBytes = 1 := by
  obtain rfl | rfl := (pairDir_used i).mp used
  · exact ⟨pairFat_chain (.inl rfl), rfl⟩
  · exact ⟨pairFat_chain (.inr rfl), rfl⟩

private theorem pairDir_named {i : FileIndex} (used : (pairDir b i).used ≠ 0) :
    Named (pairDir b i) := by
  obtain rfl | rfl := (pairDir_used i).mp used
  · exact named_newEntry nameA.noNul (by decide)
  · exact named_newEntry nameB.noNul (by decide)

private theorem pairDir_names : (pairDir b 0).nameString ≠ (pairDir b 1).nameString := by
  change (byteEntry nameA blockZero).nameString ≠ (byteEntry nameB b).nameString
  rw [nameString_byteEntry (by decide), nameString_byteEntry (by decide)]
  decide

/-- **A pair image mounts**, wherever the second file lies. -/
theorem Sound.fsMount_pairImage (sound : Sound base chains) (b : BlockIndex) :
    fsMount (pairImage base b) = .ok (mountedOn (pairImage base b)) ∧
      Paired (mountedOn (pairImage base b)) b := by
  obtain ⟨mounts, dir, fat⟩ := @Sound.fsMount_imageWith _ _ (pairDir b) (pairFat b) sound (by
    intro fs dir fat
    refine validateMetadata_eq_ok.mpr ⟨?_, ?_, ?_⟩
    · intro c
      rw [fat, pairFat]
      split
      · exact .inr (.inl rfl)
      · exact .inl rfl
    · intro i used
      rw [dir] at used ⊢
      obtain ⟨chain, size⟩ := pairDir_chain used
      obtain ⟨ends, valid⟩ := pairDir_named used
      have one : requiredBlocks (pairDir b i).sizeBytes = 1 := by rw [size]; decide
      rw [← fat] at chain
      refine ⟨ends, valid, validateEntryChain_eq_ok.mpr ⟨_, chain, one.le, fun none => ?_⟩⟩
      rw [one] at none
      cases none
    · intro i j later usedI usedJ same
      rw [dir] at usedI usedJ same
      have names := (strncmp_eq_zero _ _ _).mp same
      obtain rfl | rfl := (pairDir_used i).mp usedI
      · obtain rfl | rfl := (pairDir_used j).mp usedJ
        · exact absurd later (lt_irrefl _)
        · exact pairDir_names names
      · obtain rfl | rfl := (pairDir_used j).mp usedJ
        · exact absurd later (by decide)
        · exact absurd later (lt_irrefl _))
  exact ⟨mounts, {
    mounted := rfl
    faultless := sound.imageWith_faultless
    complete := sound.imageWith_complete
    dir := dir
    fat := fat }⟩

/-- A writer of `a` and a reader of `b`. -/
def pairOpened (fs : FsHandle) : FsHandle :=
  (fs.setOpenFile 0 ⟨true, 0, 0, fsOWrite⟩).setOpenFile 1 ⟨true, 1, 0, fsORead⟩

/-- The two files opened in turn. -/
def pairOpens : List FsOp := [.open (some nameA) fsOWrite, .open (some nameB) fsORead]

theorem pairOpened_slots : (pairOpened fs).openFiles 0 = ⟨true, 0, 0, fsOWrite⟩ ∧
    (pairOpened fs).openFiles 1 = ⟨true, 1, 0, fsORead⟩ := by
  rw [pairOpened, FsHandle.setOpenFile_other _ (by decide), FsHandle.setOpenFile_same,
    FsHandle.setOpenFile_same]
  exact ⟨rfl, rfl⟩

/-- Opening a file of the pair takes the next slot. -/
private theorem Paired.fsOpen_eq (paired : Paired fs b) {name : CString} {i : FileIndex}
    {flags : UInt32} {slot : Descriptor} (used : (pairDir b i).used ≠ 0)
    (named : (pairDir b i).nameString = name.bytes) (good : ¬ badFlags flags)
    (keeps : flags &&& fsOTrunc = 0) (free : allocFd fs = some slot) :
    fsOpen fs (some name) flags = (.ok slot, fs.setOpenFile slot ⟨true, i, 0, flags⟩) := by
  have valid : validateName (some name.bytes) = .ok () := named ▸ (pairDir_named used).2
  have distinct (j k : FileIndex) (usedJ : Used fs j) (usedK : Used fs k)
      (same : (fs.dirEntries j).nameString = (fs.dirEntries k).nameString) : j = k := by
    rw [Used, paired.dir] at usedJ usedK
    rw [paired.dir] at same
    obtain rfl | rfl := (pairDir_used j).mp usedJ
    · obtain rfl | rfl := (pairDir_used k).mp usedK
      · rfl
      · exact absurd same pairDir_names
    · obtain rfl | rfl := (pairDir_used k).mp usedK
      · exact absurd same.symm pairDir_names
      · rfl
  have found := (findDirEntry_eq_some distinct name.noNul (validateName_eq_ok.mp valid).1.2).mpr
    (show Used fs i ∧ (fs.dirEntries i).nameString = name.bytes by
      rw [Used, paired.dir]
      exact ⟨used, named⟩)
  rw [Otfs.fsOpen_eq paired.mounted paired.faultless valid good (fun j => [pairBlock b j])]
  · rw [found]
    simp only [openEntry, if_neg (not_not.mpr keeps), openSlot, free]
  · intro j used
    rw [paired.dir] at used
    rw [paired.dir, paired.fat]
    exact (pairDir_chain used).1

theorem Paired.opens (paired : Paired fs b) (closed : ∀ fd, fs.openFiles fd = OpenFile.zero) :
    otfs.results fs pairOpens = [.ok (.descriptor 0), .ok (.descriptor 1)] ∧
      otfs.state fs pairOpens = pairOpened fs := by
  have first : fsOpen fs (some nameA) fsOWrite =
      (.ok 0, fs.setOpenFile 0 ⟨true, 0, 0, fsOWrite⟩) := by
    refine paired.fsOpen_eq ((pairDir_used 0).mpr (.inl rfl)) (nameString_byteEntry (by decide))
      (by decide) (by decide) ?_
    rw [allocFd, List.finRange_succ, List.find?_cons_of_pos]
    rw [closed]
    rfl
  have second : fsOpen (fs.setOpenFile 0 ⟨true, 0, 0, fsOWrite⟩) (some nameB) fsORead =
      (.ok 1, pairOpened fs) := by
    have kept : Paired (fs.setOpenFile 0 ⟨true, 0, 0, fsOWrite⟩) b :=
      ⟨paired.mounted, paired.faultless, paired.complete, paired.dir, paired.fat⟩
    have apart : (fs.setOpenFile 0 ⟨true, 0, 0, fsOWrite⟩).openFiles 1 = OpenFile.zero :=
      (FsHandle.setOpenFile_other fs (by decide) _).trans (closed 1)
    refine kept.fsOpen_eq ((pairDir_used 1).mpr (.inr rfl)) (nameString_byteEntry (by decide))
      (by decide) (by decide) ?_
    rw [allocFd, List.finRange_succ, List.find?_cons_of_neg, List.finRange_succ, List.map_cons,
      List.find?_cons_of_pos]
    · rfl
    · exact decide_eq_true (congrArg OpenFile.inUse apart)
    · simp only [FsHandle.setOpenFile, Function.update_self]
      decide
  constructor
  · simp only [pairOpens, Machine.results_cons, Machine.results_nil, otfs, fsStep, first, second]
    rfl
  · simp only [pairOpens, Machine.state_cons, Machine.state_nil, otfs, fsStep, first, second]

/-- Reading the byte of `b`. -/
private theorem fsRead_byte (mounted : fs.mounted = true) (faultless : fs.imageFile.Faultless)
    (complete : fs.imageFile.Complete) (slot : fs.openFiles 1 = ⟨true, 1, 0, fsORead⟩)
    (chain : FatChain fs.fat (fs.dirEntries 1).firstBlock [b])
    (size : (fs.dirEntries 1).sizeBytes = 1) :
    fsRead fs 1 true 1 = (.ok [blockByte fs.imageFile b 0], fs.advance 1 1) := by
  have one : readable fs 1 1 = 1 := by
    rw [readable, slot, size]
    decide
  have answered := @fsRead_eq fs 1 1 true 1 [b] mounted ⟨rfl, by rw [slot]⟩ (by simp)
    (by rw [slot]; decide) faultless
    (by rw [slot]; exact chain) (by rw [slot, size]; exact Nat.one_le_ofNat)
  rw [one, slot] at answered
  obtain answered | ⟨_, lacking⟩ := answered
  · exact answered
  · exact absurd complete lacking

/-- Reading the byte of `b` before and after `a` is written. -/
def crossedRun : List FsOp :=
  pairOpens ++ [.read 1 true 1, .write 0 (.bytes [7]), .seek 1 0, .read 1 true 1]

/-- Where both files lie in one block, the written byte shows in the other
file. -/
theorem Paired.crossed (paired : Paired fs blockZero)
    (closed : ∀ fd, fs.openFiles fd = OpenFile.zero)
    (zero : blockByte fs.imageFile blockZero 0 = 0) :
    otfs.results fs crossedRun = [.ok (.descriptor 0), .ok (.descriptor 1), .ok (.bytes [0]),
      .ok (.written 1), .ok .done, .ok (.bytes [7])] := by
  obtain ⟨opened, reached⟩ := paired.opens closed
  obtain ⟨writer, reader⟩ := @pairOpened_slots fs
  have chain (i : FileIndex) (used : (pairDir blockZero i).used ≠ 0) :
      FatChain fs.fat (fs.dirEntries i).firstBlock [blockZero] ∧
        (fs.dirEntries i).sizeBytes = 1 := by
    obtain ⟨linked, size⟩ := pairDir_chain used
    have here : pairBlock blockZero i = blockZero := ite_self _
    rw [here] at linked
    rw [paired.dir, paired.fat]
    exact ⟨linked, size⟩
  obtain ⟨chainA, _⟩ := chain 0 ((pairDir_used 0).mpr (.inl rfl))
  obtain ⟨chainB, sizeB⟩ := chain 1 ((pairDir_used 1).mpr (.inr rfl))
  have reads : fsRead (pairOpened fs) 1 true 1 = (.ok [0], (pairOpened fs).advance 1 1) := by
    rw [← zero]
    exact fsRead_byte paired.mounted paired.faultless paired.complete reader chainB sizeB
  set moved := (pairOpened fs).advance 1 1 with movedEq
  have slotA : moved.openFiles 0 = ⟨true, 0, 0, fsOWrite⟩ := by
    rw [movedEq, FsHandle.advance, FsHandle.setOpenFile_other _ (by decide), writer]
  have namedB : (moved.openFiles 1).inUse = true := by
    rw [movedEq, FsHandle.advance, FsHandle.setOpenFile_same, reader]
  obtain ⟨mid, added, done, _, extended, files, _, outcome⟩ := @fsWrite_spec moved
    0 0 (.bytes [7]) [blockZero] paired.mounted
    ⟨rfl, by rw [slotA]⟩ id (by rw [slotA]; decide) paired.faultless
    (by rw [slotA]; exact chainA)
  rw [slotA] at extended outcome
  have complete : mid.imageFile.Complete := paired.complete.trans extended.size
  obtain ⟨rfl, sized, writes⟩ | ⟨_, short, _⟩ | ⟨lacking, _⟩ := outcome
  · have none : added = [] := List.length_eq_zero_iff.mp sized
    subst none
    set after := synced (grown mid 0 0) with afterEq
    have entryB : after.dirEntries 1 = fs.dirEntries 1 :=
      (grown_other mid 0 (by decide)).trans (extended.others 1 (by decide))
    have slotB : after.openFiles 1 = moved.openFiles 1 := by
      rw [afterEq, synced_openFiles, grown_openFiles, files, FsHandle.advance,
        FsHandle.setOpenFile_other _ (by decide)]
    have mounted : after.mounted = true :=
      (grown_mounted mid 0 0).trans (extended.mounted.trans paired.mounted)
    have named : Names after 1 1 := ⟨rfl, by rw [slotB]; exact namedB⟩
    have byte : blockByte after.imageFile blockZero 0 = 7 := by
      have content := congrFun extended.content 0
      rw [afterEq, synced_blockByte, grown_imageFile]
      exact content
    have last : fsRead (sought after 1 0) 1 true 1 =
        (.ok [7], (sought after 1 0).advance 1 1) := by
      rw [← byte]
      refine @fsRead_byte (sought after 1 0) _ mounted ?_ ?_ ?_ ?_ ?_
      · exact synced_faultless (by rw [grown_imageFile]; exact extended.faultless)
      · exact complete.trans (by
          rw [← grown_imageFile mid 0 0]
          exact size_le_synced)
      · rw [sought_openFiles_same, slotB, movedEq, FsHandle.advance, FsHandle.setOpenFile_same,
          reader]
      · rw [sought_fat, sought_dirEntries, entryB, afterEq, synced_fat, grown_fat]
        exact fatChain_cons.mpr ⟨(fatChain_cons.mp chainB).1, (fatChain_cons.mp extended.chain).2⟩
      · rw [sought_dirEntries, entryB, sizeB]
    rw [crossedRun, Machine.results_append, opened, reached]
    simp only [Machine.results_cons, Machine.results_nil, otfs, fsStep, reads, writes,
      fsSeek_eq mounted named, last]
    rfl
  · exact absurd short (by change ¬ 1 + added.length < 1; omega)
  · exact absurd complete lacking

end Pair

private theorem blockByte_pairImage (base : FsHandle) (b c : BlockIndex) (j : ℕ) :
    blockByte (mountedOn (pairImage base b)).imageFile c j = blockByte base.imageFile c j :=
  @synced_blockByte { base with dirEntries := pairDir b, fat := pairFat b } c j

theorem crossedRun_leaks : ∃ fs, fsMount (pairImage freshHandle blockZero) = .ok fs ∧
    otfs.results fs crossedRun = [.ok (.descriptor 0), .ok (.descriptor 1), .ok (.bytes [0]),
      .ok (.written 1), .ok .done, .ok (.bytes [7])] := by
  obtain ⟨mounts, paired⟩ := blank_freshHandle.sound.fsMount_pairImage blockZero
  have data : 3584 ≤ dataOffset blockZero + 0 := metadata_le_dataOffset blockZero
  refine ⟨_, mounts, paired.crossed (mountedOn_openFiles _) ?_⟩
  rw [blockByte_pairImage, blockByte, freshHandle_imageFile, formattedImage_byte data]

/-- In different blocks the files are not crossed. -/
theorem Paired.uncrossed {fs : FsHandle} (paired : Paired fs blockOne) : Uncrossed fs := by
  intro i j usedI usedJ distinct blocks blocks' chain chain'
  rw [Used, paired.dir] at usedI usedJ
  rw [paired.dir, paired.fat] at chain chain'
  obtain rfl := Chain.unique chain (pairDir_chain usedI).1
  obtain rfl := Chain.unique chain' (pairDir_chain usedJ).1
  have apart : pairBlock blockOne i ≠ pairBlock blockOne j := by
    obtain rfl | rfl := (pairDir_used i).mp usedI
    · obtain rfl | rfl := (pairDir_used j).mp usedJ
      · exact absurd rfl distinct
      · decide
    · obtain rfl | rfl := (pairDir_used j).mp usedJ
      · decide
      · exact absurd rfl distinct
  simpa using apart.symm

theorem files_isolated_pair : ∃ fs, fsMount (pairImage freshHandle blockOne) = .ok fs ∧
    otfs.state fs pairOpens = pairOpened fs ∧
    Unseen (otfs.state fs pairOpens) (fsWrite (otfs.state fs pairOpens) 0 (.bytes [7])).2
      ((otfs.state fs pairOpens).openFiles 0).dirIndex := by
  obtain ⟨mounts, paired⟩ := blank_freshHandle.sound.fsMount_pairImage blockOne
  obtain ⟨_, reached⟩ := paired.opens (mountedOn_openFiles _)
  refine ⟨_, mounts, reached, files_isolated mounts paired.uncrossed pairOpens ⟨rfl, ?_⟩ _⟩
  rw [reached, pairOpened_slots.1]

end TigerOS.Otfs
