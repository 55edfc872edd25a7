import TigerOS.Otfs.Space

/-! # What holds after every run

The invariant holds after every run from a freshly formatted image, and with it
the partition of the FAT (`TigerOS.Otfs.fat_partitioned`). Further invariants of
a handle and its chains are carried along runs by `TigerOS.Otfs.runInvariant`;
the first of them says that the blocks of every file reach its recorded size,
which a write of no bytes past them breaks (`TigerOS.Otfs.size_backed`,
`TigerOS.Otfs.unbacked_of_zero_write`).
-/

namespace TigerOS.Otfs

open Foundation

/-- **The run rule.** What every effect of an admitted call keeps on sound
handles, every run of admitted calls keeps. -/
theorem runInvariant {admitted : FsHandle → FsOp → Prop}
    {holds : FsHandle → (FileIndex → List BlockIndex) → Prop}
    (kept : ∀ {fs chains op answer mid chains'}, Sound fs chains → holds fs chains →
      admitted fs op → fsStep fs op = (answer, mid) → Effect fs chains op answer mid chains' →
      holds mid chains')
    {fs : FsHandle} {chains : FileIndex → List BlockIndex} (sound : Sound fs chains)
    (initially : holds fs chains) {ops : List FsOp} (along : otfs.Along admitted fs ops) :
    ∃ chains, Sound (otfs.state fs ops) chains ∧ holds (otfs.state fs ops) chains := by
  refine @Machine.Along.state_invariant _ _ _ otfs admitted fs ops
    (fun fs => ∃ chains, Sound fs chains ∧ holds fs chains) along ⟨chains, sound, initially⟩ ?_
  rintro fs op ⟨chains, sound, holding⟩ admitted
  obtain ⟨chains', effect⟩ := fsStep_effect sound op
  exact ⟨chains', effect.sound sound, kept sound holding admitted rfl effect⟩

/-- **Every run from a sound handle ends in a sound handle.** -/
theorem sound_run {fs : FsHandle} {chains : FileIndex → List BlockIndex} (sound : Sound fs chains)
    (ops : List FsOp) : ∃ chains, Sound (otfs.state fs ops) chains := by
  obtain ⟨chains, kept, _⟩ := @runInvariant (fun _ _ => True)
    (fun _ _ => True) (fun _ _ _ _ _ => trivial) _ _ sound trivial _
    (Machine.along_of_forall (fun _ _ _ => trivial) fs)
  exact ⟨chains, kept⟩

/-! ## The first file -/

/-- A sound handle without files. -/
structure Blank (fs : FsHandle) : Prop where
  sound : Sound fs (fun _ => [])
  unused : ∀ i, ¬ Used fs i
  closed : ∀ fd, (fs.openFiles fd).inUse = false
  free : ∀ b, fs.fat b = fatFree

theorem blank_freshHandle : Blank freshHandle where
  sound := sound_freshHandle
  unused := fun i => not_not.mpr (congrArg DirEntry.used (freshHandle_dirEntries i))
  closed := fun _ => rfl
  free := freshHandle_fat

/-- The handle after the first file is created. -/
def firstOpened (fs : FsHandle) (name : CString) (flags : UInt32) : FsHandle :=
  (synced (created fs 0 name.bytes)).setOpenFile 0 ⟨true, 0, 0, flags⟩

section First

variable {fs : FsHandle} {name : CString} {flags : UInt32}

/-- The first creating open takes the first entry and the first slot. -/
theorem Blank.fsOpen_eq (blank : Blank fs) (valid : validateName (some name.bytes) = .ok ())
    (good : ¬ badFlags flags) (creates : flags &&& fsOCreate ≠ 0) :
    fsOpen fs (some name) flags = (.ok 0, firstOpened fs name flags) := by
  have sound := blank.sound
  have missing : findDirEntry fs name.bytes = none := by
    refine List.find?_eq_none.mpr fun i _ holds => ?_
    rw [decide_eq_true_eq] at holds
    exact blank.unused i holds.1
  have place : (List.finRange fsMaxFiles).find? (fun i => decide ((fs.dirEntries i).used = 0)) =
      some 0 := by
    rw [List.finRange_succ, List.find?_cons_of_pos]
    exact decide_eq_true (not_not.mp (blank.unused 0))
  have slot : allocFd (synced (created fs 0 name.bytes)) = some 0 := by
    rw [allocFd, List.finRange_succ, List.find?_cons_of_pos]
    exact decide_eq_true (blank.closed 0)
  rw [Otfs.fsOpen_eq sound.mounted sound.faultless valid good _ sound.chain]
  simp only [missing, if_neg creates, place, openEntry, truncated_created, synced_synced,
    ite_self, openSlot, slot]
  rfl

theorem firstOpened_slot : (firstOpened fs name flags).openFiles 0 = ⟨true, 0, 0, flags⟩ := by
  simp only [firstOpened, FsHandle.setOpenFile, Function.update_self]

theorem named_firstOpened : Names (firstOpened fs name flags) 0 0 :=
  ⟨rfl, by rw [firstOpened_slot]⟩

/-- Opening takes no block. -/
theorem Blank.freeBlocks_firstOpened (blank : Blank fs) :
    freeBlocks (firstOpened fs name flags).fat = List.finRange fsDataBlockCount :=
  List.filter_eq_self.mpr fun b _ => decide_eq_true (blank.free b)

theorem Blank.sound_firstOpened (blank : Blank fs)
    (valid : validateName (some name.bytes) = .ok ()) :
    Sound (firstOpened fs name flags) (fun _ => []) := by
  refine (((blank.sound.created (blank.unused 0) name.noNul valid
    fun j used => absurd used (blank.unused j)).synced).setOpenFile fun _ => ?_)
  rw [Used, synced_dirEntries, created, FsHandle.setEntry_same]
  exact (by decide : (1 : UInt8) ≠ 0)

end First

/-- Descriptor 0 names the first slot. -/
theorem Names.eq_zero {fs : FsHandle} {slot : Descriptor} (named : Names fs 0 slot) : slot = 0 :=
  Option.some.inj (named.1.symm.trans (rfl : slotOf? 0 = some 0))

/-- The name `a`. -/
def nameA : CString := ⟨[97], by decide⟩

theorem valid_nameA : validateName (some nameA.bytes) = .ok () := by decide

/-- The name `b`. -/
def nameB : CString := ⟨[98], by decide⟩

/-- A handle on which the first file was written up to `size`, where slot 0 is
open on it. -/
structure FirstWritten (fs : FsHandle) (flags : UInt32) (size : ℕ) (blocks : List BlockIndex) :
    Prop where
  sound : Sound fs (Function.update (fun _ => []) 0 blocks)
  inUse : (fs.openFiles 0).inUse = true
  dirIndex : (fs.openFiles 0).dirIndex = 0
  flags : (fs.openFiles 0).flags = flags
  offset : (fs.openFiles 0).offset.toNat = size
  sizeBytes : (fs.dirEntries 0).sizeBytes.toNat = size
  name : (fs.dirEntries 0).name = (newEntry nameA.bytes).name
  reach : size ≤ fsBlockSize * blocks.length

theorem FirstWritten.named {fs : FsHandle} {flags : UInt32} {size : ℕ} {blocks : List BlockIndex}
    (written : FirstWritten fs flags size blocks) : Names fs 0 0 := ⟨rfl, written.inUse⟩

/-- The first file is written where it fits on the image. -/
theorem Blank.fsWrite_first {fs : FsHandle} {flags offset : UInt32} {data : List UInt8}
    (blank : Blank fs) (writes : flags &&& fsOWrite ≠ 0) (some : data ≠ [])
    (enough : blocksFor offset.toNat data.length ≤ fsDataBlockCount) :
    ∃ after blocks,
      fsWrite (sought (firstOpened fs nameA flags) 0 offset) 0 (.bytes data) =
        (.ok data.length, after) ∧
      FirstWritten after flags (offset.toNat + data.length) blocks := by
  set past := sought (firstOpened fs nameA flags) 0 offset with pastEq
  have sound : Sound past (fun _ => []) :=
    (blank.sound_firstOpened valid_nameA).sought (@named_firstOpened fs nameA flags).2 offset
  have named : Names past 0 0 := named_firstOpened.sought offset
  have slot : past.openFiles 0 = ⟨true, 0, offset, flags⟩ := by
    rw [pastEq, sought_openFiles_same, firstOpened_slot]
  have entry : past.dirEntries 0 = newEntry nameA.bytes :=
    FsHandle.setEntry_same fs 0 (newEntry nameA.bytes)
  have free : (freeBlocks past.fat).length = fsDataBlockCount := by
    rw [pastEq, sought_fat, blank.freeBlocks_firstOpened, List.length_finRange]
  have data' : (SourceBuffer.bytes data).data = data := rfl
  obtain ⟨mid, added, stored, length, answer⟩ := @Sound.fsWrite_stores _ _ _ _ (.bytes data)
    sound named id (by rw [slot]; exact writes) (by
      rw [slot, free, data', List.length_nil, Nat.zero_add]
      exact enough)
  have files : (synced (grown mid 0 (past.openFiles 0).dirIndex)).openFiles 0 =
      mid.openFiles 0 := by
    rw [synced_openFiles, grown_openFiles]
  have kept : mid.openFiles 0 = { past.openFiles 0 with offset := (mid.openFiles 0).offset } := by
    rw [stored.moved, FsHandle.advance_openFiles, Function.update_self]
  have reached := stored.offset
  rw [slot] at reached kept
  have file := stored.extended.entry
  rw [slot] at file
  have size := toNat_size_grown mid 0 0
  rw [stored.extended.sizeBytes, entry, reached] at size
  have reach := stored.reach some
  rw [slot] at reach
  refine ⟨_, added, answer, ?_, ?_, ?_, ?_, ?_, ?_, ?_, ?_⟩
  · have final := ((stored.sound sound named.2).grown 0 (past.openFiles 0).dirIndex).synced
    rwa [lengthened, slot] at final
  · rw [files, kept]
  · rw [files, kept]
  · rw [files, kept]
  · rw [files]
    exact reached
  · rw [synced_dirEntries, slot, size]
    exact Nat.max_eq_right (Nat.zero_le _)
  · rw [synced_dirEntries, grown_name, file, entry]
  · exact reach

/-- The flags of a reader and writer that creates. -/
def gapFlags : UInt32 := fsORead ||| fsOWrite ||| fsOCreate

/-- A file is created and one byte written past a gap of more than a block. -/
def gapRun : List FsOp := [.open (some nameA) gapFlags, .seek 0 600, .write 0 (.bytes [7])]

/-- The steps of such a run succeed. -/
theorem Blank.gapRun_steps {fs : FsHandle} (blank : Blank fs) : ∃ after blocks,
    otfs.step fs (.open (some nameA) gapFlags) =
      (.ok (.descriptor 0), firstOpened fs nameA gapFlags) ∧
    otfs.step (firstOpened fs nameA gapFlags) (.seek 0 600) =
      (.ok .done, sought (firstOpened fs nameA gapFlags) 0 600) ∧
    otfs.step (sought (firstOpened fs nameA gapFlags) 0 600) (.write 0 (.bytes [7])) =
      (.ok (.written 1), after) ∧
    FirstWritten after gapFlags 601 blocks := by
  obtain ⟨after, blocks, writes, written⟩ := @Blank.fsWrite_first fs gapFlags 600 [7] blank
    (by decide) (List.cons_ne_nil _ _) (by decide)
  have opens : fsOpen fs (some nameA) gapFlags = (.ok 0, firstOpened fs nameA gapFlags) :=
    blank.fsOpen_eq valid_nameA (by decide) (by decide)
  have seeks := @fsSeek_eq _ 0 0 600 (@Blank.sound_firstOpened _ _ gapFlags blank
    valid_nameA).mounted named_firstOpened
  refine ⟨after, blocks, ?_, ?_, ?_, written⟩
  · simp only [otfs, fsStep, opens]
    rfl
  · simp only [otfs, fsStep, seeks]
    rfl
  · simp only [otfs, fsStep, writes]
    rfl

theorem Blank.gapRun_state {fs : FsHandle} (blank : Blank fs) :
    ∃ blocks, FirstWritten (otfs.state fs gapRun) gapFlags 601 blocks := by
  obtain ⟨after, blocks, opens, seeks, writes, written⟩ := blank.gapRun_steps
  have reached : otfs.state fs gapRun = after := by
    simp only [gapRun, Machine.state_cons, Machine.state_nil, opens, seeks, writes]
  exact ⟨blocks, reached ▸ written⟩

/-- What the steps of such a run and of what follows it meet is met along both. -/
theorem Blank.along_gapRun {fs : FsHandle} {admitted : FsHandle → FsOp → Prop} {ops : List FsOp}
    (blank : Blank fs) (opens : admitted fs (.open (some nameA) gapFlags))
    (seeks : admitted (firstOpened fs nameA gapFlags) (.seek 0 600))
    (writes : admitted (sought (firstOpened fs nameA gapFlags) 0 600) (.write 0 (.bytes [7])))
    (rest : ∀ after blocks, FirstWritten after gapFlags 601 blocks →
      otfs.Along admitted after ops) : otfs.Along admitted fs (gapRun ++ ops) := by
  obtain ⟨after, blocks, opened, moved, wrote, written⟩ := blank.gapRun_steps
  simp only [gapRun, List.cons_append, List.nil_append, Machine.along_cons, opened, moved, wrote]
  exact ⟨opens, seeks, writes, rest after blocks written⟩

/-! ## The partition of the FAT -/

/-- Each used entry heads a chain without repetitions, no two of them share a
block, and every cell that is not free lies on the chain of exactly one. -/
def FatPartitioned (fs : FsHandle) : Prop :=
  ∃ chains : FileIndex → List BlockIndex,
    (∀ i, Used fs i → FatChain fs.fat (fs.dirEntries i).firstBlock (chains i) ∧
      (chains i).Nodup) ∧
    (∀ i j, Used fs i → Used fs j → i ≠ j → (chains i).Disjoint (chains j)) ∧
    (∀ b, fs.fat b ≠ fatFree → ∃! i, Used fs i ∧ b ∈ chains i)

/-- A sound handle has a partitioned FAT. -/
theorem Sound.fatPartitioned {fs : FsHandle} {chains : FileIndex → List BlockIndex}
    (sound : Sound fs chains) : FatPartitioned fs := by
  refine ⟨chains, ?_, ?_, ?_⟩
  · intro i used
    exact ⟨sound.chain i used, Chain.nodup (sound.chain i used)⟩
  · intro i j _ _ distinct
    exact sound.apart i j distinct
  · intro b taken
    obtain ⟨i, member⟩ := sound.covered b taken
    have used : Used fs i := by
      by_contra unused
      rw [sound.unused i unused] at member
      cases member
    refine ⟨i, ⟨used, member⟩, ?_⟩
    rintro j ⟨_, member'⟩
    by_contra distinct
    exact sound.apart j i distinct member' member

/-- **The FAT stays partitioned** in every run from a freshly formatted image,
whatever the calls answer. -/
theorem fat_partitioned {file : ImageFile} {fs : FsHandle} (formatted : fsFormatImage [] = .ok file)
    (mounted : fsMount file = .ok fs) (ops : List FsOp) : FatPartitioned (otfs.state fs ops) := by
  rw [eq_freshHandle formatted mounted]
  obtain ⟨chains, sound⟩ := sound_run sound_freshHandle ops
  exact sound.fatPartitioned

theorem fat_partitioned_after_write : FatPartitioned (otfs.state freshHandle
    [.open (some nameA) (fsOWrite ||| fsOCreate), .write 0 (.bytes [1])]) :=
  fat_partitioned fsFormatImage_eq fsMount_formatted _

/-! ## Sizes are backed by blocks -/

/-- Every recorded size is reached by the blocks of its file. -/
def AllBacked (fs : FsHandle) (chains : FileIndex → List BlockIndex) : Prop :=
  ∀ i, Used fs i → Backed fs chains i

/-- A write of no bytes happens within the blocks of its file. -/
def ZeroWriteWithin (fs : FsHandle) : FsOp → Prop
  | .write fd buf => buf.len = 0 → ∀ slot, Names fs fd slot →
      (fs.openFiles slot).flags &&& fsOWrite ≠ 0 → ∀ blocks,
      FatChain fs.fat (fs.dirEntries (fs.openFiles slot).dirIndex).firstBlock blocks →
      (fs.openFiles slot).offset.toNat ≤ fsBlockSize * blocks.length
  | _ => True

section Backed

variable {fs mid : FsHandle} {chains chains' : FileIndex → List BlockIndex}

theorem Entered.allBacked {name : List UInt8} {flags : UInt32} {i : FileIndex}
    (entered : Entered fs chains name flags i mid chains') (backed : AllBacked fs chains) :
    AllBacked mid chains' := by
  cases entered with
  | found => exact backed
  | emptied found empties =>
      intro j used
      rw [Backed, synced_dirEntries, truncated]
      by_cases same : j = i
      · rw [same, FsHandle.setEntry_same]
        exact Nat.zero_le _
      · rw [FsHandle.setEntry_other _ same, Function.update_of_ne same]
        rw [Used, synced_dirEntries, truncated, FsHandle.setEntry_other _ same] at used
        exact backed j used
  | made missing unused =>
      intro j used
      rw [Backed, synced_dirEntries, created]
      by_cases same : j = i
      · rw [same, FsHandle.setEntry_same]
        exact Nat.zero_le _
      · rw [FsHandle.setEntry_other _ same]
        rw [Used, synced_dirEntries, created, FsHandle.setEntry_other _ same] at used
        exact backed j used

theorem Stored.allBacked {slot : Descriptor} {added : List BlockIndex} {data : List UInt8}
    (stored : Stored fs chains slot mid added data) (backed : AllBacked fs chains) :
    AllBacked mid (lengthened fs chains slot added) := by
  intro j used
  rw [Used, stored.extended.used] at used
  have before := backed j used
  rw [Backed] at before ⊢
  rw [stored.extended.sizeBytes, lengthened]
  by_cases same : j = (fs.openFiles slot).dirIndex
  · subst same
    rw [Function.update_self, List.length_append, Nat.mul_add]
    omega
  · rwa [Function.update_of_ne same]

/-- Recording a size the blocks reach keeps the sizes backed. -/
theorem AllBacked.grown {fd : Descriptor} {i : FileIndex} (backed : AllBacked fs chains)
    (within : (fs.openFiles fd).offset.toNat ≤ fsBlockSize * (chains i).length) :
    AllBacked (grown fs fd i) chains := by
  intro j used
  rw [Backed]
  by_cases same : j = i
  · subst same
    have used' : Used fs j := by
      rw [Used, Otfs.grown] at used
      split at used
      · rwa [FsHandle.setEntry_same] at used
      · exact used
    rw [toNat_size_grown]
    exact max_le (backed j used') within
  · rw [Used, grown_other _ _ same] at used
    rw [grown_other _ _ same]
    exact backed j used

/-- Every effect of an admitted call keeps the sizes backed. -/
theorem Effect.allBacked {op : FsOp} {answer : Except FsError FsValue} (sound : Sound fs chains)
    (backed : AllBacked fs chains) (within : ZeroWriteWithin fs op)
    (effect : Effect fs chains op answer mid chains') : AllBacked mid chains' := by
  cases effect with
  | refused _ => exact backed
  | opened _ entered _ => exact entered.allBacked backed
  | noSlot _ entered => exact entered.allBacked backed
  | noEntry => exact backed
  | closed _ => exact backed
  | sought _ => exact backed
  | read _ _ => exact backed
  | @wrote fd buf slot mid added named buffer writes stored sized =>
      have kept := @AllBacked.grown _ _ slot (fs.openFiles slot).dirIndex
        (stored.allBacked backed) ?_
      · exact kept
      rw [stored.offset, lengthened, Function.update_self]
      by_cases nothing : buf.data = []
      · have zero : buf.len = 0 := by
          cases buf with
          | null len =>
              by_contra some
              exact buffer some
          | bytes data => exact congrArg List.length nothing
        have reach := within zero slot named writes _ (sound.chain _ (sound.opened slot named.2))
        rw [nothing, List.length_nil, List.length_append, Nat.mul_add]
        omega
      · exact stored.reach nothing
  | filled _ _ _ stored _ _ => exact stored.allBacked backed

end Backed

/-- Every recorded size is at most the bytes of the blocks on the chain. -/
def SizesBacked (fs : FsHandle) : Prop :=
  ∀ i, Used fs i → ∃ blocks, FatChain fs.fat (fs.dirEntries i).firstBlock blocks ∧
    (fs.dirEntries i).sizeBytes.toNat ≤ fsBlockSize * blocks.length

/-- Every read through a descriptor opened for reading succeeds, at any offset
and for any length. -/
def ReadsSucceed (fs : FsHandle) : Prop :=
  ∀ fd slot, Names fs fd slot → (fs.openFiles slot).flags &&& fsORead ≠ 0 → ∀ offset len,
    (fsSeek fs fd offset).1 = .ok () ∧
      ∃ data, (fsRead (fsSeek fs fd offset).2 fd true len).1 = .ok data

/-- On a sound handle a read of a backed file answers its bytes. -/
theorem Sound.fsRead_eq {fs : FsHandle} {chains : FileIndex → List BlockIndex} {fd : ℤ}
    {slot : Descriptor} (sound : Sound fs chains) (named : Names fs fd slot)
    (reads : (fs.openFiles slot).flags &&& fsORead ≠ 0)
    (backed : Backed fs chains (fs.openFiles slot).dirIndex) (len : ℕ) :
    fsRead fs fd true len = (.ok (readRange
      (contentAt fs.imageFile (chains (fs.openFiles slot).dirIndex))
      (fs.openFiles slot).offset.toNat (readable fs slot len)),
        fs.advance slot (readable fs slot len)) := by
  have buffered : ¬ (len ≠ 0 ∧ true = false) := fun missing => by cases missing.2
  obtain answered | ⟨_, incomplete⟩ := Otfs.fsRead_eq sound.mounted named buffered reads
    sound.faultless (sound.chain _ (sound.opened slot named.2)) backed
  · exact answered
  · exact absurd sound.complete incomplete

/-- Where sizes are backed, reads succeed. -/
theorem Sound.readsSucceed {fs : FsHandle} {chains : FileIndex → List BlockIndex}
    (sound : Sound fs chains) (backed : AllBacked fs chains) : ReadsSucceed fs := by
  intro fd slot named reads offset len
  rw [fsSeek_eq sound.mounted named]
  refine ⟨rfl, _, congrArg Prod.fst ((sound.sought named.2 offset).fsRead_eq (named.sought offset)
    ?_ ?_ len)⟩
  · rw [sought_openFiles_same]
    exact reads
  · rw [sought_openFiles_same]
    exact backed _ (sound.opened slot named.2)

/-- **Recorded sizes stay backed by blocks** in every run from a freshly
formatted image that writes no bytes only within the blocks of a file; every
read then succeeds. -/
theorem size_backed {file : ImageFile} {fs : FsHandle} (formatted : fsFormatImage [] = .ok file)
    (mounted : fsMount file = .ok fs) {ops : List FsOp}
    (within : otfs.Along ZeroWriteWithin fs ops) :
    SizesBacked (otfs.state fs ops) ∧ ReadsSucceed (otfs.state fs ops) := by
  rw [eq_freshHandle formatted mounted] at within ⊢
  obtain ⟨chains, sound, backed⟩ := @runInvariant _ AllBacked
    (fun sound backed within _ effect => effect.allBacked sound backed within) _ _
    sound_freshHandle (fun i used => absurd used (blank_freshHandle.unused i)) _ within
  exact ⟨fun i used => ⟨chains i, sound.chain i used, backed i used⟩, sound.readsSucceed backed⟩

/-- A write of no bytes past the blocks of its file leaves a size no blocks
back. -/
theorem unbacked_of_zero_write {fs : FsHandle} {chains : FileIndex → List BlockIndex} {fd : ℤ}
    {slot : Descriptor} (sound : Sound fs chains) (named : Names fs fd slot)
    (writes : (fs.openFiles slot).flags &&& fsOWrite ≠ 0)
    (past : fsBlockSize * (chains (fs.openFiles slot).dirIndex).length <
      (fs.openFiles slot).offset.toNat) :
    ∃ after, fsWrite fs fd (.bytes []) = (.ok 0, after) ∧ Sound after chains ∧
      after.openFiles = fs.openFiles ∧
      ¬ Backed after chains (fs.openFiles slot).dirIndex := by
  refine ⟨_, fsWrite_nothing sound.mounted named writes sound.faultless,
    (sound.grown _ _).synced, grown_openFiles .., ?_⟩
  rw [Backed, synced_dirEntries, toNat_size_grown]
  omega

theorem size_backed_after_gap :
    SizesBacked (otfs.state freshHandle (gapRun ++ [.write 0 (.bytes [])])) ∧
      ReadsSucceed (otfs.state freshHandle (gapRun ++ [.write 0 (.bytes [])])) := by
  refine size_backed fsFormatImage_eq fsMount_formatted
    (blank_freshHandle.along_gapRun trivial trivial ?_ ?_)
  · intro zero
    cases zero
  · intro after blocks written
    refine ⟨fun _ slot named _ chained chain => ?_, trivial⟩
    obtain rfl := named.eq_zero
    have known := written.sound.chain 0 (written.dirIndex ▸ written.sound.opened 0 written.inUse)
    rw [written.dirIndex] at chain
    rw [Chain.unique chain known, Function.update_self, written.offset]
    exact written.reach

/-- A file is created, its descriptor moved to byte 1, nothing written, and the
descriptor moved back. -/
def zeroWriteRun : List FsOp :=
  [.open (some nameA) (fsORead ||| fsOWrite ||| fsOCreate), .seek 0 1, .write 0 (.bytes []),
    .seek 0 0]

/-- After it the size of the file is not backed and reading it fails. -/
theorem Blank.zeroWrite_fails {fs : FsHandle} (blank : Blank fs) :
    ¬ SizesBacked (otfs.state fs zeroWriteRun) ∧
      (fsRead (otfs.state fs zeroWriteRun) 0 true 1).1 = .error .state := by
  let flags := fsORead ||| fsOWrite ||| fsOCreate
  have sound := @Blank.sound_firstOpened _ _ flags blank valid_nameA
  have named : Names (firstOpened fs nameA flags) 0 0 := named_firstOpened
  have opens : fsOpen fs (some nameA) (fsORead ||| fsOWrite ||| fsOCreate) =
      (.ok 0, firstOpened fs nameA flags) := blank.fsOpen_eq valid_nameA (by decide) (by decide)
  set atOne := sought (firstOpened fs nameA flags) 0 1 with atOneEq
  have slot : atOne.openFiles 0 = ⟨true, 0, 1, flags⟩ := by
    rw [atOneEq, sought_openFiles_same, firstOpened_slot]
  obtain ⟨after, writes, soundAfter, files, unbacked⟩ :=
    unbacked_of_zero_write (sound.sought named.2 1) (named.sought 1) (by rw [slot]; decide)
      (by rw [slot]; decide)
  have slotAfter : after.openFiles 0 = ⟨true, 0, 1, flags⟩ := by rw [files, slot]
  have namedAfter : Names after 0 0 := ⟨rfl, by rw [slotAfter]⟩
  rw [slot] at unbacked
  have reached : otfs.state fs zeroWriteRun = sought after 0 0 := by
    simp only [zeroWriteRun, Machine.state_cons, Machine.state_nil, otfs, fsStep, opens,
      fsSeek_eq sound.mounted named, writes, fsSeek_eq soundAfter.mounted namedAfter]
  rw [reached]
  have used : Used after 0 := by
    have opened := soundAfter.opened 0 namedAfter.2
    rwa [slotAfter] at opened
  have chain := soundAfter.chain 0 used
  have positive : 0 < (after.dirEntries 0).sizeBytes.toNat := not_le.mp unbacked
  constructor
  · intro backed
    obtain ⟨blocks, chain', within⟩ := backed 0 used
    have none : blocks = [] := Chain.unique chain' chain
    rw [none] at within
    exact absurd within unbacked
  · have here : (sought after 0 0).openFiles 0 = ⟨true, 0, 0, flags⟩ := by
      rw [sought_openFiles_same, slotAfter]
    rw [@fsRead_unbacked _ _ _ _ [] (soundAfter.sought namedAfter.2 0).mounted
      (namedAfter.sought 0)]
    · rw [here]
      decide
    · exact one_ne_zero
    · rw [here]
      exact chain
    · rw [here]
      exact positive
    · exact Nat.zero_le _

theorem zeroWriteRun_breaks : fsFormatImage [] = .ok formattedImage ∧
    fsMount formattedImage = .ok freshHandle ∧
    ¬ SizesBacked (otfs.state freshHandle zeroWriteRun) ∧
    (fsRead (otfs.state freshHandle zeroWriteRun) 0 true 1).1 = .error .state :=
  ⟨fsFormatImage_eq, fsMount_formatted, blank_freshHandle.zeroWrite_fails⟩

end TigerOS.Otfs
