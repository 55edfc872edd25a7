import TigerOS.Otfs.FileMap
import TigerOS.Otfs.View

/-! # Writes that run out of space

A write takes blocks and stores bytes chunk by chunk, and stops where no block is left.
What it leaves then is as before exactly when it could not begin: no block was free and
the file had none at the offset (`TigerOS.Otfs.failed_write_unchanged`).
-/

namespace TigerOS.Otfs

open Foundation

/-- A write through a slot left the files, the number of free blocks and the offset of the
slot as they were. -/
structure SameSpace (fs fs' : FsHandle) (slot : Descriptor) : Prop where
  view : SameView fs fs'
  free : (freeBlocks fs'.fat).length = (freeBlocks fs.fat).length
  offset : (fs'.openFiles slot).offset = (fs.openFiles slot).offset

/-- A write that runs out of space has no effect. -/
def WriteUnchanged (fs : FsHandle) (fd : ℤ) (buf : SourceBuffer) : Prop :=
  (fsWrite fs fd buf).1 = .error .noSpace →
    ∀ slot, slotOf? fd = some slot → SameSpace fs (fsWrite fs fd buf).2 slot

/-- A write that is not refused has the blocks it needs, or it has no block to begin
with. -/
def WriteClean (fs : FsHandle) (fd : ℤ) (buf : SourceBuffer) : Prop :=
  ¬ buf.Missing → ∀ slot, Names fs fd slot → (fs.openFiles slot).flags &&& fsOWrite ≠ 0 →
    ∀ blocks, FatChain fs.fat (fs.dirEntries (fs.openFiles slot).dirIndex).firstBlock blocks →
      blocksFor (fs.openFiles slot).offset.toNat buf.data.length ≤
        blocks.length + (freeBlocks fs.fat).length ∨
      (freeBlocks fs.fat = [] ∧ blocks.length ≤ (fs.openFiles slot).offset.toNat / fsBlockSize)

section FailedWrite

variable {fs mid : FsHandle} {chains : FileIndex → List BlockIndex} {fd : ℤ} {slot : Descriptor}
  {buf : SourceBuffer}

/-- A write that runs out of space was not refused. -/
theorem fsWrite_admitted (sound : Sound fs chains)
    (failed : (fsWrite fs fd buf).1 = .error .noSpace) :
    ¬ buf.Missing ∧ ∃ slot, Names fs fd slot ∧ (fs.openFiles slot).flags &&& fsOWrite ≠ 0 := by
  cases refuses : refusal (known fs) (flagsOf fs) (.write fd buf) with
  | none => exact transferRefusal_eq_none.mp refuses
  | some e =>
      have answer := congrArg Prod.fst (fsStep_refused sound.mounted refuses)
      simp only [fsStep, failed] at answer
      cases answer
      simp only [refusal, transferRefusal] at refuses
      split at refuses
      · cases refuses
      · split at refuses
        · cases refuses
        · split at refuses
          · cases refuses
          · split at refuses
            · cases refuses
            · cases refuses

/-- A write that runs out of space after its first block moved its slot. -/
theorem fsWrite_moves {blocks : List BlockIndex} (sound : Sound fs chains)
    (named : Names fs fd slot) (buffer : ¬ buf.Missing)
    (writes : (fs.openFiles slot).flags &&& fsOWrite ≠ 0) (nonempty : buf.data ≠ [])
    (chain : FatChain fs.fat (fs.dirEntries (fs.openFiles slot).dirIndex).firstBlock blocks)
    (inside : (fs.openFiles slot).offset.toNat / fsBlockSize < blocks.length)
    (failed : fsWrite fs fd buf = (.error .noSpace, mid)) :
    (mid.openFiles slot).offset.toNat ≠ (fs.openFiles slot).offset.toNat := by
  have moves := @writeLoop_moves fs _ blocks slot buf.data.length buf.data le_rfl nonempty
    sound.faultless sound.complete chain inside
  rw [fsWrite_loops sound.mounted named buffer writes] at failed
  revert failed moves
  generalize writeLoop slot (fs.openFiles slot).dirIndex buf.data.length fs buf.data = out
  obtain ⟨e | done, after⟩ := out
  · intro failed moves
    cases failed
    exact moves
  · intro failed moves
    simp only [finishWrite_grown] at failed
    revert failed
    generalize syncMetadata (grown after slot (fs.openFiles slot).dirIndex) = out
    obtain ⟨e | flushed, final⟩ := out
    · intro failed
      cases failed
    · intro failed
      cases failed

/-- A store of nothing shows nothing. -/
theorem Stored.sameView (stored : Stored fs chains slot mid [] []) (sound : Sound fs chains)
    (inUse : (fs.openFiles slot).inUse = true) : SameView fs mid := by
  have same : lengthened fs chains slot [] = chains := by
    rw [lengthened, List.append_nil, Function.update_eq_self]
  have sound' := stored.sound sound inUse
  rw [same] at sound'
  refine viewed_congr sound sound' (findDirEntry_congr stored.extended.used stored.extended.name)
    (fun i _ => stored.extended.sizeBytes i) (fun _ _ => rfl) fun i used => ?_
  by_cases here : i = (fs.openFiles slot).dirIndex
  · have content := stored.extended.content
    rw [List.append_nil, writeRange_nil] at content
    rw [here]
    exact content
  · exact stored.contentAt_other sound here used

/-- **A write that runs out of space** has no effect exactly where it is clean. -/
theorem Sound.writeUnchanged_iff (sound : Sound fs chains) (fd : ℤ) (buf : SourceBuffer) :
    WriteUnchanged fs fd buf ↔ WriteClean fs fd buf := by
  constructor
  · intro unchanged buffer slot named writes blocks chain
    obtain ⟨mid, added, done, _, extended, _, _, outcome⟩ :=
      fsWrite_spec sound.mounted named buffer writes sound.faultless chain
    have taken := congrArg List.length extended.free
    rw [List.length_append] at taken
    by_contra neither
    rw [not_or, not_and, Nat.not_le, Nat.not_le] at neither
    obtain ⟨needed, begun⟩ := neither
    rcases outcome with ⟨rfl, sized, _⟩ | ⟨full, _, fails⟩ | ⟨incomplete, _⟩
    · omega
    · rw [WriteUnchanged, fails] at unchanged
      have same := unchanged rfl slot named.1
      have none : freeBlocks fs.fat = [] := by
        rw [← List.length_eq_zero_iff, ← same.free, full, List.length_nil]
      refine fsWrite_moves sound named buffer writes ?_ chain (begun none) fails
        (congrArg UInt32.toNat same.offset)
      intro nothing
      rw [nothing, List.length_nil, blocksFor, if_pos rfl] at needed
      exact Nat.not_lt_zero _ needed
    · exact incomplete (sound.complete.trans extended.size)
  · intro clean failed slot here
    obtain ⟨buffer, slot', named, writes⟩ := fsWrite_admitted sound failed
    obtain rfl : slot = slot' := Option.some.inj (here.symm.trans named.1)
    have chain := sound.chain _ (sound.opened slot named.2)
    obtain ⟨mid, added, done, doneLe, extended, moved, reach, outcome⟩ :=
      fsWrite_spec sound.mounted named buffer writes sound.faultless chain
    have taken := congrArg List.length extended.free
    rw [List.length_append] at taken
    rcases outcome with ⟨_, _, fails⟩ | ⟨full, short, fails⟩ | ⟨_, fails⟩
    · rw [fails] at failed
      cases failed
    · rw [full, List.length_nil] at taken
      rcases clean buffer slot named writes _ chain with enough | ⟨none, past⟩
      · omega
      · have bare : added = [] := by
          rw [← List.length_eq_zero_iff]
          rw [none, List.length_nil] at taken
          exact taken.symm
        have still : done = 0 := by
          by_contra some
          have reached := reach some
          rw [bare, List.append_nil] at reached
          simp only [fsBlockSize] at reached past
          omega
        subst bare still
        rw [List.take_zero] at extended
        have stored : Stored fs chains slot mid [] [] :=
          ⟨extended, moved, fun some => absurd rfl some⟩
        rw [fails]
        refine ⟨stored.sameView sound named.2, ?_, ?_⟩
        · rw [full, none]
        · rw [moved, FsHandle.advance_zero]
    · rw [fails] at failed
      cases failed

/-- **Failed writes.** After any run from a freshly formatted image, a write that runs out
of space leaves the files, the number of free blocks and its offset as they were exactly
where its file has no block to begin with. -/
theorem failed_write_unchanged {file : ImageFile} (formatted : fsFormatImage [] = .ok file)
    (mounted : fsMount file = .ok fs) (ops : List FsOp) (fd : ℤ) (buf : SourceBuffer) :
    WriteUnchanged (otfs.state fs ops) fd buf ↔ WriteClean (otfs.state fs ops) fd buf := by
  rw [eq_freshHandle formatted mounted]
  obtain ⟨chains, sound⟩ := sound_run sound_freshHandle ops
  exact sound.writeUnchanged_iff fd buf

/-- One file takes every block, and a second one is created. -/
def fullImageRun : List FsOp :=
  [.open (some nameA) (fsOWrite ||| fsOCreate), .seek 0 127487, .write 0 (.bytes [7]),
    .open (some nameB) (fsOWrite ||| fsOCreate)]

theorem failed_write_unchanged_full :
    WriteUnchanged (otfs.state freshHandle fullImageRun) 1 (.bytes [1]) ↔
      WriteClean (otfs.state freshHandle fullImageRun) 1 (.bytes [1]) :=
  failed_write_unchanged fsFormatImage_eq fsMount_formatted fullImageRun 1 (.bytes [1])

/-- A file is created and its descriptor moved past the last block of the image. -/
def pastEndRun : List FsOp := [.open (some nameA) (fsOWrite ||| fsOCreate), .seek 0 127488]

/-- Writing a byte there runs out of space after every block was taken. -/
theorem Blank.pastEnd_takes (blank : Blank fs) :
    ¬ WriteUnchanged (otfs.state fs pastEndRun) 0 (.bytes [0]) := by
  let flags := fsOWrite ||| fsOCreate
  have sound := @Blank.sound_firstOpened _ _ flags blank valid_nameA
  have named : Names (firstOpened fs nameA flags) 0 0 := named_firstOpened
  have opens : fsOpen fs (some nameA) (fsOWrite ||| fsOCreate) =
      (.ok 0, firstOpened fs nameA flags) := blank.fsOpen_eq valid_nameA (by decide) (by decide)
  have reached : otfs.state fs pastEndRun = sought (firstOpened fs nameA flags) 0 127488 := by
    simp only [pastEndRun, Machine.state_cons, Machine.state_nil, otfs, fsStep, opens,
      fsSeek_eq sound.mounted named]
  set past := sought (firstOpened fs nameA flags) 0 127488 with pastEq
  have slot : past.openFiles 0 = ⟨true, 0, 127488, flags⟩ := by
    rw [pastEq, sought_openFiles_same, firstOpened_slot]
  have allFree : (freeBlocks past.fat).length = fsDataBlockCount := by
    rw [pastEq, sought_fat, blank.freeBlocks_firstOpened, List.length_finRange]
  have soundPast := sound.sought named.2 127488
  rw [reached, soundPast.writeUnchanged_iff]
  intro clean
  have chain := soundPast.chain _ (soundPast.opened 0 (named.sought 127488).2)
  rcases clean id 0 (named.sought 127488) (by rw [slot]; decide) _ chain with enough | ⟨none, _⟩
  · rw [slot, allFree] at enough
    exact absurd enough (by decide)
  · rw [none] at allFree
    cases allFree

theorem pastEndRun_takes : fsFormatImage [] = .ok formattedImage ∧
    fsMount formattedImage = .ok freshHandle ∧
    ¬ WriteUnchanged (otfs.state freshHandle pastEndRun) 0 (.bytes [0]) :=
  ⟨fsFormatImage_eq, fsMount_formatted, blank_freshHandle.pastEnd_takes⟩

end FailedWrite

end TigerOS.Otfs
