import TigerOS.Otfs.View

/-! # Opens that fail

An open creates or empties its file before it looks for a descriptor. With no
descriptor left it fails after that, so that what it leaves is as before exactly when
it had nothing to create or to empty (`TigerOS.Otfs.failed_open_unchanged`).
-/

namespace TigerOS.Otfs

open Foundation

/-- Two handles have the same files, FAT and descriptors. -/
structure SameFiles (fs fs' : FsHandle) : Prop where
  view : SameView fs fs'
  fat : fs'.fat = fs.fat
  openFiles : fs'.openFiles = fs.openFiles

/-- An open that fails leaves the files, the FAT and the descriptors as they were. -/
def OpenUnchanged (fs : FsHandle) (name : Option CString) (flags : UInt32) : Prop :=
  ∀ e, (fsOpen fs name flags).1 = .error e → SameFiles fs (fsOpen fs name flags).2

/-- There is a descriptor for an open, or it is refused, or it has nothing to create or
to empty. -/
def OpenClean (fs : FsHandle) (name : Option CString) (flags : UInt32) : Prop :=
  allocFd fs ≠ none ∨
  match name with
  | none => True
  | some name =>
      validateName (some name.bytes) ≠ .ok () ∨ badFlags flags ∨
      match findDirEntry fs name.bytes with
      | some i => flags &&& fsOTrunc = 0 ∨
          ((fs.dirEntries i).firstBlock = fatEnd ∧ (fs.dirEntries i).sizeBytes = 0)
      | none => flags &&& fsOCreate = 0 ∨ ∀ i, (fs.dirEntries i).used ≠ 0

section FailedOpen

variable {fs : FsHandle} {chains : FileIndex → List BlockIndex} {name : CString} {flags : UInt32}

theorem SameFiles.refl (fs : FsHandle) : SameFiles fs fs := ⟨fun _ _ _ => rfl, rfl, rfl⟩

/-- Flushing shows nothing. -/
theorem Sound.sameFiles_synced (sound : Sound fs chains) : SameFiles fs (Otfs.synced fs) where
  view := viewed_congr sound sound.synced (fun _ => rfl) (fun _ _ => rfl) (fun _ _ => rfl)
    (fun _ _ => synced_contentAt _)
  fat := rfl
  openFiles := rfl

/-- An open with no descriptor left ends in the handle it comes to. -/
private theorem openSlot_full {i : FileIndex} (full : allocFd fs = none) (mid : FsHandle)
    (same : mid.openFiles = fs.openFiles) : openSlot mid i flags = (.error .noSpace, mid) := by
  have search : allocFd mid = allocFd fs := by rw [allocFd, allocFd, same]
  rw [openSlot, search, full]

/-- An open with a descriptor left does not fail at its end. -/
private theorem openSlot_free {mid : FsHandle} {i : FileIndex} {e : FsError}
    (free : allocFd fs ≠ none) (same : mid.openFiles = fs.openFiles) :
    (openSlot mid i flags).1 ≠ .error e := by
  have search : allocFd mid = allocFd fs := by rw [allocFd, allocFd, same]
  rw [openSlot, search]
  cases slot : allocFd fs with
  | none => exact absurd slot free
  | some fd => exact fun same => by cases same

theorem truncated_name {i : FileIndex} {blocks : List BlockIndex} (j : FileIndex) :
    ((truncated fs i blocks).dirEntries j).name = (fs.dirEntries j).name := by
  by_cases same : j = i
  · rw [same, truncated_here]
  · rw [truncated_other same]

/-- Emptying a file that is there changes it, unless it has no blocks and no size. -/
private theorem truncated_sameFiles (sound : Sound fs chains) {i : FileIndex}
    (found : findDirEntry fs name.bytes = some i)
    (valid : validateName (some name.bytes) = .ok ()) :
    SameFiles fs (synced (truncated fs i (chains i))) ↔
      (fs.dirEntries i).firstBlock = fatEnd ∧ (fs.dirEntries i).sizeBytes = 0 := by
  have short := (validateName_eq_ok.mp valid).1.2
  have used := ((findDirEntry_eq_some sound.distinct name.noNul short).mp found).1
  have chain := sound.chain i used
  constructor
  · intro same
    have nothing : chains i = [] := by
      by_contra some
      obtain ⟨b, member⟩ := List.exists_mem_of_ne_nil _ some
      have freed : fs.fat b = fatFree := by
        rw [← same.fat]
        exact if_pos member
      exact FatChain.cell_ne_free chain member freed
    have find : findDirEntry (synced (truncated fs i (chains i))) name.bytes = some i := by
      rw [← found]
      exact findDirEntry_congr truncated_used truncated_name name.bytes
    have views := same.view name 0 0
    rw [viewed_eq sound, viewed_eq (sound.truncated i).synced, if_pos valid, if_pos valid, found,
      find, Option.map_some, Option.map_some, Option.some_inj, Prod.mk.injEq] at views
    refine ⟨(FatChain.eq_nil_iff chain).mp nothing, ?_⟩
    rw [← views.1, synced_dirEntries, truncated_here]
  · intro blank
    have nothing : chains i = [] := (FatChain.eq_nil_iff chain).mpr blank.1
    have still : truncated fs i [] = fs := by
      rw [truncated, freed_nil, ← blank.1, ← blank.2]
      exact congrArg (fun dir => { fs with dirEntries := dir }) (Function.update_eq_self i _)
    rw [nothing, still]
    exact sound.sameFiles_synced

/-- Creating a file that is missing shows. -/
private theorem created_shows (sound : Sound fs chains) {i : FileIndex} (unused : ¬ Used fs i)
    (missing : findDirEntry fs name.bytes = none)
    (valid : validateName (some name.bytes) = .ok ()) :
    ¬ SameFiles fs (synced (created fs i name.bytes)) := by
  intro same
  have short := (validateName_eq_ok.mp valid).1.2
  obtain ⟨sound', used⟩ := (@Entered.made fs chains name.bytes 0 i missing unused).sound valid sound
  have find : findDirEntry (synced (created fs i name.bytes)) name.bytes = some i := by
    refine (findDirEntry_eq_some sound'.distinct name.noNul short).mpr ⟨used, ?_⟩
    rw [synced_dirEntries, created, FsHandle.setEntry_same]
    exact nameString_newEntry name.noNul short
  have views := same.view name 0 0
  rw [viewed_eq sound, viewed_eq sound', if_pos valid, if_pos valid, find, missing] at views
  cases views

/-- An open that is not refused, with a descriptor left, fails only on a full directory. -/
private theorem openUnchanged_free (sound : Sound fs chains) (free : allocFd fs ≠ none)
    (valid : validateName (some name.bytes) = .ok ()) (good : ¬ badFlags flags) :
    OpenUnchanged fs (some name) flags := by
  intro e failed
  rw [fsOpen_eq sound.mounted sound.faultless valid good chains sound.chain] at failed ⊢
  cases found : findDirEntry fs name.bytes with
  | some i =>
      simp only [found, openEntry] at failed
      refine absurd failed (openSlot_free free ?_)
      split
      · rfl
      · rfl
  | none =>
      by_cases creates : flags &&& fsOCreate = 0
      · simp only [if_pos creates]
        exact .refl fs
      · simp only [found, if_neg creates] at failed ⊢
        cases place : (List.finRange fsMaxFiles).find? fun i =>
            decide ((fs.dirEntries i).used = 0) with
        | none => exact .refl fs
        | some i =>
            simp only [place, openEntry, truncated_created, synced_synced, ite_self] at failed
            exact absurd failed (openSlot_free free rfl)

/-- An open that is not refused, with no descriptor left, leaves what it creates or
empties. -/
private theorem openUnchanged_full (sound : Sound fs chains) (full : allocFd fs = none)
    (valid : validateName (some name.bytes) = .ok ()) (good : ¬ badFlags flags) :
    OpenUnchanged fs (some name) flags ↔
      match findDirEntry fs name.bytes with
      | some i => flags &&& fsOTrunc = 0 ∨
          ((fs.dirEntries i).firstBlock = fatEnd ∧ (fs.dirEntries i).sizeBytes = 0)
      | none => flags &&& fsOCreate = 0 ∨ ∀ i, (fs.dirEntries i).used ≠ 0 := by
  have ends {mid : FsHandle} {e : FsError} (same : fsOpen fs (some name) flags = (.error e, mid)) :
      OpenUnchanged fs (some name) flags ↔ SameFiles fs mid := by
    unfold OpenUnchanged
    rw [same]
    exact ⟨fun kept => kept e rfl, fun kept _ _ => kept⟩
  have opens := fsOpen_eq sound.mounted sound.faultless valid good chains sound.chain
  cases found : findDirEntry fs name.bytes with
  | some i =>
      simp only [found, openEntry] at opens
      by_cases empties : flags &&& fsOTrunc ≠ 0
      · rw [if_pos empties, openSlot_full full (synced (truncated fs i (chains i))) rfl] at opens
        rw [ends opens, truncated_sameFiles sound found valid]
        simp only [empties, false_or]
      · rw [if_neg empties, openSlot_full full fs rfl] at opens
        rw [ends opens]
        exact iff_of_true (.refl fs) (.inl (not_not.mp empties))
  | none =>
      simp only [found] at opens
      by_cases creates : flags &&& fsOCreate = 0
      · rw [if_pos creates] at opens
        rw [ends opens]
        exact iff_of_true (.refl fs) (.inl creates)
      · rw [if_neg creates] at opens
        cases place : (List.finRange fsMaxFiles).find? fun i =>
            decide ((fs.dirEntries i).used = 0) with
        | none =>
            simp only [place] at opens
            rw [ends opens]
            refine iff_of_true (.refl fs) (.inr fun i unused => ?_)
            exact List.find?_eq_none.mp place i (List.mem_finRange i) (decide_eq_true unused)
        | some i =>
            have unused := List.find?_some place
            rw [decide_eq_true_eq] at unused
            simp only [place, openEntry, truncated_created, synced_synced, ite_self] at opens
            rw [openSlot_full full (synced (created fs i name.bytes)) rfl] at opens
            rw [ends opens]
            refine iff_of_false (created_shows sound (not_not.mpr unused) found valid)
              fun clean => ?_
            exact clean.elim creates fun used => used i unused

/-- **An open that fails** changes nothing exactly where it is clean. -/
theorem Sound.openUnchanged_iff (sound : Sound fs chains) (name : Option CString)
    (flags : UInt32) : OpenUnchanged fs name flags ↔ OpenClean fs name flags := by
  have common : validateCommon fs = .ok () := by rw [validateCommon, if_pos sound.mounted]
  cases name with
  | none =>
      refine iff_of_true (fun e _ => ?_) (.inr trivial)
      simp only [fsOpen, common]
      exact .refl fs
  | some name =>
      rcases validateName_cases name.bytes with valid | invalid
      · by_cases bad : badFlags flags
        · refine iff_of_true (fun e _ => ?_) (.inr (.inr (.inl bad)))
          simp only [fsOpen, common, valid, if_pos bad]
          exact .refl fs
        · by_cases full : allocFd fs = none
          · rw [openUnchanged_full sound full valid bad]
            simp only [OpenClean, full, valid, bad, ne_eq, not_true_eq_false, false_or]
          · exact iff_of_true (openUnchanged_free sound full valid bad) (.inl full)
      · refine iff_of_true (fun e _ => ?_) (.inr (.inl ?_))
        · simp only [fsOpen, common, invalid]
          exact .refl fs
        · rw [invalid]
          exact fun same => by cases same

/-- **Failed opens.** After any run from a freshly formatted image, an open that fails
leaves the files, the FAT and the descriptors as they were exactly where a descriptor is
left, or it is refused, or it has nothing to create or to empty. -/
theorem failed_open_unchanged {file : ImageFile} (formatted : fsFormatImage [] = .ok file)
    (mounted : fsMount file = .ok fs) (ops : List FsOp) (name : Option CString) (flags : UInt32) :
    OpenUnchanged (otfs.state fs ops) name flags ↔ OpenClean (otfs.state fs ops) name flags := by
  rw [eq_freshHandle formatted mounted]
  obtain ⟨chains, sound⟩ := sound_run sound_freshHandle ops
  exact sound.openUnchanged_iff name flags

/-! ## A full table -/

/-- The flags of a writer that creates. -/
def writerFlags : UInt32 := fsOWrite ||| fsOCreate

/-- The same file is opened for every slot of the table. -/
def fullTableRun : List FsOp := List.replicate 16 (.open (some nameA) writerFlags)

theorem failed_open_unchanged_full :
    OpenUnchanged (otfs.state freshHandle fullTableRun) (some nameA) writerFlags ↔
      OpenClean (otfs.state freshHandle fullTableRun) (some nameA) writerFlags :=
  failed_open_unchanged fsFormatImage_eq fsMount_formatted fullTableRun (some nameA) writerFlags

/-- The first `k` slots are open, and of two files only the first is there. -/
structure OpenedTimes (fs : FsHandle) (k : ℕ) : Prop where
  sound : ∃ chains, Sound fs chains
  found : findDirEntry fs nameA.bytes = some 0
  missing : findDirEntry fs nameB.bytes = none
  unused : (fs.dirEntries 1).used = 0
  slots : ∀ fd : Descriptor, (fs.openFiles fd).inUse = true ↔ fd.val < k

/-- Opening the file once more takes the next slot. -/
theorem OpenedTimes.next {k : ℕ} (opened : OpenedTimes fs k) (room : k < fsMaxOpenFiles) :
    OpenedTimes (otfs.step fs (.open (some nameA) writerFlags)).2 (k + 1) := by
  obtain ⟨chains, sound⟩ := opened.sound
  have free : allocFd fs = some ⟨k, room⟩ := by
    refine List.find?_eq_some_iff_getElem.mpr ⟨?_, k, ?_, ?_, ?_⟩
    · exact decide_eq_true (Bool.eq_false_iff.mpr fun inUse =>
        Nat.lt_irrefl k ((opened.slots ⟨k, room⟩).mp inUse))
    · rw [List.length_finRange]
      exact room
    · exact List.getElem_finRange _
    · intro j before
      rw [List.getElem_finRange, (opened.slots _).mpr before]
      rfl
  have opens : (otfs.step fs (.open (some nameA) writerFlags)).2 =
      fs.setOpenFile ⟨k, room⟩ ⟨true, 0, 0, writerFlags⟩ := by
    change (fsOpen fs (some nameA) writerFlags).2 = _
    rw [fsOpen_eq sound.mounted sound.faultless valid_nameA (by decide) chains sound.chain]
    simp only [opened.found, openEntry]
    rw [if_neg (by decide), openSlot, free]
  rw [opens]
  have used := ((findDirEntry_eq_some sound.distinct nameA.noNul
    (validateName_eq_ok.mp valid_nameA).1.2).mp opened.found).1
  refine ⟨⟨chains, sound.setOpenFile fun _ => used⟩, opened.found, opened.missing, opened.unused,
    fun fd => ?_⟩
  by_cases same : fd = ⟨k, room⟩
  · rw [same, FsHandle.setOpenFile_same]
    exact iff_of_true rfl (Nat.lt_succ_self k)
  · rw [FsHandle.setOpenFile_other _ same, opened.slots]
    have other : fd.val ≠ k := fun equal => same (Fin.ext equal)
    omega

theorem OpenedTimes.run {k : ℕ} (opened : OpenedTimes fs k) (more : ℕ)
    (room : k + more ≤ fsMaxOpenFiles) :
    OpenedTimes (otfs.state fs (List.replicate more (.open (some nameA) writerFlags)))
      (k + more) := by
  induction more generalizing fs k with
  | zero => exact opened
  | succ more ih =>
      rw [List.replicate_succ, Machine.state_cons]
      have rest := ih (opened.next (by omega)) (by omega)
      rwa [Nat.add_right_comm] at rest

/-- The first open creates the file. -/
theorem Blank.openedTimes (blank : Blank fs) :
    OpenedTimes (otfs.step fs (.open (some nameA) writerFlags)).2 1 := by
  have opens : (otfs.step fs (.open (some nameA) writerFlags)).2 =
      firstOpened fs nameA writerFlags :=
    congrArg Prod.snd (blank.fsOpen_eq valid_nameA (by decide) (by decide))
  rw [opens]
  have sound := @Blank.sound_firstOpened _ _ writerFlags blank valid_nameA
  have first : (firstOpened fs nameA writerFlags).dirEntries 0 = newEntry nameA.bytes :=
    FsHandle.setEntry_same fs 0 (newEntry nameA.bytes)
  have others {j : FileIndex} (other : j ≠ 0) :
      ¬ Used (firstOpened fs nameA writerFlags) j := by
    change ¬ ((fs.setEntry 0 (newEntry nameA.bytes)).dirEntries j).used ≠ 0
    rw [FsHandle.setEntry_other _ other]
    exact blank.unused j
  have named : ((firstOpened fs nameA writerFlags).dirEntries 0).nameString = nameA.bytes := by
    rw [first]
    exact nameString_newEntry nameA.noNul (by decide)
  refine ⟨⟨_, sound⟩, ?_, ?_, not_not.mp (others (by decide)), ?_⟩
  · refine (findDirEntry_eq_some sound.distinct nameA.noNul (by decide)).mpr ⟨?_, named⟩
    rw [Used, first]
    exact (by decide : (1 : UInt8) ≠ 0)
  · cases search : findDirEntry (firstOpened fs nameA writerFlags) nameB.bytes with
    | none => rfl
    | some j =>
        obtain ⟨used, same⟩ :=
          (findDirEntry_eq_some sound.distinct nameB.noNul (by decide)).mp search
        by_cases here : j = 0
        · rw [here, named] at same
          exact absurd same (by decide)
        · exact absurd used (others here)
  · intro fd
    by_cases here : fd = 0
    · rw [here, firstOpened_slot]
      exact iff_of_true rfl (Nat.lt_succ_self 0)
    · rw [firstOpened, FsHandle.setOpenFile_other _ here]
      refine iff_of_false (fun inUse => ?_) fun below => here (Fin.ext (Nat.lt_one_iff.mp below))
      exact absurd ((blank.closed fd).symm.trans inUse) Bool.false_ne_true

/-- An open that would create a second file fails then, and creates it. -/
theorem Blank.fullTable_creates (blank : Blank fs) :
    ¬ OpenUnchanged (otfs.state fs fullTableRun) (some nameB) writerFlags := by
  have opened : OpenedTimes (otfs.state fs fullTableRun) 16 := by
    rw [fullTableRun, List.replicate_succ, Machine.state_cons]
    exact blank.openedTimes.run 15 le_rfl
  obtain ⟨chains, sound⟩ := opened.sound
  have full : allocFd (otfs.state fs fullTableRun) = none := by
    apply List.find?_eq_none.mpr
    intro fd _
    rw [(opened.slots fd).mpr fd.isLt]
    exact Bool.false_ne_true
  rw [sound.openUnchanged_iff]
  intro clean
  rcases clean with free | invalid | bad | nothing
  · exact free full
  · exact invalid (by decide)
  · exact absurd bad (by decide)
  · rw [opened.missing] at nothing
    rcases nothing with keeps | used
    · exact absurd keeps (by decide)
    · exact used 1 opened.unused

theorem fullTableRun_creates : fsFormatImage [] = .ok formattedImage ∧
    fsMount formattedImage = .ok freshHandle ∧
    ¬ OpenUnchanged (otfs.state freshHandle fullTableRun) (some nameB) writerFlags :=
  ⟨fsFormatImage_eq, fsMount_formatted, blank_freshHandle.fullTable_creates⟩

end FailedOpen

end TigerOS.Otfs
