import TigerOS.Otfs.Invariant

/-! # What one call can do

A call is refused on its arguments, its name or its descriptor, and a refused
call changes nothing (`TigerOS.Otfs.fsStep_refused`). Every other call on a sound
handle has one of the effects listed in `TigerOS.Otfs.Effect`
(`TigerOS.Otfs.fsStep_effect`), and every effect keeps the invariant
(`TigerOS.Otfs.Effect.sound`). Facts about runs are proved from this list.
-/

namespace TigerOS.Otfs

open Foundation

/-! ## Refusals -/

/-- The refusal of a call that needs a descriptor in use. -/
def slotRefusal (flagsOf : Descriptor → Option UInt32) (fd : ℤ) : Option FsError :=
  match slotOf? fd with
  | none => some .arg
  | some slot => if flagsOf slot = none then some .state else none

/-- The refusal of a transfer, which also needs a buffer and a flag. -/
def transferRefusal (flagsOf : Descriptor → Option UInt32) (fd : ℤ) (noBuffer : Prop)
    [Decidable noBuffer] (needed : UInt32) : Option FsError :=
  match slotOf? fd with
  | none => some .arg
  | some slot =>
      if noBuffer then some .arg
      else
        match flagsOf slot with
        | none => some .state
        | some flags => if flags &&& needed = 0 then some .state else none

/-- The refusal of a call, given the names in use and the flags of the
descriptors in use. -/
def refusal (known : List UInt8 → Bool) (flagsOf : Descriptor → Option UInt32) :
    FsOp → Option FsError
  | .open none _ => some .arg
  | .open (some name) flags =>
      if validateName (some name.bytes) ≠ .ok () ∨ badFlags flags then some .arg
      else if known name.bytes = false ∧ flags &&& fsOCreate = 0 then some .notFound
      else none
  | .close fd => slotRefusal flagsOf fd
  | .seek fd _ => slotRefusal flagsOf fd
  | .read fd hasBuf len => transferRefusal flagsOf fd (len ≠ 0 ∧ hasBuf = false) fsORead
  | .write fd buf => transferRefusal flagsOf fd buf.Missing fsOWrite

/-- The names in use. -/
def known (fs : FsHandle) (name : List UInt8) : Bool := (findDirEntry fs name).isSome

/-- The flags of the descriptors in use. -/
def flagsOf (fs : FsHandle) (slot : Descriptor) : Option UInt32 :=
  if (fs.openFiles slot).inUse then some (fs.openFiles slot).flags else none

section Refusal

variable {fs : FsHandle} {slot : Descriptor}

theorem flagsOf_eq_none : flagsOf fs slot = none ↔ (fs.openFiles slot).inUse = false := by
  simp [flagsOf]

theorem flagsOf_eq_some {flags : UInt32} : flagsOf fs slot = some flags ↔
    (fs.openFiles slot).inUse = true ∧ (fs.openFiles slot).flags = flags := by
  simp [flagsOf]

theorem validateName_cases (name : List UInt8) :
    validateName (some name) = .ok () ∨ validateName (some name) = .error .arg := by
  simp only [validateName]
  split
  · exact .inr rfl
  · split
    · exact .inr rfl
    · exact .inl rfl

/-- A call that is not refused for its descriptor names a slot in use. -/
theorem slotRefusal_eq_none {fd : ℤ} :
    slotRefusal (flagsOf fs) fd = none ↔ ∃ slot, Names fs fd slot := by
  simp only [slotRefusal, Names]
  cases slotOf? fd with
  | none => simp
  | some slot => simp [flagsOf]

/-- A transfer that is not refused names a slot in use, with its buffer and its
flag. -/
theorem transferRefusal_eq_none {fd : ℤ} {noBuffer : Prop} [Decidable noBuffer]
    {needed : UInt32} : transferRefusal (flagsOf fs) fd noBuffer needed = none ↔
      ¬ noBuffer ∧ ∃ slot, Names fs fd slot ∧ (fs.openFiles slot).flags &&& needed ≠ 0 := by
  simp only [transferRefusal, Names]
  cases slotOf? fd with
  | none => simp
  | some slot =>
      by_cases missing : noBuffer
      · simp [missing]
      · cases inUse : (fs.openFiles slot).inUse <;> simp [missing, flagsOf, inUse]

/-- The two refusals of a call that needs a descriptor. -/
private theorem slotRefusal_eq_some {fd : ℤ} {e : FsError}
    (refused : slotRefusal (flagsOf fs) fd = some e) :
    (slotOf? fd = none ∧ e = .arg) ∨
    (∃ slot, slotOf? fd = some slot ∧ (fs.openFiles slot).inUse = false ∧ e = .state) := by
  simp only [slotRefusal] at refused
  cases named : slotOf? fd with
  | none =>
      rw [named] at refused
      exact .inl ⟨rfl, (Option.some.inj refused).symm⟩
  | some slot =>
      simp only [named, flagsOf_eq_none] at refused
      split at refused
      · rename_i closed
        exact .inr ⟨slot, rfl, closed, (Option.some.inj refused).symm⟩
      · cases refused

/-- The three refusals of a transfer. -/
private theorem transferRefusal_eq_some {fd : ℤ} {noBuffer : Prop} [Decidable noBuffer]
    {needed : UInt32} {e : FsError}
    (refused : transferRefusal (flagsOf fs) fd noBuffer needed = some e) :
    (slotOf? fd = none ∧ e = .arg) ∨ (∃ slot, slotOf? fd = some slot ∧ noBuffer ∧ e = .arg) ∨
    (∃ slot, slotOf? fd = some slot ∧ ¬ noBuffer ∧ ((fs.openFiles slot).inUse = false ∨
      (fs.openFiles slot).flags &&& needed = 0) ∧ e = .state) := by
  simp only [transferRefusal] at refused
  cases named : slotOf? fd with
  | none =>
      rw [named] at refused
      exact .inl ⟨rfl, (Option.some.inj refused).symm⟩
  | some slot =>
      simp only [named] at refused
      by_cases missing : noBuffer
      · rw [if_pos missing] at refused
        exact .inr (.inl ⟨slot, rfl, missing, (Option.some.inj refused).symm⟩)
      · rw [if_neg missing] at refused
        refine .inr (.inr ⟨slot, rfl, missing, ?_⟩)
        cases held : flagsOf fs slot with
        | none =>
            rw [held] at refused
            exact ⟨.inl (flagsOf_eq_none.mp held), (Option.some.inj refused).symm⟩
        | some flags =>
            simp only [held] at refused
            split at refused
            · rename_i denied
              rw [← (flagsOf_eq_some.mp held).2] at denied
              exact ⟨.inr denied, (Option.some.inj refused).symm⟩
            · cases refused

/-- **A refused call changes nothing.** -/
theorem fsStep_refused {op : FsOp} {e : FsError} (mounted : fs.mounted = true)
    (refused : refusal (known fs) (flagsOf fs) op = some e) : fsStep fs op = (.error e, fs) := by
  have common : validateCommon fs = .ok () := by rw [validateCommon, if_pos mounted]
  cases op with
  | «open» name flags =>
      cases name with
      | none =>
          cases Option.some.inj refused
          simp only [fsStep, fsOpen, common]
          rfl
      | some name =>
          simp only [refusal] at refused
          rcases validateName_cases name.bytes with valid | invalid
          · by_cases bad : badFlags flags
            · rw [if_pos (.inr bad)] at refused
              cases Option.some.inj refused
              simp only [fsStep, fsOpen, common, valid, if_pos bad]
              rfl
            · rw [if_neg (by simp [valid, bad])] at refused
              split at refused
              · rename_i missing
                cases Option.some.inj refused
                have absent : findDirEntry fs name.bytes = none := by
                  simpa [known] using missing.1
                simp only [fsStep, fsOpen, common, valid, if_neg bad, lookupOrCreate, absent,
                  if_pos missing.2]
                rfl
              · cases refused
          · rw [if_pos (.inl (by simp [invalid]))] at refused
            cases Option.some.inj refused
            simp only [fsStep, fsOpen, common, invalid]
            rfl
  | close fd =>
      simp only [refusal] at refused
      simp only [fsStep, fsClose, common]
      obtain ⟨named, rfl⟩ | ⟨slot, named, closed, rfl⟩ := slotRefusal_eq_some refused
      · rw [named]
        rfl
      · simp only [named, if_pos closed]
        rfl
  | seek fd offset =>
      simp only [refusal] at refused
      simp only [fsStep, fsSeek, common]
      obtain ⟨named, rfl⟩ | ⟨slot, named, closed, rfl⟩ := slotRefusal_eq_some refused
      · rw [named]
        rfl
      · simp only [named, if_pos closed]
        rfl
  | read fd hasBuf len =>
      simp only [refusal] at refused
      simp only [fsStep, fsRead, common]
      obtain ⟨named, rfl⟩ | ⟨slot, named, missing, rfl⟩ | ⟨slot, named, buffered, denied, rfl⟩ :=
        transferRefusal_eq_some refused
      · rw [named]
        rfl
      · simp only [named, if_pos missing]
        rfl
      · simp only [named, if_neg buffered, if_pos denied]
        rfl
  | write fd buf =>
      simp only [refusal] at refused
      simp only [fsStep, fsWrite, common]
      obtain ⟨named, rfl⟩ | ⟨slot, named, missing, rfl⟩ | ⟨slot, named, buffered, denied, rfl⟩ :=
        transferRefusal_eq_some refused
      · rw [named]
        rfl
      · simp only [named, if_pos missing]
        rfl
      · simp only [named, if_neg buffered, if_pos denied]
        rfl

end Refusal

/-! ## Effects -/

/-- The blocks of a file reach its recorded size. -/
def Backed (fs : FsHandle) (chains : FileIndex → List BlockIndex) (i : FileIndex) : Prop :=
  (fs.dirEntries i).sizeBytes.toNat ≤ fsBlockSize * (chains i).length

/-- The chains once the file of a slot has more blocks. -/
def lengthened (fs : FsHandle) (chains : FileIndex → List BlockIndex) (slot : Descriptor)
    (added : List BlockIndex) : FileIndex → List BlockIndex :=
  Function.update chains (fs.openFiles slot).dirIndex
    (chains (fs.openFiles slot).dirIndex ++ added)

/-- Bytes are stored through a slot at its offset, which moves past them. -/
structure Stored (fs : FsHandle) (chains : FileIndex → List BlockIndex) (slot : Descriptor)
    (mid : FsHandle) (added : List BlockIndex) (data : List UInt8) : Prop where
  extended : Extended fs mid (fs.openFiles slot).dirIndex (chains (fs.openFiles slot).dirIndex)
    added (fs.openFiles slot).offset.toNat data
  moved : mid.openFiles = (fs.advance slot data.length).openFiles
  reach : data ≠ [] → (fs.openFiles slot).offset.toNat + data.length ≤
    fsBlockSize * (chains (fs.openFiles slot).dirIndex ++ added).length

/-- How `fs_open` comes to an entry: it finds one, finds and empties one, or
creates one in the first unused place. -/
inductive Entered (fs : FsHandle) (chains : FileIndex → List BlockIndex) (name : List UInt8)
    (flags : UInt32) : FileIndex → FsHandle → (FileIndex → List BlockIndex) → Prop where
  | found {i : FileIndex} (found : findDirEntry fs name = some i)
      (keeps : flags &&& fsOTrunc = 0) : Entered fs chains name flags i fs chains
  | emptied {i : FileIndex} (found : findDirEntry fs name = some i)
      (empties : flags &&& fsOTrunc ≠ 0) : Entered fs chains name flags i
        (synced (truncated fs i (chains i))) (Function.update chains i [])
  | made {i : FileIndex} (missing : findDirEntry fs name = none) (unused : ¬ Used fs i) :
      Entered fs chains name flags i (synced (created fs i name)) chains

/-- The effects a call can have on a sound handle: what it answers, the handle
it leaves, and the chains there. -/
inductive Effect (fs : FsHandle) (chains : FileIndex → List BlockIndex) :
    FsOp → Except FsError FsValue → FsHandle → (FileIndex → List BlockIndex) → Prop where
  | refused {op : FsOp} {e : FsError} (refused : refusal (known fs) (flagsOf fs) op = some e) :
      Effect fs chains op (.error e) fs chains
  | opened {name : CString} {flags : UInt32} {i : FileIndex} {mid : FsHandle}
      {chains' : FileIndex → List BlockIndex} {fd : Descriptor}
      (valid : validateName (some name.bytes) = .ok ())
      (entered : Entered fs chains name.bytes flags i mid chains')
      (free : allocFd fs = some fd) :
      Effect fs chains (.open (some name) flags) (.ok (.descriptor fd))
        (mid.setOpenFile fd ⟨true, i, 0, flags⟩) chains'
  | noSlot {name : CString} {flags : UInt32} {i : FileIndex} {mid : FsHandle}
      {chains' : FileIndex → List BlockIndex}
      (valid : validateName (some name.bytes) = .ok ())
      (entered : Entered fs chains name.bytes flags i mid chains') :
      Effect fs chains (.open (some name) flags) (.error .noSpace) mid chains'
  | noEntry {name : CString} {flags : UInt32} :
      Effect fs chains (.open (some name) flags) (.error .noSpace) fs chains
  | closed {fd : ℤ} {slot : Descriptor} (named : Names fs fd slot) :
      Effect fs chains (.close fd) (.ok .done) (fs.setOpenFile slot OpenFile.zero) chains
  | sought {fd : ℤ} {offset : UInt32} {slot : Descriptor} (named : Names fs fd slot) :
      Effect fs chains (.seek fd offset) (.ok .done) (sought fs slot offset) chains
  | read {fd : ℤ} {hasBuf : Bool} {len : ℕ} {slot : Descriptor} {moved : ℕ}
      {answer : Except FsError FsValue} (named : Names fs fd slot)
      (exact : Backed fs chains (fs.openFiles slot).dirIndex → moved = readable fs slot len ∧
        answer = .ok (.bytes (readRange
          (contentAt fs.imageFile (chains (fs.openFiles slot).dirIndex))
          (fs.openFiles slot).offset.toNat (readable fs slot len)))) :
      Effect fs chains (.read fd hasBuf len) answer (fs.advance slot moved) chains
  | wrote {fd : ℤ} {buf : SourceBuffer} {slot : Descriptor} {mid : FsHandle}
      {added : List BlockIndex} (named : Names fs fd slot) (buffer : ¬ buf.Missing)
      (writes : (fs.openFiles slot).flags &&& fsOWrite ≠ 0)
      (stored : Stored fs chains slot mid added buf.data)
      (sized : added.length = blocksFor (fs.openFiles slot).offset.toNat buf.data.length -
        (chains (fs.openFiles slot).dirIndex).length) :
      Effect fs chains (.write fd buf) (.ok (.written buf.data.length))
        (synced (grown mid slot (fs.openFiles slot).dirIndex)) (lengthened fs chains slot added)
  | filled {fd : ℤ} {buf : SourceBuffer} {slot : Descriptor} {mid : FsHandle}
      {added : List BlockIndex} {done : ℕ} (named : Names fs fd slot) (buffer : ¬ buf.Missing)
      (writes : (fs.openFiles slot).flags &&& fsOWrite ≠ 0)
      (stored : Stored fs chains slot mid added (buf.data.take done))
      (full : freeBlocks mid.fat = [])
      (short : (chains (fs.openFiles slot).dirIndex).length + added.length <
        blocksFor (fs.openFiles slot).offset.toNat buf.data.length) :
      Effect fs chains (.write fd buf) (.error .noSpace) mid (lengthened fs chains slot added)

section Effects

variable {fs mid : FsHandle} {chains chains' : FileIndex → List BlockIndex}

/-- Moving a slot keeps what it is open on. -/
theorem slot_advance (fs : FsHandle) (slot : Descriptor) (chunk : ℕ) (fd : Descriptor) :
    ((fs.advance slot chunk).openFiles fd).inUse = (fs.openFiles fd).inUse ∧
      ((fs.advance slot chunk).openFiles fd).dirIndex = (fs.openFiles fd).dirIndex := by
  rw [FsHandle.advance_openFiles]
  by_cases same : fd = slot
  · subst same
    rw [Function.update_self]
    exact ⟨rfl, rfl⟩
  · rw [Function.update_of_ne same]
    exact ⟨rfl, rfl⟩

/-- The slot of a store ends past the stored bytes. -/
theorem Stored.offset {slot : Descriptor} {added : List BlockIndex} {data : List UInt8}
    (stored : Stored fs chains slot mid added data) :
    (mid.openFiles slot).offset.toNat = (fs.openFiles slot).offset.toNat + data.length := by
  rw [stored.moved]
  refine FsHandle.toNat_offset_advance (FatChain.length_le stored.extended.chain) fun some => ?_
  exact stored.reach fun nothing => some (by rw [nothing, List.length_nil])

theorem Stored.sound {slot : Descriptor} {added : List BlockIndex} {data : List UInt8}
    (stored : Stored fs chains slot mid added data) (sound : Sound fs chains)
    (inUse : (fs.openFiles slot).inUse = true) : Sound mid (lengthened fs chains slot added) := by
  refine sound.extended (sound.opened slot inUse) stored.extended fun fd => ?_
  rw [stored.moved]
  exact slot_advance fs slot _ fd

/-- Coming to an entry keeps the invariant, and the entry is in use after it. -/
theorem Entered.sound {name : CString} {flags : UInt32} {i : FileIndex}
    (entered : Entered fs chains name.bytes flags i mid chains')
    (valid : validateName (some name.bytes) = .ok ()) (sound : Sound fs chains) :
    Sound mid chains' ∧ Used mid i := by
  have short := (validateName_eq_ok.mp valid).1.2
  cases entered with
  | found found keeps =>
      exact ⟨sound, ((findDirEntry_eq_some sound.distinct name.noNul short).mp found).1⟩
  | emptied found empties =>
      have used := ((findDirEntry_eq_some sound.distinct name.noNul short).mp found).1
      refine ⟨(sound.truncated i).synced, ?_⟩
      rw [Used, synced_dirEntries, truncated, FsHandle.setEntry_same]
      exact used
  | made missing unused =>
      refine ⟨(sound.created unused name.noNul valid fun j used same => ?_).synced, ?_⟩
      · have found := (findDirEntry_eq_some sound.distinct name.noNul short).mpr ⟨used, same⟩
        rw [missing] at found
        cases found
      · rw [Used, synced_dirEntries, created, FsHandle.setEntry_same]
        exact (by decide : (1 : UInt8) ≠ 0)

/-- **Every effect keeps the invariant.** -/
theorem Effect.sound {op : FsOp} {answer : Except FsError FsValue}
    (effect : Effect fs chains op answer mid chains') (sound : Sound fs chains) :
    Sound mid chains' := by
  cases effect with
  | refused _ => exact sound
  | opened valid entered _ =>
      obtain ⟨kept, used⟩ := entered.sound valid sound
      exact kept.setOpenFile fun _ => used
  | noSlot valid entered => exact (entered.sound valid sound).1
  | noEntry => exact sound
  | closed _ => exact sound.setOpenFile fun inUse => by cases inUse
  | sought named => exact sound.sought named.2 _
  | read _ _ => exact sound.advance _ _
  | wrote named _ _ stored _ => exact ((stored.sound sound named.2).grown _ _).synced
  | filled named _ _ stored _ _ => exact stored.sound sound named.2

private theorem fsOpen_effect {name : CString} {flags : UInt32} (sound : Sound fs chains)
    (admitted : refusal (known fs) (flagsOf fs) (.open (some name) flags) = none) :
    ∃ chains', Effect fs chains (.open (some name) flags)
      ((fsOpen fs (some name) flags).1.map .descriptor)
        (fsOpen fs (some name) flags).2 chains' := by
  simp only [refusal] at admitted
  split at admitted
  · cases admitted
  · rename_i good
    simp only [not_or, ne_eq, not_not] at good
    obtain ⟨valid, good⟩ := good
    rw [fsOpen_eq sound.mounted sound.faultless valid good chains sound.chain]
    have slot {i : FileIndex} {mid : FsHandle} {chains' : FileIndex → List BlockIndex}
        (entered : Entered fs chains name.bytes flags i mid chains')
        (same : mid.openFiles = fs.openFiles) :
        ∃ chains', Effect fs chains (.open (some name) flags)
          ((openSlot mid i flags).1.map .descriptor) (openSlot mid i flags).2 chains' := by
      have search : allocFd mid = allocFd fs := by rw [allocFd, allocFd, same]
      refine ⟨chains', ?_⟩
      rw [openSlot, search]
      cases free : allocFd fs with
      | none => exact .noSlot valid entered
      | some fd => exact .opened valid entered free
    cases found : findDirEntry fs name.bytes with
    | some i =>
        simp only [openEntry]
        by_cases empties : flags &&& fsOTrunc ≠ 0
        · rw [if_pos empties]
          exact slot (.emptied found empties) rfl
        · rw [if_neg empties]
          exact slot (.found found (not_not.mp empties)) rfl
    | none =>
        have creates : flags &&& fsOCreate ≠ 0 := by
          intro zero
          rw [if_pos ⟨by simp [known, found], zero⟩] at admitted
          cases admitted
        simp only [if_neg creates]
        cases place : (List.finRange fsMaxFiles).find? fun i =>
            decide ((fs.dirEntries i).used = 0) with
        | none => exact ⟨chains, .noEntry⟩
        | some i =>
            have unused : ¬ Used fs i := by
              have holds := List.find?_some place
              rw [decide_eq_true_eq] at holds
              exact not_not.mpr holds
            simp only [openEntry, truncated_created, synced_synced, ite_self]
            exact slot (.made found unused) rfl

private theorem fsRead_effect {fd : ℤ} {hasBuf : Bool} {len : ℕ} (sound : Sound fs chains)
    (admitted : refusal (known fs) (flagsOf fs) (.read fd hasBuf len) = none) :
    ∃ chains', Effect fs chains (.read fd hasBuf len)
      ((fsRead fs fd hasBuf len).1.map .bytes) (fsRead fs fd hasBuf len).2 chains' := by
  obtain ⟨buffer, slot, named, reads⟩ := transferRefusal_eq_none.mp admitted
  have chain := sound.chain _ (sound.opened slot named.2)
  refine ⟨chains, ?_⟩
  by_cases backed : Backed fs chains (fs.openFiles slot).dirIndex
  · obtain answered | ⟨_, incomplete⟩ :=
      fsRead_eq sound.mounted named buffer reads sound.faultless chain backed
    · rw [answered]
      exact .read named fun _ => ⟨rfl, rfl⟩
    · exact absurd sound.complete incomplete
  · obtain ⟨moved, same⟩ := fsRead_moves sound.mounted named buffer reads sound.faultless chain
    rw [same]
    exact .read named fun holds => absurd holds backed

private theorem fsWrite_effect {fd : ℤ} {buf : SourceBuffer} (sound : Sound fs chains)
    (admitted : refusal (known fs) (flagsOf fs) (.write fd buf) = none) :
    ∃ chains', Effect fs chains (.write fd buf)
      ((fsWrite fs fd buf).1.map .written) (fsWrite fs fd buf).2 chains' := by
  obtain ⟨buffer, slot, named, writes⟩ := transferRefusal_eq_none.mp admitted
  have chain := sound.chain _ (sound.opened slot named.2)
  obtain ⟨mid, added, done, doneLe, extended, moved, reach, outcome⟩ :=
    fsWrite_spec sound.mounted named buffer writes sound.faultless chain
  have taken : (buf.data.take done).length = done := by
    rw [List.length_take]
    omega
  have stored : Stored fs chains slot mid added (buf.data.take done) := by
    refine ⟨extended, ?_, ?_⟩
    · rw [moved, taken]
    · intro some
      rw [taken]
      refine reach fun zero => some ?_
      rw [zero, List.take_zero]
  refine ⟨lengthened fs chains slot added, ?_⟩
  obtain ⟨rfl, sized, same⟩ | ⟨full, short, same⟩ | ⟨incomplete, _⟩ := outcome
  · rw [same]
    rw [List.take_length] at stored
    exact .wrote named buffer writes stored sized
  · rw [same]
    exact .filled named buffer writes stored full short
  · exact absurd (sound.complete.trans extended.size) incomplete

/-- **What one call can do.** On a sound handle every call has one of the
effects. -/
theorem fsStep_effect (sound : Sound fs chains) (op : FsOp) :
    ∃ chains', Effect fs chains op (fsStep fs op).1 (fsStep fs op).2 chains' := by
  cases refuses : refusal (known fs) (flagsOf fs) op with
  | some e =>
      rw [fsStep_refused sound.mounted refuses]
      exact ⟨chains, .refused refuses⟩
  | none =>
      cases op with
      | «open» name flags =>
          cases name with
          | none => cases refuses
          | some name => exact fsOpen_effect sound refuses
      | close fd =>
          obtain ⟨slot, named⟩ := slotRefusal_eq_none.mp refuses
          simp only [fsStep, fsClose_eq sound.mounted named]
          exact ⟨chains, .closed named⟩
      | seek fd offset =>
          obtain ⟨slot, named⟩ := slotRefusal_eq_none.mp refuses
          simp only [fsStep, fsSeek_eq sound.mounted named]
          exact ⟨chains, .sought named⟩
      | read fd hasBuf len => exact fsRead_effect sound refuses
      | write fd buf => exact fsWrite_effect sound refuses

end Effects

end TigerOS.Otfs
