import Mathlib.Tactic
import TigerOS.Foundation.Range

/-! # The image file

The image is a file of bytes reached through two calls, `seek_and_read` and
`seek_and_write`. Either may fail: a read past the end of the file is short, and
the host may cut any transfer. The fates of the coming transfers are part of the
file, so a run in which the image I/O succeeds is one whose file carries no
fates (`TigerOS.Otfs.ImageFile.Faultless`).
-/

namespace TigerOS.Otfs

open Foundation

/-- The error codes of the file system. -/
inductive FsError where
  | arg
  | io
  | state
  | notFound
  | noSpace
  deriving DecidableEq, Repr

/-- The fate of one transfer: it completes, or it fails after `count` bytes
reached the image. -/
inductive Transfer where
  | done
  | cut (count : ℕ)
  deriving DecidableEq, Repr

/-- An open image file. Transfers past the end of `transfers` complete. -/
structure ImageFile where
  size : ℕ
  byte : ℕ → UInt8
  transfers : List Transfer
  zeroPast : ∀ p, size ≤ p → byte p = 0

namespace ImageFile

/-- The file created by `fopen` with mode `"wb+"`. -/
def empty (transfers : List Transfer) : ImageFile where
  size := 0
  byte := fun _ => 0
  transfers := transfers
  zeroPast := fun _ _ => rfl

/-- Storing bytes at an offset; storing past the end extends the file, any gap
reading as zeros. -/
def store (file : ImageFile) (offset : ℕ) (data : List UInt8) : ImageFile where
  size := if data = [] then file.size else max file.size (offset + data.length)
  byte := writeRange file.byte offset data
  transfers := file.transfers
  zeroPast := by
    intro p past
    by_cases nothing : data = []
    · subst nothing
      rw [writeRange_nil]
      exact file.zeroPast p (by simpa using past)
    · simp only [nothing, ↓reduceIte] at past
      rw [writeRange_outside (.inr (by omega))]
      exact file.zeroPast p (by omega)

theorem size_le_store {file : ImageFile} {offset : ℕ} {data : List UInt8} :
    file.size ≤ (file.store offset data).size := by
  simp only [store]
  split <;> omega

/-- Files of one size, bytes and fates are equal. -/
private theorem eq_of_fields {file other : ImageFile} (size : file.size = other.size)
    (byte : file.byte = other.byte) (transfers : file.transfers = other.transfers) :
    file = other := by
  obtain ⟨_, _, _, _⟩ := file
  obtain ⟨_, _, _, _⟩ := other
  simp only at size byte transfers
  subst size byte transfers
  rfl

theorem store_idem (file : ImageFile) (offset : ℕ) (data : List UInt8) :
    (file.store offset data).store offset data = file.store offset data := by
  refine eq_of_fields ?_ writeRange_idem rfl
  simp only [store]
  split <;> omega

theorem store_comm (file : ImageFile) {offset offset' : ℕ} {data data' : List UInt8}
    (apart : offset + data.length ≤ offset' ∨ offset' + data'.length ≤ offset) :
    (file.store offset data).store offset' data' =
      (file.store offset' data').store offset data := by
  refine eq_of_fields ?_ (writeRange_comm apart) rfl
  simp only [store]
  split <;> split <;> omega

/-- The fate of the next transfer, and the file once it is used up. -/
def nextTransfer (file : ImageFile) : Transfer × ImageFile :=
  match file.transfers with
  | [] => (.done, file)
  | fate :: rest => (fate, { file with transfers := rest })

/-- No coming transfer fails. -/
def Faultless (file : ImageFile) : Prop := file.transfers = []

/-- `file'` came from `file` by transfers that changed bytes only where `touched`
holds, and brought no faults of their own. -/
structure Changed (file file' : ImageFile) (touched : ℕ → Prop) : Prop where
  size : file.size ≤ file'.size
  byte : ∀ p, ¬ touched p → file'.byte p = file.byte p
  faultless : file.Faultless → file'.Faultless

namespace Changed

variable {file mid file' : ImageFile} {touched wider : ℕ → Prop}

theorem refl (file : ImageFile) (touched : ℕ → Prop) : file.Changed file touched :=
  ⟨le_rfl, fun _ _ => rfl, id⟩

theorem trans (first : file.Changed mid touched) (second : mid.Changed file' touched) :
    file.Changed file' touched :=
  ⟨first.size.trans second.size,
    fun p outside => (second.byte p outside).trans (first.byte p outside),
    fun faultless => second.faultless (first.faultless faultless)⟩

theorem mono (changed : file.Changed file' touched) (implies : ∀ p, touched p → wider p) :
    file.Changed file' wider :=
  ⟨changed.size, fun p outside => changed.byte p fun inside => outside (implies p inside),
    changed.faultless⟩

end Changed

end ImageFile

/-- `seek_and_read`. -/
def seekAndRead (file : ImageFile) (offset len : ℕ) :
    Except FsError (List UInt8) × ImageFile :=
  match file.nextTransfer with
  | (.cut _, file) => (.error .io, file)
  | (.done, file) =>
      -- fread is short when the file ends inside the range
      if offset + len ≤ file.size then (.ok (readRange file.byte offset len), file)
      else (.error .io, file)

/-- `seek_and_write`. -/
def seekAndWrite (file : ImageFile) (offset : ℕ) (data : List UInt8) :
    Except FsError Unit × ImageFile :=
  match file.nextTransfer with
  | (.cut count, file) => (.error .io, file.store offset (data.take count))
  | (.done, file) => (.ok (), file.store offset data)

section Changed

variable (file : ImageFile) (offset len : ℕ) (data : List UInt8)

theorem nextTransfer_changed : file.Changed file.nextTransfer.2 fun _ => False := by
  rw [ImageFile.nextTransfer]
  split
  · exact .refl file _
  · rename_i fate rest fates
    refine ⟨le_rfl, fun _ _ => rfl, fun faultless => ?_⟩
    rw [ImageFile.Faultless, fates] at faultless
    cases faultless

theorem nextTransfer_size : file.nextTransfer.2.size = file.size := by
  rw [ImageFile.nextTransfer]
  split <;> rfl

/-- Storing changes the range it stores. -/
theorem store_changed : file.Changed (file.store offset data)
    fun p => offset ≤ p ∧ p < offset + data.length where
  size := ImageFile.size_le_store
  byte := fun p outside => writeRange_outside (by omega)
  faultless := id

/-- A read changes nothing, whatever it answers. -/
theorem seekAndRead_changed : file.Changed (seekAndRead file offset len).2 fun _ => False := by
  have next := nextTransfer_changed file
  rw [seekAndRead]
  split
  · rename_i fates
    rwa [fates] at next
  · rename_i fates
    rw [fates] at next
    split <;> exact next

theorem seekAndRead_size : (seekAndRead file offset len).2.size = file.size := by
  have next := nextTransfer_size file
  rw [seekAndRead]
  split
  · rename_i fates
    rwa [fates] at next
  · rename_i fates
    rw [fates] at next
    split <;> exact next

/-- A write changes at most its range, whatever it answers. -/
theorem seekAndWrite_changed : file.Changed (seekAndWrite file offset data).2
    fun p => offset ≤ p ∧ p < offset + data.length := by
  have next : file.Changed file.nextTransfer.2 fun p => offset ≤ p ∧ p < offset + data.length :=
    (nextTransfer_changed file).mono fun _ => False.elim
  rw [seekAndWrite]
  split
  · rename_i count rest fates
    rw [fates] at next
    refine next.trans ((store_changed rest offset (data.take count)).mono ?_)
    intro p inside
    rw [List.length_take] at inside
    omega
  · rename_i rest fates
    rw [fates] at next
    exact next.trans (store_changed rest offset data)

/-- A read that succeeds answers the bytes of its range. -/
theorem seekAndRead_ok {answer : List UInt8} {file' : ImageFile}
    (succeeds : seekAndRead file offset len = (.ok answer, file')) :
    offset + len ≤ file.size ∧ answer = readRange file.byte offset len := by
  have next := nextTransfer_changed file
  rw [seekAndRead] at succeeds
  split at succeeds
  · cases succeeds
  · rename_i fates
    rw [fates] at next
    split at succeeds
    · rename_i held
      cases succeeds
      have sizes := nextTransfer_size file
      rw [fates] at sizes
      exact ⟨sizes ▸ held, readRange_congr fun k _ => next.byte _ id⟩
    · cases succeeds

/-- A read of a range the file holds fails only by a fault. -/
theorem seekAndRead_held (held : offset + len ≤ file.size) :
    (seekAndRead file offset len).1 = .ok (readRange file.byte offset len) ∨
    ((seekAndRead file offset len).1 = .error .io ∧ ¬ file.Faultless) := by
  by_cases faultless : file.Faultless
  · left
    rw [seekAndRead, ImageFile.nextTransfer]
    unfold ImageFile.Faultless at faultless
    simp only [faultless, if_pos held]
  · obtain ⟨fate, rest, fates⟩ := List.exists_cons_of_ne_nil faultless
    rw [seekAndRead, ImageFile.nextTransfer]
    simp only [fates]
    cases fate with
    | done => exact .inl (congrArg Prod.fst (if_pos held))
    | cut count => exact .inr ⟨rfl, faultless⟩

end Changed

section Faultless

variable {file : ImageFile} (offset len : ℕ) (data : List UInt8)

@[simp] theorem ImageFile.store_faultless :
    (file.store offset data).Faultless ↔ file.Faultless := Iff.rfl

/-- Without faults a read fails exactly when the file is too short. -/
theorem seekAndRead_of_faultless (faultless : file.Faultless) :
    seekAndRead file offset len =
      (if offset + len ≤ file.size then .ok (readRange file.byte offset len)
        else .error .io, file) := by
  unfold ImageFile.Faultless at faultless
  simp only [seekAndRead, ImageFile.nextTransfer, faultless]
  split <;> rfl

/-- Without faults a write stores its bytes. -/
theorem seekAndWrite_of_faultless (faultless : file.Faultless) :
    seekAndWrite file offset data = (.ok (), file.store offset data) := by
  unfold ImageFile.Faultless at faultless
  simp only [seekAndWrite, ImageFile.nextTransfer, faultless]

end Faultless

end TigerOS.Otfs
