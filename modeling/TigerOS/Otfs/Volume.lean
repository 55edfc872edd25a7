import Mathlib.Algebra.BigOperators.Fin
import TigerOS.Otfs.Drive
import TigerOS.Otfs.Space

/-! # Volumes

A volume is a file system with its space. Each file has a size, a number of blocks and the
bytes these hold; the space left is what the files leave of the image. The image on disk
knows the names and the sizes, and of each file its first blocks: a write that runs out of
space takes blocks without telling the image. Volumes say what every operation answers,
when space runs out, and what is left of the files when the power is cut
(`TigerOS.Otfs.volumes`).
-/

namespace TigerOS.Otfs

open Foundation

/-! ## Files -/

/-- A file of a volume. The image on disk knows of its first `saved` blocks; past its
blocks its content is zero. -/
structure VolumeFile where
  name : List UInt8
  size : UInt32
  blocks : ℕ
  saved : ℕ
  content : ℕ → UInt8

namespace VolumeFile

/-- A file without blocks. -/
def empty (name : List UInt8) : VolumeFile := ⟨name, 0, 0, 0, fun _ => 0⟩

variable (file : VolumeFile)

/-- The file once the image knows of all its blocks. -/
def flushed : VolumeFile := { file with saved := file.blocks }

/-- The file as the image on disk has it. -/
def stored : VolumeFile :=
  { file with
    blocks := file.saved
    content := fun p => if p < fsBlockSize * file.saved then file.content p else 0 }

/-- A mount accepts the file: its blocks reach its size, and there are none where the size
asks for none. -/
def Accepted : Prop :=
  requiredBlocks file.size ≤ file.blocks ∧ (requiredBlocks file.size = 0 → file.blocks = 0)

instance : Decidable file.Accepted := inferInstanceAs (Decidable (_ ∧ _))

/-- The bytes of its blocks from an offset on. -/
def held (offset : UInt32) : ℕ := fsBlockSize * file.blocks - offset.toNat

/-- The file after data is written at an offset, in at least so many blocks. -/
def write (blocks : ℕ) (offset : UInt32) (data : List UInt8) : VolumeFile :=
  { file with
    blocks := max file.blocks blocks
    content := writeRange file.content offset.toNat data }

/-- The file with its size grown to an offset. -/
def grown (offset : UInt32) : VolumeFile :=
  { file with size := if file.size < offset then offset else file.size }

end VolumeFile

/-! ## Volumes -/

/-- What a descriptor is open on. -/
structure OpenPlace where
  place : FileIndex
  offset : UInt32
  flags : UInt32

/-- A file system: whether it is mounted, its files by place, and its descriptors. -/
structure Volume where
  mounted : Bool
  files : FileIndex → Option VolumeFile
  table : Descriptor → Option OpenPlace

namespace Volume

/-- A formatted volume, not yet mounted. -/
def blank : Volume := ⟨false, fun _ => none, fun _ => none⟩

variable (v : Volume)

/-- The blocks the files leave. -/
def free : ℕ := fsDataBlockCount - ∑ i, ((v.files i).map VolumeFile.blocks).getD 0

/-- The place of a name. -/
def find (name : List UInt8) : Option FileIndex :=
  (List.finRange fsMaxFiles).find? fun i => (v.files i).any fun file => file.name = name

/-- The first place without a file. -/
def freePlace : Option FileIndex :=
  (List.finRange fsMaxFiles).find? fun i => (v.files i).isNone

/-- The first descriptor not in use. -/
def freeSlot : Option Descriptor :=
  (List.finRange fsMaxOpenFiles).find? fun slot => (v.table slot).isNone

def setFile (i : FileIndex) (file : VolumeFile) : Volume :=
  { v with files := Function.update v.files i (some file) }

def setSlot (slot : Descriptor) (place : Option OpenPlace) : Volume :=
  { v with table := Function.update v.table slot place }

/-- The volume once the image knows of all blocks. -/
def flushed : Volume := { v with files := fun i => (v.files i).map VolumeFile.flushed }

/-- What is left when the handle is lost: the files as the image on disk has them. -/
def dropped : Volume := ⟨false, fun i => (v.files i).map VolumeFile.stored, fun _ => none⟩

/-- A mount accepts the files. -/
def Accepted : Prop := ∀ i, (v.files i).all fun file => decide file.Accepted

instance : Decidable v.Accepted := inferInstanceAs (Decidable (∀ _, _))

/-- The place a name is opened at, created or emptied on the way; there is none where the
places are used up. -/
def enter (name : List UInt8) (flags : UInt32) : Option (FileIndex × Volume) :=
  match v.find name with
  | some i =>
      some (i, if flags &&& fsOTrunc ≠ 0 then (v.setFile i (.empty name)).flushed else v)
  | none => v.freePlace.map fun i => (i, (v.setFile i (.empty name)).flushed)

/-- The end of an open: the first free descriptor takes the file. -/
def openSlot (i : FileIndex) (flags : UInt32) : Except FsError FsValue × Volume :=
  match v.freeSlot with
  | none => (.error .noSpace, v)
  | some slot => (.ok (.descriptor slot), v.setSlot slot (some ⟨i, 0, flags⟩))

/-- A read: the bytes from the offset up to the size, where the blocks reach their end;
otherwise it fails at the end of the blocks. -/
def read (slot : Descriptor) (file : VolumeFile) (place : OpenPlace) (len : ℕ) :
    Except FsError FsValue × Volume :=
  let count := min len (file.size.toNat - place.offset.toNat)
  let moved (count : ℕ) : Volume :=
    v.setSlot slot (some { place with offset := place.offset + UInt32.ofNat count })
  if count ≤ file.held place.offset then
    (.ok (.bytes (readRange file.content place.offset.toNat count)), moved count)
  else (.error .state, moved (file.held place.offset))

/-- A write: where the blocks of the file and the free ones reach the end of its range, it
stores its bytes, grows the file and flushes; otherwise it takes all blocks, stores what
they hold, and flushes nothing. -/
def write (slot : Descriptor) (file : VolumeFile) (place : OpenPlace) (data : List UInt8) :
    Except FsError FsValue × Volume :=
  let needed := blocksFor place.offset.toNat data.length
  let total := file.blocks + v.free
  let moved (v : Volume) (count : ℕ) : Volume :=
    v.setSlot slot (some { place with offset := place.offset + UInt32.ofNat count })
  if needed ≤ total then
    let file := (file.write needed place.offset data).grown
      (place.offset + UInt32.ofNat data.length)
    (.ok (.written data.length), moved (v.setFile place.place file).flushed data.length)
  else
    let data := data.take (fsBlockSize * total - place.offset.toNat)
    (.error .noSpace, moved (v.setFile place.place (file.write total place.offset data))
      data.length)

/-- A call on a descriptor in use. -/
def onSlot (fd : ℤ) (act : Descriptor → OpenPlace → Except FsError FsValue × Volume) :
    Except FsError FsValue × Volume :=
  match slotOf? fd with
  | none => (.error .arg, v)
  | some slot =>
      match v.table slot with
      | none => (.error .state, v)
      | some place => act slot place

/-- A call on the file of a descriptor in use. -/
def onFile (fd : ℤ)
    (act : Descriptor → VolumeFile → OpenPlace → Except FsError FsValue × Volume) :
    Except FsError FsValue × Volume :=
  v.onSlot fd fun slot place =>
    match v.files place.place with
    | none => (.error .state, v)
    | some file => act slot file place

/-- A call that is not refused. -/
def act : FsOp → Except FsError FsValue × Volume
  | .open none _ => (.error .arg, v)
  | .open (some name) flags =>
      match v.enter name.bytes flags with
      | none => (.error .noSpace, v)
      | some (i, v) => v.openSlot i flags
  | .close fd => v.onSlot fd fun slot _ => (.ok .done, v.setSlot slot none)
  | .seek fd offset => v.onSlot fd fun slot place =>
      (.ok .done, v.setSlot slot (some { place with offset := offset }))
  | .read fd _ len => v.onFile fd fun slot file place => v.read slot file place len
  | .write fd buf => v.onFile fd fun slot file place => v.write slot file place buf.data

/-- The refusal of a call. -/
def refusal (op : FsOp) : Option FsError :=
  Otfs.refusal (fun name => (v.find name).isSome)
    (fun slot => (v.table slot).map OpenPlace.flags) op

/-- A call on a mounted volume. -/
def call (op : FsOp) : Except FsError FsValue × Volume :=
  match v.refusal op with
  | some e => (.error e, v)
  | none => v.act op

/-- One step of a volume. -/
def step : DriveOp → Except FsError FsValue × Volume
  | .init => (.ok .done, v.dropped)
  | .mount =>
      if v.dropped.Accepted then (.ok .done, { v.dropped with mounted := true })
      else (.error .state, v.dropped)
  | .unmount =>
      if v.mounted then (.ok .done, v.flushed.dropped)
      else (.error .state, v)
  | .call op => if v.mounted then v.call op else (.error .state, v)

end Volume

/-- Volumes as machines. -/
def volumes : Machine Volume DriveOp (Except FsError FsValue) := ⟨Volume.step⟩

end TigerOS.Otfs
