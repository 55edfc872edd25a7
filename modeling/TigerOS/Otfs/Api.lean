import TigerOS.Foundation.Machine
import TigerOS.Otfs.Handle

/-! # The calls of the file system

The public functions of `fs.h`, and the machine whose operations are the calls
a mounted handle answers.
-/

namespace TigerOS.Otfs

open Foundation

def fsORead : UInt32 := 1
def fsOWrite : UInt32 := 2
def fsOCreate : UInt32 := 4
def fsOTrunc : UInt32 := 8

/-- The source buffer of a write: a null pointer, or the bytes it points to. -/
inductive SourceBuffer where
  | null (len : ℕ)
  | bytes (data : List UInt8)

/-- The length passed with a source buffer. -/
def SourceBuffer.len : SourceBuffer → ℕ
  | .null len => len
  | .bytes data => data.length

/-- The bytes a source buffer points to. -/
def SourceBuffer.data : SourceBuffer → List UInt8
  | .null _ => []
  | .bytes data => data

/-- A null pointer passed with a non-zero length. -/
def SourceBuffer.Missing : SourceBuffer → Prop
  | .null len => len ≠ 0
  | .bytes _ => False

instance (buf : SourceBuffer) : Decidable buf.Missing := by
  cases buf
  · exact inferInstanceAs (Decidable (_ ≠ _))
  · exact inferInstanceAs (Decidable False)

/-- The handle after `fs_init`; its image is closed. -/
def fsInit : FsHandle where
  imageFile := ImageFile.empty []
  mounted := false
  dirEntries := fun _ => DirEntry.zero
  fat := fun _ => 0
  openFiles := fun _ => OpenFile.zero

/-! ## Formatting, mounting and unmounting -/

/-- The superblock `fs_format_image` writes and `fs_mount` demands. -/
def expectedSuperblock : Superblock where
  magic := kMagic
  version := UInt32.ofNat fsVersion
  blockSize := UInt32.ofNat fsBlockSize
  totalBlocks := UInt32.ofNat fsTotalBlocks
  dirStartBlock := UInt32.ofNat fsDirStartBlock
  dirBlockCount := UInt32.ofNat fsDirBlockCount
  fatStartBlock := UInt32.ofNat fsFatStartBlock
  fatBlockCount := UInt32.ofNat fsFatBlockCount
  dataStartBlock := UInt32.ofNat fsDataStartBlock
  dataBlockCount := UInt32.ofNat fsDataBlockCount
  maxFiles := UInt32.ofNat fsMaxFiles

/-- The first loop of `fs_format_image`: zero blocks written one after the
other. -/
def writeZeroBlocks : ℕ → ImageFile → Except FsError Unit × ImageFile
  | 0, file => (.ok (), file)
  | count + 1, file =>
      match writeZeroBlocks count file with
      | (.error e, file) => (.error e, file)
      | (.ok (), file) =>
          seekAndWrite file (blockOffset count) (List.replicate fsBlockSize 0)

/-- `fclose`, which fails when its flush is cut. -/
def closeFile (file : ImageFile) : Except FsError ImageFile :=
  match file.nextTransfer with
  | (.cut _, _) => .error .io
  | (.done, file) => .ok file

/-- `fs_format_image` on a fresh file whose transfers meet the given fates. -/
def fsFormatImage (transfers : List Transfer) : Except FsError ImageFile :=
  match writeZeroBlocks fsTotalBlocks (ImageFile.empty transfers) with
  | (.error _, _) => .error .io
  | (.ok (), file) =>
      match seekAndWrite file 0 (encodeSuperblock expectedSuperblock) with
      | (.error _, _) => .error .io
      | (.ok (), file) =>
          match seekAndWrite file (blockOffset fsDirStartBlock)
            (encodeDir fun _ => { DirEntry.zero with firstBlock := fatEnd }) with
          | (.error _, _) => .error .io
          | (.ok (), file) =>
              match seekAndWrite file (blockOffset fsFatStartBlock)
                (List.replicate (fsFatBlockCount * fsBlockSize) 0xff) with
              | (.error _, _) => .error .io
              | (.ok (), file) => closeFile file

/-- `fs_mount` on an image that opens. -/
def fsMount (file : ImageFile) : Except FsError FsHandle :=
  match seekAndRead file 0 fsSuperblockSize with
  | (.error _, _) => .error .io
  | (.ok sb, file) =>
      if decodeSuperblock sb ≠ expectedSuperblock then .error .state
      else
        match seekAndRead file (blockOffset fsDirStartBlock) (fsDirBlockCount * fsBlockSize) with
        | (.error _, _) => .error .io
        | (.ok dir, file) =>
            match seekAndRead file (blockOffset fsFatStartBlock)
              (fsFatBlockCount * fsBlockSize) with
            | (.error _, _) => .error .io
            | (.ok fat, file) =>
                let fs : FsHandle := { fsInit with
                  imageFile := file
                  dirEntries := decodeDir dir
                  fat := decodeFat fat }
                match validateMetadata fs with
                | .error _ => .error .state
                | .ok () => .ok { fs with mounted := true }

/-- `fs_unmount`, answering the closed image. -/
def fsUnmount (fs : FsHandle) : Except FsError ImageFile × FsHandle :=
  match validateCommon fs with
  | .error _ => (.error .state, fs)
  | .ok () =>
      match syncMetadata fs with
      | (.error _, fs) => (.error .io, fs)
      | (.ok (), fs) =>
          match closeFile fs.imageFile with
          | .error _ => (.error .io, fs)
          | .ok file => (.ok file, fsInit)

/-! ## Opening and closing -/

/-- The lookup of `fs_open`, creating the entry where the flags ask for it. -/
def lookupOrCreate (fs : FsHandle) (name : List UInt8) (flags : UInt32) :
    Except FsError FileIndex × FsHandle :=
  match findDirEntry fs name with
  | some i => (.ok i, fs)
  | none =>
      if flags &&& fsOCreate = 0 then (.error .notFound, fs)
      else
        match allocDirEntry fs name with
        | (none, fs) => (.error .noSpace, fs)
        | (some i, fs) =>
            match syncMetadata fs with
            | (.error _, fs) => (.error .io, fs)
            | (.ok (), fs) => (.ok i, fs)

/-- The truncation of `fs_open`. -/
def truncateEntry (fs : FsHandle) (i : FileIndex) : Except FsError Unit × FsHandle :=
  match (if (fs.dirEntries i).firstBlock ≠ fatEnd then
      releaseChain fs (fs.dirEntries i).firstBlock else (.ok (), fs)) with
  | (.error _, fs) => (.error .state, fs)
  | (.ok (), fs) =>
      match syncMetadata
        (fs.setEntry i { fs.dirEntries i with firstBlock := fatEnd, sizeBytes := 0 }) with
      | (.error _, fs) => (.error .io, fs)
      | (.ok (), fs) => (.ok (), fs)

/-- The flag checks of `fs_open`. -/
def badFlags (flags : UInt32) : Prop :=
  flags &&& (fsORead ||| fsOWrite) = 0 ∨ (flags &&& fsOTrunc ≠ 0 ∧ flags &&& fsOWrite = 0)

instance (flags : UInt32) : Decidable (badFlags flags) :=
  inferInstanceAs (Decidable (_ ∨ _))

/-- The last part of `fs_open`: the first free slot takes the file. -/
def openSlot (fs : FsHandle) (i : FileIndex) (flags : UInt32) :
    Except FsError Descriptor × FsHandle :=
  match allocFd fs with
  | none => (.error .noSpace, fs)
  | some fd => (.ok fd, fs.setOpenFile fd ⟨true, i, 0, flags⟩)

/-- `fs_open`. -/
def fsOpen (fs : FsHandle) (name : Option CString) (flags : UInt32) :
    Except FsError Descriptor × FsHandle :=
  match validateCommon fs with
  | .error e => (.error e, fs)
  | .ok () =>
      match name with
      | none => (.error .arg, fs)
      | some name =>
          match validateName (some name.bytes) with
          | .error e => (.error e, fs)
          | .ok () =>
              if badFlags flags then (.error .arg, fs)
              else
                match lookupOrCreate fs name.bytes flags with
                | (.error e, fs) => (.error e, fs)
                | (.ok i, fs) =>
                    if flags &&& fsOTrunc ≠ 0 then
                      match truncateEntry fs i with
                      | (.error e, fs) => (.error e, fs)
                      | (.ok (), fs) => openSlot fs i flags
                    else openSlot fs i flags

/-- `fs_close`. -/
def fsClose (fs : FsHandle) (fd : ℤ) : Except FsError Unit × FsHandle :=
  match validateCommon fs with
  | .error e => (.error e, fs)
  | .ok () =>
      match slotOf? fd with
      | none => (.error .arg, fs)
      | some fd =>
          if (fs.openFiles fd).inUse = false then (.error .state, fs)
          else (.ok (), fs.setOpenFile fd OpenFile.zero)

/-- `fs_seek`. -/
def fsSeek (fs : FsHandle) (fd : ℤ) (offset : UInt32) : Except FsError Unit × FsHandle :=
  match validateCommon fs with
  | .error e => (.error e, fs)
  | .ok () =>
      match slotOf? fd with
      | none => (.error .arg, fs)
      | some fd =>
          if (fs.openFiles fd).inUse = false then (.error .state, fs)
          else (.ok (), fs.setOpenFile fd { fs.openFiles fd with offset := offset })

/-! ## Reading and writing -/

/-- The loop of `fs_read`, answering the bytes still to be read; each round
reads at least one, so `rounds` starts at their number. -/
def readLoop (fd : Descriptor) (entry : FileIndex) :
    ℕ → FsHandle → ℕ → Except FsError (List UInt8) × FsHandle
  | 0, fs, _ => (.ok [], fs)
  | rounds + 1, fs, len =>
      if len = 0 then (.ok [], fs)
      else
        let fileOffset := (fs.openFiles fd).offset.toNat
        let logicalBlock := fileOffset / fsBlockSize
        let intraBlock := fileOffset % fsBlockSize
        let chunk := min (fsBlockSize - intraBlock) len
        match resolveDataBlock fs entry logicalBlock false with
        | (.error _, fs) => (.error .state, fs)
        | (.ok b, fs) =>
            match readDataBlock fs b with
            | (.error _, fs) => (.error .io, fs)
            | (.ok blockBuf, fs) =>
                match readLoop fd entry rounds (fs.advance fd chunk) (len - chunk) with
                | (.error e, fs) => (.error e, fs)
                | (.ok rest, fs) => (.ok ((blockBuf.drop intraBlock).take chunk ++ rest), fs)

/-- `fs_read`; `hasBuf` says whether the buffer is non-null. -/
def fsRead (fs : FsHandle) (fd : ℤ) (hasBuf : Bool) (len : ℕ) :
    Except FsError (List UInt8) × FsHandle :=
  match validateCommon fs with
  | .error e => (.error e, fs)
  | .ok () =>
      match slotOf? fd with
      | none => (.error .arg, fs)
      | some fd =>
          if len ≠ 0 ∧ hasBuf = false then (.error .arg, fs)
          else if (fs.openFiles fd).inUse = false ∨ (fs.openFiles fd).flags &&& fsORead = 0 then
            (.error .state, fs)
          else
            let openFile := fs.openFiles fd
            let entry := fs.dirEntries openFile.dirIndex
            if entry.sizeBytes ≤ openFile.offset ∨ len = 0 then (.ok [], fs)
            else
              let len := min len (entry.sizeBytes - openFile.offset).toNat
              readLoop fd openFile.dirIndex len fs len

/-- The loop of `fs_write` on the bytes still to be written; each round writes at
least one, so `rounds` starts at their number. -/
def writeLoop (fd : Descriptor) (entry : FileIndex) :
    ℕ → FsHandle → List UInt8 → Except FsError Unit × FsHandle
  | 0, fs, _ => (.ok (), fs)
  | rounds + 1, fs, data =>
      if data = [] then (.ok (), fs)
      else
        let fileOffset := (fs.openFiles fd).offset.toNat
        let logicalBlock := fileOffset / fsBlockSize
        let intraBlock := fileOffset % fsBlockSize
        let chunk := min (fsBlockSize - intraBlock) data.length
        match resolveDataBlock fs entry logicalBlock true with
        | (.error .noSpace, fs) => (.error .noSpace, fs)
        | (.error _, fs) => (.error .state, fs)
        | (.ok b, fs) =>
            match readDataBlock fs b with
            | (.error _, fs) => (.error .io, fs)
            | (.ok blockBuf, fs) =>
                match writeDataBlock fs b (blockBuf.take intraBlock ++ data.take chunk ++
                  blockBuf.drop (intraBlock + chunk)) with
                | (.error _, fs) => (.error .io, fs)
                | (.ok (), fs) => writeLoop fd entry rounds (fs.advance fd chunk) (data.drop chunk)

/-- The end of `fs_write`: the recorded size follows the offset, and the
metadata is flushed. -/
def finishWrite (fs : FsHandle) (fd : Descriptor) (entry : FileIndex) (done : ℕ) :
    Except FsError ℕ × FsHandle :=
  let offset := (fs.openFiles fd).offset
  let fs := if (fs.dirEntries entry).sizeBytes < offset then
    fs.setEntry entry { fs.dirEntries entry with sizeBytes := offset } else fs
  match syncMetadata fs with
  | (.error _, fs) => (.error .io, fs)
  | (.ok (), fs) => (.ok done, fs)

/-- `fs_write`. -/
def fsWrite (fs : FsHandle) (fd : ℤ) (buf : SourceBuffer) : Except FsError ℕ × FsHandle :=
  match validateCommon fs with
  | .error e => (.error e, fs)
  | .ok () =>
      match slotOf? fd with
      | none => (.error .arg, fs)
      | some fd =>
          if buf.Missing then (.error .arg, fs)
          else if (fs.openFiles fd).inUse = false ∨ (fs.openFiles fd).flags &&& fsOWrite = 0 then
            (.error .state, fs)
          else
            let entry := (fs.openFiles fd).dirIndex
            match writeLoop fd entry buf.data.length fs buf.data with
            | (.error e, fs) => (.error e, fs)
            | (.ok (), fs) => finishWrite fs fd entry buf.data.length

/-! ## The machine of calls -/

/-- A call on a mounted handle. -/
inductive FsOp where
  | open (name : Option CString) (flags : UInt32)
  | close (fd : ℤ)
  | seek (fd : ℤ) (offset : UInt32)
  | read (fd : ℤ) (hasBuf : Bool) (len : ℕ)
  | write (fd : ℤ) (buf : SourceBuffer)

/-- What a successful call answers. -/
inductive FsValue where
  | done
  | descriptor (fd : Descriptor)
  | bytes (data : List UInt8)
  | written (count : ℕ)
  deriving DecidableEq

/-- One call, its answers brought to one type. -/
def fsStep (fs : FsHandle) : FsOp → Except FsError FsValue × FsHandle
  | .open name flags =>
      let out := fsOpen fs name flags
      (out.1.map .descriptor, out.2)
  | .close fd =>
      let out := fsClose fs fd
      (out.1.map fun _ => .done, out.2)
  | .seek fd offset =>
      let out := fsSeek fs fd offset
      (out.1.map fun _ => .done, out.2)
  | .read fd hasBuf len =>
      let out := fsRead fs fd hasBuf len
      (out.1.map .bytes, out.2)
  | .write fd buf =>
      let out := fsWrite fs fd buf
      (out.1.map .written, out.2)

/-- The file system as a machine answering calls. -/
def otfs : Machine FsHandle FsOp (Except FsError FsValue) := ⟨fsStep⟩

end TigerOS.Otfs
