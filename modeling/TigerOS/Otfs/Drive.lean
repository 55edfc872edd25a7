import TigerOS.Otfs.Api

/-! # An image and its handle

`Drive` is an image on disk together with the one handle it is used through. Besides the
calls, `fs_mount`, `fs_unmount` and `fs_init` move it. An initialized handle has forgotten
its image, which lies on disk as the last transfer left it: `init` is also what a power cut
does.
-/

namespace TigerOS.Otfs

open Foundation

/-- An image on disk, and the handle of its user. -/
structure Drive where
  image : ImageFile
  fs : FsHandle

/-- A call, or a change of what the handle is mounted on. -/
inductive DriveOp where
  | init
  | mount
  | unmount
  | call (op : FsOp)

/-- The drive once the handle has changed: what a mounted handle wrote is on disk. -/
def Drive.hold (drive : Drive) (fs : FsHandle) : Drive :=
  ⟨if fs.mounted then fs.imageFile else drive.image, fs⟩

/-- One step of a drive. -/
def driveStep (drive : Drive) : DriveOp → Except FsError FsValue × Drive
  | .init => (.ok .done, ⟨drive.image, fsInit⟩)
  | .mount =>
      -- the handle is initialized first; what a failed mount loaded is never read
      match fsMount drive.image with
      | .error e => (.error e, ⟨drive.image, fsInit⟩)
      | .ok fs => (.ok .done, ⟨fs.imageFile, fs⟩)
  | .unmount =>
      match fsUnmount drive.fs with
      | (.error e, fs) => (.error e, drive.hold fs)
      | (.ok file, fs) => (.ok .done, ⟨file, fs⟩)
  | .call op =>
      let out := fsStep drive.fs op
      (out.1, drive.hold out.2)

/-- A drive as a machine answering its user. -/
def drives : Machine Drive DriveOp (Except FsError FsValue) := ⟨driveStep⟩

end TigerOS.Otfs
