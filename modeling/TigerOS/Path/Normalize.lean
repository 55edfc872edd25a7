import TigerOS.Foundation.CString

/-! # Path normalization

`fs_path_normalize` splits a path at its slashes, drops empty segments and `.`,
lets `..` remove the segment before it, and joins what is left;
`fs_path_resolve` normalizes a path below a working directory. Strings are the
bytes before their NUL, and a call that answers `-1` answers nothing.
-/

namespace TigerOS.Path

open Foundation

abbrev fsPathMax : ℕ := 256

/-- `'/'` -/
def slash : UInt8 := 47

/-- `'.'` -/
def dot : UInt8 := 46

/-- `segment_is_dot`. -/
def segmentIsDot (segment : List UInt8) : Prop := segment = [dot]

/-- `segment_is_dotdot`. -/
def segmentIsDotdot (segment : List UInt8) : Prop := segment = [dot, dot]

instance (segment : List UInt8) : Decidable (segmentIsDot segment) :=
  inferInstanceAs (Decidable (_ = _))

instance (segment : List UInt8) : Decidable (segmentIsDotdot segment) :=
  inferInstanceAs (Decidable (_ = _))

/-- The segments kept so far and the bytes used of their pool. The pool only
grows: a removed segment keeps its bytes. -/
structure Segments where
  segments : List (List UInt8)
  poolUsed : ℕ
  deriving DecidableEq

/-- The loop body of `fs_path_normalize` after a segment is cut out. -/
def keepSegment (isAbsolute : Bool) (kept : Segments) (segment : List UInt8) :
    Option Segments :=
  if segmentIsDot segment then some kept
  else if segmentIsDotdot segment ∧ kept.segments ≠ [] ∧
      ¬ segmentIsDotdot (kept.segments.getLastD []) then
    some { kept with segments := kept.segments.dropLast }
  else if segmentIsDotdot segment ∧ isAbsolute then some kept
  else if fsPathMax / 2 ≤ kept.segments.length ∨ fsPathMax ≤ segment.length ∨
      fsPathMax < kept.poolUsed + segment.length + 1 then none
  else some ⟨kept.segments ++ [segment], kept.poolUsed + segment.length + 1⟩

/-- The first loop of `fs_path_normalize` on the rest of the path; each round
takes at least one byte, so `rounds` starts at the length. -/
def normalizeLoop (isAbsolute : Bool) : ℕ → List UInt8 → Segments → Option Segments
  | 0, _, kept => some kept
  | rounds + 1, path, kept =>
      let path := path.dropWhile (· = slash)
      if path = [] then some kept
      else
        match keepSegment isAbsolute kept (path.takeWhile (· ≠ slash)) with
        | none => none
        | some kept => normalizeLoop isAbsolute rounds (path.dropWhile (· ≠ slash)) kept

/-- The last loop of `fs_path_normalize`: the segments appended to the output, a
slash before each but the first. -/
def emitSegments (outLen : ℕ) : Bool → List UInt8 → List (List UInt8) → Option (List UInt8)
  | _, out, [] => some out
  | isFirst, out, segment :: segments =>
      if ¬ isFirst ∧ outLen < out.length + 2 then none
      else
        let out := if isFirst then out else out ++ [slash]
        if outLen < out.length + segment.length + 1 then none
        else emitSegments outLen false (out ++ segment) segments

/-- `fs_path_normalize` on a path and an output buffer that are not null. -/
def fsPathNormalize (path : List UInt8) (outLen : ℕ) : Option (List UInt8) :=
  if outLen = 0 ∨ path = [] then none
  else
    let isAbsolute : Bool := path.head? = some slash
    match normalizeLoop isAbsolute path.length path ⟨[], 0⟩ with
    | none => none
    | some kept =>
        if isAbsolute ∧ outLen < 2 then none
        else if kept.segments = [] then
          if isAbsolute then some [slash]
          else if outLen < 2 then none else some [dot]
        else emitSegments outLen true (if isAbsolute then [slash] else []) kept.segments

/-- `fs_path_resolve` on arguments that are not null. -/
def fsPathResolve (cwd path : List UInt8) (outLen : ℕ) : Option (List UInt8) :=
  if outLen = 0 then none
  else
    match fsPathNormalize cwd fsPathMax with
    | none => none
    | some cwdNormalized =>
        if cwdNormalized.head? ≠ some slash then none
        else if path.head? = some slash then fsPathNormalize path outLen
        else if path = [] then fsPathNormalize cwdNormalized outLen
        else if fsPathMax < cwdNormalized.length + path.length + 2 then none
        else if cwdNormalized = [slash] then fsPathNormalize (slash :: path) outLen
        else fsPathNormalize (cwdNormalized ++ slash :: path) outLen

end TigerOS.Path
