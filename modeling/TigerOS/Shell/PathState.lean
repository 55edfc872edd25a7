import TigerOS.Foundation.Range
import TigerOS.Dir.Tree

/-! # The state of paths in the shell

A path-state context is a directory tree that is set up when it is first used.
The default context also has files: three that come with the shell and cannot be
changed, and thirty-two slots for written ones, which hide the former. A status
of `0` is modelled as `true`.
-/

namespace TigerOS.Shell

open Foundation TigerOS.Path TigerOS.Dir

abbrev pathStateDynamicMaxFiles : ℕ := 32
abbrev pathStateDynamicContentMax : ℕ := 512

abbrev FileSlot := Fin pathStateDynamicMaxFiles

/-- `path_state_file_t`. -/
structure PathStateFile where
  path : List UInt8
  content : List UInt8

/-- `path_state_dynamic_file_t`; the content is an array of
`PATH_STATE_DYNAMIC_CONTENT_MAX` bytes. -/
structure DynamicFile where
  used : Bool
  path : List UInt8
  content : ℕ → UInt8
  contentLen : ℕ

/-- `path_state_context_t`. -/
structure PathStateContext where
  tree : FsDirTree
  ready : Bool

/-- The globals of `path_state.c`: the dynamic files and the default context. -/
structure PathStore where
  files : FileSlot → DynamicFile
  context : PathStateContext

/-- The slot of a file rewritten. -/
def PathStore.setFile (store : PathStore) (i : FileSlot) (file : DynamicFile) : PathStore :=
  { store with files := Function.update store.files i file }

/-- `g_seed_files`. -/
def seedFiles : List PathStateFile :=
  [⟨ascii "/hello.txt", ascii "hello from shell fs\n"⟩,
    ⟨ascii "/etc/motd", ascii "openTiger shell filesystem\n"⟩,
    ⟨ascii "/home/readme.txt", ascii "use ls, cat, pwd, cd, mkdir\n"⟩]

/-- A dynamic file after `dynamic_files_reset`, on the bytes it had. -/
def DynamicFile.reset (file : DynamicFile) : DynamicFile :=
  ⟨false, [], writeRange file.content 0 [0], 0⟩

/-- The globals before the first call. -/
def PathStore.zero : PathStore where
  files := fun _ => ⟨false, [], fun _ => 0, 0⟩
  context := ⟨⟨fun _ => FsDirNode.zero, 0, 0⟩, false⟩

/-! ## Strings -/

/-- `ps_strcpy`. -/
def psStrcpy (dstCap : ℕ) (src : List UInt8) : Option (List UInt8) :=
  if dstCap = 0 ∨ dstCap ≤ src.length then none else some src

/-- The index of the last slash, found by going through the path. -/
def lastSlashFrom : ℕ → ℕ → List UInt8 → ℕ
  | _, last, [] => last
  | i, last, byte :: path => lastSlashFrom (i + 1) (if byte = slash then i else last) path

/-- `path_basename`. -/
def pathBasename (path : List UInt8) (outLen : ℕ) : Option (List UInt8) :=
  if outLen = 0 ∨ path.head? ≠ some slash then none
  else
    let lastSlash := lastSlashFrom 0 0 path
    if path.length ≤ lastSlash + 1 then none
    else psStrcpy outLen (path.drop (lastSlash + 1))

/-- `path_parent`. -/
def pathParent (path : List UInt8) (outLen : ℕ) : Option (List UInt8) :=
  if outLen = 0 ∨ path.head? ≠ some slash then none
  else
    let lastSlash := lastSlashFrom 0 0 path
    if lastSlash = 0 then if outLen < 2 then none else some [slash]
    else if outLen < lastSlash + 1 then none
    else some (path.take lastSlash)

/-- `resolve_to_absolute` into a buffer of `FS_PATH_MAX` bytes. -/
def resolveToAbsolute (ctx : PathStateContext) (path : Option CString) : Option (List UInt8) :=
  let input : List UInt8 :=
    match path with
    | none => [dot]
    | some path => if path.bytes = [] then [dot] else path.bytes
  match fsDirPwd ctx.tree fsPathMax with
  | none => none
  | some cwd => fsPathResolve cwd input fsPathMax

/-! ## Files -/

/-- `file_index_by_absolute`, answering the file. -/
def fileByAbsolute (absolute : List UInt8) : Option PathStateFile :=
  seedFiles.find? fun file => strcmp file.path absolute = 0

/-- `dynamic_file_index_by_absolute`. -/
def dynamicFileByAbsolute (files : FileSlot → DynamicFile) (absolute : List UInt8) :
    Option FileSlot :=
  (List.finRange pathStateDynamicMaxFiles).find? fun i =>
    (files i).used = true ∧ strcmp (files i).path absolute = 0

/-- `dynamic_file_index_alloc`. -/
def dynamicFileAlloc (store : PathStore) (absolute : List UInt8) : Option FileSlot × PathStore :=
  match (List.finRange pathStateDynamicMaxFiles).find? fun i => (store.files i).used = false with
  | none => (none, store)
  | some i =>
      let content := writeRange (store.files i).content 0 [0]
      match psStrcpy fsPathMax absolute with
      | none => (none, store.setFile i ⟨false, [], content, 0⟩)
      | some path => (some i, store.setFile i ⟨true, path, content, 0⟩)

/-- `file_is_child_of_dir` and `dynamic_file_is_child_of_dir`, on the path of a
file in use. -/
def isChildOfDir (path dirAbsolute : List UInt8) : Prop :=
  match pathParent path fsPathMax with
  | none => False
  | some parent => strcmp parent dirAbsolute = 0

instance (path dirAbsolute : List UInt8) : Decidable (isChildOfDir path dirAbsolute) := by
  unfold isChildOfDir
  cases pathParent path fsPathMax <;> infer_instance

/-! ## Entries -/

/-- `path_state_entry_kind_t`. -/
inductive EntryKind where
  | dir
  | file
  deriving DecidableEq

/-- `path_state_entry_t`. -/
structure PathStateEntry where
  name : List UInt8
  kind : EntryKind
  deriving DecidableEq

/-- The place of an entry among sorted ones, which a present name keeps. -/
def placeEntry (name : List UInt8) (kind : EntryKind) : List PathStateEntry → List PathStateEntry
  | [] => [⟨name, kind⟩]
  | entry :: entries =>
      if strcmp entry.name name < 0 then entry :: placeEntry name kind entries
      else if strcmp entry.name name = 0 then entry :: entries
      else ⟨name, kind⟩ :: entry :: entries

/-- `entry_insert_sorted`. -/
def entryInsertSorted (maxEntries : ℕ) (entries : List PathStateEntry) (name : List UInt8)
    (kind : EntryKind) : Option (List PathStateEntry) :=
  if maxEntries ≤ entries.length ∨ fsDirNameMax < name.length then none
  else some (placeEntry name kind entries)

/-- What `path_state_ls` has listed so far: the entries, or only their count where
the buffer is null. -/
structure Listed where
  entries : List PathStateEntry
  count : ℕ
  deriving DecidableEq

/-- An entry listed, or only counted. -/
def listEntry (buffer : EntryBuffer) (listed : Listed) (name : List UInt8) (kind : EntryKind) :
    Option Listed :=
  match buffer with
  | .null _ => some ⟨[], listed.count + 1⟩
  | .room maxEntries =>
      (entryInsertSorted maxEntries listed.entries name kind).map fun entries =>
        ⟨entries, entries.length⟩

/-- Entries listed one after the other. -/
def listEntries (buffer : EntryBuffer) (kind : EntryKind) :
    Listed → List (List UInt8) → Option Listed
  | listed, [] => some listed
  | listed, name :: names =>
      match listEntry buffer listed name kind with
      | none => none
      | some listed => listEntries buffer kind listed names

/-- The names of files listed one after the other, by the last components of
their paths. -/
def listFiles (buffer : EntryBuffer) : Listed → List (List UInt8) → Option Listed
  | listed, [] => some listed
  | listed, path :: paths =>
      match pathBasename path (fsDirNameMax + 1) with
      | none => none
      | some basename =>
          match listEntry buffer listed basename .file with
          | none => none
          | some listed => listFiles buffer listed paths

/-! ## Setting a context up -/

/-- The directories made by `ensure_initialized`, one after the other. -/
def mkdirEach : FsDirTree → List (List UInt8) → Bool × FsDirTree
  | tree, [] => (true, tree)
  | tree, path :: paths =>
      match fsDirMkdir tree (some (CString.of path)) with
      | (false, tree) => (false, tree)
      | (true, tree) => mkdirEach tree paths

/-- The loop of `ensure_initialized` over the files that come with the shell. -/
def mkdirParents : FsDirTree → List PathStateFile → Bool × FsDirTree
  | tree, [] => (true, tree)
  | tree, file :: files =>
      match pathParent file.path fsPathMax with
      | none => (false, tree)
      | some parent =>
          if strcmp parent [slash] = 0 then mkdirParents tree files
          else
            match fsDirMkdirP tree (some (CString.of parent)) with
            | (false, tree) => (false, tree)
            | (true, tree) => mkdirParents tree files

/-- `ensure_initialized`. -/
def ensureInitialized (ctx : PathStateContext) : Bool × PathStateContext :=
  if ctx.ready = true then (true, ctx)
  else
    match mkdirEach fsDirInit [ascii "/etc", ascii "/home", ascii "/tmp"] with
    | (false, tree) => (false, { ctx with tree := tree })
    | (true, tree) =>
        match mkdirParents tree seedFiles with
        | (false, tree) => (false, { ctx with tree := tree })
        | (true, tree) => (true, ⟨tree, true⟩)

/-- A store as every call on it finds it, set up. -/
def PathStore.ensured (store : PathStore) : PathStore :=
  { store with context := (ensureInitialized store.context).2 }

/-! ## The calls on a context -/

/-- `path_state_context_init`. -/
def pathStateContextInit : PathStateContext := ⟨fsDirInit, false⟩

/-- `path_state_context_pwd`. -/
def pathStateContextPwd (ctx : PathStateContext) (outLen : ℕ) :
    Option (List UInt8) × PathStateContext :=
  match ensureInitialized ctx with
  | (false, ctx) => (none, ctx)
  | (true, ctx) => (fsDirPwd ctx.tree outLen, ctx)

/-- `path_state_context_cd`. -/
def pathStateContextCd (ctx : PathStateContext) (path : Option CString) : Bool × PathStateContext :=
  match ensureInitialized ctx with
  | (false, ctx) => (false, ctx)
  | (true, ctx) =>
      match path with
      | none => (false, ctx)
      | some path =>
          ((fsDirCd ctx.tree (some path)).1, { ctx with tree := (fsDirCd ctx.tree (some path)).2 })

section Context

variable (files : FileSlot → DynamicFile) (supportsDynamicFiles : Bool)

/-- The dynamic file at a path, where the context has dynamic files. -/
def dynamicFileIn (absolute : List UInt8) : Option FileSlot :=
  if supportsDynamicFiles = true then dynamicFileByAbsolute files absolute else none

/-- `path_state_context_mkdir`. -/
def pathStateContextMkdir (ctx : PathStateContext) (path : Option CString) :
    Bool × PathStateContext :=
  match ensureInitialized ctx with
  | (false, ctx) => (false, ctx)
  | (true, ctx) =>
      match path with
      | none => (false, ctx)
      | some path =>
          match resolveToAbsolute ctx (some path) with
          | none => (false, ctx)
          | some absolute =>
              if absolute = [slash] then (false, ctx)
              else if (fileByAbsolute absolute).isSome then (false, ctx)
              else if (dynamicFileIn files supportsDynamicFiles absolute).isSome then (false, ctx)
              else
                ((fsDirMkdir ctx.tree (some (CString.of absolute))).1,
                  { ctx with tree := (fsDirMkdir ctx.tree (some (CString.of absolute))).2 })

/-- `path_state_context_ls` once the directory is found not to be a file. -/
def listDirectory (ctx : PathStateContext) (absolute : List UInt8) (buffer : EntryBuffer) :
    Option Listed :=
  let dirEntries :=
    fsDirReaddir ctx.tree (some (CString.of absolute)) (.room fsDirMaxNodes)
  if dirEntries.status = false then none
  else
    match listEntries buffer .dir ⟨[], 0⟩ dirEntries.entries with
    | none => none
    | some listed =>
        let seeds := seedFiles.filter fun file =>
          ¬ (dynamicFileIn files supportsDynamicFiles file.path).isSome ∧
            isChildOfDir file.path absolute
        match listFiles buffer listed (seeds.map fun file => file.path) with
        | none => none
        | some listed =>
            if supportsDynamicFiles = true then
              let slots := (List.finRange pathStateDynamicMaxFiles).filter fun i =>
                (files i).used = true ∧ isChildOfDir (files i).path absolute
              listFiles buffer listed (slots.map fun i => (files i).path)
            else some listed

/-- `path_state_context_ls`; a call that fails answers nothing. -/
def pathStateContextLs (ctx : PathStateContext) (path : Option CString) (buffer : EntryBuffer) :
    Option Listed × PathStateContext :=
  match ensureInitialized ctx with
  | (false, ctx) => (none, ctx)
  | (true, ctx) =>
      match resolveToAbsolute ctx path with
      | none => (none, ctx)
      | some absolute =>
          if (fileByAbsolute absolute).isSome ∨
              (dynamicFileIn files supportsDynamicFiles absolute).isSome then
            (listFiles buffer ⟨[], 0⟩ [absolute], ctx)
          else (listDirectory files supportsDynamicFiles ctx absolute buffer, ctx)

/-- The text of a dynamic file: the C string in its array. -/
def DynamicFile.text (file : DynamicFile) : List UInt8 :=
  cstr pathStateDynamicContentMax (readRange file.content 0 pathStateDynamicContentMax)

/-- `path_state_context_cat`, answering the text. -/
def pathStateContextCat (ctx : PathStateContext) (path : Option CString) :
    Option (List UInt8) × PathStateContext :=
  match ensureInitialized ctx with
  | (false, ctx) => (none, ctx)
  | (true, ctx) =>
      match path with
      | none => (none, ctx)
      | some path =>
          match resolveToAbsolute ctx (some path) with
          | none => (none, ctx)
          | some absolute =>
              match dynamicFileIn files supportsDynamicFiles absolute with
              | some i => (some (files i).text, ctx)
              | none => ((fileByAbsolute absolute).map fun file => file.content, ctx)

end Context

/-! ## Writing a file -/

/-- The copy of a file that comes with the shell into the slot made for it. -/
def DynamicFile.seeded (file : DynamicFile) (absolute : List UInt8) : Option DynamicFile :=
  match fileByAbsolute absolute with
  | none => some file
  | some seed =>
      let seedLen := seed.content.length
      if pathStateDynamicContentMax < seedLen + 1 then none
      else some { file with
        content := writeRange (writeRange file.content 0 seed.content) seedLen [0]
        contentLen := seedLen }

/-- A file truncated. -/
def DynamicFile.truncated (file : DynamicFile) : DynamicFile :=
  { file with content := writeRange file.content 0 [0], contentLen := 0 }

/-- Bytes put after what a file holds; a null pointer has none. -/
def DynamicFile.stored (file : DynamicFile) (content : Option (List UInt8)) :
    Bool × DynamicFile :=
  let data := content.getD []
  if pathStateDynamicContentMax < file.contentLen + data.length + 1 then (false, file)
  else if data = [] then (true, file)
  else
    (true, { file with
      content := writeRange (writeRange file.content file.contentLen data)
        (file.contentLen + data.length) [0]
      contentLen := file.contentLen + data.length })

/-- What `path_state_write_file` does to the slot of the file. -/
def DynamicFile.written (file : DynamicFile) (absolute : List UInt8) (created append : Bool)
    (content : Option (List UInt8)) : Bool × DynamicFile :=
  match if append = true ∧ created = true then file.seeded absolute else some file with
  | none => (false, file)
  | some file => (if append = true then file else file.truncated).stored content

/-- `path_state_write_file`; the content is its first `content_len` bytes. -/
def pathStateWriteFile (store : PathStore) (path : Option CString)
    (content : Option (List UInt8)) (append : Bool) : Bool × PathStore :=
  match ensureInitialized store.context with
  | (false, ctx) => (false, { store with context := ctx })
  | (true, ctx) =>
      let store : PathStore := { store with context := ctx }
      match path with
      | none => (false, store)
      | some path =>
          match resolveToAbsolute ctx (some path) with
          | none => (false, store)
          | some absolute =>
              if absolute = [slash] then (false, store)
              else
                match pathParent absolute fsPathMax with
                | none => (false, store)
                | some parent =>
                    if (fsDirWalk ctx.tree (some (CString.of parent))).isNone then (false, store)
                    else if (fsDirWalk ctx.tree (some (CString.of absolute))).isSome then
                      (false, store)
                    else
                      match dynamicFileByAbsolute store.files absolute with
                      | some i =>
                          let (status, file) :=
                            (store.files i).written absolute false append content
                          (status, store.setFile i file)
                      | none =>
                          match dynamicFileAlloc store absolute with
                          | (none, store) => (false, store)
                          | (some i, store) =>
                              let (status, file) :=
                                (store.files i).written absolute true append content
                              (status, store.setFile i file)

/-! ## The calls of the shell -/

/-- `path_state_init`. -/
def pathStateInit (store : PathStore) : PathStore where
  files := fun i => (store.files i).reset
  context := (ensureInitialized pathStateContextInit).2

section Default

variable (store : PathStore)

/-- `path_state_pwd`. -/
def pathStatePwd (outLen : ℕ) : Option (List UInt8) × PathStore :=
  let (cwd, ctx) := pathStateContextPwd store.context outLen
  (cwd, { store with context := ctx })

/-- `path_state_cd`. -/
def pathStateCd (path : Option CString) : Bool × PathStore :=
  let (status, ctx) := pathStateContextCd store.context path
  (status, { store with context := ctx })

/-- `path_state_mkdir`. The default context has dynamic files. -/
def pathStateMkdir (path : Option CString) : Bool × PathStore :=
  let (status, ctx) := pathStateContextMkdir store.files true store.context path
  (status, { store with context := ctx })

/-- `path_state_ls`. -/
def pathStateLs (path : Option CString) (buffer : EntryBuffer) : Option Listed × PathStore :=
  let (entries, ctx) := pathStateContextLs store.files true store.context path buffer
  (entries, { store with context := ctx })

/-- `path_state_cat`. -/
def pathStateCat (path : Option CString) : Option (List UInt8) × PathStore :=
  let (content, ctx) := pathStateContextCat store.files true store.context path
  (content, { store with context := ctx })

end Default

/-- A call of the shell. -/
inductive PathOp where
  | init
  | pwd (outLen : ℕ)
  | cd (path : Option CString)
  | mkdir (path : Option CString)
  | ls (path : Option CString) (buffer : EntryBuffer)
  | cat (path : Option CString)
  | writeFile (path : Option CString) (content : Option (List UInt8)) (append : Bool)

/-- What a call answers. -/
inductive PathAnswer where
  | done
  | status (succeeded : Bool)
  | text (bytes : Option (List UInt8))
  | listed (entries : Option Listed)

def pathStep (store : PathStore) : PathOp → PathAnswer × PathStore
  | .init => (.done, pathStateInit store)
  | .pwd outLen => (pathStatePwd store outLen).map .text id
  | .cd path => (pathStateCd store path).map .status id
  | .mkdir path => (pathStateMkdir store path).map .status id
  | .ls path buffer => (pathStateLs store path buffer).map .listed id
  | .cat path => (pathStateCat store path).map .text id
  | .writeFile path content append => (pathStateWriteFile store path content append).map .status id

/-- The path state as a machine answering calls. -/
def pathState : Machine PathStore PathOp PathAnswer := ⟨pathStep⟩

end TigerOS.Shell
