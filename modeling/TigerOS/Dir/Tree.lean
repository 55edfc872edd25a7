import Mathlib.Algebra.GroupWithZero.Nat
import TigerOS.Foundation.Machine
import TigerOS.Path.Normalize

/-! # The directory tree

`fs_dir_tree_t` keeps its nodes in an array: a node names its parent, its first
child and its next sibling by index, and siblings are kept in the order of their
names. A status of `0` is modelled as `true`. The loops over siblings are bounded
by the number of nodes, which is as far as lists without repetition go.
-/

namespace TigerOS.Dir

open Foundation TigerOS.Path

abbrev fsDirNameMax : ℕ := 31
abbrev fsDirMaxNodes : ℕ := 128

theorem fsDirMaxNodes_ne_zero : fsDirMaxNodes ≠ 0 := Nat.succ_ne_zero _

instance : NeZero fsDirMaxNodes := ⟨fsDirMaxNodes_ne_zero⟩

abbrev NodeIndex := Fin fsDirMaxNodes

/-- `fs_dir_node_t`; an index of `-1` is `none`. -/
structure FsDirNode where
  name : List UInt8
  parent : Option NodeIndex
  firstChild : Option NodeIndex
  nextSibling : Option NodeIndex
  used : Bool
  deriving DecidableEq

/-- A node after `dir_memzero`. -/
def FsDirNode.zero : FsDirNode := ⟨[], some 0, some 0, some 0, false⟩

/-- `fs_dir_tree_t`. -/
structure FsDirTree where
  nodes : NodeIndex → FsDirNode
  nodeCount : ℕ
  cwdIndex : NodeIndex

namespace FsDirTree

variable (tree : FsDirTree)

def setNode (i : NodeIndex) (node : FsDirNode) : FsDirTree :=
  { tree with nodes := Function.update tree.nodes i node }

def setFirstChild (i : NodeIndex) (link : Option NodeIndex) : FsDirTree :=
  tree.setNode i { tree.nodes i with firstChild := link }

def setNextSibling (i : NodeIndex) (link : Option NodeIndex) : FsDirTree :=
  tree.setNode i { tree.nodes i with nextSibling := link }

end FsDirTree

/-- `valid_tree` on a tree that is not null. -/
def validTree (tree : FsDirTree) : Prop :=
  tree.nodeCount ≠ 0 ∧ tree.nodeCount ≤ fsDirMaxNodes ∧ tree.cwdIndex < tree.nodeCount ∧
    (tree.nodes tree.cwdIndex).used = true ∧ (tree.nodes 0).used = true

instance (tree : FsDirTree) : Decidable (validTree tree) :=
  inferInstanceAs (Decidable (_ ∧ _))

/-! ## Children -/

/-- The loop of `find_child`. -/
def findFrom (tree : FsDirTree) (name : List UInt8) : ℕ → Option NodeIndex → Option NodeIndex
  | _, none => none
  | 0, some _ => none
  | rounds + 1, some cur =>
      if (tree.nodes cur).used = true ∧ strcmp (tree.nodes cur).name name = 0 then some cur
      else findFrom tree name rounds (tree.nodes cur).nextSibling

/-- `find_child`. -/
def findChild (tree : FsDirTree) (parent : NodeIndex) (name : List UInt8) : Option NodeIndex :=
  findFrom tree name fsDirMaxNodes (tree.nodes parent).firstChild

/-- `alloc_node`. -/
def allocNode (tree : FsDirTree) : Option (NodeIndex × FsDirTree) :=
  if room : tree.nodeCount < fsDirMaxNodes then
    let idx : NodeIndex := ⟨tree.nodeCount, room⟩
    some (idx, { tree.setNode idx ⟨[], none, none, none, true⟩ with
      nodeCount := tree.nodeCount + 1 })
  else none

/-- The loop of `insert_child_sorted`, answering the sibling to insert after. -/
def insertPoint (tree : FsDirTree) (name : List UInt8) :
    ℕ → Option NodeIndex → Option NodeIndex → Option NodeIndex
  | _, prev, none => prev
  | 0, prev, some _ => prev
  | rounds + 1, prev, some cur =>
      if strcmp (tree.nodes cur).name name < 0 then
        insertPoint tree name rounds (some cur) (tree.nodes cur).nextSibling
      else prev

/-- `insert_child_sorted`. -/
def insertChildSorted (tree : FsDirTree) (parent child : NodeIndex) : FsDirTree :=
  match insertPoint tree (tree.nodes child).name fsDirMaxNodes none
    (tree.nodes parent).firstChild with
  | none =>
      (tree.setNextSibling child (tree.nodes parent).firstChild).setFirstChild parent (some child)
  | some prev =>
      (tree.setNextSibling child (tree.nodes prev).nextSibling).setNextSibling prev (some child)

/-- The part of `mkdir_internal` that makes a node. -/
def makeChild (tree : FsDirTree) (parent : NodeIndex) (name : List UInt8) :
    Option (NodeIndex × FsDirTree) :=
  match allocNode tree with
  | none => none
  | some (newNode, tree) =>
      some (newNode, insertChildSorted
        (tree.setNode newNode { tree.nodes newNode with
          name := name
          parent := some parent
          firstChild := none
          nextSibling := none })
        parent newNode)

/-! ## Paths -/

/-- The first loop of `path_from_index`: the nodes from below the root down to the
one the loop started at; `rounds` is `FS_DIR_MAX_NODES - depth`. -/
def parentStack (tree : FsDirTree) : ℕ → NodeIndex → List NodeIndex → Option (List NodeIndex)
  | rounds, cur, stack =>
      if cur = 0 then some stack
      else
        match rounds with
        | 0 => none
        | rounds + 1 =>
            match (tree.nodes cur).parent with
            | none => none
            | some up =>
                if tree.nodeCount ≤ up ∨ (tree.nodes up).used = false then none
                else parentStack tree rounds up (cur :: stack)

/-- The second loop of `path_from_index`. -/
def emitNames (tree : FsDirTree) (outLen : ℕ) :
    List UInt8 → List NodeIndex → Option (List UInt8)
  | out, [] => some out
  | out, i :: stack =>
      let name := (tree.nodes i).name
      if name.length = 0 ∨ fsDirNameMax < name.length ∨ outLen < out.length + name.length + 1 then
        none
      else
        let out := out ++ name
        if stack = [] then emitNames tree outLen out stack
        else if outLen < out.length + 2 then none
        else emitNames tree outLen (out ++ [slash]) stack

/-- `path_from_index`. -/
def pathFromIndex (tree : FsDirTree) (index : NodeIndex) (outLen : ℕ) : Option (List UInt8) :=
  if ¬ validTree tree ∨ outLen = 0 ∨ tree.nodeCount ≤ index ∨ (tree.nodes index).used = false then
    none
  else if index = 0 then
    if outLen < 2 then none else some [slash]
  else
    match parentStack tree fsDirMaxNodes index [] with
    | none => none
    | some stack => if outLen < 2 then none else emitNames tree outLen [slash] stack

/-- `resolve_path`. -/
def resolvePath (tree : FsDirTree) (path : List UInt8) (len : ℕ) : Option (List UInt8) :=
  if ¬ validTree tree ∨ len = 0 then none
  else
    match pathFromIndex tree tree.cwdIndex fsPathMax with
    | none => none
    | some cwd => fsPathResolve cwd path len

/-- The loop of `lookup_absolute` on the rest of the path; each round takes at
least one byte, so `rounds` starts at the length. -/
def lookupFrom (tree : FsDirTree) : ℕ → NodeIndex → List UInt8 → Option NodeIndex
  | 0, cur, _ => some cur
  | rounds + 1, cur, path =>
      if path = [] then some cur
      else
        let name := path.takeWhile (· ≠ slash)
        if name.length = 0 ∨ fsDirNameMax < name.length then none
        else
          match findChild tree cur name with
          | none => none
          | some child => lookupFrom tree rounds child (path.dropWhile (· ≠ slash)).tail

/-- `lookup_absolute`. -/
def lookupAbsolute (tree : FsDirTree) (absolutePath : List UInt8) : Option NodeIndex :=
  if ¬ validTree tree ∨ absolutePath.head? ≠ some slash then none
  else lookupFrom tree absolutePath.length 0 absolutePath.tail

/-! ## The calls -/

/-- `fs_dir_init`. -/
def fsDirInit : FsDirTree where
  nodes := fun i => if i = 0 then ⟨[], none, none, none, true⟩ else FsDirNode.zero
  nodeCount := 1
  cwdIndex := 0

/-- `fs_dir_walk`. -/
def fsDirWalk (tree : FsDirTree) : Option CString → Option NodeIndex
  | none => none
  | some path =>
      match resolvePath tree path.bytes fsPathMax with
      | none => none
      | some absolute => lookupAbsolute tree absolute

/-- The loop of `mkdir_internal` on the rest of the path, answering whether it
made a node; each round takes at least one byte, so `rounds` starts at the
length. -/
def mkdirLoop (createParents : Bool) :
    ℕ → FsDirTree → NodeIndex → Bool → List UInt8 → Option Bool × FsDirTree
  | 0, tree, _, createdAny, _ => (some createdAny, tree)
  | rounds + 1, tree, cur, createdAny, path =>
      if path = [] then (some createdAny, tree)
      else
        let name := path.takeWhile (· ≠ slash)
        let rest := path.dropWhile (· ≠ slash)
        let atLastComponent : Bool := rest = []
        if name.length = 0 ∨ fsDirNameMax < name.length then (none, tree)
        else
          match findChild tree cur name with
          | some child =>
              if atLastComponent ∧ ¬ createParents then (none, tree)
              else mkdirLoop createParents rounds tree child createdAny rest.tail
          | none =>
              if ¬ createParents ∧ ¬ atLastComponent then (none, tree)
              else
                match makeChild tree cur name with
                | none => (none, tree)
                | some (newNode, tree) =>
                    mkdirLoop createParents rounds tree newNode true rest.tail

/-- `mkdir_internal`. -/
def mkdirInternal (tree : FsDirTree) (path : Option CString) (createParents : Bool) :
    Bool × FsDirTree :=
  match path with
  | none => (false, tree)
  | some path =>
      match resolvePath tree path.bytes fsPathMax with
      | none => (false, tree)
      | some absolute =>
          if strcmp absolute [slash] = 0 then (false, tree)
          else
            match mkdirLoop createParents absolute.length tree 0 false absolute.tail with
            | (none, tree) => (false, tree)
            | (some createdAny, tree) => (createParents || createdAny, tree)

/-- `fs_dir_mkdir`. -/
def fsDirMkdir (tree : FsDirTree) (path : Option CString) : Bool × FsDirTree :=
  mkdirInternal tree path false

/-- `fs_dir_mkdir_p`. -/
def fsDirMkdirP (tree : FsDirTree) (path : Option CString) : Bool × FsDirTree :=
  mkdirInternal tree path true

/-- `fs_dir_cd`. -/
def fsDirCd (tree : FsDirTree) (path : Option CString) : Bool × FsDirTree :=
  match fsDirWalk tree path with
  | none => (false, tree)
  | some idx => (true, { tree with cwdIndex := idx })

/-- `fs_dir_pwd`. -/
def fsDirPwd (tree : FsDirTree) (outLen : ℕ) : Option (List UInt8) :=
  pathFromIndex tree tree.cwdIndex outLen

/-- The entry buffer of a listing: a null pointer, or room for entries. -/
inductive EntryBuffer where
  | null (maxEntries : ℕ)
  | room (maxEntries : ℕ)

/-- A null pointer passed as room for entries. -/
def EntryBuffer.Missing : EntryBuffer → Prop
  | .null maxEntries => maxEntries ≠ 0
  | .room _ => False

instance (buffer : EntryBuffer) : Decidable buffer.Missing := by
  cases buffer
  · exact inferInstanceAs (Decidable (_ ≠ _))
  · exact inferInstanceAs (Decidable False)

/-- What a listing answers: its status, the names put in the buffer, and the
count. -/
structure Listing where
  status : Bool
  entries : List (List UInt8)
  count : ℕ
  deriving DecidableEq

/-- The loop of `fs_dir_readdir`, answering the names of the children in order
unless it meets an unused node. -/
def readChildren (tree : FsDirTree) : ℕ → Option NodeIndex → Option (List (List UInt8))
  | _, none => some []
  | 0, some _ => some []
  | rounds + 1, some cur =>
      if (tree.nodes cur).used = false then none
      else (readChildren tree rounds (tree.nodes cur).nextSibling).map ((tree.nodes cur).name :: ·)

/-- `fs_dir_readdir`: the first names go to the buffer, and a buffer too small for
all of them is an error that still reports the count. -/
def fsDirReaddir (tree : FsDirTree) (path : Option CString) (buffer : EntryBuffer) : Listing :=
  match path with
  | none => ⟨false, [], 0⟩
  | some path =>
      if ¬ validTree tree ∨ buffer.Missing then ⟨false, [], 0⟩
      else
        match fsDirWalk tree (some path) with
        | none => ⟨false, [], 0⟩
        | some dirIdx =>
            match readChildren tree fsDirMaxNodes (tree.nodes dirIdx).firstChild with
            | none => ⟨false, [], 0⟩
            | some names =>
                match buffer with
                | .null _ => ⟨true, [], names.length⟩
                | .room maxEntries =>
                    ⟨decide (names.length ≤ maxEntries), names.take maxEntries, names.length⟩

/-! ## The machine of calls -/

/-- A call that changes the tree. -/
inductive DirOp where
  | mkdir (path : Option CString)
  | mkdirP (path : Option CString)
  | cd (path : Option CString)

def dirStep (tree : FsDirTree) : DirOp → Bool × FsDirTree
  | .mkdir path => fsDirMkdir tree path
  | .mkdirP path => fsDirMkdirP tree path
  | .cd path => fsDirCd tree path

/-- The directory tree as a machine answering calls. -/
def fsDir : Machine FsDirTree DirOp Bool := ⟨dirStep⟩

end TigerOS.Dir
