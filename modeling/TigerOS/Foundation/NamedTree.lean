import Mathlib.Data.List.Induction

/-! # Trees of named nodes

Nodes carry a parent and a name, so that each node has a path: the names from
the root down to it. Where the parents lead to the root every node has one path
(`Foundation.NamedTree.exists_path`), where siblings have different names each
path belongs to one node (`Foundation.NamedTree.PathTo.node_unique`), and looking
names up one after the other finds the node of the path
(`Foundation.NamedTree.walk_eq_some`). A new leaf adds exactly its own path
(`Foundation.NamedTree.pathTo_addLeaf`).
-/

namespace Foundation

/-- Nodes with parents and names; the root's own parent and name mean nothing. -/
structure NamedTree (Node Name : Type*) where
  root : Node
  used : Node → Prop
  parent : Node → Option Node
  name : Node → Name

namespace NamedTree

variable {Node Name : Type*} (tree : NamedTree Node Name)

/-- A node is a child of another, by a name. -/
structure Child (parent child : Node) (name : Name) : Prop where
  notRoot : child ≠ tree.root
  used : tree.used child
  parent : tree.parent child = some parent
  name : tree.name child = name

/-- The names from the root down to a node. -/
inductive PathTo : Node → List Name → Prop
  | root : PathTo tree.root []
  | child {parent child : Node} {name : Name} {path : List Name} (above : PathTo parent path)
      (below : tree.Child parent child name) : PathTo child (path ++ [name])

/-- Siblings have different names. -/
def Distinct : Prop := ∀ {parent first second : Node} {name : Name},
  tree.Child parent first name → tree.Child parent second name → first = second

/-- The parents of used nodes are used and lead to the root. -/
structure Rooted (rank : Node → ℕ) : Prop where
  root : tree.used tree.root
  parent : ∀ node, tree.used node → node ≠ tree.root →
    ∃ parent, tree.parent node = some parent ∧ tree.used parent ∧ rank parent < rank node

variable {tree}

theorem Child.parent_unique {parent parent' child : Node} {name name' : Name}
    (first : tree.Child parent child name) (second : tree.Child parent' child name') :
    parent = parent' ∧ name = name' :=
  ⟨Option.some.inj (first.parent.symm.trans second.parent), first.name.symm.trans second.name⟩

namespace PathTo

variable {node other : Node} {path path' : List Name} {name : Name}

theorem nil_iff : tree.PathTo node [] ↔ node = tree.root := by
  constructor
  · intro here
    generalize empty : ([] : List Name) = path at here
    cases here with
    | root => rfl
    | child above below => simp at empty
  · rintro rfl
    exact .root

theorem snoc_iff : tree.PathTo node (path ++ [name]) ↔
    ∃ parent, tree.PathTo parent path ∧ tree.Child parent node name := by
  constructor
  · intro here
    generalize same : path ++ [name] = longer at here
    cases here with
    | root => simp at same
    | child above below =>
        obtain ⟨rfl, rfl⟩ := List.append_singleton_inj.mp same
        exact ⟨_, above, below⟩
  · rintro ⟨parent, above, below⟩
    exact .child above below

/-- A node has one path. -/
theorem path_unique (first : tree.PathTo node path) (second : tree.PathTo node path') :
    path = path' := by
  induction first generalizing path' with
  | root =>
      cases second with
      | root => rfl
      | child above below => exact absurd rfl below.notRoot
  | child above below ih =>
      cases second with
      | root => exact absurd rfl below.notRoot
      | child above' below' =>
          obtain ⟨rfl, rfl⟩ := below.parent_unique below'
          rw [ih above']

/-- Where siblings differ, a path belongs to one node. -/
theorem node_unique (distinct : tree.Distinct) (first : tree.PathTo node path)
    (second : tree.PathTo other path) : node = other := by
  induction first generalizing other with
  | root => exact (nil_iff.mp second).symm
  | child above below ih =>
      obtain ⟨parent, above', below'⟩ := snoc_iff.mp second
      obtain rfl := ih above'
      exact distinct below below'

/-- The beginnings of a path are paths. -/
theorem of_append (here : tree.PathTo node (path ++ path')) : ∃ above, tree.PathTo above path := by
  induction path' using List.reverseRecOn generalizing node with
  | nil => exact ⟨node, by rwa [List.append_nil] at here⟩
  | append_singleton path' name ih =>
      rw [← List.append_assoc] at here
      obtain ⟨parent, above, _⟩ := snoc_iff.mp here
      exact ih above

theorem used {rank : Node → ℕ} (rooted : tree.Rooted rank) (here : tree.PathTo node path) :
    tree.used node := by
  cases here with
  | root => exact rooted.root
  | child above below => exact below.used

end PathTo

/-- Where parents lead to the root, every used node has a path. -/
theorem exists_path {rank : Node → ℕ} (rooted : tree.Rooted rank) {node : Node}
    (used : tree.used node) : ∃ path, tree.PathTo node path := by
  induction bound : rank node using Nat.strongRecOn generalizing node with
  | ind height ih =>
      by_cases isRoot : node = tree.root
      · exact ⟨[], isRoot ▸ .root⟩
      · obtain ⟨parent, linked, used', lower⟩ := rooted.parent node used isRoot
        obtain ⟨path, above⟩ := ih (rank parent) (bound ▸ lower) used' rfl
        exact ⟨_, .child above ⟨isRoot, used, linked, rfl⟩⟩

/-! ## Walking down -/

/-- Looking names up one after the other. -/
def walk (find : Node → Name → Option Node) : Node → List Name → Option Node
  | node, [] => some node
  | node, name :: names =>
      match find node name with
      | none => none
      | some child => walk find child names

/-- **Walking down finds the node of a path.** -/
theorem walk_eq_some (distinct : tree.Distinct) {find : Node → Name → Option Node}
    {start node : Node} {before path : List Name} (here : tree.PathTo start before)
    (finds : ∀ parent, (∃ path, tree.PathTo parent path) → ∀ name ∈ path, ∀ child,
      find parent name = some child ↔ tree.Child parent child name) :
    walk find start path = some node ↔ tree.PathTo node (before ++ path) := by
  induction path generalizing start before with
  | nil =>
      rw [List.append_nil]
      constructor
      · intro same
        cases same
        exact here
      · intro there
        rw [here.node_unique distinct there]
        rfl
  | cons name names ih =>
      rw [walk]
      have regroup := List.append_cons before name names
      cases found : find start name with
      | none =>
          refine iff_of_false (fun same => by cases same) fun there => ?_
          rw [regroup] at there
          obtain ⟨child, below⟩ := there.of_append
          obtain ⟨parent, above, below⟩ := PathTo.snoc_iff.mp below
          obtain rfl := here.node_unique distinct above
          rw [(finds start ⟨_, here⟩ name List.mem_cons_self child).mpr below] at found
          cases found
      | some child =>
          have below := (finds start ⟨_, here⟩ name List.mem_cons_self child).mp found
          rw [regroup]
          exact ih (.child here below) fun parent there name' member =>
            finds parent there name' (List.mem_cons_of_mem _ member)

/-! ## Adding a leaf -/

/-- **A new leaf adds its own path**, where nothing else changed. -/
theorem pathTo_addLeaf {tree' : NamedTree Node Name} {parent leaf : Node} {name : Name}
    (fresh : ¬ tree.used leaf) (root : tree'.root = tree.root) (rootUsed : tree.used tree.root)
    (used : ∀ node, tree'.used node ↔ tree.used node ∨ node = leaf)
    (kept : ∀ node, tree.used node →
      tree'.parent node = tree.parent node ∧ tree'.name node = tree.name node)
    (linked : tree'.parent leaf = some parent) (named : tree'.name leaf = name)
    (parentUsed : tree.used parent)
    (closed : ∀ node above, tree.used node → node ≠ tree.root →
      tree.parent node = some above → tree.used above)
    {node : Node} {path : List Name} : tree'.PathTo node path ↔
      tree.PathTo node path ∨ (node = leaf ∧ ∃ base, tree.PathTo parent base ∧
        path = base ++ [name]) := by
  have notRoot : leaf ≠ tree.root := fun same => fresh (same ▸ rootUsed)
  have childOld {above below : Node} {x : Name} (usedBelow : tree.used below) :
      tree'.Child above below x ↔ tree.Child above below x := by
    obtain ⟨sameParent, sameName⟩ := kept below usedBelow
    constructor
    · rintro ⟨notRoot', used', parent', name'⟩
      exact ⟨root ▸ notRoot', usedBelow, sameParent ▸ parent', sameName ▸ name'⟩
    · rintro ⟨notRoot', _, parent', name'⟩
      exact ⟨root.symm ▸ notRoot', (used below).mpr (.inl usedBelow), sameParent.symm ▸ parent',
        sameName.symm ▸ name'⟩
  have old {node : Node} {path : List Name} (here : tree.PathTo node path) :
      tree'.PathTo node path := by
    induction here with
    | root => exact PathTo.nil_iff.mpr root.symm
    | child above below ih => exact .child ih ((childOld below.used).mpr below)
  constructor
  · intro here
    induction here with
    | root =>
        left
        rw [root]
        exact .root
    | @child above below x path _ link ih =>
        rcases (used below).mp link.used with usedBelow | rfl
        · have link' := (childOld usedBelow).mp link
          left
          obtain there | ⟨rfl, _⟩ := ih
          · exact .child there link'
          · exact absurd (closed below above usedBelow link'.notRoot link'.parent) fresh
        · right
          have same : above = parent := Option.some.inj (link.parent.symm.trans linked)
          have sameName : x = name := link.name.symm.trans named
          subst same sameName
          obtain there | ⟨rfl, _⟩ := ih
          · exact ⟨rfl, path, there, rfl⟩
          · exact absurd parentUsed fresh
  · rintro (there | ⟨rfl, base, there, rfl⟩)
    · exact old there
    · exact .child (old there) ⟨root.symm ▸ notRoot, (used node).mpr (.inr rfl), linked, named⟩

end NamedTree

end Foundation
