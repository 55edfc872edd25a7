import TigerOS.Dir.Shape

/-! # Making a child

Taking a node and linking it below a parent keeps the shape of the tree and adds
exactly the path of the child (`TigerOS.Dir.Shaped.makeChild_spec`); it fails only
when every node is taken (`TigerOS.Dir.makeChild_full`). The tree after
`fs_dir_init` has the shape (`TigerOS.Dir.shaped_init`), and moving the working
directory keeps it (`TigerOS.Dir.Shaped.moved`).
-/

namespace TigerOS.Dir

open Foundation TigerOS.Path

/-- The tree gained one node, with the path of its parent and its name. -/
structure Grown (tree : FsDirTree) (base : List (List UInt8)) (name : List UInt8)
    (new : NodeIndex) (tree' : FsDirTree) : Prop where
  nodeCount : tree'.nodeCount = tree.nodeCount + 1
  cwdIndex : tree'.cwdIndex = tree.cwdIndex
  pathTo : ∀ i path, PathTo tree' i path ↔
    PathTo tree i path ∨ (i = new ∧ path = base ++ [name])

/-- The node taken by `mkdir_internal`, before it is linked. -/
def namedNode (parent : NodeIndex) (name : List UInt8) : FsDirNode :=
  ⟨name, some parent, none, none, true⟩

/-- The tree with the node taken, before it is linked. -/
def withNode (tree : FsDirTree) (new parent : NodeIndex) (name : List UInt8) : FsDirTree :=
  { tree.setNode new (namedNode parent name) with nodeCount := tree.nodeCount + 1 }

theorem makeChild_eq {tree : FsDirTree} (room : tree.nodeCount < fsDirMaxNodes)
    (parent : NodeIndex) (name : List UInt8) : makeChild tree parent name =
      some (⟨tree.nodeCount, room⟩, insertChildSorted
        (withNode tree ⟨tree.nodeCount, room⟩ parent name) parent ⟨tree.nodeCount, room⟩) := by
  simp only [makeChild, allocNode, room, ↓reduceDIte, withNode, namedNode, FsDirTree.setNode,
    Function.update_self, Function.update_idem]

theorem makeChild_full {tree : FsDirTree} (full : fsDirMaxNodes ≤ tree.nodeCount)
    (parent : NodeIndex) (name : List UInt8) : makeChild tree parent name = none := by
  simp only [makeChild, allocNode, not_lt.mpr full, ↓reduceDIte]

section Grow

variable {tree tree' : FsDirTree} {kids kids' : NodeIndex → List NodeIndex}
  {parent new i c : NodeIndex} {name name' : List UInt8} {list : List NodeIndex}

private theorem withNode_same :
    (withNode tree new parent name).nodes new = namedNode parent name := setNode_same ..

private theorem withNode_other (apart : c ≠ new) :
    (withNode tree new parent name).nodes c = tree.nodes c := setNode_other apart _

/-- The children after a node is taken and linked below a parent. -/
private theorem child_grown (relinked : Relinked (withNode tree new parent name) tree')
    (notRoot : new ≠ 0) : Child tree' i c name' ↔
      (c = new ∧ i = parent ∧ name' = name) ∨ (c ≠ new ∧ Child tree i c name') := by
  have child_iff (t : FsDirTree) : Child t i c name' ↔ c ≠ 0 ∧ (t.nodes c).used = true ∧
      (t.nodes c).parent = some i ∧ (t.nodes c).name = name' :=
    ⟨fun ⟨a, b, c, d⟩ => ⟨a, b, c, d⟩, fun ⟨a, b, c, d⟩ => ⟨a, b, c, d⟩⟩
  rw [child_iff, child_iff, relinked.used, relinked.parent, relinked.name]
  by_cases same : c = new
  · subst same
    simp only [withNode_same, namedNode, notRoot, ne_eq, not_false_eq_true, true_and,
      Option.some.injEq, not_true_eq_false, false_and, or_false, eq_comm]
  · simp only [withNode_other same, same, ne_eq, false_and, not_false_eq_true, true_and, false_or]

/-- The lists of children after a node is linked below a parent. -/
private def grownKids (tree : FsDirTree) (kids : NodeIndex → List NodeIndex)
    (parent new : NodeIndex) (i : NodeIndex) : List NodeIndex :=
  if i = parent then insertedKid tree new (kids i) else if i = new then [] else kids i

/-- A node past the count is in no list of children. -/
private theorem not_mem_kids (shaped : Shaped tree kids) (fresh : tree.nodeCount ≤ new)
    (inside : i.val < tree.nodeCount) : new ∉ kids i := by
  intro member
  have used := ((shaped.member i new inside).mp member).used
  have below := (shaped.used new).mp used
  omega

/-- A node counted after the new one is taken was counted before or is the new one. -/
private theorem before_fresh (fresh : new.val = tree.nodeCount)
    (within : c.val < tree.nodeCount + 1) (apart : c ≠ new) : c.val < tree.nodeCount := by
  have distinct : c.val ≠ new.val := fun same => apart (Fin.ext same)
  omega

/-- The sibling lists after a node is taken and linked below a parent. -/
private theorem siblings_grown (shaped : Shaped tree kids) (inside : parent.val < tree.nodeCount)
    (fresh : new.val = tree.nodeCount) (i : NodeIndex) (within : i.val < tree.nodeCount + 1) :
    Siblings (insertChildSorted (withNode tree new parent name) parent new)
      ((insertChildSorted (withNode tree new parent name) parent new).nodes i).firstChild
      (grownKids (withNode tree new parent name) kids parent new i) := by
  have parentApart : parent ≠ new := fun same => by subst same; omega
  have keptFirst {j : NodeIndex} (apart : j ≠ new) :
      ((withNode tree new parent name).nodes j).firstChild = (tree.nodes j).firstChild := by
    rw [withNode_other apart]
  have kept {j : NodeIndex} (inside : j.val < tree.nodeCount) :
      Siblings (withNode tree new parent name) (tree.nodes j).firstChild (kids j) := by
    refine (shaped.siblings j inside).congr fun visited member => ?_
    rw [withNode_other]
    exact fun same => not_mem_kids shaped fresh.ge inside (same ▸ member)
  have siblings := kept inside
  rw [← keptFirst parentApart] at siblings
  obtain ⟨_, linked, first, next⟩ := insertChildSorted_spec siblings
    (not_mem_kids shaped fresh.ge inside)
  rw [grownKids]
  by_cases isParent : i = parent
  · rw [if_pos isParent, isParent]
    exact linked
  · rw [if_neg isParent, first i isParent]
    by_cases isNew : i = new
    · rw [if_pos isNew, isNew, withNode_same]
      exact siblings_nil.mpr rfl
    · have inside' := before_fresh fresh within isNew
      rw [if_neg isNew, keptFirst isNew]
      refine (kept inside').congr fun visited member => next visited ?_ ?_
      · intro member'
        have child := (shaped.member i visited inside').mp member
        have child' := (shaped.member parent visited inside).mp member'
        exact isParent (child.parent_unique child').1
      · exact fun same => not_mem_kids shaped fresh.ge inside' (same ▸ member)

/-- The node is linked between the smaller and the larger names. -/
private theorem ascending_parent (shaped : Shaped tree kids) (inside : parent.val < tree.nodeCount)
    (fresh : new.val = tree.nodeCount) (valid : ValidName name)
    (missing : ∀ c, ¬ Child tree parent c name) :
    (insertedKid (withNode tree new parent name) new (kids parent)).Pairwise fun a b =>
      ((withNode tree new parent name).nodes a).name <
        ((withNode tree new parent name).nodes b).name := by
  have off := not_mem_kids shaped fresh.ge inside
  have same : ∀ c ∈ kids parent,
      ((withNode tree new parent name).nodes c).name = (tree.nodes c).name := by
    intro c member
    rw [withNode_other]
    exact fun same => off (same ▸ member)
  have named : ((withNode tree new parent name).nodes new).name = name := by
    rw [withNode_same, namedNode]
  have noNul : ∀ c, c = new ∨ c ∈ kids parent →
      0 ∉ ((withNode tree new parent name).nodes c).name := by
    rintro c (rfl | member)
    · rw [named]
      exact valid.1.noNul
    · rw [same c member]
      exact (shaped.child_name ((shaped.member parent c inside).mp member)).1.noNul
  have ascending : (kids parent).Pairwise fun a b =>
      strcmp ((withNode tree new parent name).nodes a).name
        ((withNode tree new parent name).nodes b).name < 0 := by
    refine (shaped.ascending parent inside).imp_of_mem fun {a b} memberA memberB less => ?_
    rw [strcmp_neg (noNul b (.inr memberB)), same a memberA, same b memberB]
    exact less
  have inserted := ascending_insert (x := new) ?_ ascending ?_
  · refine List.Pairwise.imp_of_mem (fun {a b} _ memberB less => ?_) inserted
    exact (strcmp_neg (noNul b (mem_insertAscending.mp memberB))).mp less
  · intro a memberA b memberB
    simp only [strcmp_neg (noNul a (.inr memberA)), strcmp_neg (noNul b (.inr memberB))]
    exact List.lt_trans
  · intro c member
    rw [strcmp_neg (noNul new (.inl rfl)), strcmp_neg (noNul c (.inr member)), named,
      same c member]
    have apart : (tree.nodes c).name ≠ name := by
      intro equal
      have child := (shaped.member parent c inside).mp member
      rw [equal] at child
      exact missing c child
    rcases Std.lt_trichotomy (tree.nodes c).name name with less | equal | greater
    · exact .inl less
    · exact absurd equal apart
    · exact .inr greater

/-- The names of the children ascend after a node is linked below a parent. -/
private theorem ascending_grown (shaped : Shaped tree kids) (inside : parent.val < tree.nodeCount)
    (fresh : new.val = tree.nodeCount) (valid : ValidName name)
    (missing : ∀ c, ¬ Child tree parent c name) (i : NodeIndex)
    (within : i.val < tree.nodeCount + 1) :
    (grownKids (withNode tree new parent name) kids parent new i).Pairwise fun a b =>
      ((withNode tree new parent name).nodes a).name <
        ((withNode tree new parent name).nodes b).name := by
  rw [grownKids]
  by_cases isParent : i = parent
  · rw [if_pos isParent, isParent]
    exact ascending_parent shaped inside fresh valid missing
  · rw [if_neg isParent]
    by_cases isNew : i = new
    · rw [if_pos isNew]
      exact List.Pairwise.nil
    · have inside' := before_fresh fresh within isNew
      rw [if_neg isNew]
      refine (shaped.ascending i inside').imp_of_mem fun {a b} memberA memberB less => ?_
      have apart {c : NodeIndex} (member : c ∈ kids i) : c ≠ new :=
        fun same => not_mem_kids shaped fresh.ge inside' (same ▸ member)
      rw [withNode_other (apart memberA), withNode_other (apart memberB)]
      exact less

section Relinked

variable (relinked : Relinked (withNode tree new parent name) tree')
include relinked

private theorem used_grown : (tree'.nodes c).used = true ↔
    (tree.nodes c).used = true ∨ c = new := by
  rw [relinked.used]
  by_cases same : c = new
  · rw [same, withNode_same, namedNode]
    simp
  · rw [withNode_other same]
    simp [same]

private theorem name_kept (apart : c ≠ new) : (tree'.nodes c).name = (tree.nodes c).name := by
  rw [relinked.name, withNode_other apart]

private theorem name_new : (tree'.nodes new).name = name := by
  rw [relinked.name, withNode_same, namedNode]

/-- The paths after a node is linked below a parent. -/
private theorem paths_grown {base : List (List UInt8)} (shaped : Shaped tree kids)
    (fresh : new.val = tree.nodeCount) (here : PathTo tree parent base) (i : NodeIndex)
    (path : List (List UInt8)) : PathTo tree' i path ↔
      PathTo tree i path ∨ (i = new ∧ path = base ++ [name]) := by
  have freshNode : ¬ (namedTree tree).used new := by
    intro usedNew
    exact absurd ((shaped.used new).mp usedNew) fresh.not_lt
  have kept (c : NodeIndex) (usedC : (tree.nodes c).used = true) :
      (tree'.nodes c).parent = (tree.nodes c).parent ∧
        (tree'.nodes c).name = (tree.nodes c).name := by
    have apart : c ≠ new := fun same => freshNode (same ▸ usedC)
    refine ⟨?_, name_kept relinked apart⟩
    rw [relinked.parent, withNode_other apart]
  have linked : (tree'.nodes new).parent = some parent := by
    rw [relinked.parent, withNode_same, namedNode]
  have closed (c above : NodeIndex) (usedC : (tree.nodes c).used = true) (notRoot : c ≠ 0)
      (link : (tree.nodes c).parent = some above) : (tree.nodes above).used = true := by
    obtain ⟨p, link', used', _⟩ := shaped.rooted.parent c usedC notRoot
    rwa [Option.some.inj (link.symm.trans link')]
  have added := @NamedTree.pathTo_addLeaf _ _ (namedTree tree) (namedTree tree') parent new name
    freshNode rfl shaped.usedRoot (fun _ => used_grown relinked) kept linked (name_new relinked)
    (here.used shaped.rooted) closed i path
  unfold PathTo
  rw [added]
  refine or_congr_right (and_congr_right fun _ => ⟨?_, fun same => ⟨base, here, same⟩⟩)
  rintro ⟨base', there, same⟩
  rw [here.path_unique there]
  exact same

/-- The lists hold exactly the children after a node is linked below a parent. -/
private theorem member_grown (shaped : Shaped tree kids) (inside : parent.val < tree.nodeCount)
    (fresh : new.val = tree.nodeCount) (notRoot : new ≠ 0) (i c : NodeIndex)
    (within : i.val < tree.nodeCount + 1) :
    c ∈ grownKids (withNode tree new parent name) kids parent new i ↔
      Child tree' i c (tree'.nodes c).name := by
  rw [grownKids, child_grown relinked notRoot]
  by_cases isParent : i = parent
  · subst isParent
    rw [if_pos rfl, insertedKid, mem_insertAscending]
    by_cases same : c = new
    · simp [same, name_new relinked]
    · simp [same, name_kept relinked same, shaped.member i c inside]
  · rw [if_neg isParent]
    by_cases isNew : i = new
    · subst isNew
      rw [if_pos rfl]
      refine iff_of_false List.not_mem_nil ?_
      rintro (⟨_, same, _⟩ | ⟨_, child⟩)
      · exact isParent same
      · exact absurd (shaped.parent_inside child) fresh.not_lt
    · rw [if_neg isNew, shaped.member i c (before_fresh fresh within isNew)]
      by_cases same : c = new
      · subst same
        simp only [isParent, false_and, and_false, ne_eq, not_true_eq_false, or_self, iff_false]
        intro child
        exact absurd ((shaped.used _).mp child.used) fresh.not_lt
      · simp only [same, false_and, ne_eq, not_false_eq_true, true_and, false_or,
          name_kept relinked same]

end Relinked

/-- **Making a child** below a node of the tree, by a valid name none of its
children has, keeps the shape and adds exactly the path of the child. -/
theorem Shaped.makeChild_spec {base : List (List UInt8)} (shaped : Shaped tree kids)
    (here : PathTo tree parent base) (valid : ValidName name)
    (missing : ∀ c, ¬ Child tree parent c name) (room : tree.nodeCount < fsDirMaxNodes)
    (short : (render (base ++ [name])).length < fsPathMax) :
    ∃ tree' kids', makeChild tree parent name = some (⟨tree.nodeCount, room⟩, tree') ∧
      Shaped tree' kids' ∧ Grown tree base name ⟨tree.nodeCount, room⟩ tree' := by
  set new : NodeIndex := ⟨tree.nodeCount, room⟩ with newEq
  have fresh : new.val = tree.nodeCount := rfl
  have inside : parent.val < tree.nodeCount :=
    (shaped.used parent).mp (here.used shaped.rooted)
  have notRoot : new ≠ 0 := fun same => by
    have zero := congrArg Fin.val same
    rw [fresh] at zero
    exact shaped.nonempty.ne' zero
  have parentApart : parent ≠ new := fun same => by subst same; omega
  have off := not_mem_kids shaped fresh.ge inside
  obtain ⟨relinked, _⟩ := @insertChildSorted_spec (withNode tree new parent name)
    parent new (kids parent) (by
      rw [withNode_other parentApart]
      refine (shaped.siblings parent inside).congr fun visited member => ?_
      rw [withNode_other]
      exact fun same => off (same ▸ member)) off
  have siblings := @siblings_grown _ _ _ _ name shaped inside fresh
  set tree' := insertChildSorted (withNode tree new parent name) parent new with treeEq
  have nodeCount : tree'.nodeCount = tree.nodeCount + 1 := relinked.nodeCount
  have before {c : NodeIndex} (within : c.val < tree'.nodeCount) (apart : c ≠ new) :
      c.val < tree.nodeCount := before_fresh fresh (nodeCount ▸ within) apart
  have paths := paths_grown relinked shaped fresh here
  refine ⟨tree', grownKids (withNode tree new parent name) kids parent new,
    makeChild_eq room parent name, ?_, nodeCount, relinked.cwdIndex, paths⟩
  exact {
    nonempty := by omega
    bounded := by rw [nodeCount]; exact room
    used := by
      intro i
      rw [used_grown relinked, shaped.used, nodeCount, Fin.ext_iff]
      omega
    cwd := by
      rw [nodeCount, relinked.cwdIndex]
      exact lt_trans shaped.cwd (Nat.lt_succ_self _)
    siblings := fun i within => siblings i (nodeCount ▸ within)
    member := fun i c within =>
      member_grown relinked shaped inside fresh notRoot i c (nodeCount ▸ within)
    upward := by
      intro c within notRoot
      rw [relinked.parent]
      by_cases same : c = new
      · subst same
        rw [withNode_same]
        exact ⟨parent, rfl, inside⟩
      · rw [withNode_other same]
        exact shaped.upward c (before within same) notRoot
    ascending := by
      intro i within
      simp only [relinked.name]
      exact ascending_grown shaped inside fresh valid missing i (nodeCount ▸ within)
    named := by
      intro c within notRoot
      by_cases same : c = new
      · rw [same, name_new relinked]
        exact valid
      · rw [name_kept relinked same]
        exact shaped.named c (before within same) notRoot
    short := by
      intro c path there
      rcases (paths c path).mp there with old | ⟨_, rfl⟩
      · exact shaped.short c path old
      · exact short }

/-- Moving the working directory to a used node keeps the shape. -/
theorem Shaped.moved (shaped : Shaped tree kids) (inside : i.val < tree.nodeCount) :
    Shaped { tree with cwdIndex := i } kids where
  nonempty := shaped.nonempty
  bounded := shaped.bounded
  used := shaped.used
  cwd := inside
  siblings := shaped.siblings
  member := shaped.member
  upward := shaped.upward
  ascending := shaped.ascending
  named := shaped.named
  short := shaped.short

/-- After `fs_dir_init` the root is the only node. -/
theorem shaped_init : Shaped fsDirInit fun _ => [] where
  nonempty := Nat.one_pos
  bounded := by decide
  used := by
    intro i
    have zero : i < (1 : ℕ) ↔ i = 0 := Nat.lt_one_iff.trans (Fin.ext_iff (b := 0)).symm
    unfold fsDirInit FsDirNode.zero
    rw [zero]
    by_cases root : i = 0 <;> simp [root]
  cwd := Nat.one_pos
  siblings := by
    intro i inside
    have root : i = 0 := Fin.ext (Nat.lt_one_iff.mp inside)
    rw [root]
    exact siblings_nil.mpr rfl
  member := by
    intro i c _
    refine iff_of_false List.not_mem_nil fun child => ?_
    have unused := child.used
    simp [namedTree, fsDirInit, FsDirNode.zero, show c ≠ 0 from child.notRoot] at unused
  upward := fun c inside notRoot => absurd (Fin.ext (Nat.lt_one_iff.mp inside)) notRoot
  ascending := fun _ _ => List.Pairwise.nil
  named := fun c inside notRoot => absurd (Fin.ext (Nat.lt_one_iff.mp inside)) notRoot
  short := by
    intro c path here
    cases here with
    | root => decide
    | child above below =>
        have unused := below.used
        simp [namedTree, fsDirInit, FsDirNode.zero, show c ≠ 0 from below.notRoot] at unused

end Grow

end TigerOS.Dir
