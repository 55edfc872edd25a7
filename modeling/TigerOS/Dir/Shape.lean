import TigerOS.Foundation.LinkedChain
import TigerOS.Foundation.NamedTree
import TigerOS.Foundation.Ascending
import TigerOS.Path.Canonical
import TigerOS.Dir.Tree

/-! # The shape of a directory tree

The nodes below the count are in use, each but the root has a parent before it
and lies in the sibling list of that parent alone, sibling lists ascend, and
every path fits its buffer (`TigerOS.Dir.Shaped`). In a shaped tree the loop over
the siblings finds the child of a name (`TigerOS.Dir.Shaped.findChild_eq_some`),
and making a child keeps the shape and adds the path of the child alone
(`TigerOS.Dir.Shaped.makeChild`).
-/

namespace TigerOS.Dir

open Foundation TigerOS.Path

/-- How a sibling link is read. -/
def siblingTarget : Option NodeIndex → Target NodeIndex
  | none => .stop
  | some i => .cell i

/-- Following sibling links visits exactly the listed nodes. -/
abbrev Siblings (tree : FsDirTree) (link : Option NodeIndex) (list : List NodeIndex) : Prop :=
  Chain siblingTarget (fun i => (tree.nodes i).nextSibling) link list

/-- The tree of names in the array of nodes. -/
def namedTree (tree : FsDirTree) : NamedTree NodeIndex (List UInt8) where
  root := 0
  used := fun i => (tree.nodes i).used = true
  parent := fun i => (tree.nodes i).parent
  name := fun i => (tree.nodes i).name

/-- The path of a node, as its components. -/
abbrev PathTo (tree : FsDirTree) (i : NodeIndex) (path : List (List UInt8)) : Prop :=
  (namedTree tree).PathTo i path

/-- A node is a child of another, by a name. -/
abbrev Child (tree : FsDirTree) (parent child : NodeIndex) (name : List UInt8) : Prop :=
  (namedTree tree).Child parent child name

/-- A name a node may carry. -/
def ValidName (name : List UInt8) : Prop := ValidComponent name ∧ name.length ≤ fsDirNameMax

/-- The invariant of a directory tree with the given lists of children. -/
structure Shaped (tree : FsDirTree) (kids : NodeIndex → List NodeIndex) : Prop where
  nonempty : 0 < tree.nodeCount
  bounded : tree.nodeCount ≤ fsDirMaxNodes
  used : ∀ i, (tree.nodes i).used = true ↔ i < tree.nodeCount
  cwd : tree.cwdIndex < tree.nodeCount
  siblings : ∀ i, i.val < tree.nodeCount → Siblings tree (tree.nodes i).firstChild (kids i)
  member : ∀ i c, i.val < tree.nodeCount →
    (c ∈ kids i ↔ Child tree i c (tree.nodes c).name)
  upward : ∀ c, c.val < tree.nodeCount → c ≠ 0 → ∃ p, (tree.nodes c).parent = some p ∧ p < c
  ascending : ∀ i, i.val < tree.nodeCount →
    (kids i).Pairwise fun a b => (tree.nodes a).name < (tree.nodes b).name
  named : ∀ c, c.val < tree.nodeCount → c ≠ 0 → ValidName (tree.nodes c).name
  short : ∀ c path, PathTo tree c path → (render path).length < fsPathMax

/-! ## Sibling lists -/

section Siblings

variable {tree : FsDirTree} {link : Option NodeIndex} {list : List NodeIndex} {i c : NodeIndex}

theorem siblings_nil : Siblings tree link [] ↔ link = none := by
  cases link <;> simp [siblingTarget]

theorem siblings_cons : Siblings tree link (c :: list) ↔
    link = some c ∧ Siblings tree (tree.nodes c).nextSibling list := by
  cases link <;> simp [siblingTarget]

theorem Siblings.length_le (siblings : Siblings tree link list) : list.length ≤ fsDirMaxNodes :=
  (Chain.length_le siblings).trans_eq (Fintype.card_fin _)

/-- The loop of `find_child` searches the list. -/
private theorem findFrom_eq {name : List UInt8} {rounds : ℕ} (siblings : Siblings tree link list)
    (enough : list.length ≤ rounds) : findFrom tree name rounds link =
      list.find? fun c => (tree.nodes c).used = true ∧ strcmp (tree.nodes c).name name = 0 := by
  induction list generalizing link rounds with
  | nil =>
      rw [siblings_nil.mp siblings]
      cases rounds <;> rfl
  | cons c list ih =>
      obtain ⟨rfl, rest⟩ := siblings_cons.mp siblings
      obtain ⟨rounds, rfl⟩ := Nat.exists_eq_succ_of_ne_zero (by
        simp only [List.length_cons] at enough
        omega : rounds ≠ 0)
      rw [findFrom, List.find?_cons]
      by_cases found : (tree.nodes c).used = true ∧ strcmp (tree.nodes c).name name = 0
      · simp only [found, and_self, ↓reduceIte, decide_true]
      · rw [if_neg found, ih rest (by simpa using enough)]
        simp only [found, decide_false]

/-- The loop of `insert_child_sorted` stops after the smaller names. -/
private theorem insertPoint_eq {name : List UInt8} {rounds : ℕ} {prev : Option NodeIndex}
    (siblings : Siblings tree link list) (enough : list.length ≤ rounds) :
    insertPoint tree name rounds prev link =
      ((list.takeWhile fun c => strcmp (tree.nodes c).name name < 0).getLast?).or prev := by
  induction list generalizing link rounds prev with
  | nil =>
      rw [siblings_nil.mp siblings]
      cases rounds <;> rfl
  | cons c list ih =>
      obtain ⟨rfl, rest⟩ := siblings_cons.mp siblings
      obtain ⟨rounds, rfl⟩ := Nat.exists_eq_succ_of_ne_zero (by
        simp only [List.length_cons] at enough
        omega : rounds ≠ 0)
      rw [insertPoint]
      by_cases less : strcmp (tree.nodes c).name name < 0
      · rw [if_pos less, ih rest (by simpa using enough)]
        simp only [List.takeWhile_cons, less, decide_true, ↓reduceIte, List.getLast?_cons]
        cases (list.takeWhile fun c => decide (strcmp (tree.nodes c).name name < 0)).getLast? <;>
          rfl
      · rw [if_neg less]
        simp only [List.takeWhile_cons, less, decide_false, Bool.false_eq_true, ↓reduceIte]
        rfl

/-- The loop of `fs_dir_readdir` answers the names of the list. -/
theorem readChildren_eq {rounds : ℕ} (siblings : Siblings tree link list)
    (used : ∀ c ∈ list, (tree.nodes c).used = true) (enough : list.length ≤ rounds) :
    readChildren tree rounds link = some (list.map fun c => (tree.nodes c).name) := by
  induction list generalizing link rounds with
  | nil =>
      rw [siblings_nil.mp siblings]
      cases rounds <;> rfl
  | cons c list ih =>
      obtain ⟨rfl, rest⟩ := siblings_cons.mp siblings
      obtain ⟨rounds, rfl⟩ := Nat.exists_eq_succ_of_ne_zero (by
        simp only [List.length_cons] at enough
        omega : rounds ≠ 0)
      rw [readChildren, used c List.mem_cons_self,
        ih rest (fun c' member => used c' (List.mem_cons_of_mem _ member)) (by simpa using enough)]
      rfl

end Siblings

/-! ## Reading a shaped tree -/

namespace Shaped

variable {tree : FsDirTree} {kids : NodeIndex → List NodeIndex} {parent i c : NodeIndex}
  {name : List UInt8}

theorem usedRoot (shaped : Shaped tree kids) : (tree.nodes 0).used = true :=
  (shaped.used 0).mpr shaped.nonempty

theorem valid (shaped : Shaped tree kids) : validTree tree :=
  ⟨shaped.nonempty.ne', shaped.bounded, shaped.cwd, (shaped.used _).mpr shaped.cwd,
    shaped.usedRoot⟩

theorem rooted (shaped : Shaped tree kids) : (namedTree tree).Rooted fun i => i.val where
  root := shaped.usedRoot
  parent := by
    intro c used notRoot
    have inside := (shaped.used c).mp used
    obtain ⟨p, linked, before⟩ := shaped.upward c inside notRoot
    exact ⟨p, linked, (shaped.used p).mpr (lt_trans before inside), before⟩

/-- The parent of a child is in use. -/
theorem parent_inside (shaped : Shaped tree kids) (child : Child tree parent c name) :
    parent.val < tree.nodeCount := by
  obtain ⟨p, linked, used, _⟩ := shaped.rooted.parent c child.used child.notRoot
  obtain rfl := Option.some.inj (linked.symm.trans child.parent)
  exact (shaped.used p).mp used

theorem child_name (shaped : Shaped tree kids) (child : Child tree parent c name) :
    ValidName name := by
  have valid := shaped.named c ((shaped.used c).mp child.used) child.notRoot
  rwa [show (tree.nodes c).name = name from child.name] at valid

theorem mem_kids (shaped : Shaped tree kids) (child : Child tree parent c name) :
    c ∈ kids parent := by
  refine (shaped.member parent c (shaped.parent_inside child)).mpr ?_
  rwa [show (tree.nodes c).name = name from child.name]

/-- Siblings have different names. -/
theorem distinct (shaped : Shaped tree kids) : (namedTree tree).Distinct := by
  intro parent first second name child child'
  have names : (tree.nodes first).name = (tree.nodes second).name :=
    child.name.trans child'.name.symm
  have differ {a b : NodeIndex} (less : (tree.nodes a).name < (tree.nodes b).name) :
      (tree.nodes a).name ≠ (tree.nodes b).name := by
    intro same
    rw [same] at less
    exact List.lt_irrefl _ less
  have nodup : ((kids parent).map fun c => (tree.nodes c).name).Nodup :=
    List.pairwise_map.mpr ((shaped.ascending parent (shaped.parent_inside child)).imp differ)
  exact List.inj_on_of_nodup_map nodup (shaped.mem_kids child) (shaped.mem_kids child') names

/-- **The loop over the siblings finds the child of a name.** -/
theorem findChild_eq_some (shaped : Shaped tree kids) (inside : parent.val < tree.nodeCount)
    (noNul : 0 ∉ name) : findChild tree parent name = some c ↔ Child tree parent c name := by
  have siblings := shaped.siblings parent inside
  have matched {d : NodeIndex} (member : d ∈ kids parent) :
      decide ((tree.nodes d).used = true ∧ strcmp (tree.nodes d).name name = 0) = true ↔
        (tree.nodes d).name = name := by
    have child := (shaped.member parent d inside).mp member
    have noNul' := (shaped.child_name child).1.noNul
    rw [decide_eq_true_eq, strcmp_eq_zero noNul' noNul]
    exact and_iff_right child.used
  rw [findChild, findFrom_eq siblings siblings.length_le]
  constructor
  · intro found
    have member := List.mem_of_find?_eq_some found
    have holds := List.find?_some found
    have same := (matched member).mp holds
    exact same ▸ (shaped.member parent c inside).mp member
  · intro child
    have member := shaped.mem_kids child
    cases found : (kids parent).find? fun d =>
        decide ((tree.nodes d).used = true ∧ strcmp (tree.nodes d).name name = 0) with
    | none =>
        have missed := List.find?_eq_none.mp found c member
        exact absurd ((matched member).mpr child.name) missed
    | some d =>
        have member' := List.mem_of_find?_eq_some found
        have holds := List.find?_some found
        have child' := (shaped.member parent d inside).mp member'
        rw [(matched member').mp holds] at child'
        rw [shaped.distinct child' child]

end Shaped

/-! ## Linking a child -/

/-- The two trees differ in their links at most. -/
structure Relinked (tree tree' : FsDirTree) : Prop where
  nodeCount : tree'.nodeCount = tree.nodeCount
  cwdIndex : tree'.cwdIndex = tree.cwdIndex
  name : ∀ i, (tree'.nodes i).name = (tree.nodes i).name
  parent : ∀ i, (tree'.nodes i).parent = (tree.nodes i).parent
  used : ∀ i, (tree'.nodes i).used = (tree.nodes i).used

theorem Relinked.trans {tree mid tree' : FsDirTree} (first : Relinked tree mid)
    (second : Relinked mid tree') : Relinked tree tree' where
  nodeCount := second.nodeCount.trans first.nodeCount
  cwdIndex := second.cwdIndex.trans first.cwdIndex
  name := fun i => (second.name i).trans (first.name i)
  parent := fun i => (second.parent i).trans (first.parent i)
  used := fun i => (second.used i).trans (first.used i)

section Link

variable {tree : FsDirTree} {parent new i j : NodeIndex} {link : Option NodeIndex}
  {list : List NodeIndex}

theorem setNode_same (tree : FsDirTree) (i : NodeIndex) (node : FsDirNode) :
    (tree.setNode i node).nodes i = node := Function.update_self ..

theorem setNode_other (apart : j ≠ i) (node : FsDirNode) :
    (tree.setNode i node).nodes j = tree.nodes j := Function.update_of_ne apart ..

/-- Rewriting the links of a node. -/
private theorem relinked_setNode {node : FsDirNode} (name : node.name = (tree.nodes i).name)
    (parent : node.parent = (tree.nodes i).parent) (used : node.used = (tree.nodes i).used) :
    Relinked tree (tree.setNode i node) := by
  refine ⟨rfl, rfl, fun j => ?_, fun j => ?_, fun j => ?_⟩
  all_goals
    by_cases same : j = i
    · subst same
      rw [setNode_same]
      assumption
    · rw [setNode_other same]

private theorem relinked_setFirstChild (tree : FsDirTree) (i : NodeIndex)
    (link : Option NodeIndex) : Relinked tree (tree.setFirstChild i link) :=
  relinked_setNode rfl rfl rfl

private theorem relinked_setNextSibling (tree : FsDirTree) (i : NodeIndex)
    (link : Option NodeIndex) : Relinked tree (tree.setNextSibling i link) :=
  relinked_setNode rfl rfl rfl

private theorem nextSibling_setFirstChild (tree : FsDirTree) (i : NodeIndex)
    (link : Option NodeIndex) (j : NodeIndex) :
    ((tree.setFirstChild i link).nodes j).nextSibling = (tree.nodes j).nextSibling := by
  by_cases same : j = i
  · subst same
    rw [FsDirTree.setFirstChild, setNode_same]
  · rw [FsDirTree.setFirstChild, setNode_other same]

private theorem firstChild_setNextSibling (tree : FsDirTree) (i : NodeIndex)
    (link : Option NodeIndex) (j : NodeIndex) :
    ((tree.setNextSibling i link).nodes j).firstChild = (tree.nodes j).firstChild := by
  by_cases same : j = i
  · subst same
    rw [FsDirTree.setNextSibling, setNode_same]
  · rw [FsDirTree.setNextSibling, setNode_other same]

private theorem nextSibling_setNextSibling_same (tree : FsDirTree) (i : NodeIndex)
    (link : Option NodeIndex) : ((tree.setNextSibling i link).nodes i).nextSibling = link := by
  rw [FsDirTree.setNextSibling, setNode_same]

private theorem nextSibling_setNextSibling_other (tree : FsDirTree) (apart : j ≠ i)
    (link : Option NodeIndex) :
    ((tree.setNextSibling i link).nodes j).nextSibling = (tree.nodes j).nextSibling := by
  rw [FsDirTree.setNextSibling, setNode_other apart]

/-- A child put into a list of siblings after the smaller names. -/
def insertedKid (tree : FsDirTree) (new : NodeIndex) (list : List NodeIndex) : List NodeIndex :=
  insertAscending (fun a b => strcmp (tree.nodes a).name (tree.nodes b).name < 0) new list

/-- **Linking a child** puts it into the sibling list of its parent after the
smaller names, and leaves the other lists. -/
theorem insertChildSorted_spec
    (siblings : Siblings tree (tree.nodes parent).firstChild list) (off : new ∉ list) :
    Relinked tree (insertChildSorted tree parent new) ∧
      Siblings (insertChildSorted tree parent new)
        ((insertChildSorted tree parent new).nodes parent).firstChild
        (insertedKid tree new list) ∧
      (∀ i, i ≠ parent → ((insertChildSorted tree parent new).nodes i).firstChild =
        (tree.nodes i).firstChild) ∧
      (∀ i, i ∉ list → i ≠ new → ((insertChildSorted tree parent new).nodes i).nextSibling =
        (tree.nodes i).nextSibling) := by
  have parts := @List.takeWhile_append_dropWhile _
    (fun c => decide (strcmp (tree.nodes c).name (tree.nodes new).name < 0)) list
  set smaller := list.takeWhile
    fun c => decide (strcmp (tree.nodes c).name (tree.nodes new).name < 0) with smallerEq
  set larger := list.dropWhile
    fun c => decide (strcmp (tree.nodes c).name (tree.nodes new).name < 0) with largerEq
  have inserted : insertedKid tree new list = smaller ++ new :: larger := rfl
  rw [inserted]
  have point := @insertPoint_eq _ _ _ (tree.nodes new).name _ none siblings siblings.length_le
  rw [← smallerEq, Option.or_none] at point
  cases last : smaller.getLast? with
  | none =>
      have none := List.getLast?_eq_none_iff.mp last
      rw [none, List.nil_append] at parts ⊢
      rw [last] at point
      rw [insertChildSorted, point]
      simp only
      set mid := tree.setNextSibling new (tree.nodes parent).firstChild with midEq
      have head : ((mid.setFirstChild parent (some new)).nodes parent).firstChild = some new := by
        rw [FsDirTree.setFirstChild, setNode_same]
      refine ⟨?_, ?_, ?_, ?_⟩
      · exact (relinked_setNextSibling ..).trans (relinked_setFirstChild ..)
      · rw [head]
        refine @Chain.insertFirst _ _ _ _ _ (tree.nodes parent).firstChild _ _ _
          (parts ▸ siblings) (parts ▸ off) ?_ rfl ?_
        · intro visited other
          rw [nextSibling_setFirstChild, midEq, nextSibling_setNextSibling_other _ other]
        · rw [nextSibling_setFirstChild, midEq, nextSibling_setNextSibling_same]
      · intro i other
        rw [FsDirTree.setFirstChild, setNode_other other, midEq, firstChild_setNextSibling]
      · intro i _ other
        rw [nextSibling_setFirstChild, midEq, nextSibling_setNextSibling_other _ other]
  | some prev =>
      obtain ⟨before, split⟩ := List.getLast?_eq_some_iff.mp last
      rw [last] at point
      rw [insertChildSorted, point]
      simp only
      rw [split] at parts ⊢
      simp only [List.append_assoc, List.singleton_append] at parts ⊢
      have prevIn : prev ∈ list := by
        rw [← parts]
        simp
      have apart' : prev ≠ new := fun same => off (same ▸ prevIn)
      refine ⟨?_, ?_, ?_, ?_⟩
      · exact (relinked_setNextSibling ..).trans (relinked_setNextSibling ..)
      · rw [firstChild_setNextSibling, firstChild_setNextSibling]
        refine Chain.insertAfter (parts ▸ siblings) (parts ▸ off) ?_ ?_ ?_
        · intro visited notPrev other
          rw [nextSibling_setNextSibling_other _ notPrev,
            nextSibling_setNextSibling_other _ other]
        · rw [nextSibling_setNextSibling_same]
          rfl
        · rw [nextSibling_setNextSibling_other _ apart'.symm,
            nextSibling_setNextSibling_same]
      · intro i _
        rw [firstChild_setNextSibling, firstChild_setNextSibling]
      · intro i outside other
        have notPrev : i ≠ prev := fun same => outside (same ▸ prevIn)
        rw [nextSibling_setNextSibling_other _ notPrev,
          nextSibling_setNextSibling_other _ other]

end Link

end TigerOS.Dir
