import TigerOS.Dir.Make

/-! # The directory tree as a set of paths

Whatever calls made a tree, its nodes are well formed
(`TigerOS.Dir.tree_wellFormed`), and the calls see nothing of it but the set of
the paths of its nodes (`TigerOS.Dir.dir_refined`).
-/

namespace TigerOS.Dir

open Foundation TigerOS.Path

/-- The representation invariant of a directory tree with the given lists of
children. -/
structure WellFormed (tree : FsDirTree) (kids : NodeIndex → List NodeIndex) : Prop where
  count : 1 ≤ tree.nodeCount ∧ tree.nodeCount ≤ fsDirMaxNodes
  used : ∀ i, (tree.nodes i).used = true ↔ i < tree.nodeCount
  siblings : ∀ i, i.val < tree.nodeCount → Siblings tree (tree.nodes i).firstChild (kids i)
  linked : ∀ i c, i.val < tree.nodeCount → c ∈ kids i →
    c.val < tree.nodeCount ∧ c ≠ 0 ∧ (tree.nodes c).parent = some i
  parent : ∀ c, c.val < tree.nodeCount → c ≠ 0 → ∃ p, (tree.nodes c).parent = some p ∧ p < c ∧
    (kids p).count c = 1 ∧ ∀ i, i.val < tree.nodeCount → i ≠ p → c ∉ kids i
  ascending : ∀ i, i.val < tree.nodeCount →
    (kids i).Pairwise fun a b => (tree.nodes a).name < (tree.nodes b).name
  named : ∀ c, c.val < tree.nodeCount → c ≠ 0 → 1 ≤ (tree.nodes c).name.length ∧
    (tree.nodes c).name.length ≤ fsDirNameMax ∧ slash ∉ (tree.nodes c).name ∧
    (tree.nodes c).name ≠ [dot] ∧ (tree.nodes c).name ≠ [dot, dot]
  path : ∀ c, c.val < tree.nodeCount → ∃ path, pathFromIndex tree c fsPathMax = some path ∧
    path.length ≤ 255
  cwd : (tree.nodes tree.cwdIndex).used = true

section WellFormed

variable {tree : FsDirTree} {kids : NodeIndex → List NodeIndex}

theorem Shaped.wellFormed (shaped : Shaped tree kids) : WellFormed tree kids where
  count := ⟨shaped.nonempty, shaped.bounded⟩
  used := shaped.used
  siblings := shaped.siblings
  linked := by
    intro i c inside member
    have child := (shaped.member i c inside).mp member
    exact ⟨(shaped.used c).mp child.used, child.notRoot, child.parent⟩
  parent := by
    intro c inside notRoot
    obtain ⟨p, linked, before⟩ := shaped.upward c inside notRoot
    have inside' : p.val < tree.nodeCount := lt_trans before inside
    have child : Child tree p c (tree.nodes c).name :=
      ⟨notRoot, (shaped.used c).mpr inside, linked, rfl⟩
    refine ⟨p, linked, before, ?_, ?_⟩
    · exact List.count_eq_one_of_mem (shaped.siblings p inside').nodup (shaped.mem_kids child)
    · intro i within other member
      exact other (((shaped.member i c within).mp member).parent_unique child).1
  ascending := shaped.ascending
  named := by
    intro c inside notRoot
    obtain ⟨valid, short⟩ := shaped.named c inside notRoot
    exact ⟨List.length_pos_iff.mpr valid.nonempty, short, valid.noSlash, valid.notDot,
      valid.notDotdot⟩
  path := by
    intro c inside
    obtain ⟨path, here⟩ := NamedTree.exists_path shaped.rooted ((shaped.used c).mpr inside)
    exact ⟨_, shaped.pathFromIndex_eq here, Nat.le_of_lt_succ (shaped.short c path here)⟩
  cwd := (shaped.used _).mpr shaped.cwd

end WellFormed

/-- **Every tree the calls make is well formed**, whichever of them fail and
however far they came. -/
theorem tree_wellFormed (ops : List DirOp) :
    ∃ kids, WellFormed (fsDir.state fsDirInit ops) kids := by
  obtain ⟨kids, shaped⟩ := shaped_run ops
  exact ⟨kids, shaped.wellFormed⟩

/-! ## The calls on the set of paths -/

open Classical in
/-- The beginnings of a path that no node has. -/
noncomputable def missingPrefixes (tree : FsDirTree) (comps : List (List UInt8)) :
    List (List (List UInt8)) :=
  comps.inits.filter (· ∉ nodePaths tree)

/-- How a listing shows names. -/
def shownIn (names : List (List UInt8)) : EntryBuffer → Listing
  | .null _ => ⟨true, [], names.length⟩
  | .room maxEntries =>
      ⟨decide (names.length ≤ maxEntries), names.take maxEntries, names.length⟩

/-- The calls on an argument that resolves to a path, in terms of the set of the
paths of the nodes. -/
structure Refines (tree : FsDirTree) (p : CString) (comps : List (List UInt8)) : Prop where
  walk : (fsDirWalk tree (some p)).isSome ↔ comps ∈ nodePaths tree
  walked : ∀ i, fsDirWalk tree (some p) = some i →
    pathFromIndex tree i fsPathMax = some (render comps)
  cd : (fsDirCd tree (some p)).1 = true ↔ comps ∈ nodePaths tree
  moved : comps ∈ nodePaths tree →
    fsDirPwd (fsDirCd tree (some p)).2 fsPathMax = some (render comps) ∧
      (fsDirCd tree (some p)).2 = { tree with cwdIndex := (fsDirCd tree (some p)).2.cwdIndex }
  stayed : comps ∉ nodePaths tree → (fsDirCd tree (some p)).2 = tree
  mkdir : (fsDirMkdir tree (some p)).1 = true ↔ ∃ base name, comps = base ++ [name] ∧
    comps ∉ nodePaths tree ∧ base ∈ nodePaths tree ∧ name.length ≤ fsDirNameMax ∧
      tree.nodeCount < fsDirMaxNodes
  made : (fsDirMkdir tree (some p)).1 = true →
    nodePaths (fsDirMkdir tree (some p)).2 = nodePaths tree ∪ {comps}
  unmade : (fsDirMkdir tree (some p)).1 = false → (fsDirMkdir tree (some p)).2 = tree
  mkdirP : (fsDirMkdirP tree (some p)).1 = true ↔ comps ≠ [] ∧
    (∀ c ∈ comps, c.length ≤ fsDirNameMax) ∧
      tree.nodeCount + (missingPrefixes tree comps).length ≤ fsDirMaxNodes
  filled : (fsDirMkdirP tree (some p)).1 = true → nodePaths (fsDirMkdirP tree (some p)).2 =
    nodePaths tree ∪ {path | path ∈ missingPrefixes tree comps}
  readdir : comps ∈ nodePaths tree → ∃ names : List (List UInt8),
    (∀ name, name ∈ names ↔ comps ++ [name] ∈ nodePaths tree) ∧
      names.Pairwise (fun a b => a < b) ∧
      ∀ buffer, ¬ buffer.Missing → fsDirReaddir tree (some p) buffer = shownIn names buffer

section Refines

variable {tree : FsDirTree} {kids : NodeIndex → List NodeIndex} {p : CString}
  {comps : List (List UInt8)} {i : NodeIndex}

theorem Shaped.root_mem (shaped : Shaped tree kids) : [] ∈ nodePaths tree :=
  shaped.mem_nodePaths.mpr ⟨0, pathTo_root⟩

theorem Shaped.missingBeyond_eq (shaped : Shaped tree kids) (comps : List (List UInt8)) :
    missingBeyond (nodePaths tree) [] comps = missingPrefixes tree comps := by
  have inits : comps.inits = [] :: comps.inits.tail := by cases comps <;> simp
  have root := shaped.root_mem
  unfold missingBeyond missingPrefixes
  rw [inits, List.filter_cons_of_neg (by simpa using root)]
  simp only [List.nil_append, List.map_id_fun', id_eq, List.tail_cons]

private theorem Shaped.cd_refined (shaped : Shaped tree kids) (canonical : Canonical comps)
    (resolves : resolvePath tree p.bytes fsPathMax = some (render comps)) :
    (∃ i, PathTo tree i comps ∧ fsDirWalk tree (some p) = some i ∧
      fsDirCd tree (some p) = (true, { tree with cwdIndex := i })) ∨
    (comps ∉ nodePaths tree ∧ fsDirWalk tree (some p) = none ∧
      fsDirCd tree (some p) = (false, tree)) := by
  cases walks : fsDirWalk tree (some p) with
  | none =>
      right
      refine ⟨?_, rfl, by rw [fsDirCd, walks]⟩
      rw [shaped.mem_nodePaths]
      rintro ⟨i, here⟩
      rw [(shaped.fsDirWalk_eq_some canonical resolves).mpr here] at walks
      cases walks
  | some i =>
      left
      exact ⟨i, (shaped.fsDirWalk_eq_some canonical resolves).mp walks, rfl, by rw [fsDirCd, walks]⟩

private theorem Shaped.mkdir_refined (shaped : Shaped tree kids) (canonical : Canonical comps)
    (short : (render comps).length < fsPathMax)
    (resolves : resolvePath tree p.bytes fsPathMax = some (render comps)) :
    (fsDirMkdir tree (some p) = (false, tree) ∧
        ¬ ∃ base name, comps = base ++ [name] ∧ Makeable tree base name) ∨
      ∃ base name tree', fsDirMkdir tree (some p) = (true, tree') ∧ comps = base ++ [name] ∧
        Makeable tree base name ∧ nodePaths tree' = nodePaths tree ∪ {comps} := by
  have enough : (render comps).tail.length ≤ (render comps).length :=
    List.length_tail ▸ Nat.sub_le _ _
  rw [fsDirMkdir, mkdirInternal_eq canonical resolves]
  rcases List.eq_nil_or_concat' comps with rfl | ⟨mid, name, rfl⟩
  · rw [if_pos rfl]
    refine .inl ⟨rfl, ?_⟩
    rintro ⟨base, name, empty, _⟩
    simp at empty
  · rw [if_neg (by simp)]
    rcases shaped.mkdirLoop_leaf pathTo_root canonical short enough false with
      ⟨stops, unable⟩ | ⟨new, tree', kids', makes, shaped', grown, able⟩
    · rw [stops]
      refine .inl ⟨rfl, ?_⟩
      rintro ⟨base, name', same, able⟩
      obtain ⟨rfl, rfl⟩ := List.append_singleton_inj.mp same
      exact unable able
    · rw [makes]
      refine .inr ⟨mid, name, tree', rfl, rfl, able, ?_⟩
      ext path
      exact grown.mem_nodePaths shaped shaped'

private theorem Shaped.mkdirP_refined (shaped : Shaped tree kids) (canonical : Canonical comps)
    (short : (render comps).length < fsPathMax)
    (resolves : resolvePath tree p.bytes fsPathMax = some (render comps)) :
    ((fsDirMkdirP tree (some p)).1 = true ↔ comps ≠ [] ∧
      (∀ c ∈ comps, c.length ≤ fsDirNameMax) ∧
        tree.nodeCount + (missingPrefixes tree comps).length ≤ fsDirMaxNodes) ∧
    ((fsDirMkdirP tree (some p)).1 = true → nodePaths (fsDirMkdirP tree (some p)).2 =
      nodePaths tree ∪ {path | path ∈ missingPrefixes tree comps}) := by
  have enough : (render comps).tail.length ≤ (render comps).length :=
    List.length_tail ▸ Nat.sub_le _ _
  obtain ⟨filled, _⟩ := shaped.mkdirLoop_all pathTo_root canonical short enough false
  rw [fsDirMkdirP, mkdirInternal_eq canonical resolves]
  by_cases root : comps = []
  · rw [if_pos root]
    exact ⟨iff_of_false (by simp) fun fits => fits.1 root, fun made => by cases made⟩
  · rw [if_neg root, and_iff_right root]
    obtain ⟨_, _, succeeds, gained⟩ := filled
    rw [shaped.missingBeyond_eq] at succeeds gained
    revert succeeds gained
    generalize mkdirLoop true (render comps).length tree 0 false (render comps).tail = out
    obtain ⟨_ | answer, after⟩ := out
    · intro succeeds _
      exact ⟨iff_of_false (by simp) fun fits => succeeds.mpr fits rfl, fun made => by cases made⟩
    · intro succeeds gained
      refine ⟨iff_of_true (by simp) (succeeds.mp (by simp)), fun _ => ?_⟩
      ext path
      exact gained (by simp) path

/-- A listing shows the names of the children. -/
theorem Shaped.fsDirReaddir_eq (shaped : Shaped tree kids) (inside : i.val < tree.nodeCount)
    (walks : fsDirWalk tree (some p) = some i) {buffer : EntryBuffer} (present : ¬ buffer.Missing) :
    fsDirReaddir tree (some p) buffer =
      shownIn ((kids i).map fun c => (tree.nodes c).name) buffer := by
  have siblings := shaped.siblings i inside
  have reads := readChildren_eq siblings
    (fun c member => ((shaped.member i c inside).mp member).used) siblings.length_le
  have valid : ¬ (¬ validTree tree ∨ buffer.Missing) := by
    rintro (invalid | missing)
    · exact invalid shaped.valid
    · exact present missing
  simp only [fsDirReaddir, valid, ↓reduceIte, walks, reads]
  cases buffer <;> rfl

private theorem Shaped.readdir_refined (shaped : Shaped tree kids) (here : PathTo tree i comps)
    (walks : fsDirWalk tree (some p) = some i) : ∃ names : List (List UInt8),
    (∀ name, name ∈ names ↔ comps ++ [name] ∈ nodePaths tree) ∧
      names.Pairwise (fun a b => a < b) ∧
      ∀ buffer, ¬ buffer.Missing → fsDirReaddir tree (some p) buffer = shownIn names buffer := by
  have inside := shaped.inside here
  refine ⟨(kids i).map fun c => (tree.nodes c).name, ?_, ?_, ?_⟩
  · intro name
    rw [List.mem_map, shaped.mem_nodePaths]
    constructor
    · rintro ⟨c, member, rfl⟩
      exact ⟨c, .child here ((shaped.member i c inside).mp member)⟩
    · rintro ⟨c, there⟩
      obtain ⟨parent, above, below⟩ := NamedTree.PathTo.snoc_iff.mp there
      obtain rfl := here.node_unique shaped.distinct above
      exact ⟨c, shaped.mem_kids below, below.name⟩
  · exact List.pairwise_map.mpr (shaped.ascending i inside)
  · intro buffer present
    exact shaped.fsDirReaddir_eq inside walks present

/-- **The calls refine the set of paths**, on every argument that resolves. -/
theorem Shaped.refines (shaped : Shaped tree kids) (canonical : Canonical comps)
    (short : (render comps).length < fsPathMax)
    (resolves : resolvePath tree p.bytes fsPathMax = some (render comps)) :
    Refines tree p comps := by
  obtain ⟨mkdirP, filled⟩ := shaped.mkdirP_refined canonical short resolves
  have made := shaped.mkdir_refined canonical short resolves
  have able (base : List (List UInt8)) (name : List UInt8) (same : comps = base ++ [name]) :
      Makeable tree base name ↔ comps ∉ nodePaths tree ∧ base ∈ nodePaths tree ∧
        name.length ≤ fsDirNameMax ∧ tree.nodeCount < fsDirMaxNodes := by
    rw [Makeable, same]
  refine {
    walk := ?_
    walked := ?_
    cd := ?_
    moved := ?_
    stayed := ?_
    mkdir := ?_
    made := ?_
    unmade := ?_
    mkdirP := mkdirP
    filled := filled
    readdir := ?_ }
  · rcases shaped.cd_refined canonical resolves with ⟨i, here, walks, _⟩ | ⟨absent, walks, _⟩
    · rw [walks]
      exact iff_of_true rfl (shaped.mem_nodePaths.mpr ⟨i, here⟩)
    · rw [walks]
      exact iff_of_false (by simp) absent
  · intro i walks
    exact shaped.pathFromIndex_eq ((shaped.fsDirWalk_eq_some canonical resolves).mp walks)
  · rcases shaped.cd_refined canonical resolves with ⟨i, here, _, moves⟩ | ⟨absent, _, stays⟩
    · rw [moves]
      exact iff_of_true rfl (shaped.mem_nodePaths.mpr ⟨i, here⟩)
    · rw [stays]
      exact iff_of_false (by simp) absent
  · intro present
    rcases shaped.cd_refined canonical resolves with ⟨i, here, _, moves⟩ | ⟨absent, _⟩
    · rw [moves]
      exact ⟨(shaped.moved (shaped.inside here)).pathFromIndex_eq here, rfl⟩
    · exact absurd present absent
  · intro absent
    rcases shaped.cd_refined canonical resolves with ⟨i, here, _⟩ | ⟨_, _, stays⟩
    · exact absurd (shaped.mem_nodePaths.mpr ⟨i, here⟩) absent
    · rw [stays]
  · rcases made with ⟨fails, unable⟩ | ⟨base, name, tree', makes, same, can, _⟩
    · rw [fails]
      refine iff_of_false (by simp) ?_
      rintro ⟨base, name, same, can⟩
      exact unable ⟨base, name, same, (able base name same).mpr can⟩
    · rw [makes]
      exact iff_of_true rfl ⟨base, name, same, (able base name same).mp can⟩
  · intro succeeds
    rcases made with ⟨fails, _⟩ | ⟨base, name, tree', makes, _, _, gained⟩
    · rw [fails] at succeeds
      cases succeeds
    · rw [makes]
      exact gained
  · intro refused
    rcases made with ⟨fails, _⟩ | ⟨base, name, tree', makes, _⟩
    · rw [fails]
    · rw [makes] at refused
      cases refused
  · intro present
    rcases shaped.cd_refined canonical resolves with ⟨i, here, walks, _⟩ | ⟨absent, _⟩
    · exact shaped.readdir_refined here walks
    · exact absurd present absent

end Refines

/-- **Every run keeps a set of paths**, with the root in it and the working
directory among them, and the calls on every argument that resolves below the
working directory are calls on that set. -/
theorem dir_refined (ops : List DirOp) :
    [] ∈ nodePaths (fsDir.state fsDirInit ops) ∧
    ∃ cwd ∈ nodePaths (fsDir.state fsDirInit ops),
      fsDirPwd (fsDir.state fsDirInit ops) fsPathMax = some (render cwd) ∧
      ∀ (p : CString) (absolute : List UInt8),
        fsPathResolve (render cwd) p.bytes fsPathMax = some absolute →
          ∃ comps, Canonical comps ∧ absolute = render comps ∧
            Refines (fsDir.state fsDirInit ops) p comps := by
  obtain ⟨kids, shaped⟩ := shaped_run ops
  obtain ⟨cwd, here⟩ := NamedTree.exists_path shaped.rooted ((shaped.used _).mpr shaped.cwd)
  refine ⟨shaped.root_mem, cwd, shaped.mem_nodePaths.mpr ⟨_, here⟩,
    shaped.pathFromIndex_eq here, ?_⟩
  intro p absolute resolves
  rw [← shaped.resolvePath_eq here] at resolves
  obtain ⟨comps, canonical, rfl, short⟩ := shaped.resolves here resolves
  exact ⟨comps, canonical, rfl, shaped.refines canonical short resolves⟩

end TigerOS.Dir
