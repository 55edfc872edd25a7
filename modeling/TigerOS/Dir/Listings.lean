import TigerOS.Dir.Refinement

/-! # Listings of directories

A listing shows the children of a directory in the order of their names, and counts
them all whatever the room for entries (`TigerOS.Dir.Shaped.listed`). It depends on
the set of the paths alone and not on how they were made
(`TigerOS.Dir.readdir_independent_of_order`).
-/

namespace TigerOS.Dir

open Foundation TigerOS.Path

/-- A call that makes directories. -/
def DirOp.Makes : DirOp → Prop
  | .mkdir _ => True
  | .mkdirP _ => True
  | .cd _ => False

/-- The number of children of a node. -/
def childCount (tree : FsDirTree) (i : NodeIndex) : ℕ :=
  (Finset.univ.filter fun c =>
    c ≠ 0 ∧ (tree.nodes c).used = true ∧ (tree.nodes c).parent = some i).card

/-- What a listing says about a directory: names in ascending order and the number of
its children; and it fails only for want of room. -/
structure Listed (tree : FsDirTree) (p : Option CString) (buffer : EntryBuffer) : Prop where
  ascending : (fsDirReaddir tree p buffer).entries.Pairwise fun a b => a < b
  count : ∀ i, fsDirWalk tree p = some i → (fsDirReaddir tree p buffer).count = childCount tree i
  fails : ∀ i, fsDirWalk tree p = some i → ((fsDirReaddir tree p buffer).status = false ↔
    ∃ room, buffer = .room room ∧ room < (fsDirReaddir tree p buffer).count)

section Listings

variable {tree tree' : FsDirTree} {kids kids' : NodeIndex → List NodeIndex} {i : NodeIndex}
  {p : CString} {buffer : EntryBuffer} {comps : List (List UInt8)}

/-- A path that leads nowhere is not listed. -/
theorem fsDirReaddir_none {p : Option CString} (walks : fsDirWalk tree p = none) :
    fsDirReaddir tree p buffer = ⟨false, [], 0⟩ := by
  cases p with
  | none => rfl
  | some p =>
      unfold fsDirReaddir
      simp only [walks, ite_self]

/-- The list of children holds each of them once. -/
theorem Shaped.length_kids (shaped : Shaped tree kids) (inside : i.val < tree.nodeCount) :
    (kids i).length = childCount tree i := by
  rw [← List.toFinset_card_of_nodup (shaped.siblings i inside).nodup, childCount]
  congr 1
  ext c
  rw [List.mem_toFinset, shaped.member i c inside, Finset.mem_filter,
    and_iff_right (Finset.mem_univ c)]
  constructor
  · intro child
    exact ⟨child.notRoot, child.used, child.parent⟩
  · rintro ⟨notRoot, used, parent⟩
    exact ⟨notRoot, used, parent, rfl⟩

/-- **What a listing says** of any path. -/
theorem Shaped.listed (shaped : Shaped tree kids) {p : Option CString}
    (present : ¬ buffer.Missing) : Listed tree p buffer := by
  cases walks : fsDirWalk tree p with
  | none =>
      constructor
      · rw [fsDirReaddir_none walks]
        exact List.Pairwise.nil
      · intro i walks'
        cases walks.symm.trans walks'
      · intro i walks'
        cases walks.symm.trans walks'
  | some i =>
      obtain ⟨p, rfl⟩ : ∃ path, p = some path := by
        cases p with
        | none => cases walks
        | some path => exact ⟨path, rfl⟩
      obtain ⟨cwd, here⟩ := NamedTree.exists_path shaped.rooted ((shaped.used _).mpr shaped.cwd)
      obtain ⟨comps, there⟩ := shaped.fsDirWalk_path here walks
      have inside := shaped.inside there
      have shows := shaped.fsDirReaddir_eq inside walks present
      have ascending : ((kids i).map fun c => (tree.nodes c).name).Pairwise fun a b => a < b :=
        List.pairwise_map.mpr (shaped.ascending i inside)
      have count := (List.length_map fun c => (tree.nodes c).name).trans (shaped.length_kids inside)
      generalize (kids i).map (fun c => (tree.nodes c).name) = names at shows ascending count
      constructor
      · rw [shows]
        cases buffer with
        | null _ => exact List.Pairwise.nil
        | room room => exact ascending.sublist (List.take_sublist room names)
      · intro j walks'
        obtain rfl := Option.some.inj (walks.symm.trans walks')
        rw [shows, ← count]
        cases buffer <;> rfl
      · intro _ _
        rw [shows]
        cases buffer with
        | null _ =>
            refine iff_of_false Bool.true_eq_false.mp ?_
            rintro ⟨room, null, _⟩
            cases null
        | room room =>
            change decide (names.length ≤ room) = false ↔ _
            rw [decide_eq_false_iff_not, not_le]
            constructor
            · intro tight
              exact ⟨room, rfl, tight⟩
            · rintro ⟨room', same, tight⟩
              obtain rfl := EntryBuffer.room.inj same
              exact tight

/-- Two trees with the same paths show the same names. -/
private theorem names_eq {names names' : List (List UInt8)}
    (same : nodePaths tree' = nodePaths tree)
    (members : ∀ name, name ∈ names ↔ comps ++ [name] ∈ nodePaths tree)
    (members' : ∀ name, name ∈ names' ↔ comps ++ [name] ∈ nodePaths tree')
    (ascending : names.Pairwise fun a b => a < b)
    (ascending' : names'.Pairwise fun a b => a < b) : names' = names := by
  apply ascending'.eq_of_mem_iff ascending
  intro name
  rw [members, members', same]

/-- **A listing depends on the set of paths alone**, where the working directories are at
the same path. -/
theorem Shaped.fsDirReaddir_congr (shaped : Shaped tree kids) (shaped' : Shaped tree' kids')
    {cwd : List (List UInt8)} (here : PathTo tree tree.cwdIndex cwd)
    (here' : PathTo tree' tree'.cwdIndex cwd) (same : nodePaths tree' = nodePaths tree)
    (p : Option CString) (present : ¬ buffer.Missing) :
    fsDirReaddir tree' p buffer = fsDirReaddir tree p buffer := by
  cases p with
  | none => rfl
  | some p =>
      have alike : resolvePath tree' p.bytes fsPathMax = resolvePath tree p.bytes fsPathMax := by
        rw [shaped.resolvePath_eq here, shaped'.resolvePath_eq here']
      cases resolves : resolvePath tree p.bytes fsPathMax with
      | none =>
          rw [resolves] at alike
          have nowhere : fsDirWalk tree (some p) = none := by
            unfold fsDirWalk
            simp only [resolves]
          have nowhere' : fsDirWalk tree' (some p) = none := by
            unfold fsDirWalk
            simp only [alike]
          rw [fsDirReaddir_none nowhere, fsDirReaddir_none nowhere']
      | some absolute =>
          obtain ⟨comps, canonical, rfl, short⟩ := shaped.resolves here resolves
          rw [resolves] at alike
          have refines := shaped.refines canonical short resolves
          have refines' := shaped'.refines canonical short alike
          by_cases present_ : comps ∈ nodePaths tree
          · obtain ⟨names, members, ascending, shows⟩ := refines.readdir present_
            obtain ⟨names', members', ascending', shows'⟩ := refines'.readdir (same ▸ present_)
            rw [shows buffer present, shows' buffer present,
              names_eq same members members' ascending ascending']
          · have nowhere : fsDirWalk tree (some p) = none := by
              rw [← Option.not_isSome_iff_eq_none, refines.walk]
              exact present_
            have nowhere' : fsDirWalk tree' (some p) = none := by
              rw [← Option.not_isSome_iff_eq_none, refines'.walk, same]
              exact present_
            rw [fsDirReaddir_none nowhere, fsDirReaddir_none nowhere']

end Listings

/-! ## Runs that make directories -/

section Making

variable {tree : FsDirTree}

private theorem cwdIndex_makeChild {parent new : NodeIndex} {name : List UInt8}
    {tree' : FsDirTree} (makes : makeChild tree parent name = some (new, tree')) :
    tree'.cwdIndex = tree.cwdIndex := by
  unfold makeChild allocNode at makes
  by_cases room : tree.nodeCount < fsDirMaxNodes
  · simp only [room, ↓reduceDIte] at makes
    cases makes
    unfold insertChildSorted
    split <;> rfl
  · simp only [room, ↓reduceDIte] at makes
    cases makes

private theorem cwdIndex_mkdirLoop (create : Bool) {rounds : ℕ} {cur : NodeIndex} {any : Bool}
    {path : List UInt8} :
    (mkdirLoop create rounds tree cur any path).2.cwdIndex = tree.cwdIndex := by
  induction rounds generalizing tree cur any path with
  | zero => rfl
  | succ rounds ih =>
      unfold mkdirLoop
      simp only
      split
      · rfl
      · split
        · rfl
        · split
          · split
            · rfl
            · exact ih
          · split
            · rfl
            · split
              · rfl
              · rename_i makes
                exact ih.trans (cwdIndex_makeChild makes)

/-- Making directories does not move the working directory. -/
theorem cwdIndex_mkdirInternal (p : Option CString) (create : Bool) :
    (mkdirInternal tree p create).2.cwdIndex = tree.cwdIndex := by
  unfold mkdirInternal
  split
  · rfl
  · split
    · rfl
    · split
      · rfl
      · rename_i absolute _ _
        have kept := @cwdIndex_mkdirLoop tree create absolute.length 0 false absolute.tail
        split
        · rename_i stops
          rwa [stops] at kept
        · rename_i makes
          rwa [makes] at kept

/-- A run that only makes directories stays at the root. -/
theorem cwdIndex_run {ops : List DirOp} (makes : ∀ op ∈ ops, op.Makes) :
    (fsDir.state fsDirInit ops).cwdIndex = 0 := by
  have along : fsDir.Along (fun _ op => op.Makes) fsDirInit ops :=
    Machine.along_of_forall (fun _ op member => makes op member) fsDirInit
  apply @Machine.Along.state_invariant _ _ _ fsDir _ _ _ (fun tree => tree.cwdIndex = 0) along rfl
  intro tree op root made
  cases op with
  | mkdir p => exact (cwdIndex_mkdirInternal p false).trans root
  | mkdirP p => exact (cwdIndex_mkdirInternal p true).trans root
  | cd p => exact made.elim

end Making

/-- **Listings do not depend on the order of making.** After any two runs that make
directories and end with the same paths, every listing shows the same. -/
theorem readdir_independent_of_order (ops ops' : List DirOp) (makes : ∀ op ∈ ops, op.Makes)
    (makes' : ∀ op ∈ ops', op.Makes)
    (same : nodePaths (fsDir.state fsDirInit ops') = nodePaths (fsDir.state fsDirInit ops))
    (p : Option CString) (buffer : EntryBuffer) (present : ¬ buffer.Missing) :
    fsDirReaddir (fsDir.state fsDirInit ops') p buffer =
        fsDirReaddir (fsDir.state fsDirInit ops) p buffer ∧
      Listed (fsDir.state fsDirInit ops) p buffer ∧
      Listed (fsDir.state fsDirInit ops') p buffer := by
  obtain ⟨kids, shaped⟩ := shaped_run ops
  obtain ⟨kids', shaped'⟩ := shaped_run ops'
  have here : PathTo (fsDir.state fsDirInit ops) (fsDir.state fsDirInit ops).cwdIndex [] :=
    (cwdIndex_run makes).symm ▸ pathTo_root
  have here' : PathTo (fsDir.state fsDirInit ops') (fsDir.state fsDirInit ops').cwdIndex [] :=
    (cwdIndex_run makes').symm ▸ pathTo_root
  exact ⟨shaped.fsDirReaddir_congr shaped' here here' same p present, shaped.listed present,
    shaped'.listed present⟩

/-! ### Two directories made in either order -/

private theorem nodePaths_mkdir {ops : List DirOp} {p : CString} {comps : List (List UInt8)}
    (canonical : Canonical comps) (short : (render comps).length < fsPathMax)
    (resolves : resolvePath (fsDir.state fsDirInit ops) p.bytes fsPathMax = some (render comps))
    (made : (fsDirMkdir (fsDir.state fsDirInit ops) (some p)).1 = true) :
    nodePaths (fsDir.state fsDirInit (ops ++ [.mkdir (some p)])) =
      nodePaths (fsDir.state fsDirInit ops) ∪ {comps} := by
  obtain ⟨kids, shaped⟩ := shaped_run ops
  rw [Machine.state_append]
  exact (shaped.refines canonical short resolves).made made

private theorem canonical_letter {byte : UInt8} (letter : byte ≠ slash ∧ byte ≠ 0 ∧ byte ≠ dot) :
    Canonical [[byte]] := by
  obtain ⟨noSlash, noNul, noDot⟩ := letter
  intro c member
  rw [List.mem_singleton.mp member]
  refine ⟨List.cons_ne_nil _ _, ?_, ?_, ?_, ?_⟩
  · exact fun same => noSlash (List.mem_singleton.mp same).symm
  · exact fun same => noNul (List.mem_singleton.mp same).symm
  · exact fun same => noDot (List.cons.inj same).1
  · exact fun same => noDot (List.cons.inj same).1

/-- The calls that make two directories. -/
def mkdirOf (byte : UInt8) : DirOp := .mkdir (some (CString.of [slash, byte]))

private theorem same_paths : nodePaths (fsDir.state fsDirInit [mkdirOf 98, mkdirOf 97]) =
    nodePaths (fsDir.state fsDirInit [mkdirOf 97, mkdirOf 98]) := by
  have a : Canonical [[97]] := canonical_letter (by decide)
  have b : Canonical [[98]] := canonical_letter (by decide)
  have first := @nodePaths_mkdir [] (CString.of [slash, 97]) [[97]] a (by decide)
    (by decide +kernel) (by decide +kernel)
  have second := @nodePaths_mkdir [mkdirOf 97] (CString.of [slash, 98]) [[98]] b (by decide)
    (by decide +kernel) (by decide +kernel)
  have first' := @nodePaths_mkdir [] (CString.of [slash, 98]) [[98]] b (by decide)
    (by decide +kernel) (by decide +kernel)
  have second' := @nodePaths_mkdir [mkdirOf 98] (CString.of [slash, 97]) [[97]] a (by decide)
    (by decide +kernel) (by decide +kernel)
  calc nodePaths (fsDir.state fsDirInit [mkdirOf 98, mkdirOf 97])
      = nodePaths (fsDir.state fsDirInit [mkdirOf 98]) ∪ {[[97]]} := second'
    _ = nodePaths fsDirInit ∪ {[[98]]} ∪ {[[97]]} := congrArg (· ∪ {[[97]]}) first'
    _ = nodePaths fsDirInit ∪ {[[97]]} ∪ {[[98]]} := Set.union_right_comm _ _ _
    _ = nodePaths (fsDir.state fsDirInit [mkdirOf 97]) ∪ {[[98]]} :=
      (congrArg (· ∪ {[[98]]}) first).symm
    _ = nodePaths (fsDir.state fsDirInit [mkdirOf 97, mkdirOf 98]) := second.symm

/-- Two directories are made in either order, and the root is listed. -/
theorem readdir_independent_of_order_two :
    fsDirReaddir (fsDir.state fsDirInit [mkdirOf 98, mkdirOf 97]) (some (CString.of [slash]))
        (.room 2) =
      fsDirReaddir (fsDir.state fsDirInit [mkdirOf 97, mkdirOf 98]) (some (CString.of [slash]))
        (.room 2) :=
  have made (first second : UInt8) : ∀ op ∈ [mkdirOf first, mkdirOf second], op.Makes := by
    intro op member
    rcases List.mem_pair.mp member with rfl | rfl <;> trivial
  (readdir_independent_of_order [mkdirOf 97, mkdirOf 98] [mkdirOf 98, mkdirOf 97] (made 97 98)
    (made 98 97) same_paths (some (CString.of [slash])) (.room 2) (by decide)).1

end TigerOS.Dir
