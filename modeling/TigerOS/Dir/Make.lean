import TigerOS.Dir.Paths

/-! # Making directories

`fs_dir_mkdir` makes the last component of a path and nothing else
(`TigerOS.Dir.Shaped.mkdirLoop_leaf`), `fs_dir_mkdir_p` makes the missing
beginnings of a path as far as names and nodes allow
(`TigerOS.Dir.Shaped.mkdirLoop_all`), and every call keeps the shape of the tree
(`TigerOS.Dir.shaped_run`).
-/

namespace TigerOS.Dir

open Foundation TigerOS.Path

/-- The paths of the nodes of a tree, as the tree writes them. -/
def nodePaths (tree : FsDirTree) : Set (List (List UInt8)) :=
  {comps | Canonical comps ∧ ∃ i, pathFromIndex tree i fsPathMax = some (render comps)}

section Make

variable {tree tree' : FsDirTree} {kids : NodeIndex → List NodeIndex} {i cur new : NodeIndex}
  {path before comps mid base : List (List UInt8)} {name c : List UInt8} {rounds : ℕ}
  {create any : Bool}

theorem pathTo_root : PathTo tree 0 [] := .root

theorem Shaped.mem_nodePaths (shaped : Shaped tree kids) :
    comps ∈ nodePaths tree ↔ ∃ i, PathTo tree i comps := by
  constructor
  · rintro ⟨canonical, i, written⟩
    have used : (tree.nodes i).used = true := by
      by_contra unused
      rw [pathFromIndex, if_pos (.inr (.inr (.inr (by simpa using unused))))] at written
      cases written
    obtain ⟨path, here⟩ := NamedTree.exists_path shaped.rooted used
    rw [shaped.pathFromIndex_eq here] at written
    have same := render_injective (shaped.canonical here) canonical (Option.some.inj written)
    exact ⟨i, same ▸ here⟩
  · rintro ⟨i, here⟩
    exact ⟨shaped.canonical here, i, shaped.pathFromIndex_eq here⟩

/-- The tree gained one path. -/
theorem Grown.mem_nodePaths {kids' : NodeIndex → List NodeIndex}
    (grown : Grown tree base name new tree')
    (shaped : Shaped tree kids) (shaped' : Shaped tree' kids') :
    path ∈ nodePaths tree' ↔ path ∈ nodePaths tree ∨ path = base ++ [name] := by
  rw [shaped.mem_nodePaths, shaped'.mem_nodePaths]
  simp only [grown.pathTo]
  constructor
  · rintro ⟨i, here | ⟨_, same⟩⟩
    · exact .inl ⟨i, here⟩
    · exact .inr same
  · rintro (⟨i, here⟩ | same)
    · exact ⟨i, .inl here⟩
    · exact ⟨new, .inr ⟨rfl, same⟩⟩

/-! ## One round of the loop -/

theorem mkdirLoop_nil : mkdirLoop create rounds tree cur any [] = (some any, tree) := by
  cases rounds <;> rfl

/-- A round of the loop takes one component. -/
theorem mkdirLoop_cons (valid : ValidComponent c) (cs : List (List UInt8)) :
    mkdirLoop create (rounds + 1) tree cur any (render (c :: cs)).tail =
      if fsDirNameMax < c.length then (none, tree)
      else
        match findChild tree cur c with
        | some child =>
            if cs = [] ∧ create = false then (none, tree)
            else mkdirLoop create rounds tree child any (render cs).tail
        | none =>
            if create = false ∧ cs ≠ [] then (none, tree)
            else
              match makeChild tree cur c with
              | none => (none, tree)
              | some (new, tree) => mkdirLoop create rounds tree new true (render cs).tail := by
  have positive := List.length_pos_iff.mpr valid.nonempty
  have some : c ++ cs.flatMap (slash :: ·) ≠ [] := by simp [valid.nonempty]
  have last : cs.flatMap (slash :: ·) = [] ↔ cs = [] := by cases cs <;> simp
  rw [tail_render_cons, mkdirLoop, if_neg some]
  have stops := takeWhile_component valid.noSlash (atSlash_flatMap cs)
  have goes := dropWhile_component valid.noSlash (atSlash_flatMap cs)
  cases found : findChild tree cur c with
  | some child =>
      simp only [stops, goes, positive.ne', false_or, tail_flatMap, last, decide_eq_true_eq,
        Bool.not_eq_true, found]
  | none =>
      cases made : makeChild tree cur c <;>
        simp only [stops, goes, positive.ne', false_or, tail_flatMap, last, decide_eq_true_eq,
          Bool.not_eq_true, ne_eq, found, made]

theorem rounds_succ (valid : ValidComponent c) {cs : List (List UInt8)}
    (enough : (render (c :: cs)).tail.length ≤ rounds) :
    ∃ fewer, rounds = fewer + 1 ∧ (render cs).tail.length ≤ fewer := by
  have positive := List.length_pos_iff.mpr valid.nonempty
  rw [tail_render_cons, List.length_append] at enough
  obtain ⟨fewer, rfl⟩ := Nat.exists_eq_succ_of_ne_zero (by omega : rounds ≠ 0)
  refine ⟨fewer, rfl, ?_⟩
  rw [← tail_flatMap, List.length_tail]
  omega

/-- Where a child is found, it has the longer path; where none is found, no node
has it. -/
theorem Shaped.findChild_cases (shaped : Shaped tree kids) (here : PathTo tree cur before)
    (noNul : 0 ∉ c) :
    (∃ child, findChild tree cur c = some child ∧ PathTo tree child (before ++ [c])) ∨
      (findChild tree cur c = none ∧ (∀ child, ¬ Child tree cur child c) ∧
        ∀ i, ¬ PathTo tree i (before ++ [c])) := by
  have inside := shaped.inside here
  cases found : findChild tree cur c with
  | some child =>
      have named := (shaped.findChild_eq_some inside noNul).mp found
      exact .inl ⟨child, rfl, .child here named⟩
  | none =>
      have missing (child : NodeIndex) : ¬ Child tree cur child c := by
        intro child
        rw [(shaped.findChild_eq_some inside noNul).mpr child] at found
        cases found
      refine .inr ⟨rfl, missing, fun i there => ?_⟩
      obtain ⟨parent, above, below⟩ := NamedTree.PathTo.snoc_iff.mp there
      obtain rfl := here.node_unique shaped.distinct above
      exact missing i below

/-! ## Making the last component -/

/-- The condition for making a directory. -/
def Makeable (tree : FsDirTree) (base : List (List UInt8)) (name : List UInt8) : Prop :=
  base ++ [name] ∉ nodePaths tree ∧ base ∈ nodePaths tree ∧ name.length ≤ fsDirNameMax ∧
    tree.nodeCount < fsDirMaxNodes

/-- **`fs_dir_mkdir` makes the last component** where it may, and nothing
otherwise. -/
theorem Shaped.mkdirLoop_leaf (shaped : Shaped tree kids) (here : PathTo tree cur before)
    (canonical : Canonical (mid ++ [name]))
    (short : (render (before ++ mid ++ [name])).length < fsPathMax)
    (enough : (render (mid ++ [name])).tail.length ≤ rounds) (any : Bool) :
    (mkdirLoop false rounds tree cur any (render (mid ++ [name])).tail = (none, tree) ∧
        ¬ Makeable tree (before ++ mid) name) ∨
      ∃ new tree' kids', mkdirLoop false rounds tree cur any (render (mid ++ [name])).tail =
          (some true, tree') ∧ Shaped tree' kids' ∧ Grown tree (before ++ mid) name new tree' ∧
        Makeable tree (before ++ mid) name := by
  unfold Makeable
  simp only [shaped.mem_nodePaths]
  induction mid generalizing rounds cur before with
  | nil =>
      have valid := canonical name List.mem_cons_self
      obtain ⟨rounds, rfl, left⟩ := rounds_succ valid enough
      simp only [List.nil_append, List.append_nil, mkdirLoop_cons valid] at short ⊢
      by_cases long : fsDirNameMax < name.length
      · rw [if_pos long]
        exact .inl ⟨rfl, fun able => absurd able.2.2.1 (not_le.mpr long)⟩
      · rw [if_neg long]
        rcases shaped.findChild_cases here valid.noNul with
          ⟨child, found, there⟩ | ⟨found, missing, nowhere⟩
        · rw [found]
          exact .inl ⟨rfl, fun able => able.1 ⟨child, there⟩⟩
        · rw [found]
          simp only [ne_eq, not_true_eq_false, and_false, ↓reduceIte]
          by_cases room : tree.nodeCount < fsDirMaxNodes
          · obtain ⟨tree', kids', makes, shaped', grown⟩ :=
              shaped.makeChild_spec here ⟨valid, not_lt.mp long⟩ missing room short
            right
            refine ⟨_, tree', kids', ?_, shaped', grown, ?_, ⟨cur, here⟩, not_lt.mp long, room⟩
            · simp only [makes]
              exact mkdirLoop_nil
            · rintro ⟨i, there⟩
              exact nowhere i there
          · rw [makeChild_full (not_lt.mp room)]
            exact .inl ⟨rfl, fun able => room able.2.2.2⟩
  | cons c mid ih =>
      have valid := canonical c List.mem_cons_self
      obtain ⟨rounds, rfl, left⟩ := rounds_succ valid enough
      have regroup := List.append_cons before c mid
      simp only [List.cons_append, mkdirLoop_cons valid]
      rw [regroup] at short ⊢
      have unreached (nowhere : ∀ i, ¬ PathTo tree i (before ++ [c])) :
          ¬ ∃ i, PathTo tree i (before ++ [c] ++ mid) := by
        rintro ⟨i, there⟩
        obtain ⟨above, there⟩ := there.of_append
        exact nowhere above there
      by_cases long : fsDirNameMax < c.length
      · rw [if_pos long]
        refine .inl ⟨rfl, fun able => unreached (fun i there => ?_) able.2.1⟩
        have bound := (shaped.names_valid there c (by simp)).2
        exact absurd bound (not_le.mpr long)
      · rw [if_neg long]
        rcases shaped.findChild_cases here valid.noNul with
          ⟨child, found, there⟩ | ⟨found, missing, nowhere⟩
        · rw [found]
          simp only
          rw [if_neg (by simp)]
          exact ih there (fun c' member => canonical c' (List.mem_cons_of_mem _ member)) short left
        · rw [found]
          simp only
          rw [if_pos (by simp)]
          exact .inl ⟨rfl, fun able => unreached nowhere able.2.1⟩

/-! ## Making every missing component -/

open Classical in
/-- The beginnings of a path beyond a part of it that are missing from a set. -/
noncomputable def missingBeyond (paths : Set (List (List UInt8)))
    (before comps : List (List UInt8)) :
    List (List (List UInt8)) :=
  (comps.inits.tail.map (before ++ ·)).filter (· ∉ paths)

theorem missingBeyond_nil (paths : Set (List (List UInt8))) (before : List (List UInt8)) :
    missingBeyond paths before [] = [] := rfl

open Classical in
theorem missingBeyond_cons (paths : Set (List (List UInt8))) (before cs : List (List UInt8))
    (c : List UInt8) : missingBeyond paths before (c :: cs) =
      (if before ++ [c] ∈ paths then [] else [before ++ [c]]) ++
        missingBeyond paths (before ++ [c]) cs := by
  have inits : (c :: cs).inits.tail = [c] :: cs.inits.tail.map (c :: ·) := by cases cs <;> simp
  have regroup : (before ++ ·) ∘ (c :: ·) = (before ++ [c] ++ ·) := by
    funext rest
    simp
  unfold missingBeyond
  rw [inits, List.map_cons, List.map_map, regroup, List.filter_cons]
  split <;> simp_all

/-- Paths no longer than what is kept do not matter. -/
theorem missingBeyond_congr {paths paths' : Set (List (List UInt8))} {before cs : List (List UInt8)}
    (same : ∀ path, before.length < path.length → (path ∈ paths' ↔ path ∈ paths)) :
    missingBeyond paths' before cs = missingBeyond paths before cs := by
  unfold missingBeyond
  refine List.filter_congr fun path member => ?_
  obtain ⟨rest, later, rfl⟩ := List.mem_map.mp member
  have longer : rest ≠ [] := by
    rintro rfl
    cases cs with
    | nil => cases later
    | cons c cs => simp at later
  rw [same _ (by simpa using List.length_pos_iff.mpr longer)]

/-- What the loop of `fs_dir_mkdir_p` did to the tree. -/
structure Filled (tree : FsDirTree) (before comps : List (List UInt8))
    (out : Option Bool × FsDirTree) :
    Prop where
  cwdIndex : out.2.cwdIndex = tree.cwdIndex
  kept : ∀ i path, PathTo tree i path → PathTo out.2 i path
  succeeds : out.1 ≠ none ↔ (∀ c ∈ comps, c.length ≤ fsDirNameMax) ∧
    tree.nodeCount + (missingBeyond (nodePaths tree) before comps).length ≤ fsDirMaxNodes
  gained : out.1 ≠ none → ∀ path, path ∈ nodePaths out.2 ↔
    path ∈ nodePaths tree ∨ path ∈ missingBeyond (nodePaths tree) before comps

/-- A failed loop leaves the tree as it was. -/
private theorem Filled.stopped
    (fails : ¬ ((∀ c ∈ comps, c.length ≤ fsDirNameMax) ∧
      tree.nodeCount + (missingBeyond (nodePaths tree) before comps).length ≤ fsDirMaxNodes)) :
    Filled tree before comps (none, tree) where
  cwdIndex := rfl
  kept := fun _ _ here => here
  succeeds := iff_of_false (fun some => some rfl) fails
  gained := fun some => absurd rfl some

/-- **`fs_dir_mkdir_p` makes the missing beginnings** of a path, as far as their
names and the nodes left allow. -/
theorem Shaped.mkdirLoop_all (shaped : Shaped tree kids) (here : PathTo tree cur before)
    (canonical : Canonical comps) (short : (render (before ++ comps)).length < fsPathMax)
    (enough : (render comps).tail.length ≤ rounds) (any : Bool) :
    Filled tree before comps (mkdirLoop true rounds tree cur any (render comps).tail) ∧
      ∃ kids', Shaped (mkdirLoop true rounds tree cur any (render comps).tail).2 kids' := by
  induction comps generalizing tree kids cur before rounds any with
  | nil =>
      rw [render_nil, List.tail_cons, mkdirLoop_nil]
      refine ⟨⟨rfl, fun _ _ here => here, ?_, ?_⟩, kids, shaped⟩
      · exact iff_of_true (by simp) ⟨by simp, shaped.bounded⟩
      · simp [missingBeyond_nil]
  | cons c cs ih =>
      have valid := canonical c List.mem_cons_self
      have canonical' : Canonical cs := fun c' member =>
        canonical c' (List.mem_cons_of_mem _ member)
      obtain ⟨rounds, rfl, left⟩ := rounds_succ valid enough
      have regroup := List.append_cons before c cs
      rw [regroup] at short
      rw [mkdirLoop_cons valid]
      by_cases long : fsDirNameMax < c.length
      · rw [if_pos long]
        refine ⟨Filled.stopped fun fits => ?_, kids, shaped⟩
        exact absurd (fits.1 c List.mem_cons_self) (not_le.mpr long)
      · rw [if_neg long]
        have within := not_lt.mp long
        rcases shaped.findChild_cases here valid.noNul with
          ⟨child, found, there⟩ | ⟨found, missing, nowhere⟩
        · simp only [found, Bool.true_eq_false, and_false, ↓reduceIte]
          obtain ⟨filled, shaped'⟩ := ih shaped there canonical' short left any
          have present : before ++ [c] ∈ nodePaths tree := shaped.mem_nodePaths.mpr ⟨child, there⟩
          refine ⟨⟨filled.cwdIndex, filled.kept, ?_, ?_⟩, shaped'⟩
          · rw [filled.succeeds, missingBeyond_cons, if_pos present, List.nil_append,
              List.forall_mem_cons, and_iff_right within]
          · rw [missingBeyond_cons, if_pos present, List.nil_append]
            exact filled.gained
        · have absent : before ++ [c] ∉ nodePaths tree := by
            rw [shaped.mem_nodePaths]
            rintro ⟨i, there⟩
            exact nowhere i there
          simp only [found, Bool.true_eq_false, false_and, ↓reduceIte]
          by_cases room : tree.nodeCount < fsDirMaxNodes
          · have shorter := (length_render_le (before ++ [c]) cs).trans_lt short
            obtain ⟨tree', kids', makes, shaped', grown⟩ :=
              shaped.makeChild_spec here ⟨valid, within⟩ missing room shorter
            simp only [makes]
            have there : PathTo tree' ⟨tree.nodeCount, room⟩ (before ++ [c]) :=
              (grown.pathTo _ _).mpr (.inr ⟨rfl, rfl⟩)
            obtain ⟨filled, shaped''⟩ := ih shaped' there canonical' short left true
            have rest : missingBeyond (nodePaths tree') (before ++ [c]) cs =
                missingBeyond (nodePaths tree) (before ++ [c]) cs := by
              refine missingBeyond_congr fun path longer => ?_
              rw [grown.mem_nodePaths shaped shaped', or_iff_left]
              rintro rfl
              exact lt_irrefl _ longer
            refine ⟨⟨filled.cwdIndex.trans grown.cwdIndex, ?_, ?_, ?_⟩, shaped''⟩
            · exact fun i path old => filled.kept i path ((grown.pathTo i path).mpr (.inl old))
            · rw [filled.succeeds, missingBeyond_cons, if_neg absent, rest, grown.nodeCount,
                List.forall_mem_cons, and_iff_right within, List.length_append,
                List.length_singleton, Nat.add_assoc]
            · intro some path
              rw [filled.gained some, rest, grown.mem_nodePaths shaped shaped', missingBeyond_cons,
                if_neg absent, List.singleton_append, List.mem_cons, or_assoc]
          · rw [makeChild_full (not_lt.mp room)]
            refine ⟨Filled.stopped fun fits => ?_, kids, shaped⟩
            have count := fits.2
            rw [missingBeyond_cons, if_neg absent, List.length_append,
              List.length_singleton] at count
            omega

/-! ## The calls -/

/-- Every path resolves to a canonical path. -/
theorem Shaped.resolves (shaped : Shaped tree kids) (here : PathTo tree tree.cwdIndex path)
    {p : CString} {absolute : List UInt8}
    (resolves : resolvePath tree p.bytes fsPathMax = some absolute) :
    ∃ comps, Canonical comps ∧ absolute = render comps ∧ (render comps).length < fsPathMax := by
  rw [shaped.resolvePath_eq here] at resolves
  obtain ⟨comps, canonical, rfl, short⟩ := fsPathResolve_canonical (shaped.canonical here)
    (shaped.short _ _ here) p.noNul resolves
  exact ⟨comps, canonical, rfl, short⟩

/-- **`fs_dir_walk` finds the node of the resolved path.** -/
theorem Shaped.fsDirWalk_eq_some (shaped : Shaped tree kids) {p : CString}
    (canonical : Canonical comps)
    (resolves : resolvePath tree p.bytes fsPathMax = some (render comps)) :
    fsDirWalk tree (some p) = some i ↔ PathTo tree i comps := by
  unfold fsDirWalk
  simp only [resolves]
  exact shaped.lookupAbsolute_eq_some canonical

/-- What `fs_dir_walk` answers is a node of the tree. -/
theorem Shaped.fsDirWalk_path (shaped : Shaped tree kids) (here : PathTo tree tree.cwdIndex path)
    {p : Option CString} (walks : fsDirWalk tree p = some i) : ∃ comps, PathTo tree i comps := by
  cases p with
  | none => cases walks
  | some p =>
      cases resolves : resolvePath tree p.bytes fsPathMax with
      | none =>
          simp only [fsDirWalk, resolves] at walks
          cases walks
      | some absolute =>
          obtain ⟨comps, canonical, rfl, _⟩ := shaped.resolves here resolves
          exact ⟨comps, (shaped.fsDirWalk_eq_some canonical resolves).mp walks⟩

/-- `mkdir_internal` on a path that resolves. -/
theorem mkdirInternal_eq {p : CString} (canonical : Canonical comps)
    (resolves : resolvePath tree p.bytes fsPathMax = some (render comps)) (create : Bool) :
    mkdirInternal tree (some p) create =
      if comps = [] then (false, tree)
      else
        match mkdirLoop create (render comps).length tree 0 false (render comps).tail with
        | (none, tree) => (false, tree)
        | (some createdAny, tree) => (create || createdAny, tree) := by
  have root : strcmp (render comps) [slash] = 0 ↔ comps = [] := by
    rw [strcmp_eq_zero (noNul_render canonical) (by decide)]
    constructor
    · exact @render_injective _ [] canonical fun c member => by cases member
    · rintro rfl
      rfl
  unfold mkdirInternal
  rcases ends : mkdirLoop create (render comps).length tree 0 false (render comps).tail with
    ⟨_ | createdAny, made⟩
  · simp only [resolves, root, ends]
  · simp only [resolves, root, ends]

/-- A call keeps the shape of the tree. -/
theorem Shaped.mkdirInternal_shaped (shaped : Shaped tree kids) (p : Option CString)
    (create : Bool) :
    ∃ kids', Shaped (mkdirInternal tree p create).2 kids' := by
  cases p with
  | none => exact ⟨kids, shaped⟩
  | some p =>
      obtain ⟨cwd, here⟩ := NamedTree.exists_path shaped.rooted ((shaped.used _).mpr shaped.cwd)
      cases resolves : resolvePath tree p.bytes fsPathMax with
      | none =>
          simp only [mkdirInternal, resolves]
          exact ⟨kids, shaped⟩
      | some absolute =>
          obtain ⟨comps, canonical, rfl, short⟩ := shaped.resolves here resolves
          have enough : (render comps).tail.length ≤ (render comps).length :=
            List.length_tail ▸ Nat.sub_le _ _
          rw [mkdirInternal_eq canonical resolves]
          split
          · exact ⟨kids, shaped⟩
          · rename_i some
            have shaped' : ∃ kids', Shaped (mkdirLoop create (render comps).length tree 0 false
                (render comps).tail).2 kids' := by
              cases create with
              | true => exact (shaped.mkdirLoop_all pathTo_root canonical short enough false).2
              | false =>
                  obtain ⟨mid, name, rfl⟩ := (List.eq_nil_or_concat' comps).resolve_left some
                  rcases shaped.mkdirLoop_leaf pathTo_root canonical short enough false with
                    ⟨stops, _⟩ | ⟨new, tree', kids', makes, made, _⟩
                  · rw [stops]
                    exact ⟨kids, shaped⟩
                  · rw [makes]
                    exact ⟨kids', made⟩
            revert shaped'
            generalize mkdirLoop create (render comps).length tree 0 false (render comps).tail = out
            obtain ⟨answer | answer, after⟩ := out <;> exact id

/-- **Every call keeps the shape of the tree**, whether it succeeds or fails. -/
theorem Shaped.dirStep_shaped (shaped : Shaped tree kids) (op : DirOp) :
    ∃ kids', Shaped (dirStep tree op).2 kids' := by
  cases op with
  | mkdir p => exact shaped.mkdirInternal_shaped p false
  | mkdirP p => exact shaped.mkdirInternal_shaped p true
  | cd p =>
      change ∃ kids', Shaped (fsDirCd tree p).2 kids'
      unfold fsDirCd
      split
      · exact ⟨kids, shaped⟩
      · rename_i idx walks
        obtain ⟨cwd, here⟩ := NamedTree.exists_path shaped.rooted ((shaped.used _).mpr shaped.cwd)
        obtain ⟨comps, there⟩ := shaped.fsDirWalk_path here walks
        exact ⟨kids, shaped.moved (shaped.inside there)⟩

/-- Every run from `fs_dir_init` ends in a shaped tree. -/
theorem shaped_run (ops : List DirOp) : ∃ kids, Shaped (fsDir.state fsDirInit ops) kids :=
  @Machine.state_invariant _ _ _ fsDir (fun tree => ∃ kids, Shaped tree kids)
    (fun _ op ⟨_, shaped⟩ => shaped.dirStep_shaped op) _ ⟨_, shaped_init⟩ ops

end Make

end TigerOS.Dir
