import TigerOS.Dir.Refinement

/-! # Directories that are made in part

A call of `fs_dir_mkdir` that fails leaves the tree as it was. A call of
`fs_dir_mkdir_p` takes its path from the left and makes what is missing at once, so
that a later component without a node or with too long a name fails the call and
leaves the directories made before it: it has no effect exactly when it makes all that
is missing or cannot make the first of it (`TigerOS.Dir.failed_mkdir_unaffected_iff`).
-/

namespace TigerOS.Dir

open Foundation TigerOS.Path

/-- Nothing that can be seen of a tree changed. -/
structure Unaffected (tree tree' : FsDirTree) : Prop where
  nodeCount : tree'.nodeCount = tree.nodeCount
  paths : nodePaths tree' = nodePaths tree
  listings : ∀ p buffer, fsDirReaddir tree' p buffer = fsDirReaddir tree p buffer
  cwdIndex : tree'.cwdIndex = tree.cwdIndex

/-- Below a beginning of a path, a part of the rest can be made. -/
def Opens (tree : FsDirTree) (before comps : List (List UInt8)) : Prop :=
  ∃ base name rest, comps = base ++ name :: rest ∧ Makeable tree (before ++ base) name

/-- All that is missing of a path can be made, or the first of it cannot. -/
def AllOrNothing (tree : FsDirTree) (comps : List (List UInt8)) : Prop :=
  ((∀ c ∈ comps, c.length ≤ fsDirNameMax) ∧
      tree.nodeCount + (missingPrefixes tree comps).length ≤ fsDirMaxNodes) ∨
    ∀ base name rest, comps = base ++ name :: rest → ¬ Makeable tree base name

section PartialMake

variable {tree : FsDirTree} {kids : NodeIndex → List NodeIndex} {cur : NodeIndex}
  {before comps : List (List UInt8)} {c : List UInt8} {rounds : ℕ}

theorem Unaffected.refl (tree : FsDirTree) : Unaffected tree tree :=
  ⟨rfl, rfl, fun _ _ => rfl, rfl⟩

theorem not_opens_nil : ¬ Opens tree before [] := by
  rintro ⟨base, name, rest, split, _⟩
  cases base <;> cases split

theorem opens_cons (cs : List (List UInt8)) :
    Opens tree before (c :: cs) ↔ Makeable tree before c ∨ Opens tree (before ++ [c]) cs := by
  constructor
  · rintro ⟨base, name, rest, split, able⟩
    cases base with
    | nil =>
        obtain ⟨rfl, rfl⟩ := List.cons.inj split
        rw [List.append_nil] at able
        exact .inl able
    | cons first base =>
        obtain ⟨rfl, rfl⟩ := List.cons.inj split
        refine .inr ⟨base, name, rest, rfl, ?_⟩
        rwa [List.append_assoc, List.singleton_append]
  · rintro (able | ⟨base, name, rest, rfl, able⟩)
    · exact ⟨[], c, cs, rfl, by rwa [List.append_nil]⟩
    · refine ⟨c :: base, name, rest, rfl, ?_⟩
      rwa [List.append_assoc, List.singleton_append] at able

/-- A part that can be made lies below a directory that exists. -/
theorem Shaped.mem_of_opens (shaped : Shaped tree kids) (opens : Opens tree before comps) :
    before ∈ nodePaths tree := by
  obtain ⟨base, name, rest, _, able⟩ := opens
  obtain ⟨i, there⟩ := shaped.mem_nodePaths.mp able.2.1
  exact shaped.mem_nodePaths.mpr there.of_append

/-- **What the loop of `fs_dir_mkdir_p` leaves**: more nodes where a part of the path can
be made, and otherwise the tree as it was. -/
theorem Shaped.mkdirLoop_leaves (shaped : Shaped tree kids) (here : PathTo tree cur before)
    (canonical : Canonical comps) (short : (render (before ++ comps)).length < fsPathMax)
    (enough : (render comps).tail.length ≤ rounds) (any : Bool) :
    (Opens tree before comps → tree.nodeCount <
        (mkdirLoop true rounds tree cur any (render comps).tail).2.nodeCount) ∧
      (¬ Opens tree before comps →
        (mkdirLoop true rounds tree cur any (render comps).tail).2 = tree) := by
  induction comps generalizing tree kids cur before rounds any with
  | nil =>
      rw [render_nil, List.tail_cons, mkdirLoop_nil]
      exact ⟨fun opens => absurd opens not_opens_nil, fun _ => rfl⟩
  | cons c cs ih =>
      have valid := canonical c List.mem_cons_self
      have canonical' : Canonical cs := fun c' member =>
        canonical c' (List.mem_cons_of_mem _ member)
      obtain ⟨rounds, rfl, left⟩ := rounds_succ valid enough
      have regroup := List.append_cons before c cs
      rw [regroup] at short
      rw [mkdirLoop_cons valid, opens_cons]
      by_cases long : fsDirNameMax < c.length
      · -- A name too long for a node is the name of no node either.
        rw [if_pos long]
        refine ⟨fun opens => ?_, fun _ => rfl⟩
        rcases opens with able | later
        · exact absurd able.2.2.1 (not_le.mpr long)
        · obtain ⟨i, there⟩ := shaped.mem_nodePaths.mp (shaped.mem_of_opens later)
          have bound := (shaped.names_valid there c (by simp)).2
          exact absurd bound (not_le.mpr long)
      · rw [if_neg long]
        have within := not_lt.mp long
        rcases shaped.findChild_cases here valid.noNul with
          ⟨child, found, there⟩ | ⟨found, missing, nowhere⟩
        · have unable : ¬ Makeable tree before c :=
            fun able => able.1 (shaped.mem_nodePaths.mpr ⟨child, there⟩)
          simp only [found, Bool.true_eq_false, and_false, ↓reduceIte, unable, false_or]
          exact ih shaped there canonical' short left any
        · have absent : before ++ [c] ∉ nodePaths tree := by
            rw [shaped.mem_nodePaths]
            rintro ⟨i, there⟩
            exact nowhere i there
          have closed : ¬ Opens tree (before ++ [c]) cs :=
            fun opens => absent (shaped.mem_of_opens opens)
          simp only [found, Bool.true_eq_false, false_and, ↓reduceIte, closed, or_false]
          by_cases room : tree.nodeCount < fsDirMaxNodes
          · have shorter := (length_render_le (before ++ [c]) cs).trans_lt short
            obtain ⟨tree', kids', makes, shaped', grown⟩ :=
              shaped.makeChild_spec here ⟨valid, within⟩ missing room shorter
            have there : PathTo tree' ⟨tree.nodeCount, room⟩ (before ++ [c]) :=
              (grown.pathTo _ _).mpr (.inr ⟨rfl, rfl⟩)
            have able : Makeable tree before c :=
              ⟨absent, shaped.mem_nodePaths.mpr ⟨cur, here⟩, within, room⟩
            simp only [makes]
            refine ⟨fun _ => ?_, fun unable => absurd able unable⟩
            have more : tree.nodeCount < tree'.nodeCount := by
              rw [grown.nodeCount]
              exact Nat.lt_succ_self _
            obtain ⟨grows, stays⟩ := ih shaped' there canonical' short left true
            by_cases further : Opens tree' (before ++ [c]) cs
            · exact more.trans (grows further)
            · rwa [stays further]
          · rw [makeChild_full (not_lt.mp room)]
            exact ⟨fun able => absurd able.2.2.2 room, fun _ => rfl⟩

/-- What `fs_dir_mkdir_p` leaves, on a path that resolves. -/
theorem Shaped.fsDirMkdirP_leaves {p : CString} (shaped : Shaped tree kids)
    (canonical : Canonical comps) (short : (render comps).length < fsPathMax)
    (resolves : resolvePath tree p.bytes fsPathMax = some (render comps)) :
    (Opens tree [] comps → tree.nodeCount < (fsDirMkdirP tree (some p)).2.nodeCount) ∧
      (¬ Opens tree [] comps → (fsDirMkdirP tree (some p)).2 = tree) := by
  have enough : (render comps).tail.length ≤ (render comps).length :=
    List.length_tail ▸ Nat.sub_le _ _
  have leaves := shaped.mkdirLoop_leaves pathTo_root canonical short enough false
  rw [fsDirMkdirP, mkdirInternal_eq canonical resolves]
  by_cases root : comps = []
  · rw [if_pos root, root]
    exact ⟨fun opens => absurd opens not_opens_nil, fun _ => rfl⟩
  · rw [if_neg root]
    revert leaves
    generalize mkdirLoop true (render comps).length tree 0 false (render comps).tail = out
    obtain ⟨answer | answer, after⟩ := out <;> exact id

/-- A call that fails has no effect exactly where it makes all or nothing. -/
theorem Shaped.mkdirP_unaffected_iff {p : CString} (shaped : Shaped tree kids)
    (canonical : Canonical comps) (short : (render comps).length < fsPathMax)
    (resolves : resolvePath tree p.bytes fsPathMax = some (render comps)) :
    ((fsDirMkdirP tree (some p)).1 = false → Unaffected tree (fsDirMkdirP tree (some p)).2) ↔
      AllOrNothing tree comps := by
  have succeeds := (shaped.refines canonical short resolves).mkdirP
  obtain ⟨grows, stays⟩ := shaped.fsDirMkdirP_leaves canonical short resolves
  have closed : (∀ base name rest, comps = base ++ name :: rest → ¬ Makeable tree base name) ↔
      ¬ Opens tree [] comps := by
    constructor
    · rintro none ⟨base, name, rest, split, able⟩
      exact none base name rest split able
    · intro none base name rest split able
      exact none ⟨base, name, rest, split, able⟩
  unfold AllOrNothing
  rw [closed]
  constructor
  · intro effects
    cases answer : (fsDirMkdirP tree (some p)).1 with
    | true => exact .inl (succeeds.mp answer).2
    | false =>
        refine .inr fun opens => ?_
        exact absurd (effects answer).nodeCount (grows opens).ne'
  · intro condition fails
    by_cases opens : Opens tree [] comps
    · have fits := condition.resolve_right (not_not_intro opens)
      have some_ : comps ≠ [] := by
        rintro rfl
        exact not_opens_nil opens
      rw [succeeds.mpr ⟨some_, fits⟩] at fails
      cases fails
    · rw [stays opens]
      exact .refl tree

/-- A call of `fs_dir_mkdir` that fails has no effect. -/
theorem Shaped.mkdir_unaffected (shaped : Shaped tree kids) (p : Option CString)
    (fails : (fsDirMkdir tree p).1 = false) : Unaffected tree (fsDirMkdir tree p).2 := by
  cases p with
  | none => exact .refl tree
  | some p =>
      obtain ⟨cwd, here⟩ := NamedTree.exists_path shaped.rooted ((shaped.used _).mpr shaped.cwd)
      cases resolves : resolvePath tree p.bytes fsPathMax with
      | none =>
          simp only [fsDirMkdir, mkdirInternal, resolves]
          exact .refl tree
      | some absolute =>
          obtain ⟨comps, canonical, rfl, short⟩ := shaped.resolves here resolves
          rw [(shaped.refines canonical short resolves).unmade fails]
          exact .refl tree

end PartialMake

/-- **A failed call has no effect**, in any state of any run: always for
`fs_dir_mkdir`, and for `fs_dir_mkdir_p` exactly when the path it resolves can be made
as a whole or its first missing part cannot be made. -/
theorem failed_mkdir_unaffected_iff (ops : List DirOp) :
    (∀ p, (fsDirMkdir (fsDir.state fsDirInit ops) p).1 = false →
      Unaffected (fsDir.state fsDirInit ops) (fsDirMkdir (fsDir.state fsDirInit ops) p).2) ∧
    ∀ p, ((fsDirMkdirP (fsDir.state fsDirInit ops) p).1 = false →
        Unaffected (fsDir.state fsDirInit ops) (fsDirMkdirP (fsDir.state fsDirInit ops) p).2) ↔
      ∀ path comps, p = some path → Canonical comps →
        resolvePath (fsDir.state fsDirInit ops) path.bytes fsPathMax = some (render comps) →
          AllOrNothing (fsDir.state fsDirInit ops) comps := by
  obtain ⟨kids, shaped⟩ := shaped_run ops
  generalize fsDir.state fsDirInit ops = tree at shaped
  refine ⟨fun p fails => shaped.mkdir_unaffected p fails, fun p => ?_⟩
  obtain ⟨cwd, here⟩ := NamedTree.exists_path shaped.rooted ((shaped.used _).mpr shaped.cwd)
  have resolved {path : CString} {comps : List (List UInt8)} (canonical : Canonical comps)
      (resolves : resolvePath tree path.bytes fsPathMax = some (render comps)) :=
    shaped.mkdirP_unaffected_iff canonical (by
      obtain ⟨_, _, same, short⟩ := shaped.resolves here resolves
      rwa [← same] at short) resolves
  constructor
  · rintro effects path comps rfl canonical resolves
    exact (resolved canonical resolves).mp effects
  · intro condition
    cases p with
    | none => exact fun _ => .refl tree
    | some p =>
        cases resolves : resolvePath tree p.bytes fsPathMax with
        | none =>
            intro _
            simp only [fsDirMkdirP, mkdirInternal, resolves]
            exact .refl tree
        | some absolute =>
            obtain ⟨comps, canonical, rfl, _⟩ := shaped.resolves here resolves
            exact (resolved canonical resolves).mpr (condition p comps rfl canonical resolves)

/-- A short name and below it one of 32 bytes. -/
def longBelow : CString := CString.of (render [[97], List.replicate 32 98])

/-- The call fails at the long name and leaves the directory with the short one. -/
theorem not_unaffected_longBelow : ¬ ((fsDirMkdirP fsDirInit (some longBelow)).1 = false →
    Unaffected fsDirInit (fsDirMkdirP fsDirInit (some longBelow)).2) := by
  have fails : (fsDirMkdirP fsDirInit (some longBelow)).1 = false := by decide +kernel
  have grows : (fsDirMkdirP fsDirInit (some longBelow)).2.nodeCount = 2 := by decide +kernel
  intro effects
  have same := (effects fails).nodeCount
  rw [grows] at same
  cases same

end TigerOS.Dir
