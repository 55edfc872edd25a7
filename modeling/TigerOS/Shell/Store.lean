import TigerOS.Shell.PathState
import TigerOS.Dir.Refinement

/-! # Files and directories of the shell

Whatever calls are made, no path is both a directory and a file, written files
have different canonical paths in directories that exist, and their contents are
terminated (`TigerOS.Shell.store_wellFormed`). The invariant behind it
(`TigerOS.Shell.Settled`) also gives the calls in terms of the components of
paths.
-/

namespace TigerOS.Shell

open Foundation TigerOS.Path TigerOS.Dir

/-! ## Cutting a path at its last slash -/

section LastSlash

variable {base : List (List UInt8)} {name : List UInt8} {outLen : ℕ}

private theorem lastSlashFrom_component (i last : ℕ) (noSlash : slash ∉ name) :
    lastSlashFrom i last name = last := by
  induction name generalizing i with
  | nil => rfl
  | cons byte name ih =>
      simp only [List.mem_cons, not_or] at noSlash
      rw [lastSlashFrom, if_neg (Ne.symm noSlash.1), ih (i + 1) noSlash.2]

private theorem lastSlashFrom_append (i last : ℕ) (before : List UInt8) (noSlash : slash ∉ name) :
    lastSlashFrom i last (before ++ slash :: name) = i + before.length := by
  induction before generalizing i last with
  | nil =>
      rw [List.nil_append, lastSlashFrom, if_pos rfl, lastSlashFrom_component _ _ noSlash]
      rfl
  | cons byte before ih =>
      rw [List.cons_append, lastSlashFrom, ih, List.length_cons]
      omega

/-- What is written before the last slash of a path. -/
private def beforeName (base : List (List UInt8)) : List UInt8 := base.flatMap (slash :: ·)

private theorem render_snoc (base : List (List UInt8)) (name : List UInt8) :
    render (base ++ [name]) = beforeName base ++ slash :: name := by
  rw [render, if_neg (by simp), List.flatMap_append, List.flatMap_singleton, beforeName]

/-- `path_parent` answers the path without its last component. -/
theorem pathParent_render (valid : ValidComponent name)
    (short : (render (base ++ [name])).length < fsPathMax) :
    pathParent (render (base ++ [name])) fsPathMax = some (render base) := by
  have starts : ¬ (fsPathMax = 0 ∨ (render (base ++ [name])).head? ≠ some slash) := by
    rintro (zero | other)
    · cases zero
    · exact other (head_render _)
  rw [pathParent, if_neg starts]
  rw [render_snoc] at short ⊢
  simp only [lastSlashFrom_append 0 0 _ valid.noSlash, Nat.zero_add]
  by_cases root : base = []
  · subst root
    rfl
  · have nonempty : beforeName base ≠ [] := by
      cases base with
      | nil => exact absurd rfl root
      | cons c cs => exact List.cons_ne_nil _ _
    have written : render base = beforeName base := by rw [render, if_neg root, beforeName]
    rw [List.length_append, List.length_cons] at short
    rw [if_neg (fun zero => nonempty (List.length_eq_zero_iff.mp zero)), if_neg (by omega),
      List.take_left, written]

/-- `path_basename` answers the last component where it fits. -/
theorem pathBasename_render (valid : ValidComponent name) (room : outLen ≠ 0) :
    pathBasename (render (base ++ [name])) outLen = psStrcpy outLen name := by
  have starts : ¬ (outLen = 0 ∨ (render (base ++ [name])).head? ≠ some slash) := by
    rintro (zero | other)
    · exact room zero
    · exact other (head_render _)
  have positive := List.length_pos_iff.mpr valid.nonempty
  rw [pathBasename, if_neg starts, render_snoc]
  simp only [lastSlashFrom_append 0 0 _ valid.noSlash, Nat.zero_add, List.length_append,
    List.length_cons]
  have cut : (beforeName base ++ slash :: name).drop ((beforeName base).length + 1) = name := by
    rw [List.drop_append]
    simp
  rw [if_neg (by omega), cut]

theorem psStrcpy_eq (room : outLen ≠ 0) :
    psStrcpy outLen name = if name.length < outLen then some name else none := by
  unfold psStrcpy
  by_cases fits : name.length < outLen
  · rw [if_pos fits, if_neg (not_or.mpr ⟨room, not_le.mpr fits⟩)]
  · rw [if_neg fits, if_pos (.inr (not_lt.mp fits))]

end LastSlash

/-! ## Resolving and walking -/

section Resolve

variable {ctx : PathStateContext} {kids : NodeIndex → List NodeIndex} {comps : List (List UInt8)}
  {i : NodeIndex} {cwd : List (List UInt8)}

/-- What a path given to the shell resolves from. -/
def inputOf (path : Option CString) : List UInt8 :=
  match path with
  | none => [dot]
  | some path => if path.bytes = [] then [dot] else path.bytes

theorem noNul_inputOf (path : Option CString) : 0 ∉ inputOf path := by
  unfold inputOf
  cases path with
  | none => decide
  | some path =>
      simp only
      split
      · decide
      · exact path.noNul

theorem resolveToAbsolute_eq (shaped : Shaped ctx.tree kids)
    (here : PathTo ctx.tree ctx.tree.cwdIndex cwd) (path : Option CString) :
    resolveToAbsolute ctx path = fsPathResolve (render cwd) (inputOf path) fsPathMax := by
  unfold resolveToAbsolute fsDirPwd
  rw [shaped.pathFromIndex_eq here]
  rfl

/-- Every path resolves to a canonical path. -/
theorem resolveToAbsolute_canonical (shaped : Shaped ctx.tree kids) {path : Option CString}
    {absolute : List UInt8} (resolves : resolveToAbsolute ctx path = some absolute) :
    ∃ comps, Canonical comps ∧ absolute = render comps ∧ (render comps).length < fsPathMax := by
  obtain ⟨cwd, here⟩ := NamedTree.exists_path shaped.rooted ((shaped.used _).mpr shaped.cwd)
  rw [resolveToAbsolute_eq shaped here] at resolves
  obtain ⟨comps, canonical, rfl, short⟩ := fsPathResolve_canonical (shaped.canonical here)
    (shaped.short _ _ here) (noNul_inputOf path) resolves
  exact ⟨comps, canonical, rfl, short⟩

/-- A canonical path resolves to itself. -/
theorem resolvePath_render {tree : FsDirTree} (shaped : Shaped tree kids)
    (canonical : Canonical comps)
    (short : (render comps).length < fsPathMax) :
    resolvePath tree (CString.of (render comps)).bytes fsPathMax = some (render comps) := by
  obtain ⟨cwd, here⟩ := NamedTree.exists_path shaped.rooted ((shaped.used _).mpr shaped.cwd)
  rw [CString.bytes_of (noNul_render canonical), shaped.resolvePath_eq here]
  exact fsPathResolve_render (shaped.canonical here) (shaped.short _ _ here) canonical short short

/-- Walking a canonical path finds the node of the path. -/
theorem fsDirWalk_render {tree : FsDirTree} (shaped : Shaped tree kids)
    (canonical : Canonical comps)
    (short : (render comps).length < fsPathMax) :
    (fsDirWalk tree (some (CString.of (render comps)))).isSome ↔ comps ∈ nodePaths tree :=
  (shaped.refines canonical short (resolvePath_render shaped canonical short)).walk

end Resolve

/-! ## The invariant -/

/-- A path of a file in a directory that exists. -/
structure Placed (tree : FsDirTree) (base : List (List UInt8)) (name path : List UInt8) : Prop where
  canonical : Canonical (base ++ [name])
  written : path = render (base ++ [name])
  short : (render (base ++ [name])).length < fsPathMax
  parent : base ∈ nodePaths tree
  apart : base ++ [name] ∉ nodePaths tree

/-- The content of a file is terminated inside its array. -/
def DynamicFile.Terminated (file : DynamicFile) : Prop :=
  file.contentLen < pathStateDynamicContentMax ∧ file.content file.contentLen = 0

/-- The invariant of an initialized store. -/
structure Settled (store : PathStore) : Prop where
  ready : store.context.ready = true
  shaped : ∃ kids, Shaped store.context.tree kids
  seeds : ∀ file ∈ seedFiles, ∃ base name, Placed store.context.tree base name file.path
  placed : ∀ i, (store.files i).used = true →
    ∃ base name, Placed store.context.tree base name (store.files i).path
  distinct : ∀ i j, (store.files i).used = true → (store.files j).used = true →
    (store.files i).path = (store.files j).path → i = j
  terminated : ∀ i, (store.files i).used = true → (store.files i).Terminated

/-- The store before it is initialized. -/
structure Untouched (store : PathStore) : Prop where
  ready : store.context.ready = false
  tree : store.context.tree.nodeCount = 0
  unused : ∀ i, (store.files i).used = false

/-! ## Setting up -/

/-- The tree `ensure_initialized` makes. -/
def initialTree : FsDirTree :=
  (mkdirParents (mkdirEach fsDirInit [ascii "/etc", ascii "/home", ascii "/tmp"]).2 seedFiles).2

section Initial

variable {ctx : PathStateContext} {tree : FsDirTree} {kids : NodeIndex → List NodeIndex}

private theorem mkdirEach_shaped (paths : List (List UInt8)) (shaped : Shaped tree kids) :
    ∃ kids', Shaped (mkdirEach tree paths).2 kids' := by
  induction paths generalizing tree kids with
  | nil => exact ⟨kids, shaped⟩
  | cons path paths ih =>
      obtain ⟨kids', made⟩ := shaped.mkdirInternal_shaped (some (CString.of path)) false
      rw [mkdirEach, fsDirMkdir]
      revert made
      generalize mkdirInternal tree (some (CString.of path)) false = out
      obtain ⟨_ | _, after⟩ := out
      · exact fun made => ⟨kids', made⟩
      · exact fun made => ih made

private theorem mkdirParents_shaped (files : List PathStateFile) (shaped : Shaped tree kids) :
    ∃ kids', Shaped (mkdirParents tree files).2 kids' := by
  induction files generalizing tree kids with
  | nil => exact ⟨kids, shaped⟩
  | cons file files ih =>
      rw [mkdirParents]
      split
      · exact ⟨kids, shaped⟩
      · rename_i parent _
        split
        · exact ih shaped
        · obtain ⟨kids', made⟩ := shaped.mkdirInternal_shaped (some (CString.of parent)) true
          rw [fsDirMkdirP]
          revert made
          generalize mkdirInternal tree (some (CString.of parent)) true = out
          obtain ⟨_ | _, after⟩ := out
          · exact fun made => ⟨kids', made⟩
          · exact fun made => ih made

theorem shaped_initialTree : ∃ kids, Shaped initialTree kids := by
  obtain ⟨kids, made⟩ := mkdirEach_shaped [ascii "/etc", ascii "/home", ascii "/tmp"] shaped_init
  exact mkdirParents_shaped seedFiles made

/-- **Setting a context up succeeds**, with the same tree each time. -/
theorem ensureInitialized_fresh (fresh : ctx.ready = false) :
    ensureInitialized ctx = (true, ⟨initialTree, true⟩) := by
  have first : (mkdirEach fsDirInit [ascii "/etc", ascii "/home", ascii "/tmp"]).1 = true := by
    decide +kernel
  have second : (mkdirParents (mkdirEach fsDirInit
      [ascii "/etc", ascii "/home", ascii "/tmp"]).2 seedFiles).1 = true := by decide +kernel
  unfold ensureInitialized initialTree
  rw [fresh, if_neg Bool.false_ne_true]
  revert first second
  generalize mkdirEach fsDirInit [ascii "/etc", ascii "/home", ascii "/tmp"] = out
  obtain ⟨status, tree⟩ := out
  rintro rfl
  simp only
  generalize mkdirParents tree seedFiles = out
  obtain ⟨status, tree⟩ := out
  rintro rfl
  rfl

theorem ensureInitialized_ready (ready : ctx.ready = true) :
    ensureInitialized ctx = (true, ctx) := by
  rw [ensureInitialized, if_pos ready]

/-- Where the files that come with the shell are. -/
def seedPlaces : List (List (List UInt8) × List UInt8) :=
  [([], ascii "hello.txt"), ([ascii "etc"], ascii "motd"), ([ascii "home"], ascii "readme.txt")]

private theorem validComponent_of {c : List UInt8}
    (valid : c ≠ [] ∧ slash ∉ c ∧ 0 ∉ c ∧ c ≠ [dot] ∧ c ≠ [dot, dot]) : ValidComponent c :=
  ⟨valid.1, valid.2.1, valid.2.2.1, valid.2.2.2.1, valid.2.2.2.2⟩

theorem initialTree_seeds :
    ∀ file ∈ seedFiles, ∃ base name, Placed initialTree base name file.path := by
  obtain ⟨kids, shaped⟩ := shaped_initialTree
  have mem {comps : List (List UInt8)} (canonical : Canonical comps) :
      comps ∈ nodePaths initialTree ↔ (lookupAbsolute initialTree (render comps)).isSome := by
    rw [shaped.mem_nodePaths, Option.isSome_iff_exists]
    exact exists_congr fun i => (shaped.lookupAbsolute_eq_some canonical).symm
  have place (place : List (List UInt8) × List UInt8) (member : place ∈ seedPlaces) :
      Placed initialTree place.1 place.2 (render (place.1 ++ [place.2])) := by
    have canonical : Canonical (place.1 ++ [place.2]) := by
      have all : ∀ place ∈ seedPlaces, ∀ c ∈ place.1 ++ [place.2],
          c ≠ [] ∧ slash ∉ c ∧ 0 ∉ c ∧ c ≠ [dot] ∧ c ≠ [dot, dot] := by decide +kernel
      exact fun c inside => validComponent_of (all place member c inside)
    have short : ∀ place ∈ seedPlaces, (render (place.1 ++ [place.2])).length < fsPathMax := by
      decide +kernel
    have inside : ∀ place ∈ seedPlaces,
        (lookupAbsolute initialTree (render place.1)).isSome = true ∧
          (lookupAbsolute initialTree (render (place.1 ++ [place.2]))).isSome = false := by
      decide +kernel
    refine ⟨canonical, rfl, short place member, ?_, ?_⟩
    · exact (mem fun c inside => canonical c (List.mem_append_left _ inside)).mpr
        (inside place member).1
    · rw [mem canonical, (inside place member).2]
      exact Bool.false_ne_true
  intro file member
  have paths : seedFiles.map PathStateFile.path =
      seedPlaces.map fun place => render (place.1 ++ [place.2]) := by decide +kernel
  have here : file.path ∈ seedPlaces.map fun place => render (place.1 ++ [place.2]) := by
    rw [← paths]
    exact List.mem_map_of_mem member
  obtain ⟨spot, inside, same⟩ := List.mem_map.mp here
  rw [← same]
  exact ⟨_, _, place spot inside⟩

end Initial

/-! ## The calls keep the invariant -/

/-- A store that calls reach: it is set up, or was never used. -/
def Reached (store : PathStore) : Prop := Untouched store ∨ Settled store

section Steps

variable {store : PathStore} {files : FileSlot → DynamicFile} {file : DynamicFile}
  {tree tree' : FsDirTree} {kids : NodeIndex → List NodeIndex} {i : FileSlot}
  {comps base : List (List UInt8)} {name absolute path : List UInt8}
  {content : Option (List UInt8)} {append created : Bool}

/-- A file stays where it is when directories are added elsewhere. -/
theorem Placed.mono (placed : Placed tree base name path) (more : nodePaths tree ⊆ nodePaths tree')
    (apart : base ++ [name] ∉ nodePaths tree') : Placed tree' base name path :=
  ⟨placed.canonical, placed.written, placed.short, more placed.parent, apart⟩

/-- Moving the working directory keeps the paths. -/
theorem nodePaths_moved (shaped : Shaped tree kids) {i : NodeIndex}
    (inside : i.val < tree.nodeCount) :
    nodePaths { tree with cwdIndex := i } = nodePaths tree := by
  ext path
  rw [shaped.mem_nodePaths, (shaped.moved inside).mem_nodePaths]
  rfl

/-- A store without written files whose context was just set up. -/
theorem settled_fresh (unused : ∀ i, (files i).used = false) :
    Settled ⟨files, ⟨initialTree, true⟩⟩ := by
  have unused' (i : FileSlot) : (files i).used ≠ true := by
    rw [unused i]
    exact Bool.false_ne_true
  exact {
    ready := rfl
    shaped := shaped_initialTree
    seeds := initialTree_seeds
    placed := fun i used => absurd used (unused' i)
    distinct := fun i _ used => absurd used (unused' i)
    terminated := fun i used => absurd used (unused' i) }

/-- Every call first sets the context up. -/
theorem Reached.ensured (reached : Reached store) : ∃ ctx,
    ensureInitialized store.context = (true, ctx) ∧ Settled { store with context := ctx } := by
  rcases reached with untouched | settled
  · exact ⟨_, ensureInitialized_fresh untouched.ready, settled_fresh untouched.unused⟩
  · exact ⟨_, ensureInitialized_ready settled.ready, settled⟩

/-- A tree with more directories, none of them at a file, keeps the store
settled. -/
theorem Settled.withTree (settled : Settled store) (shaped : ∃ kids, Shaped tree kids)
    (more : nodePaths store.context.tree ⊆ nodePaths tree)
    (apart : ∀ comps ∈ nodePaths tree, comps ∉ nodePaths store.context.tree →
      (∀ file ∈ seedFiles, file.path ≠ render comps) ∧
        ∀ i, (store.files i).used = true → (store.files i).path ≠ render comps) :
    Settled { store with context := { store.context with tree := tree } } where
  ready := settled.ready
  shaped := shaped
  seeds := by
    intro file member
    obtain ⟨base, name, placed⟩ := settled.seeds file member
    refine ⟨base, name, placed.mono more fun inside => ?_⟩
    exact (apart _ inside placed.apart).1 file member placed.written
  placed := by
    intro i used
    obtain ⟨base, name, placed⟩ := settled.placed i used
    refine ⟨base, name, placed.mono more fun inside => ?_⟩
    exact (apart _ inside placed.apart).2 i used placed.written
  distinct := settled.distinct
  terminated := settled.terminated

theorem Settled.cd (settled : Settled store) (path : CString) :
    Settled { store with context := { store.context with
      tree := (fsDirCd store.context.tree (some path)).2 } } := by
  obtain ⟨kids, shaped⟩ := settled.shaped
  obtain ⟨cwd, here⟩ := NamedTree.exists_path shaped.rooted ((shaped.used _).mpr shaped.cwd)
  cases walks : fsDirWalk store.context.tree (some path) with
  | none =>
      rw [fsDirCd, walks]
      exact settled
  | some idx =>
      obtain ⟨comps, there⟩ := shaped.fsDirWalk_path here walks
      have inside := shaped.inside there
      rw [fsDirCd, walks]
      have same := nodePaths_moved shaped inside
      refine settled.withTree ⟨kids, shaped.moved inside⟩ same.ge ?_
      intro comps' member absent
      rw [same] at member
      exact absurd member absent

/-- No file that comes with the shell is found. -/
theorem fileByAbsolute_eq_none (canonical : Canonical comps) :
    fileByAbsolute (render comps) = none ↔ ∀ file ∈ seedFiles, file.path ≠ render comps := by
  have noNul : ∀ file ∈ seedFiles, 0 ∉ file.path := by decide +kernel
  unfold fileByAbsolute
  rw [List.find?_eq_none]
  refine forall₂_congr fun file member => ?_
  rw [decide_eq_true_eq, strcmp_eq_zero (noNul file member) (noNul_render canonical)]

/-- The written file at a path is found. -/
theorem dynamicFileByAbsolute_eq_none (settled : Settled store) (canonical : Canonical comps) :
    dynamicFileByAbsolute store.files (render comps) = none ↔
      ∀ i, (store.files i).used = true → (store.files i).path ≠ render comps := by
  unfold dynamicFileByAbsolute
  rw [List.find?_eq_none]
  constructor
  · intro missing i used same
    have holds := missing i (List.mem_finRange i)
    rw [decide_eq_true_eq, same] at holds
    exact holds ⟨used, (strcmp_eq_zero (noNul_render canonical) (noNul_render canonical)).mpr rfl⟩
  · intro apart i _ holds
    obtain ⟨used, equal⟩ := of_decide_eq_true holds
    obtain ⟨base, name, placed⟩ := settled.placed i used
    refine apart i used ?_
    rw [placed.written] at equal ⊢
    exact (strcmp_eq_zero (noNul_render placed.canonical) (noNul_render canonical)).mp equal

theorem dynamicFileByAbsolute_eq_some (settled : Settled store) (canonical : Canonical comps) :
    dynamicFileByAbsolute store.files (render comps) = some i ↔
      (store.files i).used = true ∧ (store.files i).path = render comps := by
  have sound {j : FileSlot} (found : dynamicFileByAbsolute store.files (render comps) = some j) :
      (store.files j).used = true ∧ (store.files j).path = render comps := by
    have holds := List.find?_some found
    obtain ⟨used, equal⟩ := of_decide_eq_true holds
    obtain ⟨base, name, placed⟩ := settled.placed j used
    refine ⟨used, ?_⟩
    rw [placed.written] at equal ⊢
    exact (strcmp_eq_zero (noNul_render placed.canonical) (noNul_render canonical)).mp equal
  constructor
  · exact sound
  · rintro ⟨used, same⟩
    cases found : dynamicFileByAbsolute store.files (render comps) with
    | none => exact absurd same ((dynamicFileByAbsolute_eq_none settled canonical).mp found i used)
    | some j =>
        obtain ⟨used', same'⟩ := sound found
        rw [settled.distinct i j used used' (same.trans same'.symm)]

theorem Settled.mkdir (settled : Settled store) (canonical : Canonical comps)
    (short : (render comps).length < fsPathMax) (noSeed : fileByAbsolute (render comps) = none)
    (noFile : dynamicFileByAbsolute store.files (render comps) = none) :
    Settled { store with context := { store.context with
      tree := (fsDirMkdir store.context.tree (some (CString.of (render comps)))).2 } } := by
  obtain ⟨kids, shaped⟩ := settled.shaped
  have refines := shaped.refines canonical short (resolvePath_render shaped canonical short)
  have shaped' := shaped.mkdirInternal_shaped (some (CString.of (render comps))) false
  cases made : (fsDirMkdir store.context.tree (some (CString.of (render comps)))).1 with
  | false =>
      rw [refines.unmade made]
      exact settled
  | true =>
      have gained := refines.made made
      refine settled.withTree shaped' ?_ ?_
      · rw [gained]
        exact Set.subset_union_left
      · intro comps' member absent
        rw [gained] at member
        obtain rfl := member.resolve_left absent
        exact ⟨(fileByAbsolute_eq_none canonical).mp noSeed,
          (dynamicFileByAbsolute_eq_none settled canonical).mp noFile⟩

/-! ### Contents -/

/-- An end put right after the bytes written. -/
private theorem writeRange_end (content : ℕ → UInt8) (n : ℕ) : writeRange content n [0] n = 0 := by
  rw [writeRange_inside le_rfl (by simp)]
  simp

theorem terminated_truncated (file : DynamicFile) : file.truncated.Terminated :=
  ⟨Nat.succ_pos _, writeRange_end file.content 0⟩

theorem terminated_stored (terminated : file.Terminated) : (file.stored content).2.Terminated := by
  unfold DynamicFile.stored
  simp only
  split
  · exact terminated
  · rename_i fits
    split
    · exact terminated
    · exact ⟨Nat.lt_of_succ_le (not_lt.mp fits), writeRange_end _ _⟩

theorem stored_fields (file : DynamicFile) (content : Option (List UInt8)) :
    (file.stored content).2.used = file.used ∧ (file.stored content).2.path = file.path := by
  unfold DynamicFile.stored
  simp only
  split
  · exact ⟨rfl, rfl⟩
  · split <;> exact ⟨rfl, rfl⟩

theorem seeded_fields {seeded : DynamicFile} (copies : file.seeded absolute = some seeded) :
    seeded.used = file.used ∧ seeded.path = file.path ∧ (file.Terminated → seeded.Terminated) := by
  unfold DynamicFile.seeded at copies
  split at copies
  · cases copies
    exact ⟨rfl, rfl, id⟩
  · simp only at copies
    split at copies
    · cases copies
    · rename_i fits
      cases copies
      exact ⟨rfl, rfl, fun _ => ⟨Nat.lt_of_succ_le (not_lt.mp fits), writeRange_end _ _⟩⟩

/-- Writing keeps the place of a file and terminates its content. -/
theorem written_fields (file : DynamicFile) (absolute : List UInt8) (created append : Bool)
    (content : Option (List UInt8)) :
    (file.written absolute created append content).2.used = file.used ∧
      (file.written absolute created append content).2.path = file.path ∧
      (file.Terminated → (file.written absolute created append content).2.Terminated) := by
  have after (mid : DynamicFile) (used : mid.used = file.used) (path : mid.path = file.path)
      (kept : file.Terminated → mid.Terminated) :
      (((if append = true then mid else mid.truncated).stored content).2.used = file.used ∧
        ((if append = true then mid else mid.truncated).stored content).2.path = file.path ∧
        (file.Terminated →
          ((if append = true then mid else mid.truncated).stored content).2.Terminated)) := by
    split
    · obtain ⟨used', path'⟩ := stored_fields mid content
      exact ⟨used'.trans used, path'.trans path, fun t => terminated_stored (kept t)⟩
    · obtain ⟨used', path'⟩ := stored_fields mid.truncated content
      exact ⟨used'.trans used, path'.trans path,
        fun _ => terminated_stored (terminated_truncated _)⟩
  unfold DynamicFile.written
  split
  · exact ⟨rfl, rfl, id⟩
  · rename_i mid copied
    split at copied
    · obtain ⟨used, path, kept⟩ := seeded_fields copied
      exact after mid used path kept
    · cases copied
      exact after file rfl rfl id

/-! ### Writing -/

theorem setFile_same (store : PathStore) (i : FileSlot) (file : DynamicFile) :
    (store.setFile i file).files i = file := Function.update_self ..

theorem setFile_other (store : PathStore) {j : FileSlot} (apart : j ≠ i) (file : DynamicFile) :
    (store.setFile i file).files j = store.files j := Function.update_of_ne apart ..

/-- Rewriting a slot keeps the store settled where the new file has a place of its
own and is terminated. -/
theorem Settled.setFile (settled : Settled store)
    (placed : ∃ base name, Placed store.context.tree base name file.path)
    (fresh : ∀ j, j ≠ i → (store.files j).used = true → (store.files j).path ≠ file.path)
    (terminated : file.Terminated) : Settled (store.setFile i file) where
  ready := settled.ready
  shaped := settled.shaped
  seeds := settled.seeds
  placed := by
    intro j inUse
    by_cases same : j = i
    · rw [same, setFile_same]
      exact placed
    · rw [setFile_other store same] at inUse ⊢
      exact settled.placed j inUse
  distinct := by
    intro j k usedJ usedK same
    by_cases atJ : j = i <;> by_cases atK : k = i
    · rw [atJ, atK]
    · rw [atJ, setFile_same, setFile_other store atK] at same
      rw [setFile_other store atK] at usedK
      exact absurd same.symm (fresh k atK usedK)
    · rw [atK, setFile_same, setFile_other store atJ] at same
      rw [setFile_other store atJ] at usedJ
      exact absurd same (fresh j atJ usedJ)
    · rw [setFile_other store atJ, setFile_other store atK] at same
      rw [setFile_other store atJ] at usedJ
      rw [setFile_other store atK] at usedK
      exact settled.distinct j k usedJ usedK same
  terminated := by
    intro j inUse
    by_cases same : j = i
    · rw [same, setFile_same]
      exact terminated
    · rw [setFile_other store same] at inUse ⊢
      exact settled.terminated j inUse

/-- Writing to a file keeps the store settled. -/
theorem Settled.written (settled : Settled store) (used : (store.files i).used = true)
    (absolute : List UInt8) (created append : Bool) (content : Option (List UInt8)) :
    Settled (store.setFile i ((store.files i).written absolute created append content).2) := by
  obtain ⟨_, path, terminated⟩ :=
    written_fields (store.files i) absolute created append content
  refine settled.setFile ?_ ?_ (terminated (settled.terminated i used))
  · rw [path]
    exact settled.placed i used
  · intro j apart inUse same
    rw [path] at same
    exact apart (settled.distinct j i inUse used same)

/-- A slot taken for a new path. -/
def DynamicFile.made (file : DynamicFile) (absolute : List UInt8) : DynamicFile :=
  ⟨true, absolute, writeRange file.content 0 [0], 0⟩

/-- Taking a slot for a new path: none is left, or the store with the new file is
settled. -/
theorem Settled.alloc (settled : Settled store)
    (placed : Placed store.context.tree base name absolute)
    (missing : dynamicFileByAbsolute store.files absolute = none) :
    dynamicFileAlloc store absolute = (none, store) ∨
      ∃ i, (store.files i).used = false ∧ dynamicFileAlloc store absolute =
          (some i, store.setFile i ((store.files i).made absolute)) ∧
        Settled (store.setFile i ((store.files i).made absolute)) := by
  unfold dynamicFileAlloc
  split
  · exact .inl rfl
  · rename_i i found
    have holds := List.find?_some found
    have short : absolute.length < fsPathMax := placed.written ▸ placed.short
    rw [psStrcpy_eq (by decide), if_pos short]
    refine .inr ⟨i, of_decide_eq_true holds, rfl, ?_⟩
    refine settled.setFile ⟨base, name, placed⟩ ?_
      ⟨Nat.succ_pos _, writeRange_end (store.files i).content 0⟩
    intro j _ inUse same
    rw [placed.written] at missing same
    exact (dynamicFileByAbsolute_eq_none settled placed.canonical).mp missing j inUse same

theorem setFile_setFile (store : PathStore) (i : FileSlot) (file file' : DynamicFile) :
    (store.setFile i file).setFile i file' = store.setFile i file' := by
  unfold PathStore.setFile
  rw [Function.update_idem]

/-- What `path_state_write_file` does to a store that is set up: it is refused, or
a slot that is in use for the path or was taken for it is written. -/
inductive WriteOutcome (store : PathStore) (path : CString) (content : Option (List UInt8))
    (append : Bool) : Bool × PathStore → Prop
  | refused : WriteOutcome store path content append (false, store)
  | existing {base : List (List UInt8)} {name : List UInt8} {i : FileSlot}
      (resolves : resolveToAbsolute store.context (some path) = some (render (base ++ [name])))
      (placed : Placed store.context.tree base name (render (base ++ [name])))
      (found : dynamicFileByAbsolute store.files (render (base ++ [name])) = some i) :
      WriteOutcome store path content append
        (((store.files i).written (render (base ++ [name])) false append content).1,
          store.setFile i
            ((store.files i).written (render (base ++ [name])) false append content).2)
  | created {base : List (List UInt8)} {name : List UInt8} {i : FileSlot}
      (resolves : resolveToAbsolute store.context (some path) = some (render (base ++ [name])))
      (placed : Placed store.context.tree base name (render (base ++ [name])))
      (missing : dynamicFileByAbsolute store.files (render (base ++ [name])) = none)
      (unused : (store.files i).used = false)
      (made : Settled (store.setFile i ((store.files i).made (render (base ++ [name]))))) :
      WriteOutcome store path content append
        ((((store.files i).made (render (base ++ [name]))).written (render (base ++ [name])) true
            append content).1,
          store.setFile i (((store.files i).made (render (base ++ [name]))).written
            (render (base ++ [name])) true append content).2)

/-- **Writing a file** has one of the three outcomes. -/
theorem Settled.pathStateWriteFile (settled : Settled store) (path : CString)
    (content : Option (List UInt8)) (append : Bool) :
    WriteOutcome store path content append
      (pathStateWriteFile store (some path) content append) := by
  obtain ⟨kids, shaped⟩ := settled.shaped
  unfold Shell.pathStateWriteFile
  rw [ensureInitialized_ready settled.ready]
  simp only
  split
  · exact .refused
  · rename_i absolute resolves
    obtain ⟨comps, canonical, rfl, short⟩ := resolveToAbsolute_canonical shaped resolves
    rcases List.eq_nil_or_concat' comps with rfl | ⟨base, name, rfl⟩
    · rw [if_pos render_nil]
      exact .refused
    · have notRoot : render (base ++ [name]) ≠ [slash] := by
        intro same
        have empty := @render_injective _ [] canonical (fun c member => by cases member) same
        simp at empty
      have valid := canonical name (by simp)
      have canonical' : Canonical base :=
        fun c member => canonical c (List.mem_append_left _ member)
      have short' := (length_render_le base [name]).trans_lt short
      have parent := fsDirWalk_render shaped canonical' short'
      have target := fsDirWalk_render shaped canonical short
      rw [if_neg notRoot, pathParent_render valid short]
      simp only
      by_cases inside : base ∈ nodePaths store.context.tree
      · have walks : ¬ (fsDirWalk store.context.tree
            (some (CString.of (render base)))).isNone = true := by
          rw [Option.isNone_iff_eq_none, ← ne_eq, ← Option.isSome_iff_ne_none]
          exact parent.mpr inside
        by_cases taken : base ++ [name] ∈ nodePaths store.context.tree
        · rw [if_neg walks, if_pos (target.mpr taken)]
          exact .refused
        · have placed : Placed store.context.tree base name (render (base ++ [name])) :=
            ⟨canonical, rfl, short, inside, taken⟩
          rw [if_neg walks, if_neg (fun some => taken (target.mp some))]
          cases found : dynamicFileByAbsolute store.files (render (base ++ [name])) with
          | some i => exact .existing resolves placed found
          | none =>
              rcases settled.alloc placed found with full | ⟨i, unused, takes, made⟩
              · rw [full]
                exact .refused
              · simp only [takes, setFile_same, setFile_setFile]
                exact .created resolves placed found unused made
      · rw [if_pos (by
          rw [Option.isNone_iff_eq_none, ← Option.not_isSome_iff_eq_none]
          exact fun some => inside (parent.mp some))]
        exact .refused

theorem WriteOutcome.settled {path : CString} {out : Bool × PathStore} (settled : Settled store)
    (outcome : WriteOutcome store path content append out) : Settled out.2 := by
  cases outcome with
  | refused => exact settled
  | existing resolves placed found =>
      have used := ((dynamicFileByAbsolute_eq_some settled placed.canonical).mp found).1
      exact settled.written used _ false append content
  | @created base name i resolves placed missing unused made =>
      have after := made.written (i := i) (by rw [setFile_same]; rfl)
        (render (base ++ [name])) true append content
      rwa [setFile_same, setFile_setFile] at after

/-- **Every call leaves the store settled**, whether it succeeds or fails. -/
theorem Reached.step (reached : Reached store) (op : PathOp) : Settled (pathStep store op).2 := by
  obtain ⟨ctx, ensured, settled⟩ := reached.ensured
  obtain ⟨kids, shaped⟩ := settled.shaped
  cases op with
  | init =>
      change Settled ⟨fun i => (store.files i).reset, (ensureInitialized pathStateContextInit).2⟩
      rw [ensureInitialized_fresh rfl]
      exact settled_fresh fun _ => rfl
  | pwd outLen =>
      simp only [pathStep, pathStatePwd, pathStateContextPwd, ensured]
      exact settled
  | cd path =>
      simp only [pathStep, pathStateCd, pathStateContextCd, ensured]
      cases path with
      | none => exact settled
      | some path => exact settled.cd path
  | mkdir path =>
      simp only [pathStep, pathStateMkdir, pathStateContextMkdir, ensured]
      cases path with
      | none => exact settled
      | some path =>
          simp only
          split
          · exact settled
          · rename_i absolute resolves
            obtain ⟨comps, canonical, rfl, short⟩ := resolveToAbsolute_canonical shaped resolves
            split
            · exact settled
            · split
              · exact settled
              · rename_i noSeed
                split
                · exact settled
                · rename_i noFile
                  exact settled.mkdir canonical short (Option.not_isSome_iff_eq_none.mp noSeed)
                    (Option.not_isSome_iff_eq_none.mp noFile)
  | ls path buffer =>
      simp only [pathStep, pathStateLs, pathStateContextLs, ensured]
      split
      · exact settled
      · split <;> exact settled
  | cat path =>
      simp only [pathStep, pathStateCat, pathStateContextCat, ensured]
      cases path with
      | none => exact settled
      | some path =>
          simp only
          split
          · exact settled
          · split <;> exact settled
  | writeFile path content append =>
      cases path with
      | none =>
          simp only [pathStep, pathStateWriteFile, ensured]
          exact settled
      | some path =>
          have outcome := settled.pathStateWriteFile path content append
          have same : Shell.pathStateWriteFile store (some path) content append =
              Shell.pathStateWriteFile { store with context := ctx } (some path) content
                append := by
            unfold Shell.pathStateWriteFile
            rw [ensured, ensureInitialized_ready settled.ready]
          simp only [pathStep, same]
          exact outcome.settled settled

end Steps

/-! ## Every run -/

/-- Directories and files of a store do not collide, and its written files are in
order. -/
structure WellKept (store : PathStore) : Prop where
  seeds_apart : ∀ comps ∈ nodePaths store.context.tree,
    ∀ file ∈ seedFiles, file.path ≠ render comps
  files_apart : ∀ comps ∈ nodePaths store.context.tree,
    ∀ i, (store.files i).used = true → (store.files i).path ≠ render comps
  distinct : ∀ i j, (store.files i).used = true → (store.files j).used = true →
    (store.files i).path = (store.files j).path → i = j
  placed : ∀ i, (store.files i).used = true → ∃ base name, Canonical (base ++ [name]) ∧
    (store.files i).path = render (base ++ [name]) ∧ base ∈ nodePaths store.context.tree
  terminated : ∀ i, (store.files i).used = true →
    (store.files i).contentLen ≤ pathStateDynamicContentMax - 1 ∧
      (store.files i).content (store.files i).contentLen = 0

section Runs

variable {store : PathStore} {base comps : List (List UInt8)} {name path : List UInt8}
  {tree : FsDirTree}

/-- A file is not at the path of a directory. -/
theorem Placed.ne_render (placed : Placed tree base name path) (member : comps ∈ nodePaths tree) :
    path ≠ render comps := by
  intro same
  rw [placed.written] at same
  have equal := render_injective placed.canonical member.1 same
  rw [← equal] at member
  exact placed.apart member

theorem Settled.wellKept (settled : Settled store) : WellKept store where
  seeds_apart := by
    intro comps member file seed
    obtain ⟨base, name, placed⟩ := settled.seeds file seed
    exact placed.ne_render member
  files_apart := by
    intro comps member i used
    obtain ⟨base, name, placed⟩ := settled.placed i used
    exact placed.ne_render member
  distinct := settled.distinct
  placed := by
    intro i used
    obtain ⟨base, name, placed⟩ := settled.placed i used
    exact ⟨base, name, placed.canonical, placed.written, placed.parent⟩
  terminated := by
    intro i used
    obtain ⟨within, ends⟩ := settled.terminated i used
    exact ⟨Nat.le_pred_of_lt within, ends⟩

theorem Untouched.wellKept (untouched : Untouched store) : WellKept store := by
  have noNode (comps : List (List UInt8)) : comps ∉ nodePaths store.context.tree := by
    rintro ⟨_, i, written⟩
    rw [pathFromIndex, if_pos (.inr (.inr (.inl (untouched.tree ▸ Nat.zero_le _))))] at written
    cases written
  have unused (i : FileSlot) : (store.files i).used ≠ true := by
    rw [untouched.unused i]
    exact Bool.false_ne_true
  exact {
    seeds_apart := fun comps member => absurd member (noNode comps)
    files_apart := fun comps member => absurd member (noNode comps)
    distinct := fun i _ used => absurd used (unused i)
    placed := fun i used => absurd used (unused i)
    terminated := fun i used => absurd used (unused i) }

theorem Settled.ensured_eq (settled : Settled store) : store.ensured = store := by
  unfold PathStore.ensured
  rw [ensureInitialized_ready settled.ready]

theorem reached_zero : Reached PathStore.zero := .inl ⟨rfl, rfl, fun _ => rfl⟩

theorem reached_run (ops : List PathOp) : Reached (pathState.state PathStore.zero ops) :=
  Machine.state_invariant (fun _ op reached => .inr (reached.step op)) reached_zero ops

/-- **No path is both a directory and a file**, after any calls: written files
have canonical paths of their own in directories that exist, and their contents end
inside their arrays. -/
theorem store_wellFormed (ops : List PathOp) : WellKept (pathState.state PathStore.zero ops) := by
  rcases reached_run ops with untouched | settled
  · exact untouched.wellKept
  · exact settled.wellKept

end Runs

end TigerOS.Shell
