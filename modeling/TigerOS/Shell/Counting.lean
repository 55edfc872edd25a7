import TigerOS.Shell.Listing

/-! # Counting the entries of a directory

`path_state_context_ls` counts the entries of a path where it is given no buffer, one for each
that it comes to, and otherwise merges them by their names. The two agree for the default
context and for the context of a terminal, which has no written files
(`TigerOS.Shell.ls_counts_entries`): no two children of a directory have one name, and a name
too long for an entry fails either way.
-/

namespace TigerOS.Shell

open Foundation TigerOS.Path TigerOS.Dir

/-! ## The contexts that calls reach -/

/-- The store as a context sees it: only the default context has written files. -/
def seenBy (files : FileSlot → DynamicFile) (supportsDynamicFiles : Bool)
    (ctx : PathStateContext) : PathStore :=
  ⟨if supportsDynamicFiles = true then files else PathStore.zero.files, ctx⟩

/-- A call on the context of a terminal, with the written files at the time. -/
inductive TerminalCall where
  | init
  | pwd (outLen : ℕ)
  | cd (path : Option CString)
  | mkdir (files : FileSlot → DynamicFile) (path : Option CString)
  | ls (files : FileSlot → DynamicFile) (path : Option CString) (buffer : EntryBuffer)
  | cat (files : FileSlot → DynamicFile) (path : Option CString)

def terminalStep (ctx : PathStateContext) : TerminalCall → PathAnswer × PathStateContext
  | .init => (.done, pathStateContextInit)
  | .pwd outLen => (pathStateContextPwd ctx outLen).map .text id
  | .cd path => (pathStateContextCd ctx path).map .status id
  | .mkdir files path => (pathStateContextMkdir files false ctx path).map .status id
  | .ls files path buffer => (pathStateContextLs files false ctx path buffer).map .listed id
  | .cat files path => (pathStateContextCat files false ctx path).map .text id

/-- The context of a terminal as a machine answering calls. -/
def terminalContext : Machine PathStateContext TerminalCall PathAnswer := ⟨terminalStep⟩

/-- The contexts that calls reach, each with the written files and whether it has
them. -/
inductive ReachableContext : (FileSlot → DynamicFile) → Bool → PathStateContext → Prop
  | default (ops : List PathOp) :
      ReachableContext (pathState.state PathStore.zero ops).files true
        (pathState.state PathStore.zero ops).context
  | terminal (files : FileSlot → DynamicFile) (calls : List TerminalCall) :
      ReachableContext files false (terminalContext.state pathStateContextInit calls)

section Contexts

variable {files : FileSlot → DynamicFile} {supports : Bool} {ctx next : PathStateContext}

theorem dynamicFileByAbsolute_zero (absolute : List UInt8) :
    dynamicFileByAbsolute PathStore.zero.files absolute = none := by
  apply List.find?_eq_none.mpr
  intro i _
  rw [decide_eq_true_eq]
  exact fun used => Bool.false_ne_true used.1

theorem dynamicFileIn_seenBy :
    dynamicFileIn files supports = dynamicFileByAbsolute (seenBy files supports ctx).files := by
  funext absolute
  unfold dynamicFileIn seenBy
  cases supports with
  | true => rfl
  | false => exact (dynamicFileByAbsolute_zero absolute).symm

/-- Making a directory looks at the files the context sees. -/
theorem contextMkdir_seenBy (path : Option CString) :
    pathStateContextMkdir files supports ctx path =
    pathStateContextMkdir (seenBy files supports next).files true ctx path := by
  unfold pathStateContextMkdir
  rw [@dynamicFileIn_seenBy files supports next]
  rfl

/-- A listing looks at the files the context sees. -/
theorem contextLs_seenBy (path : Option CString) (buffer : EntryBuffer) :
    pathStateContextLs files supports ctx path buffer =
      pathStateContextLs (seenBy files supports next).files true ctx path buffer := by
  cases supports with
  | true => rfl
  | false =>
      have slots (absolute : List UInt8) : (List.finRange pathStateDynamicMaxFiles).filter
          (fun i => (PathStore.zero.files i).used = true ∧
            isChildOfDir (PathStore.zero.files i).path absolute) = [] := by
        apply List.filter_eq_nil_iff.mpr
        intro i _
        rw [decide_eq_true_eq]
        exact fun used => Bool.false_ne_true used.1
      unfold pathStateContextLs listDirectory
      rw [@dynamicFileIn_seenBy files false next, @dynamicFileIn_seenBy _ true next]
      simp only [seenBy, Bool.false_eq_true, ↓reduceIte, slots, List.map_nil, listFiles]

/-- A context of a terminal, set up, makes a store that is settled. -/
def Settles (ctx : PathStateContext) : Prop :=
  ∃ next, ensureInitialized ctx = (true, next) ∧ Settled ⟨PathStore.zero.files, next⟩

/-- A context that was never used. -/
theorem settles_fresh (fresh : ctx.ready = false) : Settles ctx := by
  obtain ⟨next, ensured, settled⟩ := reached_zero.ensured
  have same := (ensureInitialized_fresh rfl).symm.trans ensured
  exact ⟨next, (ensureInitialized_fresh fresh).trans same, settled⟩

/-- Every call leaves a context settles. -/
theorem Settles.step (settles : Settles ctx) (call : TerminalCall) :
    Settles (terminalStep ctx call).2 := by
  obtain ⟨next, ensured, settled⟩ := settles
  have kept {ctx : PathStateContext} (settled : Settled ⟨PathStore.zero.files, ctx⟩) :
      Settles ctx := ⟨ctx, ensureInitialized_ready settled.ready, settled⟩
  have reached : Reached ⟨PathStore.zero.files, next⟩ := .inr settled
  have again : ensureInitialized next = (true, next) := ensureInitialized_ready settled.ready
  cases call with
  | init => exact settles_fresh rfl
  | pwd outLen =>
      apply kept
      have after := reached.step (.pwd outLen)
      simp only [pathStep, pathStatePwd, pathStateContextPwd, again] at after
      simp only [terminalStep, pathStateContextPwd, ensured]
      exact after
  | cd path =>
      apply kept
      have after := reached.step (.cd path)
      simp only [pathStep, pathStateCd, pathStateContextCd, again] at after
      simp only [terminalStep, pathStateContextCd, ensured]
      exact after
  | mkdir files path =>
      apply kept
      have after := reached.step (.mkdir path)
      simp only [terminalStep, @contextMkdir_seenBy files false ctx next path]
      simp only [pathStep, pathStateMkdir, pathStateContextMkdir, again] at after
      simp only [pathStateContextMkdir, ensured]
      exact after
  | ls files path buffer =>
      apply kept
      have after := reached.step (.ls path buffer)
      simp only [terminalStep, @contextLs_seenBy files false ctx next path]
      simp only [pathStep, pathStateLs, pathStateContextLs, again] at after
      simp only [pathStateContextLs, ensured]
      exact after
  | cat files path =>
      apply kept
      have after := reached.step (.cat path)
      simp only [terminalStep, pathStateContextCat, ensured]
      simp only [pathStep, pathStateCat, pathStateContextCat, again] at after
      exact after

/-- **Every context that calls reach** is set up on demand, and makes a store that is
settled with the files it sees. -/
theorem ReachableContext.ensured (reachable : ReachableContext files supports ctx) :
    ∃ next, ensureInitialized ctx = (true, next) ∧ Settled (seenBy files supports next) := by
  cases reachable with
  | default ops => exact (reached_run ops).ensured
  | terminal files calls =>
      exact Machine.state_invariant (fun _ call settles => settles.step call)
        (settles_fresh rfl : Settles pathStateContextInit) calls

end Contexts

/-! ## Counting and listing -/

/-- A count and a listing agree: both fail, or both succeed with the same count, and the
listing has its entries in ascending order with no name twice. -/
structure CountAgrees (counted listed : Option Listed) : Prop where
  status : counted.isSome = listed.isSome
  count : counted.map Listed.count = listed.map Listed.count
  entries : ∀ shown, listed = some shown → shown.count = shown.entries.length ∧
    shown.entries.Pairwise (fun first second => first.name < second.name) ∧
      (shown.entries.map PathStateEntry.name).Nodup

section Counting

variable {store : PathStore} {shown : List PathStateEntry} {listed : Listed} {maxEntries m : ℕ}
  {dir subdirs files : List (List UInt8)} {path : Option CString} {absolute : List UInt8}

theorem countAgrees_none : CountAgrees none none :=
  ⟨rfl, rfl, fun _ none_ => nomatch none_⟩

/-- A listing that shows as many entries as are counted. -/
theorem Shows.countAgrees (shows : Shows listed shown) (entries : List PathStateEntry) :
    CountAgrees (some ⟨entries, shown.length⟩) (some listed) where
  status := rfl
  count := by
    rw [Option.map_some, Option.map_some, shows.count, shows.perm.length_eq]
  entries := by
    intro found same
    obtain rfl := Option.some.inj same
    refine ⟨shows.count, shows.ordered.ascending, List.pairwise_map.mpr ?_⟩
    apply shows.ordered.ascending.imp
    intro first second less same
    rw [same] at less
    exact List.lt_irrefl _ less

/-- Counting adds one for each name. -/
theorem listEntries_null (kind : EntryKind) (count : ℕ) (names : List (List UInt8)) :
    listEntries (.null m) kind ⟨[], count⟩ names = some ⟨[], count + names.length⟩ := by
  induction names generalizing count with
  | nil => rfl
  | cons name names ih =>
      rw [listEntries, listEntry]
      simp only
      rw [ih, List.length_cons, Nat.add_assoc, Nat.add_comm 1]

theorem pathBasename_length {name : List UInt8}
    (found : pathBasename absolute (fsDirNameMax + 1) = some name) :
    name.length ≤ fsDirNameMax := by
  unfold pathBasename psStrcpy at found
  split at found
  · cases found
  · simp only at found
    split at found
    · cases found
    · split at found
      · cases found
      · rename_i fits
        obtain rfl := Option.some.inj found
        omega

/-- A file is listed alone, and counted as one. -/
theorem countAgrees_file (slot : 1 ≤ maxEntries) (path : List UInt8) :
    CountAgrees (listFiles (.null m) ⟨[], 0⟩ [path])
      (listFiles (.room maxEntries) ⟨[], 0⟩ [path]) := by
  rw [listFiles, listFiles]
  cases found : pathBasename path (fsDirNameMax + 1) with
  | none => exact countAgrees_none
  | some basename =>
      have long := pathBasename_length found
      have fits : ¬ (maxEntries ≤ 0 ∨ fsDirNameMax < basename.length) := by omega
      have single : listEntry (.room maxEntries) ⟨[], 0⟩ basename .file =
          some ⟨[⟨basename, .file⟩], 1⟩ := by
        unfold listEntry entryInsertSorted
        simp only [List.length_nil]
        rw [if_neg fits]
        rfl
      simp only [single]
      refine ⟨rfl, rfl, ?_⟩
      intro shown same
      obtain rfl := Option.some.inj same
      exact ⟨rfl, List.pairwise_singleton _ _, List.nodup_singleton _⟩

/-- The children of a directory are counted where their names are short. -/
theorem Inside.counts (inside : Inside store dir subdirs files)
    (short : ∀ name ∈ files, name.length ≤ fsDirNameMax) :
    listDirectory store.files true store.context (render dir) (.null m) =
      some ⟨[], subdirs.length + files.length⟩ := by
  rw [inside.lists, listEntries_null, Option.bind_some, listFiles_eq inside.canonical short,
    listEntries_null, Nat.zero_add]

/-- A name too long for an entry fails the directory, counted or listed. -/
theorem Inside.fails {name : List UInt8} (inside : Inside store dir subdirs files)
    (member : name ∈ files) (long : fsDirNameMax < name.length) (buffer : EntryBuffer) :
    listDirectory store.files true store.context (render dir) buffer = none := by
  rw [inside.lists]
  apply Option.bind_eq_none_iff.mpr
  intro listed _
  exact listFiles_eq_none member inside.canonical long listed

/-- The count of a directory is the number of its children. -/
theorem Inside.ncard_of_counts (inside : Inside store dir subdirs files)
    (counts : listDirectory store.files true store.context (render dir) (.null m) = some listed) :
    {entry | IsChild store dir entry}.ncard = listed.count := by
  by_cases short : ∀ name ∈ files, name.length ≤ fsDirNameMax
  · rw [inside.counts short] at counts
    obtain rfl := Option.some.inj counts
    rw [inside.ncard_eq, Nat.add_comm]
  · push Not at short
    obtain ⟨name, member, long⟩ := short
    rw [inside.fails member long] at counts
    cases counts

/-- **Counting a directory agrees with listing it.** -/
theorem Inside.countAgrees (settled : Settled store) (inside : Inside store dir subdirs files)
    (room : files.length + subdirs.length ≤ maxEntries) :
    CountAgrees (listDirectory store.files true store.context (render dir) (.null m))
      (listDirectory store.files true store.context (render dir) (.room maxEntries)) := by
  by_cases short : ∀ name ∈ files, name.length ≤ fsDirNameMax
  · obtain ⟨listed, lists, shows⟩ := inside.lists_all settled short room
    have count : (entriesOf .file files ++ entriesOf .dir subdirs).length =
        subdirs.length + files.length := by
      simp only [entriesOf, List.length_append, List.length_map]
      exact Nat.add_comm _ _
    rw [lists, inside.counts short, ← count]
    exact shows.countAgrees []
  · push Not at short
    obtain ⟨name, member, long⟩ := short
    rw [inside.fails member long, inside.fails member long]
    exact countAgrees_none

/-- Listing fails where there is no directory. -/
theorem listDirectory_missing {written : FileSlot → DynamicFile} {ctx : PathStateContext}
    {kids : NodeIndex → List NodeIndex} (shaped : Shaped ctx.tree kids)
    (canonical : Canonical dir) (short : (render dir).length < fsPathMax)
    (missing : dir ∉ nodePaths ctx.tree) (buffer : EntryBuffer) :
    listDirectory written true ctx (render dir) buffer = none := by
  have nowhere : fsDirWalk ctx.tree (some (CString.of (render dir))) = none := by
    rw [← Option.not_isSome_iff_eq_none, fsDirWalk_render shaped canonical short]
    exact missing
  have fails : (fsDirReaddir ctx.tree (some (CString.of (render dir)))
      (.room fsDirMaxNodes)).status = false := by
    unfold fsDirReaddir
    simp only [nowhere]
    split <;> rfl
  unfold listDirectory
  rw [if_pos fails]

/-- A path is a file, a directory, or nothing, which fails. -/
theorem Settled.countAgrees (settled : Settled store) (path : Option CString)
    (slot : 1 ≤ maxEntries)
    (room : ∀ dir, Canonical dir → resolveToAbsolute store.context path = some (render dir) →
      {entry | IsChild store dir entry}.ncard ≤ maxEntries) :
    CountAgrees (pathStateContextLs store.files true store.context path (.null m)).1
      (pathStateContextLs store.files true store.context path (.room maxEntries)).1 := by
  obtain ⟨kids, shaped⟩ := settled.shaped
  unfold pathStateContextLs
  rw [ensureInitialized_ready settled.ready]
  simp only
  cases resolves : resolveToAbsolute store.context path with
  | none => exact countAgrees_none
  | some absolute =>
      obtain ⟨dir, canonical, rfl, short⟩ := resolveToAbsolute_canonical shaped resolves
      simp only
      split
      · exact countAgrees_file slot (render dir)
      · by_cases present : dir ∈ nodePaths store.context.tree
        · obtain ⟨subdirs, files, inside⟩ := settled.exists_inside present
          have bound := room dir canonical resolves
          rw [inside.ncard_eq] at bound
          exact inside.countAgrees settled bound
        · simp only [listDirectory_missing shaped canonical short present]
          exact countAgrees_none

end Counting

/-- **Counting and listing agree**, for every context that calls reach and every path: with
a slot and room for the children of the directory, a listing answers as the count does. -/
theorem ls_counts_entries {files : FileSlot → DynamicFile} {supports : Bool}
    {ctx : PathStateContext} (reachable : ReachableContext files supports ctx)
    (path : Option CString) (m maxEntries : ℕ) (slot : 1 ≤ maxEntries)
    (room : ∀ dir, Canonical dir →
      resolveToAbsolute (ensureInitialized ctx).2 path = some (render dir) →
        {entry | IsChild (seenBy files supports (ensureInitialized ctx).2) dir entry}.ncard ≤
          maxEntries) :
    CountAgrees (pathStateContextLs files supports ctx path (.null m)).1
      (pathStateContextLs files supports ctx path (.room maxEntries)).1 := by
  obtain ⟨next, ensured, settled⟩ := reachable.ensured
  have lists (buffer : EntryBuffer) : pathStateContextLs files supports ctx path buffer =
      pathStateContextLs (seenBy files supports next).files true next path buffer := by
    rw [@contextLs_seenBy files supports ctx next]
    unfold pathStateContextLs
    rw [ensured, (ensureInitialized_ready settled.ready : ensureInitialized next = _)]
  rw [ensured] at room
  rw [lists, lists]
  exact settled.countAgrees path slot room

/-- The root is counted and listed alike when a file was written into it. -/
theorem ls_counts_entries_file :
    let store := pathState.state PathStore.zero rootFileRun
    CountAgrees
      (pathStateContextLs store.files true store.context (some (CString.of [slash])) (.null 0)).1
      (pathStateContextLs store.files true store.context (some (CString.of [slash]))
        (.room 68)).1 := by
  intro store
  apply ls_counts_entries (.default rootFileRun)
  · exact Nat.le_add_left 1 67
  · intro dir canonical resolves
    obtain ⟨next, ensured, settled⟩ := (ReachableContext.default rootFileRun).ensured
    have root : Canonical [] := fun c member => absurd member List.not_mem_nil
    have resolved : resolveToAbsolute (ensureInitialized store.context).2
        (some (CString.of [slash])) = some (render []) := by decide +kernel
    have five : listDirectory store.files true (ensureInitialized store.context).2 (render [])
        (.null 0) = some ⟨[], 5⟩ := by decide +kernel
    rw [ensured] at resolves resolved five ⊢
    obtain rfl := render_injective canonical root
      (Option.some.inj (resolves.symm.trans resolved))
    obtain ⟨kids, shaped⟩ := settled.shaped
    obtain ⟨subdirs, files, inside⟩ := settled.exists_inside shaped.root_mem
    rw [inside.ncard_of_counts five]
    exact Nat.le_add_left 5 63

end TigerOS.Shell
