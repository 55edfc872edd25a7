import TigerOS.Shell.Store
import Mathlib.Data.Set.Card

/-! # Listing a directory

`path_state_ls` merges the directories below a directory, the files that come with
the shell and the written ones into one ascending list. It shows them all exactly
when the written files in the directory have names of at most
`FS_DIR_NAME_MAX` bytes (`TigerOS.Shell.ls_complete_iff`): `path_state_write_file`
takes longer ones, which no directory has and `path_basename` does not hold.
-/

namespace TigerOS.Shell

open Foundation TigerOS.Path TigerOS.Dir

/-! ## Sorted insertion -/

/-- Entries in ascending order of their names, which are C strings. -/
structure Ordered (entries : List PathStateEntry) : Prop where
  ascending : entries.Pairwise fun first second => first.name < second.name
  noNul : ∀ entry ∈ entries, 0 ∉ entry.name

section Insertion

variable {entries shown : List PathStateEntry} {name : List UInt8} {kind : EntryKind}

private theorem placeEntry_eq (noNul : ∀ entry ∈ entries, 0 ∉ entry.name) (noNul' : 0 ∉ name)
    (fresh : ∀ entry ∈ entries, entry.name ≠ name) : placeEntry name kind entries =
      insertAscending (fun first second => first.name < second.name) ⟨name, kind⟩ entries := by
  unfold insertAscending
  induction entries with
  | nil => rfl
  | cons entry entries ih =>
      have differs : strcmp entry.name name ≠ 0 := by
        rw [ne_eq, strcmp_eq_zero (noNul entry List.mem_cons_self) noNul']
        exact fresh entry List.mem_cons_self
      unfold placeEntry
      by_cases less : entry.name < name
      · rw [if_pos ((strcmp_neg noNul').mpr less),
          ih (fun other member => noNul other (List.mem_cons_of_mem _ member))
            (fun other member => fresh other (List.mem_cons_of_mem _ member))]
        simp only [List.takeWhile_cons, List.dropWhile_cons, less, decide_true, ↓reduceIte,
          List.cons_append]
      · rw [if_neg (fun negative => less ((strcmp_neg noNul').mp negative)), if_neg differs]
        simp only [List.takeWhile_cons, List.dropWhile_cons, less, decide_false,
          Bool.false_eq_true, ↓reduceIte, List.nil_append]

/-- A new name put among ordered ones. -/
theorem Ordered.placeEntry (ordered : Ordered entries) (kind : EntryKind) (noNul : 0 ∉ name)
    (fresh : ∀ entry ∈ entries, entry.name ≠ name) :
    Ordered (placeEntry name kind entries) ∧
      (Shell.placeEntry name kind entries).Perm (⟨name, kind⟩ :: entries) := by
  rw [placeEntry_eq ordered.noNul noNul fresh]
  refine ⟨⟨?_, ?_⟩, ?_⟩
  · apply ascending_insert _ ordered.ascending
    · intro entry member
      rcases Std.lt_trichotomy entry.name name with less | same | greater
      · exact .inl less
      · exact absurd same (fresh entry member)
      · exact .inr greater
    · intro a _ b _
      exact List.lt_trans
  · intro entry member
    rcases mem_insertAscending.mp member with rfl | earlier
    · exact noNul
    · exact ordered.noNul entry earlier
  · unfold insertAscending
    refine List.perm_middle.trans (List.Perm.cons _ ?_)
    rw [List.takeWhile_append_dropWhile]

end Insertion

/-! ## Listing names one after the other -/

/-- What has been listed shows the given entries. -/
structure Shows (listed : Listed) (shown : List PathStateEntry) : Prop where
  ordered : Ordered listed.entries
  perm : listed.entries.Perm shown
  count : listed.count = listed.entries.length

/-- The entries of names of one kind. -/
def entriesOf (kind : EntryKind) (names : List (List UInt8)) : List PathStateEntry :=
  names.map fun name => ⟨name, kind⟩

section Names

variable {listed : Listed} {shown : List PathStateEntry} {names : List (List UInt8)}
  {kind : EntryKind} {buffer : EntryBuffer} {dir : List (List UInt8)} {maxEntries : ℕ}

theorem shows_nil : Shows ⟨[], 0⟩ [] := ⟨⟨List.Pairwise.nil, by simp⟩, List.Perm.nil, rfl⟩

/-- Names that are new, not too long and have room are all listed. -/
theorem Shows.listEntries (shows : Shows listed shown) (kind : EntryKind)
    (noNul : ∀ name ∈ names, 0 ∉ name)
    (short : ∀ name ∈ names, name.length ≤ fsDirNameMax) (nodup : names.Nodup)
    (fresh : ∀ name ∈ names, ∀ entry ∈ shown, entry.name ≠ name)
    (room : shown.length + names.length ≤ maxEntries) :
    ∃ listed', listEntries (.room maxEntries) kind listed names = some listed' ∧
      Shows listed' (entriesOf kind names ++ shown) := by
  induction names generalizing listed shown with
  | nil => exact ⟨listed, rfl, shows⟩
  | cons name names ih =>
      rw [List.length_cons] at room
      obtain ⟨apart, nodup'⟩ := List.nodup_cons.mp nodup
      have length := shows.perm.length_eq
      have fits : ¬ (maxEntries ≤ listed.entries.length ∨ fsDirNameMax < name.length) := by
        rintro (full | long)
        · omega
        · exact absurd (short name List.mem_cons_self) (not_le.mpr long)
      obtain ⟨ordered, perm⟩ := shows.ordered.placeEntry kind
        (noNul name List.mem_cons_self)
        (fun entry member => fresh name List.mem_cons_self entry (shows.perm.subset member))
      have next : Shows ⟨placeEntry name kind listed.entries,
          (placeEntry name kind listed.entries).length⟩ (⟨name, kind⟩ :: shown) :=
        ⟨ordered, perm.trans (shows.perm.cons _), rfl⟩
      obtain ⟨listed', lists, shows'⟩ := ih next
        (fun other member => noNul other (List.mem_cons_of_mem _ member))
        (fun other member => short other (List.mem_cons_of_mem _ member)) nodup' (by
          intro other member entry inside
          rcases List.mem_cons.mp inside with rfl | earlier
          · rintro rfl
            exact apart member
          · exact fresh other (List.mem_cons_of_mem _ member) entry earlier)
        (by rw [List.length_cons]; omega)
      refine ⟨listed', ?_, shows'.ordered, ?_, shows'.count⟩
      · rw [Shell.listEntries, listEntry, entryInsertSorted, if_neg fits]
        exact lists
      · exact shows'.perm.trans List.perm_middle

theorem listFiles_append (listed : Listed) (first second : List (List UInt8)) :
    listFiles buffer listed (first ++ second) =
      (listFiles buffer listed first).bind fun listed => listFiles buffer listed second := by
  induction first generalizing listed with
  | nil => rfl
  | cons path paths ih =>
      rw [List.cons_append, listFiles, listFiles]
      cases pathBasename path (fsDirNameMax + 1) with
      | none => rfl
      | some basename =>
          simp only
          cases listEntry buffer listed basename .file with
          | none => rfl
          | some listed => exact ih listed

/-- Files in a directory are listed by their names. -/
theorem listFiles_eq (canonical : ∀ name ∈ names, Canonical (dir ++ [name]))
    (short : ∀ name ∈ names, name.length ≤ fsDirNameMax) (listed : Listed) :
    listFiles buffer listed (names.map fun name => render (dir ++ [name])) =
      listEntries buffer .file listed names := by
  induction names generalizing listed with
  | nil => rfl
  | cons name names ih =>
      have valid := canonical name List.mem_cons_self name (by simp)
      rw [List.map_cons, listFiles, listEntries, pathBasename_render valid (Nat.succ_ne_zero _),
        psStrcpy_eq (Nat.succ_ne_zero _),
        if_pos (Nat.lt_succ_of_le (short name List.mem_cons_self))]
      simp only
      cases listEntry buffer listed name .file with
      | none => rfl
      | some listed =>
          exact ih (fun other member => canonical other (List.mem_cons_of_mem _ member))
            (fun other member => short other (List.mem_cons_of_mem _ member)) listed

/-- A file whose name is too long fails the listing. -/
theorem listFiles_eq_none {name : List UInt8} (member : name ∈ names)
    (canonical : ∀ name ∈ names, Canonical (dir ++ [name])) (long : fsDirNameMax < name.length)
    (listed : Listed) :
    listFiles buffer listed (names.map fun name => render (dir ++ [name])) = none := by
  induction names generalizing listed with
  | nil => cases member
  | cons head names ih =>
      have valid := canonical head List.mem_cons_self head (by simp)
      rw [List.map_cons, listFiles, pathBasename_render valid (Nat.succ_ne_zero _),
        psStrcpy_eq (Nat.succ_ne_zero _)]
      rcases List.mem_cons.mp member with rfl | later
      · rw [if_neg (not_lt.mpr (Nat.succ_le_of_lt long))]
      · split
        · rfl
        · split
          · rfl
          · exact ih later
              (fun other member => canonical other (List.mem_cons_of_mem _ member)) _

end Names

/-! ## The children of a directory -/

/-- The entry of a subdirectory of a directory, or of a file in it. -/
def IsChild (store : PathStore) (dir : List (List UInt8)) (entry : PathStateEntry) : Prop :=
  match entry.kind with
  | .dir => dir ++ [entry.name] ∈ nodePaths store.context.tree
  | .file => Canonical (dir ++ [entry.name]) ∧
      ((∃ file ∈ seedFiles, file.path = render (dir ++ [entry.name])) ∨
        ∃ i, (store.files i).used = true ∧ (store.files i).path = render (dir ++ [entry.name]))

/-- The paths of the files that are listed in a directory. -/
def filePaths (store : PathStore) (absolute : List UInt8) : List (List UInt8) :=
  (seedFiles.filter fun file => ¬ (dynamicFileByAbsolute store.files file.path).isSome ∧
      isChildOfDir file.path absolute).map PathStateFile.path ++
    ((List.finRange pathStateDynamicMaxFiles).filter fun i =>
      (store.files i).used = true ∧ isChildOfDir (store.files i).path absolute).map fun i =>
        (store.files i).path

section Children

variable {store : PathStore} {tree : FsDirTree} {kids : NodeIndex → List NodeIndex}
  {dir base : List (List UInt8)} {name path : List UInt8} {buffer : EntryBuffer}
  {maxEntries : ℕ} {names paths : List (List UInt8)}

theorem isChildOfDir_render (canonical : Canonical (base ++ [name]))
    (short : (render (base ++ [name])).length < fsPathMax) (canonical' : Canonical dir) :
    isChildOfDir (render (base ++ [name])) (render dir) ↔ base = dir := by
  have canonicalBase : Canonical base := fun c member => canonical c (List.mem_append_left _ member)
  unfold isChildOfDir
  rw [pathParent_render (canonical name (by simp)) short]
  simp only
  rw [strcmp_eq_zero (noNul_render canonicalBase) (noNul_render canonical')]
  constructor
  · exact render_injective canonicalBase canonical'
  · rintro rfl
    rfl

/-- The files listed in a directory are those with a path in it, each once. -/
theorem Settled.mem_filePaths (settled : Settled store) (canonical : Canonical dir) :
    path ∈ filePaths store (render dir) ↔ ∃ name, Canonical (dir ++ [name]) ∧
      path = render (dir ++ [name]) ∧ ((∃ file ∈ seedFiles, file.path = path) ∨
        ∃ i, (store.files i).used = true ∧ (store.files i).path = path) := by
  have place {base : List (List UInt8)} {name path : List UInt8}
      (placed : Placed store.context.tree base name path) :
      isChildOfDir path (render dir) ↔ base = dir :=
    placed.written ▸ isChildOfDir_render placed.canonical placed.short canonical
  simp only [filePaths, List.mem_append, List.mem_map, List.mem_filter, List.mem_finRange,
    true_and, decide_eq_true_eq]
  constructor
  · rintro (⟨file, ⟨seed, _, inside⟩, rfl⟩ | ⟨i, ⟨used, inside⟩, rfl⟩)
    · obtain ⟨base, name, placed⟩ := settled.seeds file seed
      obtain rfl := (place placed).mp inside
      exact ⟨name, placed.canonical, placed.written, .inl ⟨file, seed, rfl⟩⟩
    · obtain ⟨base, name, placed⟩ := settled.placed i used
      obtain rfl := (place placed).mp inside
      exact ⟨name, placed.canonical, placed.written, .inr ⟨i, used, rfl⟩⟩
  · have below {name path : List UInt8} (canonical' : Canonical (dir ++ [name]))
        (written : path = render (dir ++ [name]))
        (placed : ∃ base name, Placed store.context.tree base name path) :
        isChildOfDir path (render dir) := by
      obtain ⟨base, other, placed⟩ := placed
      refine (place placed).mpr ?_
      have same := render_injective canonical' placed.canonical (written.symm.trans placed.written)
      exact (List.append_inj_left' same rfl).symm
    rintro ⟨name, canonical', written, ⟨file, seed, rfl⟩ | ⟨i, used, rfl⟩⟩
    · by_cases hidden : (dynamicFileByAbsolute store.files file.path).isSome
      · obtain ⟨i, found⟩ := Option.isSome_iff_exists.mp hidden
        rw [written] at found
        obtain ⟨used, same⟩ := (dynamicFileByAbsolute_eq_some settled canonical').mp found
        exact .inr ⟨i, ⟨used, below canonical' same (settled.placed i used)⟩,
          same.trans written.symm⟩
      · exact .inl ⟨file, ⟨seed, hidden, below canonical' written (settled.seeds file seed)⟩, rfl⟩
    · exact .inr ⟨i, ⟨used, below canonical' written (settled.placed i used)⟩, rfl⟩

theorem Settled.nodup_filePaths (settled : Settled store) (absolute : List UInt8) :
    (filePaths store absolute).Nodup := by
  have seeds : (seedFiles.map PathStateFile.path).Nodup := by decide +kernel
  refine List.nodup_append.mpr ⟨seeds.sublist (List.filter_sublist.map _), ?_, ?_⟩
  · refine List.Nodup.map_on ?_ ((List.nodup_finRange _).filter _)
    intro i inside j inside' same
    simp only [List.mem_filter, decide_eq_true_eq] at inside inside'
    exact settled.distinct i j inside.2.1 inside'.2.1 same
  · simp only [List.mem_map, List.mem_filter, decide_eq_true_eq]
    rintro _ ⟨file, ⟨seed, shown, _⟩, rfl⟩ _ ⟨i, ⟨_, used, _⟩, rfl⟩ same
    obtain ⟨base, name, placed⟩ := settled.seeds file seed
    refine shown ?_
    rw [placed.written] at same ⊢
    rw [(dynamicFileByAbsolute_eq_some settled placed.canonical).mpr ⟨used, same.symm⟩]
    rfl

/-- The names of paths in a directory. -/
private theorem exists_names (paths : List (List UInt8))
    (inside : ∀ path ∈ paths, ∃ name, Canonical (dir ++ [name]) ∧ path = render (dir ++ [name])) :
    ∃ names : List (List UInt8), (paths = names.map fun name => render (dir ++ [name])) ∧
      ∀ name ∈ names, Canonical (dir ++ [name]) := by
  induction paths with
  | nil => exact ⟨[], rfl, by simp⟩
  | cons path paths ih =>
      obtain ⟨names, rfl, canonical⟩ :=
        ih fun other member => inside other (List.mem_cons_of_mem _ member)
      obtain ⟨name, first, rfl⟩ := inside path List.mem_cons_self
      refine ⟨name :: names, rfl, ?_⟩
      intro other member
      rcases List.mem_cons.mp member with rfl | later
      · exact first
      · exact canonical other later

private theorem length_readChildren_le {rounds : ℕ} {link : Option NodeIndex}
    (reads : readChildren tree rounds link = some names) : names.length ≤ rounds := by
  induction rounds generalizing link names with
  | zero =>
      cases link <;> (cases reads; exact Nat.zero_le _)
  | succ rounds ih =>
      cases link with
      | none =>
          cases reads
          exact Nat.zero_le _
      | some cur =>
          rw [readChildren] at reads
          split at reads
          · cases reads
          · obtain ⟨rest, reads', rfl⟩ := Option.map_eq_some_iff.mp reads
            exact Nat.succ_le_succ (ih reads')

/-- A directory has no more children than there are nodes. -/
theorem count_fsDirReaddir_le (tree : FsDirTree) (path : Option CString) (buffer : EntryBuffer) :
    (fsDirReaddir tree path buffer).count ≤ fsDirMaxNodes := by
  unfold fsDirReaddir
  cases path with
  | none => exact Nat.zero_le _
  | some path =>
      simp only
      split
      · exact Nat.zero_le _
      · split
        · exact Nat.zero_le _
        · split
          · exact Nat.zero_le _
          · rename_i reads
            have bound := length_readChildren_le reads
            cases buffer <;> exact bound

/-- The names of the subdirectories of a directory and of the files in it, each
once. -/
structure Inside (store : PathStore) (dir subdirs files : List (List UInt8)) : Prop where
  mem_subdirs : ∀ name, name ∈ subdirs ↔ dir ++ [name] ∈ nodePaths store.context.tree
  mem_files : ∀ name, name ∈ files ↔ IsChild store dir ⟨name, .file⟩
  nodupSubdirs : subdirs.Nodup
  nodupFiles : files.Nodup
  lists : ∀ buffer, listDirectory store.files true store.context (render dir) buffer =
    (listEntries buffer .dir ⟨[], 0⟩ subdirs).bind fun listed =>
      listFiles buffer listed (files.map fun name => render (dir ++ [name]))

theorem listDirectory_eq {files : FileSlot → DynamicFile} {ctx : PathStateContext}
    {absolute : List UInt8} (store : PathStore) (sameFiles : store.files = files)
    (reads : fsDirReaddir ctx.tree (some (CString.of absolute)) (.room fsDirMaxNodes) =
      ⟨true, names, names.length⟩) (buffer : EntryBuffer) :
    listDirectory files true ctx absolute buffer =
      (listEntries buffer .dir ⟨[], 0⟩ names).bind fun listed =>
        listFiles buffer listed (filePaths store absolute) := by
  subst sameFiles
  unfold listDirectory filePaths
  simp only [reads, Bool.true_eq_false, ↓reduceIte, dynamicFileIn]
  cases listEntries buffer .dir ⟨[], 0⟩ names with
  | none => rfl
  | some listed =>
      simp only [Option.bind_some]
      rw [listFiles_append]
      generalize listFiles buffer listed _ = out
      cases out <;> rfl

theorem Settled.exists_inside (settled : Settled store)
    (present : dir ∈ nodePaths store.context.tree) :
    ∃ subdirs files, Inside store dir subdirs files := by
  obtain ⟨kids, shaped⟩ := settled.shaped
  have canonical : Canonical dir := present.1
  obtain ⟨i, here⟩ := shaped.mem_nodePaths.mp present
  have short := shaped.short _ _ here
  have refines := shaped.refines canonical short (resolvePath_render shaped canonical short)
  obtain ⟨subdirs, member, ascending, reads⟩ := refines.readdir present
  have bound : subdirs.length ≤ fsDirMaxNodes := by
    have counted := count_fsDirReaddir_le store.context.tree
      (some (CString.of (render dir))) (.null 0)
    rw [reads (.null 0) (fun missing => missing rfl)] at counted
    exact counted
  have whole := reads (.room fsDirMaxNodes) id
  rw [shownIn, List.take_of_length_le bound, decide_eq_true bound] at whole
  obtain ⟨files, written, canonical'⟩ := exists_names (filePaths store (render dir))
    fun path listed => by
      obtain ⟨name, canonical', written, _⟩ := (settled.mem_filePaths canonical).mp listed
      exact ⟨name, canonical', written⟩
  refine ⟨subdirs, files, member, ?_, ?_, ?_, ?_⟩
  · intro name
    have listed : name ∈ files ↔
        Canonical (dir ++ [name]) ∧ render (dir ++ [name]) ∈ filePaths store (render dir) := by
      rw [written, List.mem_map]
      constructor
      · exact fun inside => ⟨canonical' name inside, name, inside, rfl⟩
      · rintro ⟨canonicalName, other, inside, same⟩
        have equal := render_injective (canonical' other inside) canonicalName same
        obtain rfl := List.singleton_inj.mp (List.append_cancel_left equal)
        exact inside
    rw [listed, settled.mem_filePaths canonical]
    constructor
    · rintro ⟨canonicalName, _, _, _, exists_⟩
      exact ⟨canonicalName, exists_⟩
    · rintro ⟨canonicalName, exists_⟩
      exact ⟨canonicalName, name, canonicalName, rfl, exists_⟩
  · refine List.Pairwise.imp (fun {a b} less => ?_) ascending
    rintro rfl
    exact List.lt_irrefl _ less
  · have nodup := settled.nodup_filePaths (render dir)
    rw [written] at nodup
    exact nodup.of_map _
  · intro buffer
    rw [listDirectory_eq store rfl whole buffer, written]

/-- The children of a directory, listed. -/
theorem Inside.mem_iff {subdirs files : List (List UInt8)}
    (inside : Inside store dir subdirs files) (entry : PathStateEntry) :
    entry ∈ entriesOf .file files ++ entriesOf .dir subdirs ↔ IsChild store dir entry := by
  obtain ⟨name, kind⟩ := entry
  simp only [entriesOf, List.mem_append, List.mem_map, PathStateEntry.mk.injEq]
  cases kind with
  | dir =>
      constructor
      · rintro (⟨_, _, _, other⟩ | ⟨name, member, rfl, _⟩)
        · cases other
        · exact (inside.mem_subdirs name).mp member
      · exact fun child => .inr ⟨name, (inside.mem_subdirs name).mpr child, rfl, rfl⟩
  | file =>
      constructor
      · rintro (⟨name, member, rfl, _⟩ | ⟨_, _, _, other⟩)
        · exact (inside.mem_files name).mp member
        · cases other
      · exact fun child => .inl ⟨name, (inside.mem_files name).mpr child, rfl, rfl⟩

theorem Inside.canonical {subdirs files : List (List UInt8)}
    (inside : Inside store dir subdirs files) : ∀ name ∈ files, Canonical (dir ++ [name]) :=
  fun name member => ((inside.mem_files name).mp member).1

/-- No child of a directory is both a subdirectory and a file. -/
theorem Inside.apart (settled : Settled store) {subdirs files : List (List UInt8)}
    (inside : Inside store dir subdirs files) (subdir : name ∈ subdirs) : name ∉ files := by
  intro file
  have present := (inside.mem_subdirs name).mp subdir
  obtain ⟨_, ⟨seed, member, same⟩ | ⟨i, used, same⟩⟩ := (inside.mem_files name).mp file
  · exact settled.wellKept.seeds_apart _ present seed member same
  · exact settled.wellKept.files_apart _ present i used same

end Children

/-! ## Complete listings -/

/-- A listing shows exactly the children of a directory, in ascending order. -/
structure Complete (store : PathStore) (dir : List (List UInt8)) (listed : Listed) : Prop where
  ascending : listed.entries.Pairwise fun first second => first.name < second.name
  children : ∀ entry, entry ∈ listed.entries ↔ IsChild store dir entry
  count : listed.count = listed.entries.length

/-- Every listing with room for the children of a directory shows them all. -/
def ListsAll (store : PathStore) (path : Option CString) (dir : List (List UInt8)) : Prop :=
  ∀ maxEntries, {entry | IsChild store.ensured dir entry}.ncard ≤ maxEntries →
    ∃ listed, (pathStateLs store path (.room maxEntries)).1 = some listed ∧
      Complete store.ensured dir listed

/-- The written files in a directory have names of at most `FS_DIR_NAME_MAX`
bytes. -/
def ShortNames (store : PathStore) (dir : List (List UInt8)) : Prop :=
  ∀ i name, (store.files i).used = true → Canonical (dir ++ [name]) →
    (store.files i).path = render (dir ++ [name]) → name.length ≤ fsDirNameMax

section Complete

variable {store : PathStore} {dir subdirs files : List (List UInt8)} {path : Option CString}
  {maxEntries : ℕ}

theorem Inside.ncard_eq (inside : Inside store dir subdirs files) :
    {entry | IsChild store dir entry}.ncard = files.length + subdirs.length := by
  have nodup : (entriesOf .file files ++ entriesOf .dir subdirs).Nodup := by
    have named (kind : EntryKind) : Function.Injective fun name => PathStateEntry.mk name kind :=
      fun _ _ same => (PathStateEntry.mk.injEq _ _ _ _ ▸ same).1
    refine List.nodup_append.mpr ⟨inside.nodupFiles.map (named _),
      inside.nodupSubdirs.map (named _), ?_⟩
    rintro _ first _ second rfl
    obtain ⟨_, _, rfl⟩ := List.mem_map.mp first
    obtain ⟨_, _, other⟩ := List.mem_map.mp second
    cases other
  have same : {entry | IsChild store dir entry} =
      ((entriesOf .file files ++ entriesOf .dir subdirs).toFinset : Set PathStateEntry) := by
    ext entry
    rw [Finset.mem_coe, List.mem_toFinset]
    exact (inside.mem_iff entry).symm
  rw [same, Set.ncard_coe_finset, List.toFinset_card_of_nodup nodup, List.length_append]
  simp only [entriesOf, List.length_map]

/-- Listing a directory of a store that is set up. -/
theorem Settled.ls_eq (settled : Settled store) (present : dir ∈ nodePaths store.context.tree)
    (resolves : resolveToAbsolute store.context path = some (render dir)) (buffer : EntryBuffer) :
    (pathStateLs store path buffer).1 =
      listDirectory store.files true store.context (render dir) buffer := by
  have noSeed : fileByAbsolute (render dir) = none :=
    (fileByAbsolute_eq_none present.1).mpr (settled.wellKept.seeds_apart dir present)
  have noFile : dynamicFileByAbsolute store.files (render dir) = none :=
    (dynamicFileByAbsolute_eq_none settled present.1).mpr
      (settled.wellKept.files_apart dir present)
  unfold pathStateLs pathStateContextLs
  rw [ensureInitialized_ready settled.ready]
  simp only [resolves, noSeed, dynamicFileIn, noFile, ↓reduceIte, Option.isSome_none,
    Bool.false_eq_true, or_self]

/-- The names of directories are short C strings. -/
theorem Settled.valid_subdir (settled : Settled store) {name : List UInt8}
    (present : dir ++ [name] ∈ nodePaths store.context.tree) :
    0 ∉ name ∧ name.length ≤ fsDirNameMax := by
  obtain ⟨kids, shaped⟩ := settled.shaped
  obtain ⟨i, here⟩ := shaped.mem_nodePaths.mp present
  have valid := shaped.names_valid here name (by simp)
  exact ⟨valid.1.noNul, valid.2⟩

/-- With room for them and short names, all children of a directory are listed. -/
theorem Inside.lists_all (settled : Settled store) (inside : Inside store dir subdirs files)
    (short : ∀ name ∈ files, name.length ≤ fsDirNameMax)
    (room : files.length + subdirs.length ≤ maxEntries) :
    ∃ listed, listDirectory store.files true store.context (render dir) (.room maxEntries) =
        some listed ∧ Shows listed (entriesOf .file files ++ entriesOf .dir subdirs) := by
  have canonical := inside.canonical
  have valid (name : List UInt8) (member : name ∈ subdirs) :=
    settled.valid_subdir ((inside.mem_subdirs name).mp member)
  obtain ⟨listed, lists, shows⟩ := shows_nil.listEntries .dir
    (fun name member => (valid name member).1) (fun name member => (valid name member).2)
    inside.nodupSubdirs (by simp) ((Nat.zero_add _).le.trans ((Nat.le_add_left _ _).trans room))
  rw [List.append_nil] at shows
  have room' : (entriesOf .dir subdirs).length + files.length ≤ maxEntries := by
    rw [entriesOf, List.length_map, Nat.add_comm]
    exact room
  obtain ⟨listed', lists', shows'⟩ := shows.listEntries .file
    (fun name member => (canonical name member name (by simp)).noNul) short
    inside.nodupFiles (by
      intro name member entry shown
      obtain ⟨subdir, place, rfl⟩ := List.mem_map.mp shown
      rintro rfl
      exact inside.apart settled place member) room'
  refine ⟨listed', ?_, shows'⟩
  rw [inside.lists, lists, Option.bind_some, listFiles_eq canonical short, lists']

theorem Settled.listsAll_iff (settled : Settled store)
    (present : dir ∈ nodePaths store.context.tree)
    (resolves : resolveToAbsolute store.context path = some (render dir)) :
    ListsAll store path dir ↔ ShortNames store dir := by
  obtain ⟨subdirs, files, inside⟩ := settled.exists_inside present
  unfold ListsAll
  rw [settled.ensured_eq]
  simp only [settled.ls_eq present resolves, inside.lists]
  constructor
  · intro lists i name used canonicalName same
    by_contra long
    have member : name ∈ files :=
      (inside.mem_files name).mpr ⟨canonicalName, .inr ⟨i, used, same⟩⟩
    obtain ⟨listed, shows, _⟩ := lists _ le_rfl
    obtain ⟨between, _, fails⟩ := Option.bind_eq_some_iff.mp shows
    rw [listFiles_eq_none member inside.canonical (not_le.mp long)] at fails
    cases fails
  · intro short maxEntries room
    rw [inside.ncard_eq] at room
    have shortFiles : ∀ name ∈ files, name.length ≤ fsDirNameMax := by
      intro name member
      obtain ⟨canonicalName, ⟨seed, place, same⟩ | ⟨i, used, same⟩⟩ :=
        (inside.mem_files name).mp member
      · have bounded : ∀ file ∈ seedFiles, (pathBasename file.path (fsDirNameMax + 1)).isSome := by
          decide +kernel
        have fits := bounded seed place
        rw [same, pathBasename_render (canonicalName name (by simp)) (Nat.succ_ne_zero _),
          psStrcpy_eq (Nat.succ_ne_zero _)] at fits
        by_contra long
        rw [if_neg (fun less => long (Nat.le_of_lt_succ less))] at fits
        cases fits
      · exact short i name used canonicalName same
    obtain ⟨listed, lists, shows⟩ := inside.lists_all settled shortFiles room
    rw [inside.lists] at lists
    refine ⟨listed, lists, shows.ordered.ascending, ?_, shows.count⟩
    intro entry
    rw [shows.perm.mem_iff, inside.mem_iff]

end Complete

section Runs

variable {store : PathStore} {ctx : PathStateContext}

/-- Listing first sets the store up. -/
theorem ls_ensured (ready : store.ensured.context.ready = true)
    (ensured : (ensureInitialized store.context).1 = true) (path : Option CString)
    (buffer : EntryBuffer) :
    (pathStateLs store.ensured path buffer).1 = (pathStateLs store path buffer).1 := by
  unfold pathStateLs pathStateContextLs
  rw [ensureInitialized_ready ready]
  unfold PathStore.ensured
  revert ensured
  generalize ensureInitialized store.context = out
  obtain ⟨_ | _, ctx⟩ := out
  · intro fails
    cases fails
  · exact fun _ => rfl

/-- **A directory is listed completely** exactly when no written file in it has a
name too long for an entry, after any calls. -/
theorem ls_complete_iff (ops : List PathOp) (path : Option CString) (dir : List (List UInt8))
    (present : dir ∈ nodePaths (pathState.state PathStore.zero ops).ensured.context.tree)
    (resolves : resolveToAbsolute (pathState.state PathStore.zero ops).ensured.context path =
      some (render dir)) :
    ListsAll (pathState.state PathStore.zero ops) path dir ↔
      ShortNames (pathState.state PathStore.zero ops) dir := by
  obtain ⟨ctx, ensured, settled⟩ := (reached_run ops).ensured
  have same : (pathState.state PathStore.zero ops).ensured =
      { pathState.state PathStore.zero ops with context := ctx } := by
    unfold PathStore.ensured
    rw [ensured]
  rw [← same] at settled
  have iff := settled.listsAll_iff present resolves
  unfold ListsAll at iff ⊢
  rw [settled.ensured_eq] at iff
  simp only [ls_ensured settled.ready (by rw [ensured])] at iff
  exact iff

/-- A file is written into the root. -/
def rootFileRun : List PathOp :=
  [.writeFile (some (CString.of (ascii "/f"))) (some (ascii "x")) false]

/-- The root is listed completely then. -/
theorem ls_complete_iff_file :
    ListsAll (pathState.state PathStore.zero rootFileRun) (some (CString.of [slash])) [] := by
  refine (ls_complete_iff rootFileRun (some (CString.of [slash])) [] ?_ ?_).mpr ?_
  · exact ⟨fun c member => absurd member List.not_mem_nil, 0, by decide +kernel⟩
  · decide +kernel
  · have written : ∀ i, ((pathState.state PathStore.zero rootFileRun).files i).used = true →
        ((pathState.state PathStore.zero rootFileRun).files i).path = ascii "/f" := by
      decide +kernel
    intro i name used _ same
    have length := congrArg List.length (same.symm.trans (written i used))
    simp only [List.nil_append, render, List.flatMap_singleton] at length
    change name.length + 1 = 2 at length
    rw [Nat.succ.inj length]
    decide

/-- A file with a name of 32 bytes is written, and then hides its directory. -/
theorem ls_longName : ¬ ∀ (ops : List PathOp) (path : Option CString) (dir : List (List UInt8)),
    dir ∈ nodePaths (pathState.state PathStore.zero ops).ensured.context.tree →
      resolveToAbsolute (pathState.state PathStore.zero ops).ensured.context path =
          some (render dir) →
        ListsAll (pathState.state PathStore.zero ops) path dir := by
  intro always
  have lists := always
    [.writeFile (some (CString.of (slash :: List.replicate 32 97))) (some (ascii "x")) false]
    (some (CString.of [slash])) []
    ⟨fun c member => absurd member List.not_mem_nil, 0, by decide +kernel⟩ (by decide +kernel)
  have settled := reached_zero.step
    (.writeFile (some (CString.of (slash :: List.replicate 32 97))) (some (ascii "x")) false)
  have short := (settled.listsAll_iff
    ⟨fun c member => absurd member List.not_mem_nil, 0, by decide +kernel⟩
    (by decide +kernel)).mp lists
  have long := short 0 (List.replicate 32 97) (by decide +kernel) (fun c member => by
    obtain rfl := List.mem_singleton.mp member
    exact ⟨by decide, by decide, by decide, by decide, by decide⟩) (by decide +kernel)
  revert long
  decide

end Runs

end TigerOS.Shell
