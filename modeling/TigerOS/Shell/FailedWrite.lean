import TigerOS.Shell.Listing
import TigerOS.Shell.Contents

/-! # Writes that fail

`path_state_write_file` takes a slot for a file that is not written yet, and truncates
the file where it does not append, before it finds that the bytes do not fit. A write
that fails has no effect exactly when it stops before, or the file was empty already
(`TigerOS.Shell.failed_write_unnoticed_iff`).
-/

namespace TigerOS.Shell

open Foundation TigerOS.Path TigerOS.Dir

/-- The path of the file that a write goes on to, past the checks of its path. -/
def writeTarget (ctx : PathStateContext) (path : CString) : Option (List UInt8) :=
  match resolveToAbsolute ctx (some path) with
  | none => none
  | some absolute =>
      if absolute = [slash] then none
      else
        match pathParent absolute fsPathMax with
        | none => none
        | some parent =>
            if (fsDirWalk ctx.tree (some (CString.of parent))).isNone then none
            else if (fsDirWalk ctx.tree (some (CString.of absolute))).isSome then none
            else some absolute

/-- The length of the file that comes with the shell at a path. -/
def seedLength (absolute : List UInt8) : ℕ :=
  ((fileByAbsolute absolute).map fun seed => seed.content.length).getD 0

/-- The condition under which a write that fails has no effect: the bytes fit; or the
file is written already, and they are appended or the file is empty; or it is not, and
every slot is in use. -/
def FailsClean (store : PathStore) (absolute : List UInt8) (content : Option (List UInt8))
    (append : Bool) : Prop :=
  match dynamicFileByAbsolute store.files absolute with
  | some i => append = true ∨ (store.files i).text = [] ∨
      (content.getD []).length < pathStateDynamicContentMax
  | none => (∀ i, (store.files i).used = true) ∨
      (if append = true then seedLength absolute else 0) + (content.getD []).length <
        pathStateDynamicContentMax

/-- Nothing that can be read, listed or written to shows a difference. -/
structure Unnoticed (store after : PathStore) : Prop where
  cat : ∀ path, (pathStateCat after path).1 = (pathStateCat store path).1
  ls : ∀ path buffer, (pathStateLs after path buffer).1 = (pathStateLs store path buffer).1
  slots : ∀ i, (after.files i).used = (store.files i).used

theorem Unnoticed.refl (store : PathStore) : Unnoticed store store :=
  ⟨fun _ => rfl, fun _ _ => rfl, fun _ => rfl⟩

/-! ## The bytes of a file -/

section Bytes

variable {file : DynamicFile} {content : Option (List UInt8)} {absolute : List UInt8}
  {append : Bool}

theorem stored_status (file : DynamicFile) (content : Option (List UInt8)) :
    ((file.stored content).1 = true ↔
        file.contentLen + (content.getD []).length < pathStateDynamicContentMax) ∧
      ((file.stored content).1 = false → (file.stored content).2 = file) := by
  unfold DynamicFile.stored
  simp only
  by_cases long : pathStateDynamicContentMax < file.contentLen + (content.getD []).length + 1
  · rw [if_pos long]
    exact ⟨iff_of_false Bool.false_ne_true (by omega), fun _ => rfl⟩
  · rw [if_neg long]
    have fits : file.contentLen + (content.getD []).length < pathStateDynamicContentMax := by
      omega
    split
    · exact ⟨iff_of_true rfl fits, fun refused => by cases refused⟩
    · exact ⟨iff_of_true rfl fits, fun refused => by cases refused⟩

/-- A write to a file that is written already: it fails where the bytes do not fit after
what is kept, and then leaves what is kept. -/
theorem written_existing (file : DynamicFile) (absolute : List UInt8) (append : Bool)
    (content : Option (List UInt8)) :
    ((file.written absolute false append content).1 = true ↔
        (if append = true then file.contentLen else 0) + (content.getD []).length <
          pathStateDynamicContentMax) ∧
      ((file.written absolute false append content).1 = false →
        (file.written absolute false append content).2 =
          if append = true then file else file.truncated) := by
  unfold DynamicFile.written
  simp only [Bool.false_eq_true, and_false, ↓reduceIte]
  cases append with
  | true => exact stored_status file content
  | false => exact stored_status file.truncated content

private theorem seeds_fit :
    ∀ seed ∈ seedFiles, ¬ pathStateDynamicContentMax < seed.content.length + 1 := by
  decide +kernel

/-- A write to a new file fails where the bytes do not fit after the copied ones. -/
theorem written_created (empty : file.contentLen = 0) :
    (file.written absolute true append content).1 = true ↔
      (if append = true then seedLength absolute else 0) + (content.getD []).length <
        pathStateDynamicContentMax := by
  unfold DynamicFile.written
  cases append with
  | false =>
      simp only [Bool.false_eq_true, false_and, ↓reduceIte]
      exact (stored_status file.truncated content).1
  | true =>
      simp only [and_self, ↓reduceIte]
      unfold DynamicFile.seeded seedLength
      cases found : fileByAbsolute absolute with
      | none =>
          have status := (stored_status file content).1
          rw [empty] at status
          exact status
      | some seed =>
          simp only [seeds_fit seed (List.mem_of_find?_eq_some found), ↓reduceIte]
          exact (stored_status _ content).1

/-- A truncated file reads as nothing. -/
theorem text_truncated (file : DynamicFile) : file.truncated.text = [] := by
  have noNul : 0 ∉ file.truncated.bytes := by
    rw [bytes_truncated]
    exact List.not_mem_nil
  exact ((terminated_truncated file).text_eq noNul).trans (bytes_truncated file)

end Bytes

/-! ## What a write does -/

section Write

variable {store : PathStore} {i : FileSlot} {path : CString} {absolute : List UInt8}
  {content : Option (List UInt8)} {append : Bool} {file : DynamicFile}

/-- `path_state_write_file` on a store that is set up. -/
theorem pathStateWriteFile_eq (ready : store.context.ready = true) (path : CString)
    (content : Option (List UInt8)) (append : Bool) :
    pathStateWriteFile store (some path) content append =
      match writeTarget store.context path with
      | none => (false, store)
      | some absolute =>
          match dynamicFileByAbsolute store.files absolute with
          | some i =>
              (((store.files i).written absolute false append content).1,
                store.setFile i ((store.files i).written absolute false append content).2)
          | none =>
              match dynamicFileAlloc store absolute with
              | (none, store) => (false, store)
              | (some i, store) =>
                  (((store.files i).written absolute true append content).1,
                    store.setFile i ((store.files i).written absolute true append content).2) := by
  unfold pathStateWriteFile writeTarget
  rw [ensureInitialized_ready ready]
  simp only
  cases resolveToAbsolute store.context (some path) with
  | none => rfl
  | some absolute =>
      simp only
      split
      · rfl
      · cases pathParent absolute fsPathMax with
        | none => rfl
        | some parent =>
            simp only
            split
            · rfl
            · split
              · rfl
              · rfl

/-- What a write goes on to is the path of a file that can be there. -/
theorem Settled.writeTarget_placed (settled : Settled store)
    (target : writeTarget store.context path = some absolute) :
    resolveToAbsolute store.context (some path) = some absolute ∧
      ∃ base name, Placed store.context.tree base name absolute := by
  obtain ⟨kids, shaped⟩ := settled.shaped
  unfold writeTarget at target
  split at target
  · cases target
  · rename_i written resolves
    obtain ⟨comps, canonical, rfl, short⟩ := resolveToAbsolute_canonical shaped resolves
    split at target
    · cases target
    · rename_i notRoot
      rcases List.eq_nil_or_concat' comps with rfl | ⟨base, name, rfl⟩
      · exact absurd render_nil notRoot
      · have canonical' : Canonical base :=
          fun c member => canonical c (List.mem_append_left _ member)
        have short' := (length_render_le base [name]).trans_lt short
        rw [pathParent_render (canonical name (by simp)) short] at target
        simp only at target
        split at target
        · cases target
        · rename_i walks
          split at target
          · cases target
          · rename_i apart
            cases target
            refine ⟨resolves, base, name, canonical, rfl, short, ?_, ?_⟩
            · rw [← fsDirWalk_render shaped canonical' short']
              rwa [Option.isNone_iff_eq_none, ← ne_eq, ← Option.isSome_iff_ne_none] at walks
            · rwa [← fsDirWalk_render shaped canonical short]

/-- A slot is taken unless all are in use. -/
theorem Settled.alloc_cases (settled : Settled store) {base : List (List UInt8)}
    {name : List UInt8} (placed : Placed store.context.tree base name absolute)
    (missing : dynamicFileByAbsolute store.files absolute = none) :
    ((∀ i, (store.files i).used = true) ∧ dynamicFileAlloc store absolute = (none, store)) ∨
      ∃ i, (store.files i).used = false ∧ dynamicFileAlloc store absolute =
        (some i, store.setFile i ((store.files i).made absolute)) := by
  by_cases full : ∀ i, (store.files i).used = true
  · left
    refine ⟨full, ?_⟩
    rcases settled.alloc placed missing with refused | ⟨i, unused, _⟩
    · exact refused
    · rw [full i] at unused
      cases unused
  · right
    rcases settled.alloc placed missing with refused | ⟨i, unused, takes, _⟩
    · exfalso
      apply full
      intro i
      by_contra unused
      have none_ : (List.finRange pathStateDynamicMaxFiles).find? (fun i =>
          (store.files i).used = false) = none := by
        unfold dynamicFileAlloc at refused
        split at refused
        · assumption
        · rw [psStrcpy_eq (by decide), if_pos (placed.written ▸ placed.short)] at refused
          cases refused
      have inUse := List.find?_eq_none.mp none_ i (List.mem_finRange i)
      rw [Bool.not_eq_true] at unused
      rw [unused] at inUse
      exact inUse rfl
    · exact ⟨i, unused, takes⟩

/-! ### Listings and slots -/

/-- Listings look at the slots in use and at their paths. -/
theorem pathStateLs_congr {after : PathStore} (context : after.context = store.context)
    (used : ∀ i, (after.files i).used = (store.files i).used)
    (paths : ∀ i, (after.files i).path = (store.files i).path) (path : Option CString)
    (buffer : EntryBuffer) :
    (pathStateLs after path buffer).1 = (pathStateLs store path buffer).1 := by
  have found (absolute : List UInt8) : dynamicFileByAbsolute after.files absolute =
      dynamicFileByAbsolute store.files absolute := by
    unfold dynamicFileByAbsolute
    simp only [used, paths]
  unfold pathStateLs pathStateContextLs listDirectory
  simp only [context, dynamicFileIn, found, used, paths]

theorem setFile_files_congr (used : file.used = (store.files i).used)
    (path : file.path = (store.files i).path) (j : FileSlot) :
    ((store.setFile i file).files j).used = (store.files j).used ∧
      ((store.setFile i file).files j).path = (store.files j).path := by
  by_cases same : j = i
  · rw [same, setFile_same]
    exact ⟨used, path⟩
  · rw [setFile_other store same]
    exact ⟨rfl, rfl⟩

/-- Truncating an empty file is not noticed. -/
theorem truncated_unnoticed (empty : (store.files i).text = []) :
    Unnoticed store (store.setFile i (store.files i).truncated) := by
  have fields := @setFile_files_congr store i (store.files i).truncated rfl rfl
  refine ⟨?_, pathStateLs_congr rfl (fun j => (fields j).1) (fun j => (fields j).2),
    fun j => (fields j).1⟩
  intro path
  have text (j : FileSlot) : ((store.setFile i (store.files i).truncated).files j).text =
      (store.files j).text := by
    by_cases same : j = i
    · rw [same, setFile_same, text_truncated, empty]
    · rw [setFile_other store same]
  have found (absolute : List UInt8) : dynamicFileByAbsolute
      (store.setFile i (store.files i).truncated).files absolute =
        dynamicFileByAbsolute store.files absolute := by
    unfold dynamicFileByAbsolute
    simp only [fields]
  have context : (store.setFile i (store.files i).truncated).context = store.context := rfl
  unfold pathStateCat pathStateContextCat
  simp only [context, dynamicFileIn, found, text]

/-- Truncating a file that is not empty is noticed. -/
theorem Settled.truncated_noticed (settled : Settled store)
    (resolves : resolveToAbsolute store.context (some path) = some absolute)
    (found : dynamicFileByAbsolute store.files absolute = some i)
    (some_ : (store.files i).text ≠ []) :
    ¬ Unnoticed store (store.setFile i (store.files i).truncated) := by
  intro unnoticed
  have fields := @setFile_files_congr store i (store.files i).truncated rfl rfl
  have same := unnoticed.cat (some path)
  have found' : dynamicFileByAbsolute (store.setFile i (store.files i).truncated).files absolute =
      some i := by
    rw [← found]
    unfold dynamicFileByAbsolute
    simp only [fields]
  have context : (store.setFile i (store.files i).truncated).context = store.context := rfl
  unfold pathStateCat pathStateContextCat at same
  rw [context, ensureInitialized_ready settled.ready] at same
  simp only [resolves, dynamicFileIn, found, found', ↓reduceIte, setFile_same, text_truncated,
    Option.some.injEq] at same
  exact some_ same.symm

/-- **A write that fails on a store that is set up** has no effect exactly where it
stops before it changes anything, or truncates an empty file. -/
theorem Settled.write_unnoticed_iff (settled : Settled store) (path : CString)
    (content : Option (List UInt8)) (append : Bool) :
    ((Shell.pathStateWriteFile store (some path) content append).1 = false →
        Unnoticed store (Shell.pathStateWriteFile store (some path) content append).2) ↔
      ∀ absolute, writeTarget store.context path = some absolute →
        FailsClean store absolute content append := by
  rw [pathStateWriteFile_eq settled.ready]
  cases target : writeTarget store.context path with
  | none => exact iff_of_true (fun _ => .refl store) fun _ none_ => by cases none_
  | some absolute =>
      obtain ⟨resolves, base, name, placed⟩ := settled.writeTarget_placed target
      simp only [Option.some.injEq, forall_eq']
      unfold FailsClean
      cases found : dynamicFileByAbsolute store.files absolute with
      | some i =>
          simp only
          obtain ⟨status, leaves⟩ := written_existing (store.files i) absolute append content
          cases append with
          | true =>
              refine iff_of_true (fun fails => ?_) (.inl rfl)
              rw [leaves fails]
              have same : store.setFile i (store.files i) = store := by
                unfold PathStore.setFile
                rw [Function.update_eq_self]
              rw [if_pos rfl, same]
              exact .refl store
          | false =>
              simp only [Bool.false_eq_true, ↓reduceIte, Nat.zero_add, false_or] at status leaves ⊢
              constructor
              · intro effects
                by_cases fits : (content.getD []).length < pathStateDynamicContentMax
                · exact .inr fits
                · have fails := Bool.eq_false_iff.mpr fun wrote => fits (status.mp wrote)
                  have unnoticed := effects fails
                  rw [leaves fails] at unnoticed
                  by_contra some_
                  rw [not_or] at some_
                  exact settled.truncated_noticed resolves found some_.1 unnoticed
              · rintro (empty | fits) fails
                · rw [leaves fails]
                  exact truncated_unnoticed empty
                · rw [status.mpr fits] at fails
                  cases fails
      | none =>
          simp only
          rcases settled.alloc_cases placed found with ⟨full, refused⟩ | ⟨i, unused, takes⟩
          · rw [refused]
            exact iff_of_true (fun _ => .refl store) (.inl full)
          · have free : ¬ ∀ i, (store.files i).used = true := by
              intro full
              rw [full i] at unused
              cases unused
            rw [takes]
            simp only [setFile_same, setFile_setFile, free, false_or]
            have status := @written_created ((store.files i).made absolute) content absolute append
              rfl
            obtain ⟨used, _⟩ := written_fields ((store.files i).made absolute) absolute true append
              content
            constructor
            · intro effects
              apply status.mp
              by_contra refused
              have slots := (effects (Bool.eq_false_iff.mpr refused)).slots i
              rw [setFile_same, used, unused] at slots
              cases slots
            · intro fits fails
              rw [status.mpr fits] at fails
              cases fails

end Write

/-! ## Every run -/

section Runs

variable {store after : PathStore} {ctx : PathStateContext}

/-- A store is read as it is once it is set up. -/
theorem unnoticed_ensured (ensured : ensureInitialized store.context = (true, ctx))
    (ready : ctx.ready = true) :
    Unnoticed { store with context := ctx } after ↔ Unnoticed store after := by
  have listed (path : Option CString) (buffer : EntryBuffer) :
      (pathStateLs { store with context := ctx } path buffer).1 =
        (pathStateLs store path buffer).1 := by
    unfold pathStateLs pathStateContextLs
    rw [ensured, ensureInitialized_ready ready]
  constructor
  · rintro ⟨cat, ls, slots⟩
    exact ⟨fun path => (cat path).trans (cat_ensured ensured ready path),
      fun path buffer => (ls path buffer).trans (listed path buffer), slots⟩
  · rintro ⟨cat, ls, slots⟩
    exact ⟨fun path => (cat path).trans (cat_ensured ensured ready path).symm,
      fun path buffer => (ls path buffer).trans (listed path buffer).symm, slots⟩

/-- **A write that fails has no effect**, after any calls, exactly where its path is
refused, or the file it goes on to is left as it was. -/
theorem failed_write_unnoticed_iff (ops : List PathOp) (path : Option CString)
    (content : Option (List UInt8)) (append : Bool) :
    ((pathStateWriteFile (pathState.state PathStore.zero ops) path content append).1 = false →
        Unnoticed (pathState.state PathStore.zero ops)
          (pathStateWriteFile (pathState.state PathStore.zero ops) path content append).2) ↔
      ∀ p absolute, path = some p →
        writeTarget (pathState.state PathStore.zero ops).ensured.context p = some absolute →
          FailsClean (pathState.state PathStore.zero ops) absolute content append := by
  obtain ⟨ctx, ensured, settled⟩ := (reached_run ops).ensured
  generalize pathState.state PathStore.zero ops = store at ensured settled
  have ready := settled.ready
  have context : store.ensured.context = ctx := by
    unfold PathStore.ensured
    rw [ensured]
  rw [context]
  cases path with
  | none =>
      refine iff_of_true (fun _ => ?_) fun p _ none_ => by cases none_
      unfold pathStateWriteFile
      rw [ensured]
      exact (unnoticed_ensured ensured ready).mp (.refl _)
  | some p =>
      have iff := settled.write_unnoticed_iff p content append
      rw [write_ensured ensured ready, unnoticed_ensured ensured ready] at iff
      rw [iff]
      constructor
      · intro clean q absolute same target
        obtain rfl := Option.some.inj same
        exact clean absolute target
      · intro clean absolute target
        exact clean p absolute rfl target

/-- Bytes that do not fit are written to a new file, which takes a slot and stays. -/
theorem failed_write_noticed :
    ¬ ((pathStateWriteFile PathStore.zero (some (CString.of (ascii "/a")))
      (some (List.replicate 512 120)) false).1 = false →
    Unnoticed PathStore.zero (pathStateWriteFile PathStore.zero (some (CString.of (ascii "/a")))
      (some (List.replicate 512 120)) false).2) := by
  have fails : (pathStateWriteFile PathStore.zero (some (CString.of (ascii "/a")))
      (some (List.replicate 512 120)) false).1 = false := by decide +kernel
  have taken : ((pathStateWriteFile PathStore.zero (some (CString.of (ascii "/a")))
      (some (List.replicate 512 120)) false).2.files 0).used = true := by decide +kernel
  intro effects
  have slot := (effects fails).slots 0
  rw [taken] at slot
  cases slot

end Runs

end TigerOS.Shell
