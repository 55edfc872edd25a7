import TigerOS.Shell.Store

/-! # What is written is read

A write that succeeds is what `path_state_cat` answers from then on, after the
former text where it appends, and every other path answers as before
(`TigerOS.Shell.cat_write`). An append goes after the last byte written, while
`path_state_cat` answers a C string, so the former text must not hold a NUL.
-/

namespace TigerOS.Shell

open Foundation TigerOS.Path TigerOS.Dir

/-! ## The bytes of a file -/

/-- The bytes written to a file. -/
def DynamicFile.bytes (file : DynamicFile) : List UInt8 := readRange file.content 0 file.contentLen

theorem seed_noNul {absolute : List UInt8} :
    0 ∉ ((fileByAbsolute absolute).map PathStateFile.content).getD [] := by
  have noNul : ∀ file ∈ seedFiles, 0 ∉ file.content := by decide +kernel
  cases found : fileByAbsolute absolute with
  | none => exact List.not_mem_nil
  | some seed => exact noNul seed (List.mem_of_find?_eq_some found)

section Bytes

variable {file : DynamicFile} {content : Option (List UInt8)} {absolute : List UInt8}
  {created append : Bool}

/-- A file whose bytes hold no NUL has them as its text. -/
theorem DynamicFile.Terminated.text_eq (terminated : file.Terminated) (noNul : 0 ∉ file.bytes) :
    file.text = file.bytes := by
  obtain ⟨within, ends⟩ := terminated
  obtain ⟨rest, whole⟩ := Nat.exists_eq_add_of_lt within
  have array : readRange file.content 0 pathStateDynamicContentMax =
      file.bytes ++ 0 :: readRange file.content (file.contentLen + 1) rest := by
    rw [whole, Nat.add_assoc, Nat.add_comm rest, readRange_add, readRange_add, Nat.zero_add]
    change file.bytes ++ ([file.content (file.contentLen + 0)] ++ _) = _
    rw [Nat.add_zero, ends]
    rfl
  have keeps : ∀ byte ∈ file.bytes, decide (byte ≠ 0) = true := by
    intro byte member
    rw [decide_eq_true_eq]
    exact fun zero => noNul (zero ▸ member)
  rw [DynamicFile.text, cstr, List.take_of_length_le length_readRange.le, array,
    List.takeWhile_append_of_pos keeps, List.takeWhile_cons_of_neg (by simp), List.append_nil]

theorem bytes_truncated (file : DynamicFile) : file.truncated.bytes = [] := rfl

/-- Bytes that fit are put after those of the file. -/
theorem bytes_stored (fits : (file.stored content).1 = true) :
    (file.stored content).2.bytes = file.bytes ++ content.getD [] := by
  unfold DynamicFile.stored at fits ⊢
  simp only at fits ⊢
  split at fits
  · cases fits
  · rename_i room
    rw [if_neg room]
    split
    · rename_i nothing
      rw [nothing, List.append_nil]
    · unfold DynamicFile.bytes
      simp only
      rw [readRange_writeRange_disjoint (.inl (Nat.zero_add _).le), readRange_add, Nat.zero_add,
        readRange_writeRange_same, readRange_writeRange_disjoint (.inl (Nat.zero_add _).le)]

/-- The text of a new file before bytes are put into it: that of the file which
comes with the shell at its path. -/
theorem bytes_seeded {seeded : DynamicFile} (copies : file.seeded absolute = some seeded)
    (empty : file.bytes = []) :
    seeded.bytes = ((fileByAbsolute absolute).map PathStateFile.content).getD [] := by
  unfold DynamicFile.seeded at copies
  cases found : fileByAbsolute absolute with
  | none =>
      rw [found] at copies
      cases copies
      exact empty
  | some seed =>
      rw [found] at copies
      simp only at copies
      split at copies
      · cases copies
      · cases copies
        unfold DynamicFile.bytes
        simp only
        rw [readRange_writeRange_disjoint (.inl (Nat.zero_add _).le), readRange_writeRange_same]
        rfl

/-- What a file holds once a write to it succeeds. -/
theorem bytes_written (empty : created = true → file.bytes = [])
    (succeeds : (file.written absolute created append content).1 = true) :
    (file.written absolute created append content).2.bytes =
      (if append = true then
        if created = true then ((fileByAbsolute absolute).map PathStateFile.content).getD []
        else file.bytes
      else []) ++ content.getD [] := by
  unfold DynamicFile.written at succeeds ⊢
  cases append with
  | false =>
      simp only [Bool.false_eq_true, false_and, ↓reduceIte] at succeeds ⊢
      exact bytes_stored succeeds
  | true =>
      cases created with
      | false =>
          simp only [Bool.false_eq_true, and_false, ↓reduceIte] at succeeds ⊢
          exact bytes_stored succeeds
      | true =>
          simp only [and_self, ↓reduceIte] at succeeds ⊢
          cases copies : file.seeded absolute with
          | none =>
              rw [copies] at succeeds
              cases succeeds
          | some seeded =>
              rw [copies] at succeeds
              simp only at succeeds ⊢
              rw [bytes_stored succeeds, bytes_seeded copies (empty rfl)]

/-- What is written to a file fits its array. -/
theorem stored_fits (fits : (file.stored content).1 = true) :
    (content.getD []).length < pathStateDynamicContentMax := by
  unfold DynamicFile.stored at fits
  simp only at fits
  split at fits
  · cases fits
  · omega

theorem written_fits (succeeds : (file.written absolute created append content).1 = true) :
    (content.getD []).length < pathStateDynamicContentMax := by
  unfold DynamicFile.written at succeeds
  split at succeeds
  · cases succeeds
  · exact stored_fits succeeds

/-- A write that fails still leaves text in the file: what it held, nothing, or the
text copied into it. -/
theorem noNul_written (text : 0 ∉ file.bytes) (noNul : 0 ∉ content.getD [])
    (empty : created = true → file.bytes = []) :
    0 ∉ (file.written absolute created append content).2.bytes := by
  have stores (file : DynamicFile) (text : 0 ∉ file.bytes) : 0 ∉ (file.stored content).2.bytes := by
    cases fits : (file.stored content).1 with
    | true =>
        rw [bytes_stored fits]
        exact List.not_mem_append text noNul
    | false =>
        unfold DynamicFile.stored at fits ⊢
        simp only at fits ⊢
        split at fits
        · rename_i long
          rw [if_pos long]
          exact text
        · split at fits <;> cases fits
  have after (file : DynamicFile) (text : 0 ∉ file.bytes) :
      0 ∉ ((if append = true then file else file.truncated).stored content).2.bytes := by
    split
    · exact stores file text
    · exact stores _ (by rw [bytes_truncated]; exact List.not_mem_nil)
  unfold DynamicFile.written
  split
  · exact text
  · rename_i mid copied
    split at copied
    · rename_i both
      refine after mid ?_
      rw [bytes_seeded copied (empty both.2)]
      exact seed_noNul
    · cases copied
      exact after file text

end Bytes

/-! ## Reading after a write -/

/-- The written file a path names, if any, holds no NUL. -/
def HoldsText (store : PathStore) (path : CString) : Prop :=
  ∀ absolute i, resolveToAbsolute (ensureInitialized store.context).2 (some path) = some absolute →
    dynamicFileByAbsolute store.files absolute = some i → 0 ∉ (store.files i).bytes

section Cat

variable {store : PathStore} {base comps : List (List UInt8)} {name absolute : List UInt8}
  {path other : CString} {content : List UInt8} {append : Bool} {file : DynamicFile} {i : FileSlot}

/-- `path_state_cat` on a store that is set up. -/
theorem Settled.cat_eq (settled : Settled store) (path : CString) :
    (pathStateCat store (some path)).1 =
      (resolveToAbsolute store.context (some path)).bind fun absolute =>
        match dynamicFileByAbsolute store.files absolute with
        | some i => some (store.files i).text
        | none => (fileByAbsolute absolute).map PathStateFile.content := by
  unfold pathStateCat pathStateContextCat
  rw [ensureInitialized_ready settled.ready]
  simp only
  cases resolveToAbsolute store.context (some path) with
  | none => rfl
  | some absolute =>
      simp only [dynamicFileIn, ↓reduceIte, Option.bind_some]
      cases dynamicFileByAbsolute store.files absolute <;> rfl

/-- Rewriting the file at a path leaves the files at the others. -/
theorem dynamicFileByAbsolute_setFile (settled : Settled store)
    (settled' : Settled (store.setFile i file)) (canonical : Canonical comps)
    (apart : file.path ≠ render comps) (before : (store.files i).used = true →
      (store.files i).path = file.path) :
    dynamicFileByAbsolute (store.setFile i file).files (render comps) =
      dynamicFileByAbsolute store.files (render comps) := by
  have elsewhere {j : FileSlot} (used : (store.files j).used = true)
      (same : (store.files j).path = render comps) : j ≠ i := by
    rintro rfl
    exact apart ((before used).symm.trans same)
  cases found : dynamicFileByAbsolute store.files (render comps) with
  | some j =>
      obtain ⟨used, same⟩ := (dynamicFileByAbsolute_eq_some settled canonical).mp found
      refine (dynamicFileByAbsolute_eq_some settled' canonical).mpr ?_
      rw [setFile_other store (elsewhere used same)]
      exact ⟨used, same⟩
  | none =>
      have missing := (dynamicFileByAbsolute_eq_none settled canonical).mp found
      refine (dynamicFileByAbsolute_eq_none settled' canonical).mpr fun j used => ?_
      by_cases here : j = i
      · rw [here, setFile_same]
        exact apart
      · rw [setFile_other store here] at used ⊢
        exact missing j used

/-- Reading a path after the file at another one is rewritten. -/
theorem Settled.cat_setFile_other (settled : Settled store)
    (settled' : Settled (store.setFile i file)) (placed : file.path = render (base ++ [name]))
    (before : (store.files i).used = true → (store.files i).path = file.path)
    (apart : resolveToAbsolute store.context (some other) ≠ some (render (base ++ [name]))) :
    (pathStateCat (store.setFile i file) (some other)).1 = (pathStateCat store (some other)).1 := by
  obtain ⟨kids, shaped⟩ := settled.shaped
  rw [settled.cat_eq, settled'.cat_eq]
  change (resolveToAbsolute store.context (some other)).bind _ = _
  cases resolves : resolveToAbsolute store.context (some other) with
  | none => rfl
  | some absolute =>
      obtain ⟨comps, canonical, rfl, _⟩ := resolveToAbsolute_canonical shaped resolves
      have different : file.path ≠ render comps := by
        intro same
        exact apart (by rw [resolves, ← same, placed])
      simp only [Option.bind_some]
      rw [dynamicFileByAbsolute_setFile settled settled' canonical different before]
      cases found : dynamicFileByAbsolute store.files (render comps) with
      | none => rfl
      | some j =>
          have same := ((dynamicFileByAbsolute_eq_some settled canonical).mp found).2
          have elsewhere : j ≠ i := by
            rintro rfl
            have inUse := ((dynamicFileByAbsolute_eq_some settled canonical).mp found).1
            exact different ((before inUse).symm.trans same)
          simp only
          rw [setFile_other store elsewhere]

/-- Reading the path of a file just rewritten. -/
theorem Settled.cat_setFile_same (settled : Settled (store.setFile i file))
    (canonical : Canonical (base ++ [name])) (placed : file.path = render (base ++ [name]))
    (used : file.used = true)
    (resolves : resolveToAbsolute store.context (some path) = some (render (base ++ [name]))) :
    (pathStateCat (store.setFile i file) (some path)).1 = some file.text := by
  have found : dynamicFileByAbsolute (store.setFile i file).files (render (base ++ [name])) =
      some i := by
    refine (dynamicFileByAbsolute_eq_some settled canonical).mpr ?_
    rw [setFile_same]
    exact ⟨used, placed⟩
  rw [settled.cat_eq]
  change (resolveToAbsolute store.context (some path)).bind _ = _
  rw [resolves, Option.bind_some, found]
  simp only [setFile_same]

/-- What a write to a path leaves as it was: the text of the other paths, and the directories. -/
structure Spared (store after : PathStore) (path : CString) : Prop where
  elsewhere : ∀ other,
    resolveToAbsolute (ensureInitialized store.context).2 (some other) ≠
        resolveToAbsolute (ensureInitialized store.context).2 (some path) →
      (pathStateCat after (some other)).1 = (pathStateCat store (some other)).1
  context : after.context = (ensureInitialized store.context).2

/-- What `path_state_cat` answers after a write that succeeded, and that it answers
as before elsewhere. -/
structure Wrote (store after : PathStore) (path : CString) (content : List UInt8)
    (append : Bool) : Prop extends Spared store after path where
  here : (pathStateCat after (some path)).1 =
    some ((if append = true then (pathStateCat store (some path)).1.getD [] else []) ++ content)

/-- A write to a slot that was in use for its path, or was free, spares the others. -/
private theorem Settled.spared (settled : Settled store)
    (settled' : Settled (store.setFile i file))
    (resolves : resolveToAbsolute store.context (some path) = some (render (base ++ [name])))
    (placed : file.path = render (base ++ [name]))
    (before : (store.files i).used = true → (store.files i).path = file.path) :
    Spared store (store.setFile i file) path where
  elsewhere := by
    rw [ensureInitialized_ready settled.ready]
    intro other apart
    rw [resolves] at apart
    exact settled.cat_setFile_other settled' placed before apart
  context := by
    rw [ensureInitialized_ready settled.ready]
    rfl

/-- A file written in a slot that was in use for its path, or was free. -/
private theorem Settled.wrote (former : List UInt8)
    (settled' : Settled (store.setFile i file)) (canonical : Canonical (base ++ [name]))
    (resolves : resolveToAbsolute store.context (some path) = some (render (base ++ [name])))
    (placed : file.path = render (base ++ [name])) (used : file.used = true)
    (holds : append = true → (pathStateCat store (some path)).1.getD [] = former)
    (noNul : 0 ∉ (if append = true then former else []) ++ content)
    (bytes : file.bytes = (if append = true then former else []) ++ content) :
    (pathStateCat (store.setFile i file) (some path)).1 =
      some ((if append = true then (pathStateCat store (some path)).1.getD [] else []) ++
        content) := by
  have terminated := settled'.terminated i (by rw [setFile_same, used])
  rw [setFile_same] at terminated
  rw [settled'.cat_setFile_same canonical placed used resolves,
    terminated.text_eq (bytes ▸ noNul), bytes]
  cases append with
  | false => rfl
  | true => rw [if_pos rfl, if_pos rfl, holds rfl]

/-- Whether it succeeds or not, a write spares the other paths. -/
theorem WriteOutcome.spared {out : Bool × PathStore} {content : Option (List UInt8)}
    (settled : Settled store) (outcome : WriteOutcome store path content append out) :
    Spared store out.2 path := by
  have settled' := outcome.settled settled
  cases outcome with
  | refused => exact ⟨fun _ _ => rfl, by rw [ensureInitialized_ready settled.ready]⟩
  | @existing base name i resolves placed found =>
      obtain ⟨_, same⟩ := (dynamicFileByAbsolute_eq_some settled placed.canonical).mp found
      obtain ⟨_, path', _⟩ := written_fields (store.files i) (render (base ++ [name])) false
        append content
      exact settled.spared settled' resolves (path'.trans same) fun _ => path'.symm
  | @created base name i resolves placed missing unused made =>
      obtain ⟨_, path', _⟩ := written_fields ((store.files i).made (render (base ++ [name])))
        (render (base ++ [name])) true append content
      exact settled.spared settled' resolves path' fun used =>
        absurd used (by rw [unused]; exact Bool.false_ne_true)

/-- The write as it is read, by what it does to the slots. -/
theorem WriteOutcome.wrote {out : Bool × PathStore} (settled : Settled store)
    (outcome : WriteOutcome store path (some content) append out) (succeeds : out.1 = true)
    (noNul : 0 ∉ content) (holds : append = true → HoldsText store path) :
    Wrote store out.2 path content append := by
  have settled' := outcome.settled settled
  refine ⟨outcome.spared settled, ?_⟩
  cases outcome with
  | refused => cases succeeds
  | @existing base name i resolves placed found =>
      obtain ⟨used, same⟩ := (dynamicFileByAbsolute_eq_some settled placed.canonical).mp found
      obtain ⟨used', path', _⟩ := written_fields (store.files i) (render (base ++ [name])) false
        append (some content)
      have former : append = true → 0 ∉ (store.files i).bytes := fun appends =>
        holds appends _ i (by rw [ensureInitialized_ready settled.ready]; exact resolves) found
      refine Settled.wrote (store.files i).bytes settled' placed.canonical resolves
        (path'.trans same) (used'.trans used) ?_ ?_ ?_
      · intro appends
        rw [settled.cat_eq, resolves, Option.bind_some, found]
        simp only [Option.getD_some]
        exact (settled.terminated i used).text_eq (former appends)
      · split
        · rename_i appends
          exact List.not_mem_append (former appends) noNul
        · exact noNul
      · exact bytes_written Bool.false_ne_true.elim succeeds
  | @created base name i resolves placed missing unused made =>
      obtain ⟨used', path', _⟩ := written_fields ((store.files i).made (render (base ++ [name])))
        (render (base ++ [name])) true append (some content)
      refine Settled.wrote
        (((fileByAbsolute (render (base ++ [name]))).map PathStateFile.content).getD []) settled'
        placed.canonical resolves path' used' ?_ ?_ ?_
      · intro _
        rw [settled.cat_eq, resolves, Option.bind_some, missing]
      · split
        · exact List.not_mem_append seed_noNul noNul
        · exact noNul
      · have bytes := bytes_written (fun _ => rfl) succeeds
        rw [if_pos rfl] at bytes
        exact bytes

end Cat

section Runs

variable {store : PathStore} {ctx : PathStateContext}

/-- Reading a store first sets it up. -/
theorem cat_ensured (ensured : ensureInitialized store.context = (true, ctx))
    (ready : ctx.ready = true) (path : Option CString) :
    (pathStateCat { store with context := ctx } path).1 = (pathStateCat store path).1 := by
  unfold pathStateCat pathStateContextCat
  rw [ensured, ensureInitialized_ready ready]

theorem write_ensured (ensured : ensureInitialized store.context = (true, ctx))
    (ready : ctx.ready = true) (path : Option CString) (content : Option (List UInt8))
    (append : Bool) :
    pathStateWriteFile { store with context := ctx } path content append =
      pathStateWriteFile store path content append := by
  unfold pathStateWriteFile
  rw [ensured, ensureInitialized_ready ready]

/-- A write to a store that calls reach spares the other paths. -/
theorem Reached.spared (reached : Reached store) (path : CString) (content : Option (List UInt8))
    (append : Bool) :
    Spared store (pathStateWriteFile store (some path) content append).2 path := by
  obtain ⟨ctx, ensured, settled⟩ := reached.ensured
  have ready := settled.ready
  obtain ⟨elsewhere, context⟩ :=
    (settled.pathStateWriteFile path content append).spared settled
  rw [write_ensured ensured ready] at elsewhere context
  rw [ensureInitialized_ready ready] at elsewhere context
  refine ⟨?_, ?_⟩
  · rw [ensured]
    intro other apart
    rw [elsewhere other apart, cat_ensured ensured ready]
  · rw [ensured]
    exact context

/-- What is written to a store that calls reach is read from it. -/
theorem Reached.wrote (reached : Reached store) {path : CString} {content : List UInt8}
    {append : Bool} (noNul : 0 ∉ content) (holds : append = true → HoldsText store path)
    (succeeds : (pathStateWriteFile store (some path) (some content) append).1 = true) :
    Wrote store (pathStateWriteFile store (some path) (some content) append).2 path content
      append := by
  refine ⟨reached.spared path (some content) append, ?_⟩
  obtain ⟨ctx, ensured, settled⟩ := reached.ensured
  have ready := settled.ready
  rw [← write_ensured ensured ready] at succeeds ⊢
  have outcome := settled.pathStateWriteFile path (some content) append
  have wrote := outcome.wrote settled succeeds noNul (by
    intro appends absolute i resolves found
    rw [ensureInitialized_ready ready] at resolves
    exact holds appends absolute i (by rw [ensured]; exact resolves) found)
  rw [← cat_ensured ensured ready]
  exact wrote.here

/-- **What is written is read**, after any calls: a write that succeeds is what the
path holds from then on, after its former text where it appends to a text, and no other
path and no directory changes. -/
theorem cat_write (ops : List PathOp) (path : CString) (content : List UInt8) (append : Bool)
    (noNul : 0 ∉ content)
    (succeeds : (pathStateWriteFile (pathState.state PathStore.zero ops) (some path)
      (some content) append).1 = true) :
    let store := pathState.state PathStore.zero ops
    let after := (pathStateWriteFile store (some path) (some content) append).2
    Spared store after path ∧
      ((append = true → HoldsText store path) → Wrote store after path content append) :=
  ⟨(reached_run ops).spared path (some content) append, fun holds =>
    (reached_run ops).wrote noNul holds succeeds⟩

/-- A text written to a file and then appended to. -/
theorem cat_write_append :
    (pathStateCat (pathStateWriteFile (pathState.state PathStore.zero
        [.writeFile (some (CString.of (ascii "/a"))) (some (ascii "x")) false])
        (some (CString.of (ascii "/a"))) (some (ascii "y")) true).2
      (some (CString.of (ascii "/a")))).1 = some (ascii "xy") := by
  have text : ∀ i : FileSlot, 0 ∉ ((pathState.state PathStore.zero
      [.writeFile (some (CString.of (ascii "/a"))) (some (ascii "x")) false]).files i).bytes := by
    decide +kernel
  have wrote := (cat_write [.writeFile (some (CString.of (ascii "/a"))) (some (ascii "x")) false]
    (CString.of (ascii "/a")) (ascii "y") true (by decide) (by decide +kernel)).2
    fun _ _ i _ _ => text i
  have before : (pathStateCat (pathState.state PathStore.zero
      [.writeFile (some (CString.of (ascii "/a"))) (some (ascii "x")) false])
      (some (CString.of (ascii "/a")))).1 = some (ascii "x") := by decide +kernel
  rw [wrote.here, before]
  rfl

/-- Text appended after a NUL is not read. -/
theorem cat_write_nul : ¬ ∀ (ops : List PathOp) (path : CString) (content : List UInt8)
    (append : Bool), 0 ∉ content →
      (pathStateWriteFile (pathState.state PathStore.zero ops) (some path) (some content)
        append).1 = true →
      Wrote (pathState.state PathStore.zero ops)
        (pathStateWriteFile (pathState.state PathStore.zero ops) (some path) (some content)
          append).2 path content append := by
  intro always
  have wrote := always [.writeFile (some (CString.of (ascii "/a"))) (some [120, 0, 121]) false]
    (CString.of (ascii "/a")) (ascii "z") true (by decide) (by decide +kernel)
  have here := wrote.here
  revert here
  decide +kernel

end Runs

/-! ## Stores of text -/

/-- A store that calls reach and whose files hold no NUL. -/
structure TextStore (store : PathStore) : Prop where
  reached : Reached store
  noNul : ∀ i, 0 ∉ (store.files i).bytes

section TextStore

variable {store : PathStore} {content : List UInt8}

theorem TextStore.holdsText (text : TextStore store) (path : CString) : HoldsText store path :=
  fun _ i _ _ => text.noNul i

/-- A call that leaves the files leaves a store of text. -/
theorem TextStore.step (text : TextStore store) (op : PathOp)
    (files : (pathStep store op).2.files = store.files) : TextStore (pathStep store op).2 :=
  ⟨.inr (text.reached.step op), fun i => by rw [files]; exact text.noNul i⟩

/-- Text written, or not written, leaves a store of text. -/
theorem TextStore.write (text : TextStore store) (path : Option CString) (append : Bool)
    (noNul : 0 ∉ content) :
    TextStore (pathStateWriteFile store path (some content) append).2 := by
  refine ⟨.inr (text.reached.step (.writeFile path (some content) append)), fun i => ?_⟩
  obtain ⟨ctx, ensured, settled⟩ := text.reached.ensured
  have ready := settled.ready
  rw [← write_ensured ensured ready]
  cases path with
  | none =>
      unfold pathStateWriteFile
      rw [ensureInitialized_ready ready]
      exact text.noNul i
  | some path =>
      have outcome := settled.pathStateWriteFile path (some content) append
      revert outcome
      generalize pathStateWriteFile { store with context := ctx } (some path) (some content)
        append = out
      intro outcome
      cases outcome with
      | refused => exact text.noNul i
      | @existing base name j resolves placed found =>
          simp only
          by_cases same : i = j
          · rw [same, setFile_same]
            exact noNul_written (text.noNul j) noNul fun made => by cases made
          · rw [setFile_other _ same]
            exact text.noNul i
      | @created base name j resolves placed missing unused made =>
          simp only
          by_cases same : i = j
          · rw [same, setFile_same]
            exact noNul_written List.not_mem_nil noNul fun _ => rfl
          · rw [setFile_other _ same]
            exact text.noNul i

/-- What is written fits the array of a file. -/
theorem Reached.written_fits (reached : Reached store) {path : CString} {append : Bool}
    (succeeds : (pathStateWriteFile store (some path) (some content) append).1 = true) :
    content.length < pathStateDynamicContentMax := by
  obtain ⟨ctx, ensured, settled⟩ := reached.ensured
  rw [← write_ensured ensured settled.ready] at succeeds
  have outcome := settled.pathStateWriteFile path (some content) append
  revert outcome succeeds
  generalize pathStateWriteFile { store with context := ctx } (some path) (some content)
    append = out
  intro succeeds outcome
  cases outcome with
  | refused => cases succeeds
  | existing _ _ _ => exact Shell.written_fits succeeds
  | created _ _ _ _ _ => exact Shell.written_fits succeeds

end TextStore

end TigerOS.Shell
