import TigerOS.Dir.WorkingDirectory
import TigerOS.Shell.Store
import TigerOS.Tty.Contexts

/-! # The working directory of a session

A session keeps the path of its working directory in a cache and would fall back to `/`
if the path could not be printed. The tree of a session that was initialized is shaped
whenever it is set up (`TigerOS.Tty.Initialized.usable`), so that its working directory
is printed each time and the fallback is never taken
(`TigerOS.Tty.pwd_walk_inverse`).
-/

namespace TigerOS.Tty

open Foundation TigerOS.Path TigerOS.Dir TigerOS.Shell TigerOS.Input

/-! ## Contexts that are set up -/

section Usable

variable {ctx : PathStateContext} (files : FileSlot → DynamicFile)

/-- A context that is set up has a shaped tree. -/
def Usable (ctx : PathStateContext) : Prop := ctx.ready = true → ∃ kids, Shaped ctx.tree kids

theorem usable_init : Usable pathStateContextInit := by
  intro ready
  cases ready

/-- Every call finds a context with a shaped tree. -/
theorem Usable.ensured (usable : Usable ctx) : ∃ next kids,
    ensureInitialized ctx = (true, next) ∧ Shaped next.tree kids := by
  by_cases ready : ctx.ready = true
  · obtain ⟨kids, shaped⟩ := usable ready
    exact ⟨ctx, kids, ensureInitialized_ready ready, shaped⟩
  · obtain ⟨kids, shaped⟩ := shaped_initialTree
    exact ⟨_, kids, ensureInitialized_fresh (Bool.eq_false_iff.mpr ready), shaped⟩

/-- **The working directory** of a usable context is printed. -/
theorem Usable.pwd (usable : Usable ctx) :
    (pathStateContextPwd ctx fsPathMax).1.isSome = true ∧
      Usable (pathStateContextPwd ctx fsPathMax).2 := by
  obtain ⟨next, kids, ensured, shaped⟩ := usable.ensured
  obtain ⟨path, here⟩ := shaped.exists_pathTo shaped.cwd
  unfold pathStateContextPwd
  rw [ensured]
  simp only
  rw [shaped.fsDirPwd_eq here]
  exact ⟨rfl, fun _ => ⟨kids, shaped⟩⟩

theorem Usable.cd (usable : Usable ctx) (path : Option CString) :
    Usable (pathStateContextCd ctx path).2 := by
  obtain ⟨next, kids, ensured, shaped⟩ := usable.ensured
  unfold pathStateContextCd
  rw [ensured]
  cases path with
  | none => exact fun _ => ⟨kids, shaped⟩
  | some path => exact fun _ => shaped.dirStep_shaped (.cd (some path))

theorem Usable.mkdir (usable : Usable ctx) (path : Option CString) :
    Usable (pathStateContextMkdir files false ctx path).2 := by
  obtain ⟨next, kids, ensured, shaped⟩ := usable.ensured
  have kept : Usable next := fun _ => ⟨kids, shaped⟩
  unfold pathStateContextMkdir
  rw [ensured]
  cases path with
  | none => exact kept
  | some path =>
      simp only
      split
      · exact kept
      · split
        · exact kept
        · split
          · exact kept
          · split
            · exact kept
            · exact fun _ => shaped.dirStep_shaped (.mkdir _)

theorem Usable.ls (usable : Usable ctx) (path : Option CString) (buffer : EntryBuffer) :
    Usable (pathStateContextLs files false ctx path buffer).2 := by
  obtain ⟨next, kids, ensured, shaped⟩ := usable.ensured
  have kept : Usable next := fun _ => ⟨kids, shaped⟩
  unfold pathStateContextLs
  rw [ensured]
  simp only
  split
  · exact kept
  · split <;> exact kept

theorem Usable.cat (usable : Usable ctx) (path : Option CString) :
    Usable (pathStateContextCat files false ctx path).2 := by
  obtain ⟨next, kids, ensured, shaped⟩ := usable.ensured
  have kept : Usable next := fun _ => ⟨kids, shaped⟩
  unfold pathStateContextCat
  rw [ensured]
  cases path with
  | none => exact kept
  | some path =>
      simp only
      split
      · exact kept
      · split <;> exact kept

end Usable

/-! ## Commands -/

section Commands

variable {Window : Type} {session : TerminalSession Window} {files : FileSlot → DynamicFile}

@[simp] theorem pathState_hashByte (byte : UInt8) :
    (session.hashByte byte).pathState = session.pathState := by
  obtain ⟨marker, same⟩ := session.exists_marker byte
  rw [same]

@[simp] theorem pathState_hashU32 (value : UInt32) :
    (session.hashU32 value).pathState = session.pathState := by
  unfold TerminalSession.hashU32
  simp only [pathState_hashByte]

/-- The marker is folded without a look at the path state. -/
theorem pathState_foldl {Item : Type}
    {fold : TerminalSession Window → Item → TerminalSession Window}
    (keeps : ∀ session item, (fold session item).pathState = session.pathState) (items : List Item)
    (session : TerminalSession Window) :
    (items.foldl fold session).pathState = session.pathState := by
  induction items generalizing session with
  | nil => rfl
  | cons item items ih => rw [List.foldl_cons, ih, keeps]

@[simp] theorem pathState_hashText (text : List UInt8) :
    (session.hashText text).pathState = session.pathState := by
  unfold TerminalSession.hashText
  rw [pathState_hashByte]
  exact pathState_foldl (fun _ _ => pathState_hashByte _) text session

@[simp] theorem pathState_storeHistory (line : List UInt8) :
    (session.storeHistory line).pathState = session.pathState := by
  unfold TerminalSession.storeHistory
  simp only
  split <;> rfl

theorem mkdirArgs_usable (args : List (List UInt8)) (usable : Usable session.pathState) :
    Usable (TerminalSession.mkdirArgs files session args).pathState := by
  induction args generalizing session with
  | nil => exact usable
  | cons arg args ih =>
      have made := usable.mkdir files (some (CString.of arg))
      unfold TerminalSession.mkdirArgs
      simp only [pathState_hashText]
      revert made
      generalize pathStateContextMkdir files false session.pathState (some (CString.of arg)) = out
      obtain ⟨_ | _, next⟩ := out
      · exact fun made => ih (by rwa [pathState_hashText])
      · exact fun made => ih (by rwa [pathState_hashText])

theorem catArgs_usable (args : List (List UInt8)) (usable : Usable session.pathState) :
    Usable (TerminalSession.catArgs files session args).pathState := by
  induction args generalizing session with
  | nil => exact usable
  | cons arg args ih =>
      have shown := usable.cat files (some (CString.of arg))
      unfold TerminalSession.catArgs
      revert shown
      generalize pathStateContextCat files false session.pathState (some (CString.of arg)) = out
      obtain ⟨_ | content, next⟩ := out
      · exact fun shown => ih (by rwa [pathState_hashText, pathState_hashText])
      · exact fun shown => ih (by rwa [pathState_hashText])

theorem executeCd_usable (argv : List (List UInt8)) (usable : Usable session.pathState) :
    Usable (session.executeCd argv).pathState := by
  have moved := usable.cd (some (CString.of (argv.getD 1 (ascii "/"))))
  unfold TerminalSession.executeCd
  revert moved
  generalize pathStateContextCd session.pathState (some (CString.of (argv.getD 1 (ascii "/")))) =
    out
  obtain ⟨_ | _, next⟩ := out
  · exact fun moved => by rwa [pathState_hashText]
  · exact fun moved => by rwa [pathState_hashText]

theorem executePwd_usable (usable : Usable session.pathState) :
    Usable session.executePwd.pathState := by
  have printed := usable.pwd.2
  unfold TerminalSession.executePwd
  revert printed
  generalize pathStateContextPwd session.pathState fsPathMax = out
  obtain ⟨_ | cwd, next⟩ := out
  · exact fun printed => by rwa [pathState_hashText]
  · exact fun printed => by rwa [pathState_hashText]

theorem executeLs_usable (argv : List (List UInt8)) (usable : Usable session.pathState) :
    Usable (session.executeLs files argv).pathState := by
  have listed := usable.ls files (some (CString.of (argv.getD 1 (ascii "."))))
    (.room terminalLsMax)
  unfold TerminalSession.executeLs
  revert listed
  generalize pathStateContextLs files false session.pathState
    (some (CString.of (argv.getD 1 (ascii ".")))) (.room terminalLsMax) = out
  obtain ⟨_ | entries, next⟩ := out
  · exact fun listed => by rwa [pathState_hashText]
  · intro listed
    have entry (session : TerminalSession Window) (item : PathStateEntry) :
        (session.hashEntry item).pathState = session.pathState := by
      unfold TerminalSession.hashEntry
      rw [pathState_hashByte, pathState_hashText]
    simp only
    rwa [pathState_foldl entry, pathState_hashU32]

/-- **A command** leaves the path state usable. -/
theorem execute_usable (argv : List (List UInt8)) (usable : Usable session.pathState) :
    Usable (session.execute files argv).pathState := by
  have hashes (texts : List (List UInt8)) :
      (texts.foldl TerminalSession.hashText session).pathState = session.pathState :=
    pathState_foldl (fun _ _ => pathState_hashText _) texts session
  unfold TerminalSession.execute
  simp only
  split
  · unfold TerminalSession.executeHelp
    rwa [hashes]
  split
  · unfold TerminalSession.executeEcho
    rwa [hashes]
  split
  · exact executePwd_usable usable
  split
  · exact executeCd_usable argv usable
  split
  · unfold TerminalSession.executeMkdir
    split
    · rwa [pathState_hashText]
    · exact mkdirArgs_usable argv.tail usable
  split
  · exact executeLs_usable argv usable
  split
  · unfold TerminalSession.executeCat
    split
    · rwa [pathState_hashText]
    · exact catArgs_usable argv.tail usable
  · rwa [pathState_hashText]

end Commands

/-! ## Refreshing the cache -/

section Refresh

variable {Address Window : Type} (session : TerminalSession Window)

/-- The session that `terminal_session_handle_event` hands to `ts_refresh_cwd_cache`. -/
def TerminalSession.entered (files : FileSlot → DynamicFile) (event : Option KeyboardEvent) :
    Option (TerminalSession Window) :=
  if IsEnter event then (session.ran files (some session.input)).toOption else none

theorem executeLine_eq (files : FileSlot → DynamicFile) (line : Option CString) :
    (session.executeLine files line).2 =
      match (session.ran files line).toOption with
      | none => session
      | some session => session.refreshCwdCache := by
  unfold TerminalSession.executeLine
  cases session.ran files line with
  | error status => rfl
  | ok done => rfl

/-- An event leaves the path state and the cache, or runs the line in the input. -/
theorem handleEvent_eq (files : FileSlot → DynamicFile) (event : Option KeyboardEvent) :
    ((session.handleEvent files event).2.pathState, (session.handleEvent files event).2.cwdCache) =
      match session.entered files event with
      | none => (session.pathState, session.cwdCache)
      | some session => (session.refreshCwdCache.pathState, session.refreshCwdCache.cwdCache) := by
  unfold TerminalSession.entered
  cases event with
  | none => rfl
  | some event =>
      by_cases enter : IsEnter (some event)
      · rw [if_pos enter]
        obtain ⟨control, enter⟩ := enter
        have notBack : ¬ event.control = keyboardControlBackspace := by
          rw [enter]
          decide
        simp only [TerminalSession.handleEvent, control, if_neg notBack, if_pos enter]
        rw [executeLine_eq]
        cases (session.ran files (some session.input)).toOption <;> rfl
      · rw [if_neg enter]
        unfold TerminalSession.handleEvent
        cases kind : event.type with
        | text =>
            simp only [kind]
            split
            · rfl
            · split <;> rfl
        | control =>
            have notEnter : ¬ event.control = keyboardControlEnter :=
              fun pressed => enter ⟨kind, pressed⟩
            simp only [kind, if_neg notEnter]
            split
            · split <;> rfl
            · rfl

end Refresh

/-! ## Runs -/

section Runs

variable {Address Window : Type} [DecidableEq Address] {world : Contexts Address Window}
  {address : Address} {op : ContextOp Address Window} {ops : List (ContextOp Address Window)}
  {session : TerminalSession Window} {files : FileSlot → DynamicFile}

/-- The session that a call hands to `ts_refresh_cwd_cache`, if it does. -/
def ContextOp.refreshes (world : Contexts Address Window) :
    ContextOp Address Window → Option (TerminalSession Window)
  | .shell _ => none
  | .init address endpointId window => (world.sessions address).initialized endpointId window
  | .key address event => (world.sessions address).entered world.store.files event
  | .line address typed => ((world.sessions address).ran world.store.files typed).toOption

/-- A session that calls have initialized. -/
def Initialized (address : Address) (ops : List (ContextOp Address Window)) : Prop :=
  ∃ endpointId window, endpointId ≠ 0 ∧ .init address endpointId window ∈ ops

/-- **What a call makes of its session**: it leaves the path state and the cache, or
refreshes the cache last. -/
theorem contextStep_refreshes (world : Contexts Address Window) (owned : op.owner = some address) :
    (((contextStep world op).2.sessions address).pathState,
        ((contextStep world op).2.sessions address).cwdCache) =
      match op.refreshes world with
      | none => ((world.sessions address).pathState, (world.sessions address).cwdCache)
      | some session => (session.refreshCwdCache.pathState, session.refreshCwdCache.cwdCache) := by
  cases op with
  | shell op => cases owned
  | init other endpointId window =>
      obtain rfl := Option.some.inj owned
      simp only [contextStep, Contexts.setSession, Function.update_self, ContextOp.refreshes,
        TerminalSession.init]
      cases (world.sessions other).initialized endpointId window <;> rfl
  | key other event =>
      obtain rfl := Option.some.inj owned
      simp only [contextStep, Contexts.setSession, Function.update_self, ContextOp.refreshes]
      exact handleEvent_eq _ _ _
  | line other line =>
      obtain rfl := Option.some.inj owned
      simp only [contextStep, Contexts.setSession, Function.update_self, ContextOp.refreshes,
        executeLine_eq]
      cases ((world.sessions other).ran world.store.files line).toOption <;> rfl

theorem initialized_usable {endpointId : UInt32} {window : Option Window}
    {begun : TerminalSession Window} (begins : session.initialized endpointId window = some begun) :
    Usable begun.pathState := by
  unfold TerminalSession.initialized at begins
  by_cases none_ : endpointId = 0
  · rw [if_pos none_] at begins
    cases begins
  · rw [if_neg none_] at begins
    cases begins
    rw [pathState_hashU32]
    exact usable_init

theorem ran_usable {line : Option CString} {done : TerminalSession Window}
    (usable : Usable session.pathState) (runs : (session.ran files line).toOption = some done) :
    Usable done.pathState := by
  unfold TerminalSession.ran at runs
  cases line with
  | none => cases runs
  | some line =>
      simp only at runs
      cases copied : tsStrCopy terminalSessionInputCap line.bytes with
      | none =>
          rw [copied] at runs
          cases runs
      | some rawLine =>
          rw [copied] at runs
          simp only at runs
          by_cases none_ : shellParseLine line terminalArgvCap = []
          · rw [if_pos none_] at runs
            cases runs
          · rw [if_neg none_] at runs
            cases runs
            apply execute_usable
            rw [pathState_hashText]
            change Usable (session.storeHistory rawLine).pathState
            rwa [pathState_storeHistory]

omit [DecidableEq Address] in
/-- **What is refreshed is usable**, in a usable session or one that the call
initializes. -/
theorem refreshes_usable (owned : op.owner = some address)
    (usable : Usable (world.sessions address).pathState ∨ Initialized address [op])
    (refreshes : op.refreshes world = some session) : Usable session.pathState := by
  cases op with
  | shell op => cases owned
  | init other endpointId window => exact initialized_usable refreshes
  | key other event =>
      obtain rfl := Option.some.inj owned
      have begun : Usable (world.sessions other).pathState := by
        rcases usable with holds | ⟨_, _, _, member⟩
        · exact holds
        · cases List.mem_singleton.mp member
      simp only [ContextOp.refreshes, TerminalSession.entered] at refreshes
      split at refreshes
      · exact ran_usable begun refreshes
      · cases refreshes
  | line other line =>
      obtain rfl := Option.some.inj owned
      have begun : Usable (world.sessions other).pathState := by
        rcases usable with holds | ⟨_, _, _, member⟩
        · exact holds
        · cases List.mem_singleton.mp member
      exact ran_usable begun refreshes

/-- A refresh leaves the session usable. -/
theorem refreshCwdCache_usable (usable : Usable session.pathState) :
    Usable session.refreshCwdCache.pathState := by
  have printed := usable.pwd.2
  unfold TerminalSession.refreshCwdCache
  revert printed
  generalize pathStateContextPwd session.pathState fsPathMax = out
  obtain ⟨_ | cwd, next⟩ := out <;> exact id

/-- One call keeps a session usable, and an initialization makes it so. -/
theorem contextStep_usable
    (usable : Usable (world.sessions address).pathState ∨ Initialized address [op]) :
    Usable ((contextStep world op).2.sessions address).pathState := by
  by_cases owned : op.owner = some address
  · have outcome := congrArg Prod.fst (contextStep_refreshes world owned)
    cases refreshes : op.refreshes world with
    | none =>
        rw [refreshes] at outcome
        simp only at outcome
        rw [outcome]
        rcases usable with holds | ⟨endpointId, window, nonzero, member⟩
        · exact holds
        · -- an initialization always refreshes
          obtain rfl := List.mem_singleton.mp member
          simp only [ContextOp.refreshes, TerminalSession.initialized] at refreshes
          rw [if_neg nonzero] at refreshes
          cases refreshes
    | some session =>
        rw [refreshes] at outcome
        simp only at outcome
        rw [outcome]
        exact refreshCwdCache_usable (refreshes_usable owned usable refreshes)
  · have same : (contextStep world op).2.sessions address = world.sessions address :=
      contexts_isolated.foreign world op (some address) owned
    rw [same]
    rcases usable with holds | ⟨endpointId, window, nonzero, member⟩
    · exact holds
    · obtain rfl := List.mem_singleton.mp member
      exact absurd rfl owned

/-- **A session is usable** in every run that initializes it, and where it was fresh
memory from the start. -/
theorem Initialized.usable
    (usable : Usable (world.sessions address).pathState ∨ Initialized address ops) :
    Usable ((contexts.state world ops).sessions address).pathState := by
  induction ops generalizing world with
  | nil =>
      rcases usable with holds | ⟨_, _, _, member⟩
      · exact holds
      · cases member
  | cons op ops ih =>
      apply ih
      change Usable ((contextStep world op).2.sessions address).pathState ∨ _
      rcases usable with holds | ⟨endpointId, window, nonzero, member⟩
      · exact .inl (contextStep_usable (.inl holds))
      · rcases List.mem_cons.mp member with first | later
        · exact .inl (contextStep_usable
            (.inr ⟨endpointId, window, nonzero, first ▸ List.mem_singleton_self _⟩))
        · exact .inr ⟨endpointId, window, nonzero, later⟩

/-- A refresh of a usable session keeps the path that is printed. -/
theorem refreshCwdCache_printed (usable : Usable session.pathState) : ∃ cwd,
    (pathStateContextPwd session.pathState fsPathMax).1 = some cwd ∧
      session.refreshCwdCache.cwdCache = cwd := by
  have printed := usable.pwd.1
  unfold TerminalSession.refreshCwdCache
  revert printed
  generalize pathStateContextPwd session.pathState fsPathMax = out
  obtain ⟨_ | cwd, next⟩ := out
  · exact fun impossible => nomatch impossible
  · exact fun _ => ⟨cwd, rfl, rfl⟩

/-- **The fallback is never taken**: whenever a call of a run refreshes the cache of a
session that is initialized, or was fresh memory, the working directory is printed and
kept. -/
theorem refresh_printed (world : Contexts Address Window)
    (owned : op.owner = some address)
    (begun : (world.sessions address).pathState.ready = false ∨ Initialized address (ops ++ [op]))
    (refreshes : op.refreshes (contexts.state world ops) = some session) :
    ∃ cwd, (pathStateContextPwd session.pathState fsPathMax).1 = some cwd ∧
      ((contexts.state world (ops ++ [op])).sessions address).cwdCache = cwd := by
  have usable : Usable ((contexts.state world ops).sessions address).pathState ∨
      Initialized address [op] := by
    rcases begun with fresh | ⟨endpointId, window, nonzero, member⟩
    · refine .inl (Initialized.usable (.inl fun ready => ?_))
      rw [fresh] at ready
      cases ready
    · rcases List.mem_append.mp member with earlier | now
      · exact .inl (Initialized.usable (.inr ⟨endpointId, window, nonzero, earlier⟩))
      · exact .inr ⟨endpointId, window, nonzero, now⟩
  obtain ⟨cwd, printed, cached⟩ :=
    refreshCwdCache_printed (refreshes_usable owned usable refreshes)
  refine ⟨cwd, printed, ?_⟩
  have outcome := congrArg Prod.snd (contextStep_refreshes (contexts.state world ops) owned)
  rw [refreshes] at outcome
  rw [Machine.state_append]
  exact outcome.trans cached

/-- **Printing and walking are inverse.** In every tree that calls make and for every
node of it, the path printed for the node is canonical and is walked back to the node
from every working directory; after a change of directory the printed path is the one
that was resolved; and in every run of the shell and the sessions, whenever the cache of
a session is refreshed, its working directory is printed. -/
theorem pwd_walk_inverse :
    (∀ (ops : List DirOp) (i : NodeIndex), ((fsDir.state fsDirInit ops).nodes i).used = true →
      ∃ comps, Canonical comps ∧
        fsDirPwd { fsDir.state fsDirInit ops with cwdIndex := i } fsPathMax =
          some (render comps) ∧
        ∀ j : NodeIndex, ((fsDir.state fsDirInit ops).nodes j).used = true →
          fsDirWalk { fsDir.state fsDirInit ops with cwdIndex := j }
            (some (CString.of (render comps))) = some i) ∧
    (∀ (ops : List DirOp) (p : CString), (fsDirCd (fsDir.state fsDirInit ops) (some p)).1 = true →
      ∃ old new, fsDirPwd (fsDir.state fsDirInit ops) fsPathMax = some old ∧
        fsPathResolve old p.bytes fsPathMax = some new ∧
          fsDirPwd (fsDirCd (fsDir.state fsDirInit ops) (some p)).2 fsPathMax = some new) ∧
    ∀ (world : Contexts Address Window) (ops : List (ContextOp Address Window))
      (op : ContextOp Address Window) (address : Address) (session : TerminalSession Window),
      op.owner = some address →
      (world.sessions address).pathState.ready = false ∨ Initialized address (ops ++ [op]) →
      op.refreshes (contexts.state world ops) = some session →
        ∃ cwd, (pathStateContextPwd session.pathState fsPathMax).1 = some cwd ∧
          ((contexts.state world (ops ++ [op])).sessions address).cwdCache = cwd := by
  refine ⟨?_, ?_, ?_⟩
  · intro ops i used
    obtain ⟨kids, shaped⟩ := shaped_run ops
    obtain ⟨path, there⟩ := shaped.exists_pathTo ((shaped.used i).mp used)
    have printed := (shaped.moved ((shaped.used i).mp used)).fsDirPwd_eq there
    refine ⟨path, shaped.canonical there, printed, ?_⟩
    intro j from_
    obtain ⟨comps, -, same, walks⟩ :=
      shaped.walk_pwd ((shaped.used i).mp used) ((shaped.used j).mp from_)
    rw [Option.some.inj (same.symm.trans printed)] at walks
    exact walks
  · intro ops p succeeds
    obtain ⟨kids, shaped⟩ := shaped_run ops
    obtain ⟨old, before, after, resolves⟩ := shaped.pwd_cd succeeds
    obtain ⟨new, resolved⟩ := Option.isSome_iff_exists.mp resolves
    exact ⟨old, new, before, resolved, after.trans resolved⟩
  · intro world ops op address session owned begun refreshes
    exact refresh_printed world owned begun refreshes

end Runs

end TigerOS.Tty
