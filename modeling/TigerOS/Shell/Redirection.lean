import TigerOS.Shell.Exec
import TigerOS.Shell.Contents
import TigerOS.Shell.Grammar

/-! # Redirection

A command writes the same bytes whatever the descriptors do with them
(`TigerOS.Shell.Runs`), and what it writes is empty or ends a line. A redirection
that succeeds therefore stores exactly what the console would have shown, and `cat`
shows it again (`TigerOS.Shell.redirection_round_trip`).
-/

namespace TigerOS.Shell

open Foundation TigerOS.Path TigerOS.Dir TigerOS.Mm

/-! ## Putting bytes -/

section Put

variable {fd : FdTable} {first second bytes : List UInt8}

theorem put_append : fd.put (first ++ second) = (fd.put first).put second := List.foldl_append

@[simp] theorem stdinData_put : (fd.put bytes).stdinData = fd.stdinData := by
  unfold FdTable.put
  induction bytes generalizing fd with
  | nil => rfl
  | cons byte bytes ih =>
      rw [List.foldl_cons, ih]
      unfold FdTable.putc
      split
      · rfl
      · split <;> rfl

/-- On the console bytes are put as they are. -/
theorem put_console (mode : fd.stdoutMode = .console) :
    fd.put bytes = { fd with console := fd.console ++ bytes } := by
  unfold FdTable.put
  induction bytes generalizing fd with
  | nil =>
      rw [List.append_nil]
      rfl
  | cons byte bytes ih =>
      have step : fd.putc byte = { fd with console := fd.console ++ [byte] } := by
        unfold FdTable.putc
        rw [mode]
      rw [List.foldl_cons, step, @ih { fd with console := fd.console ++ [byte] } mode]
      simp only [List.append_assoc, List.singleton_append]

/-- A capture keeps the first bytes, one fewer than its buffer holds. -/
theorem put_capture (mode : fd.stdoutMode = .capture)
    (room : fd.capture.length ≤ shellFdCaptureCap - 1) :
    fd.put bytes = { fd with capture := (fd.capture ++ bytes).take (shellFdCaptureCap - 1) } := by
  unfold FdTable.put
  induction bytes generalizing fd with
  | nil =>
      rw [List.append_nil, List.take_of_length_le room]
      rfl
  | cons byte bytes ih =>
      rw [List.foldl_cons]
      by_cases full : shellFdCaptureCap ≤ fd.capture.length + 1
      · have step : fd.putc byte = fd := by
          unfold FdTable.putc
          rw [mode]
          exact if_pos full
        have exact_ : fd.capture.length = shellFdCaptureCap - 1 := by omega
        rw [step, ih mode room, ← exact_, List.take_left, List.take_left]
      · have step : fd.putc byte = { fd with capture := fd.capture ++ [byte] } := by
          unfold FdTable.putc
          rw [mode]
          exact if_neg full
        rw [step, @ih { fd with capture := fd.capture ++ [byte] } mode (by
          change (fd.capture ++ [byte]).length ≤ _
          rw [List.length_append, List.length_singleton]
          omega)]
        simp only [List.append_assoc, List.singleton_append]

end Put

/-! ## What a command writes -/

/-- A command that writes the given bytes from a store, whatever the descriptors do
with them, and leaves another store. -/
structure Runs (run : ShellState → ShellState) (store : PathStore) (alloc : PageAllocator)
    (stdin : Option (List UInt8)) (out : List UInt8) (store' : PathStore) : Prop where
  eq : ∀ fd : FdTable, fd.stdinData = stdin → run ⟨store, alloc, fd⟩ = ⟨store', alloc, fd.put out⟩
  noNul : 0 ∉ out

/-- Nothing, or lines that are ended. -/
def Lines (out : List UInt8) : Prop := out = [] ∨ out.getLast? = some newline

section Runs

variable {run run' : ShellState → ShellState} {store store' store'' : PathStore}
  {alloc : PageAllocator} {stdin : Option (List UInt8)} {out out' : List UInt8}

theorem Runs.id : Runs (fun state => state) store alloc stdin [] store :=
  ⟨fun _ _ => rfl, List.not_mem_nil⟩

theorem Runs.comp (first : Runs run store alloc stdin out store')
    (second : Runs run' store' alloc stdin out' store'') :
    Runs (fun state => run' (run state)) store alloc stdin (out ++ out') store'' where
  eq := by
    intro fd input
    rw [first.eq fd input, second.eq _ (stdinData_put.trans input), put_append]
  noNul := List.not_mem_append first.noNul second.noNul

theorem runs_put (noNul : 0 ∉ out) :
    Runs (fun state => state.put out) store alloc stdin out store :=
  ⟨fun _ _ => rfl, noNul⟩

theorem runs_write (s : List UInt8) :
    Runs (fun state => state.write s) store alloc stdin (cstr s.length s) store :=
  ⟨fun _ _ => rfl, not_mem_cstr _ _⟩

theorem Lines.append (first : Lines out) (second : Lines out') : Lines (out ++ out') := by
  rcases second with rfl | ends
  · rwa [List.append_nil]
  · right
    rw [List.getLast?_append_of_ne_nil _ (by rintro rfl; cases ends)]
    exact ends

/-- A store left by calls that write no file. -/
def Unwritten : PathStore → PathStore → Prop :=
  Relation.ReflTransGen fun store store' =>
    ∃ op, (pathStep store op).2 = store' ∧ store'.files = store.files

theorem unwritten_step (op : PathOp) (files : (pathStep store op).2.files = store.files) :
    Unwritten store (pathStep store op).2 := .single ⟨op, rfl, files⟩

theorem TextStore.unwritten (text : TextStore store) (moves : Unwritten store store') :
    TextStore store' := by
  induction moves with
  | refl => exact text
  | tail _ step ih =>
      obtain ⟨op, rfl, files⟩ := step
      exact ih.step op files

/-- A command that writes lines and no file. -/
def Lined (run : ShellState → ShellState) (store : PathStore) (alloc : PageAllocator)
    (stdin : Option (List UInt8)) : Prop :=
  ∃ out store', Runs run store alloc stdin out store' ∧ Lines out ∧ Unwritten store store'

/-- A command that writes lines from a store of text and leaves one. -/
def Lawful (run : ShellState → ShellState) (store : PathStore) (alloc : PageAllocator)
    (stdin : Option (List UInt8)) : Prop :=
  ∃ out store', Runs run store alloc stdin out store' ∧ Lines out ∧ TextStore store'

theorem Lined.after (lined : Lined run' store' alloc stdin) (moves : Unwritten store store')
    (same : ∀ fd : FdTable, fd.stdinData = stdin →
      run ⟨store, alloc, fd⟩ = run' ⟨store', alloc, fd⟩) : Lined run store alloc stdin := by
  obtain ⟨out, after, runs, lines, later⟩ := lined
  exact ⟨out, after, ⟨fun fd input => (same fd input).trans (runs.eq fd input), runs.noNul⟩, lines,
    moves.trans later⟩

theorem Lined.of_eq (lined : Lined run' store alloc stdin)
    (same : ∀ fd : FdTable, fd.stdinData = stdin →
      run ⟨store, alloc, fd⟩ = run' ⟨store, alloc, fd⟩) : Lined run store alloc stdin :=
  lined.after .refl same

theorem Lined.comp (first : Lined run store alloc stdin)
    (second : ∀ store', Lined run' store' alloc stdin) :
    Lined (fun state => run' (run state)) store alloc stdin := by
  obtain ⟨out, store', runs, lines, moves⟩ := first
  obtain ⟨out', store'', runs', lines', moves'⟩ := second store'
  exact ⟨out ++ out', store'', runs.comp runs', lines.append lines', moves.trans moves'⟩

theorem lined_id : Lined (fun state => state) store alloc stdin :=
  ⟨[], store, .id, .inl rfl, .refl⟩

/-- A command that ends with the end of a line. -/
theorem Runs.ended (runs : Runs run store alloc stdin out store) :
    Lined (fun state => (run state).write (ascii "\n")) store alloc stdin :=
  ⟨_, store, runs.comp (runs_write _), .inr (List.getLast?_append_of_ne_nil _ (by decide)), .refl⟩

/-- A message that ends a line. -/
theorem lined_message (message : List UInt8)
    (ends : (cstr message.length message).getLast? = some newline) :
    Lined (fun state => state.write message) store alloc stdin :=
  ⟨_, store, runs_write message, .inr ends, .refl⟩

end Runs

/-! ## The commands -/

section Commands

variable {store store' : PathStore} {alloc : PageAllocator} {stdin : Option (List UInt8)}

theorem runs_digits (value : UInt64) :
    ∃ out, Runs (fun state => shellWriteU64 state value) store alloc stdin out store := by
  have digits (room : ℕ) (value : UInt64) : 0 ∉ scratchDigits room value := by
    induction room generalizing value with
    | zero => exact List.not_mem_nil
    | succ room ih =>
        unfold scratchDigits
        split
        · exact List.not_mem_nil
        · intro member
          rcases List.mem_cons.mp member with zero | later
          · have bound : (value % 10).toNat < 10 := by
              rw [UInt64.toNat_mod]
              exact Nat.mod_lt _ (by decide)
            have number := congrArg UInt8.toNat zero
            rw [UInt8.toNat_add, UInt64.toNat_toUInt8] at number
            change 0 = (0x30 + _) % 256 at number
            omega
          · exact ih _ later
  unfold shellWriteU64
  split
  · exact ⟨_, runs_put (by decide)⟩
  · exact ⟨_, runs_put fun member => digits 20 value (List.mem_reverse.mp member)⟩

theorem runs_hex (value : UInt64) :
    ∃ out, Runs (fun state => shellWriteHexUintptr state value) store alloc stdin out store := by
  have digit : ∀ d < 16, (ascii "0123456789abcdef").getD d 0 ≠ 0 := by decide
  have digits (shift : ℕ) : 0 ∉ hexDigits value shift := by
    induction shift with
    | zero => exact List.not_mem_nil
    | succ shift ih =>
        intro member
        rcases List.mem_cons.mp member with zero | later
        · exact digit _ (Nat.mod_lt _ (by decide)) zero.symm
        · exact ih later
  exact ⟨_, (runs_write _).comp (runs_put (digits 16))⟩

theorem lined_help (argv : List (List UInt8)) :
    Lined (fun state => shellBuiltinHelp state argv) store alloc stdin := by
  have entries (helps : List (List UInt8 × List UInt8)) (run : ShellState → ShellState)
      (first : Lined run store alloc stdin) :
      Lined (fun state => helps.foldl (fun state entry =>
        ((((state.write (ascii "  ")).write entry.1).write (ascii " - ")).write entry.2).write
          (ascii "\n")) (run state)) store alloc stdin := by
    induction helps generalizing run with
    | nil => exact first
    | cons entry helps ih =>
        have line (store' : PathStore) : Lined
            (fun state => ((((state.write (ascii "  ")).write entry.1).write (ascii " - ")).write
              entry.2).write (ascii "\n")) store' alloc stdin :=
          ((((runs_write _).comp (runs_write _)).comp (runs_write _)).comp (runs_write _)).ended
        exact ih _ (first.comp line)
  exact entries builtinHelps _ (lined_message _ (by decide))

theorem runs_echoArgs (args : List (List UInt8)) :
    ∃ out, Runs (fun state => echoArgs state args) store alloc stdin out store := by
  induction args with
  | nil => exact ⟨_, .id⟩
  | cons arg args ih =>
      cases args with
      | nil => exact ⟨_, runs_write arg⟩
      | cons next rest =>
          obtain ⟨out, runs⟩ := ih
          exact ⟨_, ((runs_write arg).comp (runs_write _)).comp runs⟩

theorem lined_echo (argv : List (List UInt8)) :
    Lined (fun state => shellBuiltinEcho state argv) store alloc stdin := by
  obtain ⟨out, runs⟩ := @runs_echoArgs store alloc stdin argv.tail
  unfold shellBuiltinEcho
  by_cases more : 1 < argv.length
  · simp only [if_pos more]
    exact (((runs_write _).comp (runs_write _)).comp runs).ended
  · simp only [if_neg more]
    exact ((runs_write _).comp runs).ended

theorem lined_meminfo (argv : List (List UInt8)) :
    Lined (fun state => shellBuiltinMeminfo state argv) store alloc stdin := by
  obtain ⟨_, start⟩ := @runs_hex store alloc stdin alloc.rangeStart
  obtain ⟨_, stop⟩ := @runs_hex store alloc stdin alloc.rangeEnd
  obtain ⟨_, size⟩ := @runs_digits store alloc stdin pageAllocPageSize
  obtain ⟨_, total⟩ := @runs_digits store alloc stdin alloc.totalPages
  obtain ⟨_, free⟩ := @runs_digits store alloc stdin alloc.freePages
  obtain ⟨_, used⟩ := @runs_digits store alloc stdin (alloc.totalPages - alloc.freePages)
  have range := ((runs_write (ascii "meminfo: range=")).comp start).comp
    ((runs_write (ascii "-")).comp stop)
  have pages := (range.comp ((runs_write (ascii " page_size=")).comp size)).comp
    ((runs_write (ascii " total_pages=")).comp total)
  have rest := (pages.comp ((runs_write (ascii " free_pages=")).comp free)).comp
    ((runs_write (ascii " used_pages=")).comp used)
  exact rest.ended.of_eq fun _ _ => rfl

theorem lined_pwd (argv : List (List UInt8)) :
    Lined (fun state => shellBuiltinPwd state argv) store alloc stdin := by
  have moves : Unwritten store (pathStatePwd store shellFsPathMax).2 :=
    unwritten_step (.pwd shellFsPathMax) rfl
  cases answer : pathStatePwd store shellFsPathMax with
  | mk cwd store' =>
      rw [answer] at moves
      cases cwd with
      | none =>
          exact (lined_message (ascii "pwd: error\n") (by decide)).after moves fun fd _ => by
            simp only [shellBuiltinPwd, answer]
      | some cwd =>
          exact (runs_write cwd).ended.after moves fun fd _ => by
            simp only [shellBuiltinPwd, answer]

theorem lined_cd (argv : List (List UInt8)) :
    Lined (fun state => shellBuiltinCd state argv) store alloc stdin := by
  have moves :
      Unwritten store (pathStateCd store (some (CString.of (argv.getD 1 (ascii "/"))))).2 :=
    unwritten_step (.cd (some (CString.of (argv.getD 1 (ascii "/"))))) rfl
  cases answer : pathStateCd store (some (CString.of (argv.getD 1 (ascii "/")))) with
  | mk status store' =>
      rw [answer] at moves
      cases status with
      | false =>
          have message := @lined_message store' alloc stdin (ascii "cd: no such directory\n")
            (by decide)
          exact message.after moves fun fd _ => by simp only [shellBuiltinCd, answer]
      | true =>
          exact lined_id.after moves fun fd _ => by simp only [shellBuiltinCd, answer]

theorem lined_mkdirArgs (args : List (List UInt8)) :
    Lined (fun state => mkdirArgs state args) store alloc stdin := by
  induction args generalizing store with
  | nil => exact lined_id
  | cons arg args ih =>
      have moves : Unwritten store (pathStateMkdir store (some (CString.of arg))).2 :=
        unwritten_step (.mkdir (some (CString.of arg))) rfl
      cases answer : pathStateMkdir store (some (CString.of arg)) with
      | mk status store' =>
          rw [answer] at moves
          cases status with
          | false =>
              have message : Lined (fun state => ((state.write (ascii "mkdir: failed: ")).write
                  arg).write (ascii "\n")) store' alloc stdin :=
                ((runs_write _).comp (runs_write _)).ended
              exact (message.comp fun _ => ih).after moves fun fd _ => by
                simp only [mkdirArgs, answer]
          | true =>
              exact ih.after moves fun fd _ => by simp only [mkdirArgs, answer]

theorem lined_mkdir (argv : List (List UInt8)) :
    Lined (fun state => shellBuiltinMkdir state argv) store alloc stdin := by
  unfold shellBuiltinMkdir
  by_cases missing : argv.length < 2
  · simp only [if_pos missing]
    exact lined_message _ (by decide)
  · simp only [if_neg missing]
    exact lined_mkdirArgs argv.tail

theorem lined_lsEntries (entries : List PathStateEntry) :
    Lined (fun state => lsEntries state entries) store alloc stdin := by
  induction entries generalizing store with
  | nil => exact lined_id
  | cons entry entries ih =>
      have line : Lined (fun state => (if entry.kind = .dir then
          (state.write entry.name).write (ascii "/") else state.write entry.name).write
            (ascii "\n")) store alloc stdin := by
        by_cases dir : entry.kind = .dir
        · simp only [if_pos dir]
          exact ((runs_write _).comp (runs_write _)).ended
        · simp only [if_neg dir]
          exact (runs_write _).ended
      exact line.comp fun _ => ih

theorem lined_ls (argv : List (List UInt8)) :
    Lined (fun state => shellBuiltinLs state argv) store alloc stdin := by
  have moves : Unwritten store (pathStateLs store (some (CString.of (argv.getD 1 (ascii "."))))
      (.room shellFsLsMax)).2 :=
    unwritten_step (.ls (some (CString.of (argv.getD 1 (ascii ".")))) (.room shellFsLsMax)) rfl
  cases answer : pathStateLs store (some (CString.of (argv.getD 1 (ascii "."))))
    (.room shellFsLsMax) with
  | mk listed store' =>
      rw [answer] at moves
      cases listed with
      | none =>
          have message := @lined_message store' alloc stdin (ascii "ls: cannot access\n")
            (by decide)
          exact message.after moves fun fd _ => by simp only [shellBuiltinLs, answer]
      | some listed =>
          exact (lined_lsEntries listed.entries).after moves fun fd _ => by
            simp only [shellBuiltinLs, answer]

/-- A text is written up to its NUL and then ended as a line. -/
theorem lined_catText (content : List UInt8) :
    Lined (fun state => catText state content) store alloc stdin := by
  unfold catText
  by_cases ends : (cstr content.length content).getLast? = some newline
  · simp only [if_pos ends]
    exact ⟨_, store, runs_write content, .inr ends, .refl⟩
  · simp only [if_neg ends]
    exact (runs_write content).ended

theorem lined_catArgs (args : List (List UInt8)) :
    Lined (fun state => catArgs state args) store alloc stdin := by
  induction args generalizing store with
  | nil => exact lined_id
  | cons arg args ih =>
      have moves : Unwritten store (pathStateCat store (some (CString.of arg))).2 :=
        unwritten_step (.cat (some (CString.of arg))) rfl
      cases answer : pathStateCat store (some (CString.of arg)) with
      | mk content store' =>
          rw [answer] at moves
          cases content with
          | none =>
              have message : Lined (fun state => ((state.write (ascii "cat: not found: ")).write
                  arg).write (ascii "\n")) store' alloc stdin :=
                ((runs_write _).comp (runs_write _)).ended
              exact (message.comp fun _ => ih).after moves fun fd _ => by
                simp only [catArgs, answer]
          | some content =>
              exact ((lined_catText content).comp fun _ => ih).after moves fun fd _ => by
                simp only [catArgs, answer]

/-- Without arguments what is written is the input, the same for every descriptor
table with that input. -/
theorem lined_cat (argv : List (List UInt8)) :
    Lined (fun state => shellBuiltinCat state argv) store alloc stdin := by
  by_cases none_ : argv.length < 2
  · by_cases input : ({ FdTable.reset with stdinData := stdin } : FdTable).hasStdin
    · refine (lined_catText (stdin.getD [])).of_eq fun fd same => ?_
      have given : fd.hasStdin := by
        unfold FdTable.hasStdin
        rw [same]
        exact input
      simp only [shellBuiltinCat, if_pos none_, if_pos given, same]
    · have message := @lined_message store alloc stdin (ascii "cat: missing path\n") (by decide)
      refine message.of_eq fun fd same => ?_
      have given : ¬ fd.hasStdin := by
        unfold FdTable.hasStdin
        rw [same]
        exact input
      simp only [shellBuiltinCat, if_pos none_, if_neg given]
  · refine (lined_catArgs argv.tail).of_eq fun fd _ => ?_
    simp only [shellBuiltinCat, if_neg none_]

/-- The name of `cat` is looked up. -/
theorem execute_cat (state : ShellState) (args : List (List UInt8)) (fallbackText : List UInt8) :
    shellExecuteOrFallback state (ascii "cat" :: args) fallbackText =
      shellBuiltinCat state (ascii "cat" :: args) := by
  have named : ascii "cat" ≠ ascii "help" ∧ ascii "cat" ≠ ascii "echo" ∧
      ascii "cat" ≠ ascii "meminfo" ∧ ascii "cat" ≠ ascii "ls" := by decide
  obtain ⟨help, echo, meminfo, ls⟩ := named
  simp only [shellExecuteOrFallback, shellExecuteBuiltin, if_neg help, if_neg echo,
    if_neg meminfo, if_neg ls, ↓reduceIte]

/-- **Every command writes lines**: the builtins, and the text of a line without one. -/
theorem lined_execute (argv : List (List UInt8))
    (fallbackText : List UInt8) :
    Lined (fun state => shellExecuteOrFallback state argv fallbackText) store alloc stdin := by
  unfold shellExecuteOrFallback shellExecuteBuiltin
  cases argv with
  | nil => exact lined_id
  | cons name args =>
      by_cases help : name = ascii "help"
      · simp only [if_pos help]
        exact lined_help _
      by_cases echo : name = ascii "echo"
      · simp only [if_neg help, if_pos echo]
        exact lined_echo _
      by_cases meminfo : name = ascii "meminfo"
      · simp only [if_neg help, if_neg echo, if_pos meminfo]
        exact lined_meminfo _
      by_cases ls : name = ascii "ls"
      · simp only [if_neg help, if_neg echo, if_neg meminfo, if_pos ls]
        exact lined_ls _
      by_cases cat : name = ascii "cat"
      · simp only [if_neg help, if_neg echo, if_neg meminfo, if_neg ls, if_pos cat]
        exact lined_cat _
      by_cases pwd : name = ascii "pwd"
      · simp only [if_neg help, if_neg echo, if_neg meminfo, if_neg ls, if_neg cat, if_pos pwd]
        exact lined_pwd _
      by_cases cd : name = ascii "cd"
      · simp only [if_neg help, if_neg echo, if_neg meminfo, if_neg ls, if_neg cat, if_neg pwd,
          if_pos cd]
        exact lined_cd _
      by_cases mkdir : name = ascii "mkdir"
      · simp only [if_neg help, if_neg echo, if_neg meminfo, if_neg ls, if_neg cat, if_neg pwd,
          if_neg cd, if_pos mkdir]
        exact lined_mkdir _
      · simp only [if_neg help, if_neg echo, if_neg meminfo, if_neg ls, if_neg cat, if_neg pwd,
          if_neg cd, if_neg mkdir]
        exact ((runs_write _).comp (runs_write _)).ended

/-- A command on a store of text leaves one. -/
theorem lawful_execute (text : TextStore store) (argv : List (List UInt8))
    (fallbackText : List UInt8) :
    Lawful (fun state => shellExecuteOrFallback state argv fallbackText) store alloc stdin := by
  obtain ⟨out, store', runs, lines, moves⟩ := @lined_execute store alloc stdin argv fallbackText
  exact ⟨out, store', runs, lines, text.unwritten moves⟩

end Commands

/-! ## Runs of the shell -/

section Sound

variable {state : ShellState} {fd : FdTable} {bytes : List UInt8}

@[simp] theorem write_store (state : ShellState) (s : List UInt8) :
    (state.write s).store = state.store := rfl

theorem noNul_capture_put (capture : 0 ∉ fd.capture) (noNul : 0 ∉ bytes) :
    0 ∉ (fd.put bytes).capture := by
  unfold FdTable.put
  induction bytes generalizing fd with
  | nil => exact capture
  | cons byte bytes ih =>
      rw [List.mem_cons, not_or] at noNul
      rw [List.foldl_cons]
      apply ih _ noNul.2
      unfold FdTable.putc
      split
      · exact capture
      · split
        · exact capture
        · exact List.not_mem_append capture fun member =>
            noNul.1 (List.mem_singleton.mp member)

/-- A command keeps a store of text. -/
theorem text_execute (text : TextStore state.store) (argv : List (List UInt8))
    (fallbackText : List UInt8) :
    TextStore (shellExecuteOrFallback state argv fallbackText).store := by
  obtain ⟨store, alloc, fd⟩ := state
  obtain ⟨out, after, runs, _, text'⟩ := @lawful_execute store alloc fd.stdinData text argv
    fallbackText
  rw [show shellExecuteOrFallback ⟨store, alloc, fd⟩ argv fallbackText = _ from runs.eq fd rfl]
  exact text'

/-- What a command captures is text. -/
theorem capture_execute (text : TextStore state.store) (capture : 0 ∉ state.fd.capture)
    (argv : List (List UInt8)) (fallbackText : List UInt8) :
    0 ∉ (shellExecuteOrFallback state argv fallbackText).fd.capture := by
  obtain ⟨store, alloc, fd⟩ := state
  obtain ⟨out, after, runs, _, _⟩ := @lawful_execute store alloc fd.stdinData text argv fallbackText
  rw [show shellExecuteOrFallback ⟨store, alloc, fd⟩ argv fallbackText = _ from runs.eq fd rfl]
  exact noNul_capture_put capture runs.noNul

/-- A redirection answers as the write of what was captured, and keeps what it
leaves. -/
theorem shellWriteRedirection_eq (state : ShellState) (parsed : ParseResult (List UInt8)) :
    (shellWriteRedirection state parsed).map id ShellState.store =
      pathStateWriteFile state.store (parsed.redirPath.map CString.of) (some state.fd.capture)
        (decide (parsed.redirMode = .append)) := by
  unfold shellWriteRedirection
  cases answer : pathStateWriteFile state.store (parsed.redirPath.map CString.of)
    (some state.fd.capture) (decide (parsed.redirMode = .append)) with
  | mk status store =>
      simp only [answer]
      cases status <;> rfl

theorem text_redirection (text : TextStore state.store) (capture : 0 ∉ state.fd.capture)
    (parsed : ParseResult (List UInt8)) :
    TextStore (shellWriteRedirection state parsed).2.store := by
  have text' := text.write (parsed.redirPath.map CString.of) (decide (parsed.redirMode = .append))
    capture
  rwa [← shellWriteRedirection_eq] at text'

theorem text_single (text : TextStore state.store) (parsed : ParseResult (List UInt8)) :
    TextStore (shellExecuteSingle state parsed).2.store := by
  unfold shellExecuteSingle
  split
  · apply text_execute
    exact text
  · apply text_redirection
    · apply text_execute
      exact text
    · apply capture_execute
      · exact text
      · exact List.not_mem_nil

theorem text_pipe (text : TextStore state.store) (parsed : ParseResult (List UInt8)) :
    TextStore (shellExecutePipe state parsed).2.store := by
  have left := @text_execute { state with fd := state.fd.setStdoutCapture.setStdin none } text
    parsed.left (shellBuildFallbackText parsed.left shellFallbackTextCap)
  unfold shellExecutePipe
  simp only
  split
  · apply text_execute
    exact left
  · apply text_redirection
    · apply text_execute
      exact left
    · apply capture_execute
      · exact left
      · exact List.not_mem_nil

theorem text_step (text : TextStore state.store) (op : ShellOp) :
    TextStore (shell.step state op).2.store := by
  cases op with
  | page op => exact text
  | line line =>
      change TextStore (shellExecuteLine state line).2.store
      cases parse : shellParseWithRedirection line with
      | none =>
          simp only [shellExecuteLine, parse, write_store]
          exact text
      | some parsed =>
          by_cases pipe : parsed.hasPipe = true
          · simp only [shellExecuteLine, parse, if_pos pipe]
            exact text_pipe text parsed
          · simp only [shellExecuteLine, parse, if_neg pipe]
            exact text_single text parsed

theorem text_init : TextStore (pathStateInit PathStore.zero) :=
  ⟨.inr (reached_zero.step .init), fun _ => List.not_mem_nil⟩

/-- **The files of the shell hold text** after any lines. -/
theorem text_run (alloc : PageAllocator) (ops : List ShellOp) :
    TextStore (shell.state (shellStart alloc) ops).store :=
  @Machine.state_invariant _ _ _ shell (fun state => TextStore state.store)
    (fun _ op text => text_step text op) _ text_init ops

end Sound

/-! ## The round trip -/

/-- The token of a redirection that appends, or truncates. -/
def redirToken (append : Bool) : ParseToken (List UInt8) :=
  if append = true then .redirAppend else .redirTrunc

/-- What the console shows of a line. -/
def emitted (state : ShellState) (line : CString) : List UInt8 :=
  (shellExecuteLine state line).2.fd.console.drop state.fd.console.length

section RoundTrip

variable {state : ShellState} {words : List (List UInt8)} {path : List UInt8} {append : Bool}
  {plain line : CString} {content : List UInt8}

/-- What is read from a file holds no NUL. -/
theorem noNul_cat {store : PathStore} (reached : Reached store) (path : CString) :
    0 ∉ (pathStateCat store (some path)).1.getD [] := by
  obtain ⟨ctx, ensured, settled⟩ := reached.ensured
  have ready : ctx.ready = true := settled.ready
  rw [← cat_ensured ensured ready, settled.cat_eq]
  cases resolveToAbsolute ctx (some path) with
  | none => exact List.not_mem_nil
  | some absolute =>
      rw [Option.bind_some]
      cases dynamicFileByAbsolute store.files absolute with
      | none => exact seed_noNul
      | some i =>
          simp only [Option.getD_some, DynamicFile.text]
          exact not_mem_cstr _ _

/-- A line of words runs them on the console. -/
theorem execute_words (room : 1 ≤ words.length ∧ words.length ≤ shellParseArgvCap)
    (tokensEq : tokens plain.bytes = words.map .word) :
    shellExecuteLine state plain =
      (true, shellExecuteOrFallback
        { state with fd := state.fd.setStdoutConsole.setStdin none } words
        (shellBuildFallbackText words shellFallbackTextCap)) := by
  have parse := @parse_of_grammar plain ⟨words, [], false, .none, none⟩ ⟨room, rfl, by simp⟩ (by
    rw [tokensEq]
    simp only [ParseResult.tokens, redirTokens, Bool.false_eq_true, ↓reduceIte, List.append_nil])
  simp only [shellExecuteLine, parse, shellExecuteSingle, Bool.false_eq_true, ↓reduceIte]

/-- A line of words with a redirection runs them into the capture, and writes it. -/
theorem execute_redirected (room : 1 ≤ words.length ∧ words.length ≤ shellParseArgvCap)
    (tokensEq : tokens line.bytes = words.map .word ++ [redirToken append, .word path]) :
    shellExecuteLine state line =
      shellWriteRedirection (shellExecuteOrFallback
        { state with fd := state.fd.setStdoutCapture.setStdin none } words
        (shellBuildFallbackText words shellFallbackTextCap))
        ⟨words, [], false, if append = true then .append else .trunc, some path⟩ := by
  have parse := @parse_of_grammar line
    ⟨words, [], false, if append = true then .append else .trunc, some path⟩
    ⟨room, rfl, by cases append <;> simp⟩ (by
      rw [tokensEq]
      cases append <;> simp [ParseResult.tokens, redirTokens, redirToken])
  cases append <;> simp only [shellExecuteLine, parse, shellExecuteSingle] <;> rfl

/-- The console shows what a command writes. -/
theorem emitted_words (room : 1 ≤ words.length ∧ words.length ≤ shellParseArgvCap)
    (tokensEq : tokens plain.bytes = words.map .word) {out : List UInt8} {store : PathStore}
    (runs : Runs (fun state => shellExecuteOrFallback state words
      (shellBuildFallbackText words shellFallbackTextCap)) state.store state.alloc none out store) :
    emitted state plain = out ∧ (shellExecuteLine state plain).2.store = store := by
  unfold emitted
  rw [execute_words room tokensEq, runs.eq _ rfl, put_console rfl]
  exact ⟨List.drop_left, rfl⟩

/-- `cat` shows the lines a file holds. -/
theorem emitted_cat (tokensEq : tokens line.bytes = [.word (ascii "cat"), .word path])
    (holds : (pathStateCat state.store (some (CString.of path))).1 = some content)
    (noNul : 0 ∉ content) (ends : content.getLast? = some newline) :
    emitted state line = content := by
  have text : cstr content.length content = content := by
    rw [cstr_of_noNul noNul, List.take_length]
  unfold emitted
  rw [@execute_words state [ascii "cat", path] line ⟨Nat.le_add_left 1 1, Nat.le_add_left 2 14⟩
    tokensEq]
  cases answer : pathStateCat state.store (some (CString.of path)) with
  | mk found store =>
      rw [answer] at holds
      obtain rfl : found = some content := holds
      have ran : shellExecuteOrFallback
          { state with fd := state.fd.setStdoutConsole.setStdin none } [ascii "cat", path]
          (shellBuildFallbackText [ascii "cat", path] shellFallbackTextCap) =
            ⟨store, state.alloc, (state.fd.setStdoutConsole.setStdin none).put content⟩ := by
        simp only [execute_cat, shellBuiltinCat, List.length_cons, List.length_nil,
          Nat.reduceAdd, Nat.lt_irrefl, ↓reduceIte, List.tail_cons, catArgs, answer, catText, text,
          ends, ShellState.write, FdTable.write]
      rw [ran, put_console rfl]
      exact List.drop_left

/-- A redirection that succeeds has written all of what the command writes. -/
theorem redirected_wrote (room : 1 ≤ words.length ∧ words.length ≤ shellParseArgvCap)
    (tokensEq : tokens line.bytes = words.map .word ++ [redirToken append, .word path])
    {out : List UInt8} {store : PathStore} (text' : TextStore store)
    (runs : Runs (fun state => shellExecuteOrFallback state words
      (shellBuildFallbackText words shellFallbackTextCap)) state.store state.alloc none out store)
    (succeeds : (shellExecuteLine state line).1 = true) :
    Wrote store (shellExecuteLine state line).2.store (CString.of path) out append := by
  have mode : decide ((if append = true then RedirMode.append else .trunc) = .append) = append := by
    cases append <;> rfl
  have same := shellWriteRedirection_eq (shellExecuteOrFallback
    { state with fd := state.fd.setStdoutCapture.setStdin none } words
    (shellBuildFallbackText words shellFallbackTextCap))
    ⟨words, [], false, if append = true then .append else .trunc, some path⟩
  rw [← execute_redirected room tokensEq, runs.eq _ rfl, put_capture rfl (Nat.zero_le _)] at same
  simp only [mode, Option.map_some] at same
  change _ = pathStateWriteFile store (some (CString.of path))
    (some (out.take (shellFdCaptureCap - 1))) append at same
  have written : (pathStateWriteFile store (some (CString.of path))
      (some (out.take (shellFdCaptureCap - 1))) append).1 = true := by
    rw [← same]
    exact succeeds
  have whole : out.take (shellFdCaptureCap - 1) = out := by
    have short := text'.reached.written_fits written
    rw [List.length_take] at short
    apply List.take_of_length_le
    rcases Nat.le_total (shellFdCaptureCap - 1) out.length with cut | whole
    · rw [Nat.min_eq_left cut] at short
      exact absurd short (by decide)
    · exact whole
  rw [whole] at same written
  have wrote := text'.reached.wrote runs.noNul (fun _ => text'.holdsText _) written
  rw [← same] at wrote
  exact wrote

/-- **A redirection round trip**: after a line that redirects a command to a file
succeeds and the command writes something, `cat` shows what the command would have
shown on the console, after what the file held once the command ran where the
redirection appends. -/
theorem redirection_round_trip (alloc : PageAllocator) (ops : List ShellOp)
    (words : List (List UInt8)) (path : List UInt8) (append : Bool) (plain line catLine : CString)
    (room : 1 ≤ words.length ∧ words.length ≤ 16)
    (plainTokens : tokens plain.bytes = words.map .word)
    (lineTokens : tokens line.bytes = words.map .word ++ [redirToken append, .word path])
    (catTokens : tokens catLine.bytes = [.word (ascii "cat"), .word path])
    (succeeds : (shellExecuteLine (shell.state (shellStart alloc) ops) line).1 = true)
    (shows : emitted (shell.state (shellStart alloc) ops) plain ≠ []) :
    emitted (shellExecuteLine (shell.state (shellStart alloc) ops) line).2 catLine =
      (if append = true then
        (pathStateCat (shellExecuteLine (shell.state (shellStart alloc) ops) plain).2.store
          (some (CString.of path))).1.getD []
      else []) ++ emitted (shell.state (shellStart alloc) ops) plain := by
  have text := text_run alloc ops
  revert succeeds shows
  generalize shell.state (shellStart alloc) ops = state at text ⊢
  intro succeeds shows
  obtain ⟨out, store, runs, lines, text'⟩ := @lawful_execute state.store state.alloc none text words
    (shellBuildFallbackText words shellFallbackTextCap)
  obtain ⟨shown, left⟩ := emitted_words room plainTokens runs
  have wrote := redirected_wrote room lineTokens text' runs succeeds
  rw [shown] at shows ⊢
  rw [left]
  have ends : out.getLast? = some newline := by
    rcases lines with empty | ends
    · exact absurd empty shows
    · exact ends
  apply emitted_cat catTokens wrote.here
  · apply List.not_mem_append _ runs.noNul
    split
    · exact noNul_cat text'.reached _
    · exact List.not_mem_nil
  · rw [List.getLast?_append_of_ne_nil _ shows]
    exact ends

/-- `echo` appended to a file that another line wrote. -/
theorem redirection_round_trip_echo :
    emitted (shellExecuteLine (shell.state (shellStart (pageAllocInit 0 65536))
      [.line (CString.of (ascii "echo b > /f"))]) (CString.of (ascii "echo a >> /f"))).2
      (CString.of (ascii "cat /f")) = ascii "echo: b\necho: a\n" := by
  have shown := redirection_round_trip (pageAllocInit 0 65536)
    [.line (CString.of (ascii "echo b > /f"))]
    [ascii "echo", ascii "a"] (ascii "/f") true (CString.of (ascii "echo a"))
    (CString.of (ascii "echo a >> /f")) (CString.of (ascii "cat /f")) (by decide)
    (by decide +kernel) (by decide +kernel) (by decide +kernel) (by decide +kernel)
    (by decide +kernel)
  rw [shown]
  decide +kernel

end RoundTrip

end TigerOS.Shell
