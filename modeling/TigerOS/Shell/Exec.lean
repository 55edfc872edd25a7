import TigerOS.Shell.PathState
import TigerOS.Shell.Parser
import TigerOS.Mm.PageAlloc

/-! # Executing command lines

The commands of the shell write through a table of descriptors: to the console, or
to a buffer that the bytes of a pipe or of a redirection are captured in. What was
written to the console is kept in order.
-/

namespace TigerOS.Shell

open Foundation TigerOS.Dir TigerOS.Mm

abbrev shellFdCaptureCap : ℕ := 2048
abbrev shellFsLsMax : ℕ := 64
abbrev shellFsPathMax : ℕ := 256
abbrev shellFallbackTextCap : ℕ := 128
abbrev shellPipeInputCap : ℕ := 2048

def newline : UInt8 := 0x0a

/-! ## Descriptors -/

/-- `shell_stdout_mode_t`. -/
inductive StdoutMode where
  | console
  | capture
  deriving DecidableEq

/-- The globals of `fd_table.c`, with what was put on the console so far. The
capture buffer is given by its first `g_capture_len` bytes. -/
structure FdTable where
  stdoutMode : StdoutMode
  stdinData : Option (List UInt8)
  capture : List UInt8
  console : List UInt8

namespace FdTable

variable (fd : FdTable)

/-- `shell_fd_set_stdout_console`. -/
def setStdoutConsole : FdTable := { fd with stdoutMode := .console }

/-- `shell_fd_set_stdout_capture`. -/
def setStdoutCapture : FdTable := { fd with stdoutMode := .capture, capture := [] }

/-- `shell_fd_set_stdin`. -/
def setStdin (input : Option (List UInt8)) : FdTable := { fd with stdinData := input }

/-- `shell_fd_has_stdin`. -/
def hasStdin : Prop :=
  match fd.stdinData with
  | none => False
  | some input => cstr input.length input ≠ []

instance : Decidable fd.hasStdin := by
  unfold hasStdin
  cases fd.stdinData <;> infer_instance

/-- `shell_fd_putc`. -/
def putc (ch : UInt8) : FdTable :=
  match fd.stdoutMode with
  | .console => { fd with console := fd.console ++ [ch] }
  | .capture =>
      if shellFdCaptureCap ≤ fd.capture.length + 1 then fd
      else { fd with capture := fd.capture ++ [ch] }

/-- Bytes put one after the other. -/
def put (bytes : List UInt8) : FdTable := bytes.foldl putc fd

/-- `shell_fd_write`: the bytes of a string up to its NUL. -/
def write (s : List UInt8) : FdTable := fd.put (cstr s.length s)

end FdTable

/-- `shell_fd_reset`, with nothing on the console yet. -/
def FdTable.reset : FdTable := ⟨.console, none, [], []⟩

/-- What a command sees: the path state, the allocator and the descriptors. -/
structure ShellState where
  store : PathStore
  alloc : PageAllocator
  fd : FdTable

namespace ShellState

variable (state : ShellState)

/-- `shell_fd_write` on the state. -/
def write (s : List UInt8) : ShellState := { state with fd := state.fd.write s }

/-- `shell_fd_putc` on the state, for bytes one after the other. -/
def put (bytes : List UInt8) : ShellState := { state with fd := state.fd.put bytes }

end ShellState

/-! ## Commands that read the allocator or nothing -/

/-- The digits of `shell_write_u64` from the last to the first, at most 20. -/
def scratchDigits : ℕ → UInt64 → List UInt8
  | 0, _ => []
  | room + 1, value =>
      if value = 0 then [] else (0x30 + (value % 10).toUInt8) :: scratchDigits room (value / 10)

/-- `shell_write_u64`. -/
def shellWriteU64 (state : ShellState) (value : UInt64) : ShellState :=
  if value = 0 then state.put [0x30] else state.put (scratchDigits 20 value).reverse

/-- The digits of `shell_write_hex_uintptr`, from a shift down to none. -/
def hexDigits (value : UInt64) : ℕ → List UInt8
  | 0 => []
  | shift + 1 =>
      (ascii "0123456789abcdef").getD ((value.toNat >>> (4 * shift)) % 16) 0 ::
        hexDigits value shift

/-- `shell_write_hex_uintptr`. -/
def shellWriteHexUintptr (state : ShellState) (value : UInt64) : ShellState :=
  (state.write (ascii "0x")).put (hexDigits value 16)

/-- The names and helps of `g_shell_builtins`. -/
def builtinHelps : List (List UInt8 × List UInt8) :=
  [(ascii "help", ascii "show this help"), (ascii "echo", ascii "print arguments"),
    (ascii "meminfo", ascii "show allocator usage"),
    (ascii "ls", ascii "list files and directories"),
    (ascii "cat", ascii "print file contents"), (ascii "pwd", ascii "print current directory"),
    (ascii "cd", ascii "change current directory"), (ascii "mkdir", ascii "create directory")]

/-- `shell_builtin_help`. -/
def shellBuiltinHelp (state : ShellState) (_ : List (List UInt8)) : ShellState :=
  builtinHelps.foldl
    (fun state entry => ((((state.write (ascii "  ")).write entry.1).write (ascii " - ")).write
      entry.2).write (ascii "\n"))
    (state.write (ascii "available commands:\n"))

/-- The arguments of `shell_builtin_echo`, with blanks between them. -/
def echoArgs : ShellState → List (List UInt8) → ShellState
  | state, [] => state
  | state, [arg] => state.write arg
  | state, arg :: args => echoArgs ((state.write arg).write (ascii " ")) args

/-- `shell_builtin_echo`. -/
def shellBuiltinEcho (state : ShellState) (argv : List (List UInt8)) : ShellState :=
  let state := state.write (ascii "echo:")
  let state := if 1 < argv.length then state.write (ascii " ") else state
  (echoArgs state argv.tail).write (ascii "\n")

/-- `shell_builtin_meminfo`. -/
def shellBuiltinMeminfo (state : ShellState) (_ : List (List UInt8)) : ShellState :=
  let alloc := state.alloc
  let state := shellWriteHexUintptr (state.write (ascii "meminfo: range=")) alloc.rangeStart
  let state := shellWriteHexUintptr (state.write (ascii "-")) alloc.rangeEnd
  let state := shellWriteU64 (state.write (ascii " page_size=")) pageAllocPageSize
  let state := shellWriteU64 (state.write (ascii " total_pages=")) alloc.totalPages
  let state := shellWriteU64 (state.write (ascii " free_pages=")) alloc.freePages
  let state :=
    shellWriteU64 (state.write (ascii " used_pages=")) (alloc.totalPages - alloc.freePages)
  state.write (ascii "\n")

/-! ## Commands on the path state -/

/-- `shell_builtin_pwd`. -/
def shellBuiltinPwd (state : ShellState) (_ : List (List UInt8)) : ShellState :=
  match pathStatePwd state.store shellFsPathMax with
  | (none, store) => { state with store := store }.write (ascii "pwd: error\n")
  | (some cwd, store) => ({ state with store := store }.write cwd).write (ascii "\n")

/-- `shell_builtin_cd`. -/
def shellBuiltinCd (state : ShellState) (argv : List (List UInt8)) : ShellState :=
  match pathStateCd state.store (some (CString.of (argv.getD 1 (ascii "/")))) with
  | (false, store) => { state with store := store }.write (ascii "cd: no such directory\n")
  | (true, store) => { state with store := store }

/-- The loop of `shell_builtin_mkdir`. -/
def mkdirArgs : ShellState → List (List UInt8) → ShellState
  | state, [] => state
  | state, arg :: args =>
      match pathStateMkdir state.store (some (CString.of arg)) with
      | (false, store) =>
          mkdirArgs
            ((({ state with store := store }.write (ascii "mkdir: failed: ")).write arg).write
              (ascii "\n")) args
      | (true, store) => mkdirArgs { state with store := store } args

/-- `shell_builtin_mkdir`. -/
def shellBuiltinMkdir (state : ShellState) (argv : List (List UInt8)) : ShellState :=
  if argv.length < 2 then state.write (ascii "mkdir: missing path\n")
  else mkdirArgs state argv.tail

/-- The loop of `shell_builtin_ls` over entries. -/
def lsEntries : ShellState → List PathStateEntry → ShellState
  | state, [] => state
  | state, entry :: entries =>
      let state := state.write entry.name
      let state := if entry.kind = .dir then state.write (ascii "/") else state
      lsEntries (state.write (ascii "\n")) entries

/-- `shell_builtin_ls`. -/
def shellBuiltinLs (state : ShellState) (argv : List (List UInt8)) : ShellState :=
  match pathStateLs state.store (some (CString.of (argv.getD 1 (ascii "."))))
    (.room shellFsLsMax) with
  | (none, store) => { state with store := store }.write (ascii "ls: cannot access\n")
  | (some listed, store) => lsEntries { state with store := store } listed.entries

/-- A text written by `shell_builtin_cat`, on a line of its own. -/
def catText (state : ShellState) (content : List UInt8) : ShellState :=
  let state := state.write content
  if (cstr content.length content).getLast? = some newline then state
  else state.write (ascii "\n")

/-- The loop of `shell_builtin_cat`. -/
def catArgs : ShellState → List (List UInt8) → ShellState
  | state, [] => state
  | state, arg :: args =>
      match pathStateCat state.store (some (CString.of arg)) with
      | (none, store) =>
          catArgs
            ((({ state with store := store }.write (ascii "cat: not found: ")).write arg).write
              (ascii "\n")) args
      | (some content, store) => catArgs (catText { state with store := store } content) args

/-- `shell_builtin_cat`. -/
def shellBuiltinCat (state : ShellState) (argv : List (List UInt8)) : ShellState :=
  if argv.length < 2 then
    if state.fd.hasStdin then catText state (state.fd.stdinData.getD [])
    else state.write (ascii "cat: missing path\n")
  else catArgs state argv.tail

/-! ## Running a command -/

/-- `shell_execute_builtin`, or nothing for `SHELL_EXEC_NOT_FOUND`. -/
def shellExecuteBuiltin (state : ShellState) (argv : List (List UInt8)) : Option ShellState :=
  match argv with
  | [] => some state
  | name :: _ =>
      if name = ascii "help" then some (shellBuiltinHelp state argv)
      else if name = ascii "echo" then some (shellBuiltinEcho state argv)
      else if name = ascii "meminfo" then some (shellBuiltinMeminfo state argv)
      else if name = ascii "ls" then some (shellBuiltinLs state argv)
      else if name = ascii "cat" then some (shellBuiltinCat state argv)
      else if name = ascii "pwd" then some (shellBuiltinPwd state argv)
      else if name = ascii "cd" then some (shellBuiltinCd state argv)
      else if name = ascii "mkdir" then some (shellBuiltinMkdir state argv)
      else none

/-- An argument put at the end of the fallback text, as far as it fits, and whether
all of it did. -/
def copyArg (outCap : ℕ) : List UInt8 → List UInt8 → Bool × List UInt8
  | out, [] => (true, out)
  | out, byte :: arg =>
      if outCap ≤ out.length + 1 then (false, out) else copyArg outCap (out ++ [byte]) arg

/-- The loop of `shell_build_fallback_text` after the first argument. -/
def fallbackArgs (outCap : ℕ) : List UInt8 → List (List UInt8) → List UInt8
  | out, [] => out
  | out, arg :: args =>
      if outCap ≤ out.length + 1 then out
      else
        match copyArg outCap (out ++ [space]) arg with
        | (false, out) => out
        | (true, out) => fallbackArgs outCap out args

/-- `shell_build_fallback_text`; only arguments after the first have a blank before
them. -/
def shellBuildFallbackText (argv : List (List UInt8)) (outCap : ℕ) : List UInt8 :=
  match argv with
  | [] => []
  | arg :: args =>
      if outCap ≤ 1 then []
      else
        match copyArg outCap [] arg with
        | (false, out) => out
        | (true, out) => fallbackArgs outCap out args

/-- `shell_execute_or_fallback`. -/
def shellExecuteOrFallback (state : ShellState) (argv : List (List UInt8))
    (fallbackText : List UInt8) : ShellState :=
  match shellExecuteBuiltin state argv with
  | some state => state
  | none => ((state.write (ascii "echo: ")).write fallbackText).write (ascii "\n")

/-- `shell_write_redirection`; a status of `0` is `true`. -/
def shellWriteRedirection (state : ShellState) (parsed : ParseResult (List UInt8)) :
    Bool × ShellState :=
  let append := decide (parsed.redirMode = .append)
  match pathStateWriteFile state.store (parsed.redirPath.map CString.of) (some state.fd.capture)
    append with
  | (false, store) =>
      (false, ({ state with store := store, fd := state.fd.setStdoutConsole } : ShellState).write
        (ascii "redir: write failed\n"))
  | (true, store) => (true, { state with store := store })

/-- `shell_execute_single`. -/
def shellExecuteSingle (state : ShellState) (parsed : ParseResult (List UInt8)) :
    Bool × ShellState :=
  let fallbackText := shellBuildFallbackText parsed.left shellFallbackTextCap
  if parsed.redirMode = .none then
    let state := { state with fd := state.fd.setStdoutConsole.setStdin none }
    (true, shellExecuteOrFallback state parsed.left fallbackText)
  else
    let state := { state with fd := state.fd.setStdoutCapture.setStdin none }
    shellWriteRedirection (shellExecuteOrFallback state parsed.left fallbackText) parsed

/-- `shell_execute_pipe`. -/
def shellExecutePipe (state : ShellState) (parsed : ParseResult (List UInt8)) :
    Bool × ShellState :=
  let leftText := shellBuildFallbackText parsed.left shellFallbackTextCap
  let rightText := shellBuildFallbackText parsed.right shellFallbackTextCap
  let state := { state with fd := state.fd.setStdoutCapture.setStdin none }
  let state := shellExecuteOrFallback state parsed.left leftText
  let pipeInput := state.fd.capture.take (shellPipeInputCap - 1)
  let state := { state with fd := state.fd.setStdin (some pipeInput) }
  if parsed.redirMode = .none then
    let state := { state with fd := state.fd.setStdoutConsole }
    let state := shellExecuteOrFallback state parsed.right rightText
    (true, { state with fd := state.fd.setStdin none })
  else
    let state := { state with fd := state.fd.setStdoutCapture }
    let state := shellExecuteOrFallback state parsed.right rightText
    shellWriteRedirection { state with fd := state.fd.setStdin none } parsed

/-- `shell_execute_line`. -/
def shellExecuteLine (state : ShellState) (line : CString) : Bool × ShellState :=
  match shellParseWithRedirection line with
  | none =>
      (false, { state with fd := state.fd.setStdoutConsole }.write
        (ascii "parse: invalid command\n"))
  | some parsed =>
      if parsed.hasPipe = true then shellExecutePipe state parsed
      else shellExecuteSingle state parsed

/-! ## The machine of command lines -/

/-- What happens to the shell: a line is executed, or the allocator takes a call from
elsewhere. -/
inductive ShellOp where
  | line (line : CString)
  | page (op : PageOp)

def shellStep (state : ShellState) : ShellOp → Bool × ShellState
  | .line line => shellExecuteLine state line
  | .page op => (true, { state with alloc := (pageStep state.alloc op).2 })

/-- The shell as a machine answering the status of each line. -/
def shell : Machine ShellState ShellOp Bool := ⟨shellStep⟩

/-- The start of `shell_run`. -/
def shellStart (alloc : PageAllocator) : ShellState :=
  ⟨pathStateInit PathStore.zero, alloc, FdTable.reset⟩

end TigerOS.Shell
