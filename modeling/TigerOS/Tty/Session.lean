import TigerOS.Shell.PathState
import TigerOS.Shell.LineParser
import TigerOS.Input.Keyboard

/-! # Terminal sessions

A session edits a line, runs it on a path state of its own and keeps a history of
lines. What a line says is not shown but folded into a hash, the marker. The path
state of a session is not the default one, so that it has no dynamic files; the
functions that are shared with the default context still take them. A status of `0`
is modelled as `true`.
-/

namespace TigerOS.Tty

open Foundation TigerOS.Path TigerOS.Dir TigerOS.Shell TigerOS.Input

abbrev terminalSessionInputCap : ℕ := 128
abbrev terminalSessionHistoryCap : UInt32 := 8
abbrev terminalArgvCap : ℕ := 16
abbrev terminalLsMax : ℕ := 64
def terminalHashBasis : UInt32 := 2166136261

/-- `terminal_session_t`, over the pointers to windows. -/
structure TerminalSession (Window : Type) where
  endpointId : UInt32
  window : Option Window
  pathState : PathStateContext
  inputBuffer : ℕ → UInt8
  inputLen : UInt32
  history : ℕ → List UInt8
  historyCount : UInt32
  historyHead : UInt32
  linesExecuted : UInt32
  markerHash : UInt32
  cwdCache : List UInt8

/-- `ts_str_copy`. -/
def tsStrCopy (dstCap : ℕ) (src : List UInt8) : Option (List UInt8) :=
  if dstCap = 0 ∨ dstCap ≤ src.length then none else some src

namespace TerminalSession

variable {Window : Type} (session : TerminalSession Window)

/-! ## The marker -/

/-- `ts_hash_byte`. -/
def hashByte (byte : UInt8) : TerminalSession Window :=
  { session with markerHash := (session.markerHash ^^^ byte.toUInt32) * 16777619 }

/-- A byte changes the marker alone; the marker is only named here, and never computed. -/
theorem exists_marker (byte : UInt8) :
    ∃ marker, session.hashByte byte = { session with markerHash := marker } := ⟨_, rfl⟩

/-- `ts_hash_text`: the bytes of a string and a NUL. -/
def hashText (text : List UInt8) : TerminalSession Window :=
  (text.foldl hashByte session).hashByte 0

/-- `ts_hash_u32`. -/
def hashU32 (value : UInt32) : TerminalSession Window :=
  (((session.hashByte value.toUInt8).hashByte (value >>> 8).toUInt8).hashByte
    (value >>> 16).toUInt8).hashByte (value >>> 24).toUInt8

/-! ## History and working directory -/

/-- `ts_store_history`. -/
def storeHistory (line : List UInt8) : TerminalSession Window :=
  let stored (idx : UInt32) : ℕ → List UInt8 :=
    Function.update session.history idx.toNat
      ((tsStrCopy terminalSessionInputCap line).getD (session.history idx.toNat))
  if session.historyCount < terminalSessionHistoryCap then
    { session with
      history := stored session.historyCount
      historyCount := session.historyCount + 1 }
  else
    { session with
      history := stored session.historyHead
      historyHead :=
        if terminalSessionHistoryCap ≤ session.historyHead + 1 then 0 else session.historyHead + 1 }

/-- `ts_refresh_cwd_cache`. -/
def refreshCwdCache : TerminalSession Window :=
  match pathStateContextPwd session.pathState fsPathMax with
  | (none, pathState) => { session with pathState := pathState, cwdCache := [slash] }
  | (some cwd, pathState) => { session with pathState := pathState, cwdCache := cwd }

/-- `terminal_session_init` up to `ts_refresh_cwd_cache`, which an endpoint of `0` does not
reach. -/
def initialized (endpointId : UInt32) (window : Option Window) : Option (TerminalSession Window) :=
  if endpointId = 0 then none
  else
    some (({ session with
        endpointId := endpointId
        window := window
        pathState := pathStateContextInit
        inputLen := 0
        inputBuffer := Function.update session.inputBuffer 0 0
        historyCount := 0
        historyHead := 0
        linesExecuted := 0
        markerHash := terminalHashBasis
        cwdCache := [slash]
        history := fun i =>
          if i < terminalSessionHistoryCap.toNat then [] else session.history i } :
      TerminalSession Window).hashU32 endpointId)

/-- `terminal_session_init`. -/
def init (endpointId : UInt32) (window : Option Window) : TerminalSession Window :=
  match session.initialized endpointId window with
  | none => session
  | some session => session.refreshCwdCache

/-! ## Commands -/

/-- `execute_help`. -/
def executeHelp : TerminalSession Window :=
  [ascii "help", ascii "echo", ascii "pwd", ascii "cd", ascii "mkdir", ascii "ls",
    ascii "cat"].foldl
    hashText session

/-- `execute_echo`. -/
def executeEcho (argv : List (List UInt8)) : TerminalSession Window :=
  argv.tail.foldl hashText session

/-- `execute_pwd`. -/
def executePwd : TerminalSession Window :=
  match pathStateContextPwd session.pathState fsPathMax with
  | (none, pathState) => { session with pathState := pathState }.hashText (ascii "pwd:error")
  | (some cwd, pathState) => { session with pathState := pathState }.hashText cwd

/-- `execute_cd`. -/
def executeCd (argv : List (List UInt8)) : TerminalSession Window :=
  match pathStateContextCd session.pathState (some (CString.of (argv.getD 1 (ascii "/")))) with
  | (false, pathState) => { session with pathState := pathState }.hashText (ascii "cd:error")
  | (true, pathState) => { session with pathState := pathState }.hashText (ascii "cd:ok")

section Files

variable (files : FileSlot → DynamicFile)

/-- The loop of `execute_mkdir`. -/
def mkdirArgs (session : TerminalSession Window) : List (List UInt8) → TerminalSession Window
  | [] => session
  | arg :: args =>
      let session := session.hashText arg
      match pathStateContextMkdir files false session.pathState (some (CString.of arg)) with
      | (false, pathState) =>
          mkdirArgs ({ session with pathState := pathState }.hashText (ascii "mkdir:error")) args
      | (true, pathState) =>
          mkdirArgs ({ session with pathState := pathState }.hashText (ascii "mkdir:ok")) args

/-- `execute_mkdir`. -/
def executeMkdir (argv : List (List UInt8)) : TerminalSession Window :=
  if argv.length < 2 then session.hashText (ascii "mkdir:missing")
  else mkdirArgs files session argv.tail

/-- An entry hashed by `execute_ls`. -/
def hashEntry (entry : PathStateEntry) : TerminalSession Window :=
  (session.hashText entry.name).hashByte (if entry.kind = .dir then slash else 0x66)

/-- `execute_ls`. -/
def executeLs (argv : List (List UInt8)) : TerminalSession Window :=
  match pathStateContextLs files false session.pathState
      (some (CString.of (argv.getD 1 (ascii ".")))) (.room terminalLsMax) with
  | (none, pathState) => { session with pathState := pathState }.hashText (ascii "ls:error")
  | (some listed, pathState) =>
      listed.entries.foldl hashEntry
        ({ session with pathState := pathState }.hashU32 (UInt32.ofNat listed.count))

/-- The loop of `execute_cat`. -/
def catArgs (session : TerminalSession Window) : List (List UInt8) → TerminalSession Window
  | [] => session
  | arg :: args =>
      match pathStateContextCat files false session.pathState (some (CString.of arg)) with
      | (none, pathState) =>
          catArgs
            (({ session with pathState := pathState }.hashText (ascii "cat:error")).hashText arg)
            args
      | (some content, pathState) =>
          catArgs ({ session with pathState := pathState }.hashText content) args

/-- `execute_cat`. -/
def executeCat (argv : List (List UInt8)) : TerminalSession Window :=
  if argv.length < 2 then session.hashText (ascii "cat:missing")
  else catArgs files session argv.tail

/-- The command of a line that was cut into words. -/
def execute (argv : List (List UInt8)) : TerminalSession Window :=
  let name := argv.headD []
  if name = ascii "help" then session.executeHelp
  else if name = ascii "echo" then session.executeEcho argv
  else if name = ascii "pwd" then session.executePwd
  else if name = ascii "cd" then session.executeCd argv
  else if name = ascii "mkdir" then session.executeMkdir files argv
  else if name = ascii "ls" then session.executeLs files argv
  else if name = ascii "cat" then session.executeCat files argv
  else session.hashText (ascii "unknown")

/-- `terminal_session_execute_line` up to `ts_refresh_cwd_cache`, or the status of a line that does
not reach it. -/
def ran (line : Option CString) : Except Bool (TerminalSession Window) :=
  match line with
  | none => .error false
  | some line =>
      match tsStrCopy terminalSessionInputCap line.bytes with
      | none => .error false
      | some rawLine =>
          let argv := shellParseLine line terminalArgvCap
          if argv = [] then .error true
          else
            let session := session.storeHistory rawLine
            let session : TerminalSession Window :=
              { session with linesExecuted := session.linesExecuted + 1 }
            .ok ((session.hashText rawLine).execute files argv)

/-- `terminal_session_execute_line`. -/
def executeLine (line : Option CString) : Bool × TerminalSession Window :=
  match session.ran files line with
  | .error status => (status, session)
  | .ok session => (true, session.refreshCwdCache)

/-- The string in the input buffer. -/
def input : CString := CString.of (readRange session.inputBuffer 0 terminalSessionInputCap)

/-- `terminal_session_handle_event`. -/
def handleEvent (event : Option KeyboardEvent) : Bool × TerminalSession Window :=
  match event with
  | none => (false, session)
  | some event =>
      match event.type with
      | .text =>
          if event.text < 0x20 ∨ 0x7e < event.text then (true, session)
          else if UInt32.ofNat terminalSessionInputCap ≤ session.inputLen + 1 then (false, session)
          else
            (true, { session with
              inputBuffer := Function.update
                (Function.update session.inputBuffer session.inputLen.toNat event.text)
                (session.inputLen + 1).toNat 0
              inputLen := session.inputLen + 1 })
      | .control =>
          if event.control = keyboardControlBackspace then
            if 0 < session.inputLen then
              (true, { session with
                inputBuffer := Function.update session.inputBuffer (session.inputLen - 1).toNat 0
                inputLen := session.inputLen - 1 })
            else (true, session)
          else if event.control = keyboardControlEnter then
            let (status, session) := session.executeLine files (some session.input)
            (status, { session with
              inputLen := 0
              inputBuffer := Function.update session.inputBuffer 0 0 })
          else (true, session)

end Files

end TerminalSession

/-- The events that end a line. -/
def IsEnter : Option KeyboardEvent → Prop
  | none => False
  | some event => event.type = .control ∧ event.control = keyboardControlEnter

instance : DecidablePred IsEnter
  | none => inferInstanceAs (Decidable False)
  | some _ => inferInstanceAs (Decidable (_ ∧ _))

end TigerOS.Tty
