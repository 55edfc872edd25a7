import TigerOS.Shell.Isolation
import TigerOS.Shell.LineInput

/-! # The loop of the shell

The shell shows a prompt, takes a line from the console and runs it, for ever. What it does is a
matter of the bytes that are typed alone: the pieces of their stream are run one after the
other, and the console shows for each of them the prompt, the keys as they edit the line, and
what the line emits; behind the last line end it shows the prompt again and what was typed since
(`TigerOS.Shell.shellRun_dialogue`). When the bytes come makes no difference.
-/

namespace TigerOS.Shell

open Foundation TigerOS.Dir TigerOS.Mm

open Console (consolePutc lineIoWrite)

abbrev shellLineBufferSize : ℕ := 128

/-! ## The source -/

/-- The globals that `shell_run` works on and its array for lines. There is one console, that of
the line input. The copy of the line that no one reads is left out. -/
structure ShellLoop where
  io : LineIo
  line : ℕ → UInt8
  shell : ShellState

namespace ShellLoop

variable (loop : ShellLoop)

/-- `shell_execute_line` in the loop: what the line puts on the console goes behind what is
there. -/
def execute (line : CString) : ShellLoop :=
  let fd := { loop.shell.fd with console := [] }
  let (_, shell) := shellExecuteLine { loop.shell with fd := fd } line
  { loop with
    io := loop.io.write (shell.fd.console.flatMap consolePutc)
    shell := shell }

/-- A round of the loop of `shell_run`, with the moments that it leaves. Where no line is to come
it waits for ever, and leaves none. -/
def round (schedule : List (Option UInt8)) : ShellLoop × Option (List (Option UInt8)) :=
  let io := loop.io.write (lineIoWrite (ascii "shell> "))
  match lineIoReadline io shellLineBufferSize (some loop.line) true schedule with
  | .waiting io => ({ loop with io := io }, none)
  | .returned answer =>
      let loop : ShellLoop := { loop with
        io := answer.io
        line := answer.out }
      if answer.result ≤ 0 then (loop, some answer.schedule)
      else
        (loop.execute (CString.of (readRange loop.line 0 shellLineBufferSize)),
          some answer.schedule)

/-- `shell_run` after it has begun, until a round waits for ever. -/
def run : ℕ → ShellLoop → List (Option UInt8) → ShellLoop
  | 0, loop, _ => loop
  | rounds + 1, loop, schedule =>
      match loop.round schedule with
      | (loop, none) => loop
      | (loop, some schedule) => run rounds loop schedule

end ShellLoop

/-- `shell_run`, over the moments to come. Every round but the one that waits takes a moment. -/
def shellRun (io : LineIo) (line : ℕ → UInt8) (alloc : PageAllocator)
    (schedule : List (Option UInt8)) : ShellLoop :=
  ShellLoop.run (schedule.length + 1) ⟨io, line, shellStart alloc⟩ schedule

/-! ## The dialogue -/

/-- What the console shows for a byte that edits a line. -/
def echo (line : List UInt8) (byte : UInt8) : List UInt8 :=
  if byte = 8 ∨ byte = 0x7f then if line = [] then [] else [8, 32, 8]
  else if 0x20 ≤ byte ∧ byte ≤ 0x7e then if line.length < 255 then [byte] else []
  else []

/-- What the console shows for bytes that edit a line. -/
def echoes : List UInt8 → List UInt8 → List UInt8
  | _, [] => []
  | line, byte :: bytes => echo line byte ++ echoes (editByte line byte) bytes

/-- The line that the shell takes from a piece. -/
def takenLine (piece : List UInt8) : List UInt8 :=
  (piece.foldl editByte []).take (shellLineBufferSize - 1)

/-- What a piece puts on the console, the prompt first, and the path state that it leaves. -/
def turn (alloc : PageAllocator) (store : PathStore) (piece : List UInt8) :
    List UInt8 × PathStore :=
  let line := takenLine piece
  let keys := lineIoWrite (ascii "shell> ") ++ echoes [] piece ++ [13, 10]
  if line = [] then (keys, store)
  else
    let state : ShellState := ⟨store, alloc, FdTable.reset⟩
    (keys ++ (emitted state (CString.of line)).flatMap consolePutc,
      (shellExecuteLine state (CString.of line)).2.store)

/-- What the console shows for the pieces of a stream and for what came behind the last of them. -/
def dialogue (alloc : PageAllocator) (rest : List UInt8) :
    PathStore → List (List UInt8) → List UInt8
  | _, [] => lineIoWrite (ascii "shell> ") ++ echoes [] rest
  | store, piece :: pieces =>
      (turn alloc store piece).1 ++ dialogue alloc rest (turn alloc store piece).2 pieces

/-- What a stream has behind its last line end, where `piece` has come before. -/
def openPiece (piece : List UInt8) : List UInt8 → List UInt8
  | [] => piece
  | byte :: stream =>
      if byte = 13 ∨ byte = 10 then openPiece [] stream else openPiece (piece ++ [byte]) stream

/-- A line feed that belongs to the carriage return before it ends nothing more. -/
theorem openPiece_skipLf (skip : Bool) (stream : List UInt8) :
    openPiece [] (skipLf skip stream) = openPiece [] stream := by
  unfold skipLf
  split
  · next fed =>
      cases stream with
      | nil => rfl
      | cons byte stream =>
          rw [Option.some.inj fed.2]
          rfl
  · rfl

/-- The lines that the shell runs for pieces, as operations of it. -/
def lineOps (pieces : List (List UInt8)) : List ShellOp :=
  ((pieces.map takenLine).filter (· ≠ [])).map fun line => .line (CString.of line)

/-! ## Reading a line -/

section Reading

variable {line piece before : List UInt8} {io : LineIo} {out : ℕ → UInt8} {outLen : ℕ}

/-- A byte that edits a line is shown as it is echoed. -/
theorem Holds.console (holds : Holds line io) (byte : UInt8) :
    (lineIoEdit io byte).console = io.console ++ echo line byte := by
  unfold lineIoEdit echo
  by_cases back : byte = 8 ∨ byte = 0x7f
  · rw [if_pos back, if_pos back]
    unfold lineIoHandleBackspace
    by_cases empty : line = []
    · have none_ : io.lineLen = 0 := by rw [holds.length, empty, List.length_nil]
      rw [if_pos none_, if_pos empty, List.append_nil]
    · have some_ : ¬ io.lineLen = 0 := by
        rw [holds.length]
        exact fun none_ => empty (List.length_eq_zero_iff.mp none_)
      rw [if_neg some_, if_neg empty]
      rfl
  rw [if_neg back, if_neg back]
  by_cases printable : 0x20 ≤ byte ∧ byte ≤ 0x7e
  · have shown : consolePutc byte = [byte] := by
      apply Console.consolePutc_of_ne
      rintro rfl
      exact absurd printable.1 (by decide)
    rw [if_pos printable, if_pos printable]
    unfold lineIoHandleByte
    rw [holds.length]
    by_cases room : line.length < 255
    · rw [if_neg (by change ¬ 256 ≤ _; omega), if_pos room]
      change io.console ++ consolePutc byte = _
      rw [shown]
    · rw [if_pos (by change 256 ≤ _; omega), if_neg room, List.append_nil]
  · rw [if_neg printable, if_neg printable, List.append_nil]

/-- A blocking call for which no line is to come has shown how the bytes edit the line, and holds
what they have left. -/
structure Waits (before piece stream : List UInt8) (next : LineIo) : Prop where
  pieces : cutPieces piece stream = []
  rest : openPiece piece stream = piece ++ stream
  holds : Holds ((piece ++ stream).foldl editByte []) next
  console : next.console = before ++ echoes (piece.foldl editByte []) stream

/-- A blocking call that takes the first piece to come has shown how its bytes edit the line, and
leaves the others. -/
structure Takes (before : List UInt8) (outLen : ℕ) (piece stream : List UInt8) (moments : ℕ)
    (answer : Readline) (bytes : List UInt8) : Prop where
  pieces : cutPieces piece stream = (piece ++ bytes) ::
    cutPieces [] (skipLf answer.io.skipLfAfterCr (answer.schedule.filterMap id))
  rest : openPiece piece stream = openPiece [] (answer.schedule.filterMap id)
  console : answer.io.console = before ++ echoes (piece.foldl editByte []) bytes ++ [13, 10]
  empty : answer.io.lineLen = 0
  result : answer.result = (((piece ++ bytes).foldl editByte []).take (outLen - 1)).length
  text : answer.text = ((piece ++ bytes).foldl editByte []).take (outLen - 1) ++ [0]
  shorter : answer.schedule.length < moments

/-- What a blocking call does with the stream to come, where a piece of it has come already and
the console shows `before`. -/
def Taken (before : List UInt8) (outLen : ℕ) (piece stream : List UInt8) (moments : ℕ) :
    Reading → Prop
  | .waiting next => Waits before piece stream next
  | .returned answer => ∃ bytes, Takes before outLen piece stream moments answer bytes

theorem Taken.later {stream : List UInt8} {moments : ℕ} {outcome : Reading}
    (taken : Taken before outLen piece stream moments outcome) :
    Taken before outLen piece stream (moments + 1) outcome := by
  cases outcome with
  | waiting next => exact taken
  | returned answer =>
      obtain ⟨bytes, takes⟩ := taken
      exact ⟨bytes, { takes with shorter := takes.shorter.trans (Nat.lt_succ_self _) }⟩

/-- A byte that edits the line comes before the bytes that follow. -/
theorem Taken.cons {byte : UInt8} {stream : List UInt8} {moments : ℕ} {outcome : Reading}
    {shown : List UInt8} (taken : Taken shown outLen (piece ++ [byte]) stream moments outcome)
    (plain : ¬ (byte = 13 ∨ byte = 10))
    (echoed : shown = before ++ echo (piece.foldl editByte []) byte) :
    Taken before outLen piece (byte :: stream) moments outcome := by
  have cut : cutPieces piece (byte :: stream) = cutPieces (piece ++ [byte]) stream := by
    rw [cutPieces_cons (not_or.mp plain).1, if_neg (not_or.mp plain).2]
  have opened : openPiece piece (byte :: stream) = openPiece (piece ++ [byte]) stream :=
    if_neg plain
  have joined (bytes : List UInt8) : piece ++ [byte] ++ bytes = piece ++ byte :: bytes := by
    rw [List.append_assoc, List.singleton_append]
  have shows (bytes : List UInt8) :
      shown ++ echoes ((piece ++ [byte]).foldl editByte []) bytes =
        before ++ echoes (piece.foldl editByte []) (byte :: bytes) := by
    rw [echoed, List.foldl_concat, echoes, List.append_assoc]
  cases outcome with
  | waiting final =>
      have waits : Waits shown (piece ++ [byte]) stream final := taken
      refine ⟨cut.trans waits.pieces, ?_, ?_, ?_⟩
      · rw [opened, waits.rest, joined]
      · rw [← joined]
        exact waits.holds
      · rw [waits.console, shows]
  | returned answer =>
      obtain ⟨bytes, takes⟩ := taken
      refine ⟨byte :: bytes, ?_, opened.trans takes.rest, ?_, takes.empty, ?_, ?_, takes.shorter⟩
      · rw [cut, takes.pieces, joined]
      · rw [takes.console, shows]
      · rw [takes.result, joined]
      · rw [takes.text, joined]

/-- **A blocking call** takes the first piece to come. -/
theorem readlineLoop_taken (room : 0 < outLen) (holds : Holds (piece.foldl editByte []) io)
    (schedule : List (Option UInt8)) :
    Taken io.console outLen piece (skipLf io.skipLfAfterCr (schedule.filterMap id)) schedule.length
      (readlineLoop out outLen true io schedule) := by
  induction schedule generalizing io piece with
  | nil =>
      have nothing : skipLf io.skipLfAfterCr [] = [] := by cases io.skipLfAfterCr <;> rfl
      rw [List.filterMap_nil, nothing]
      refine ⟨rfl, (List.append_nil _).symm, ?_, (List.append_nil _).symm⟩
      rw [List.append_nil]
      exact holds
  | cons moment schedule ih =>
      cases moment with
      | none =>
          rw [List.filterMap_cons_none rfl]
          exact (ih holds).later
      | some byte =>
          have bytes : (some byte :: schedule).filterMap id = byte :: schedule.filterMap id := rfl
          have cleared : Holds (piece.foldl editByte []) { io with skipLfAfterCr := false } :=
            holds.congr rfl rfl
          unfold readlineLoop
          rw [bytes]
          by_cases fed : io.skipLfAfterCr = true ∧ byte = 10
          · -- the line feed of a carriage return
            have behind : skipLf io.skipLfAfterCr (byte :: schedule.filterMap id) =
                schedule.filterMap id := by
              rw [fed.1, fed.2]
              rfl
            rw [if_pos fed, behind]
            exact (ih cleared).later
          rw [if_neg fed, skipLf_cons fed]
          by_cases ends : byte = 13 ∨ byte = 10
          · have ended : Holds (piece.foldl editByte [])
                (LineIo.write { io with skipLfAfterCr := byte = 13 } (lineIoWrite [10])) :=
              cleared.congr rfl rfl
            obtain ⟨length, text⟩ := @lineIoCopyOut_spec _ _ out outLen ended room
            simp only [if_pos ends]
            refine ⟨[], ?_, if_pos ends, ?_, rfl, ?_, ?_, Nat.lt_succ_self _⟩
            · rw [cutPieces_end ends, List.append_nil]
              rfl
            · rw [echoes, List.append_nil]
              rfl
            · rw [List.append_nil]
              exact congrArg Nat.cast length
            · rw [List.append_nil]
              exact text
          · simp only [if_neg ends]
            have edited := cleared.edit byte
            have longer : (piece ++ [byte]).foldl editByte [] =
                editByte (piece.foldl editByte []) byte := List.foldl_concat _ _ _ _
            rw [← longer] at edited
            have taken := ih edited
            rw [lineIoEdit_skipLfAfterCr] at taken
            exact (taken.cons ends (cleared.console byte)).later

end Reading

/-! ## Rounds -/

section Rounds

variable {loop : ShellLoop} {schedule : List (Option UInt8)} {line piece : List UInt8}

/-- What is typed holds no NUL. -/
theorem noNul_edited (piece : List UInt8) : 0 ∉ piece.foldl editByte [] := by
  induction piece using List.reverseRecOn with
  | nil => exact List.not_mem_nil
  | append_singleton piece byte ih =>
      rw [List.foldl_concat]
      unfold editByte
      split
      · exact fun member => ih (List.mem_of_mem_dropLast member)
      split
      · next printable =>
          split
          · apply List.not_mem_append ih
            rw [List.mem_singleton]
            rintro rfl
            exact absurd printable.1 (by decide)
          · exact ih
      · exact ih

theorem noNul_takenLine (piece : List UInt8) : 0 ∉ takenLine piece :=
  fun member => noNul_edited piece (List.mem_of_mem_take member)

theorem length_takenLine (piece : List UInt8) : (takenLine piece).length < shellLineBufferSize :=
  Nat.lt_succ_of_le (List.length_take_le _ _)

/-- The string in an array that holds a line with a NUL behind it. -/
theorem string_taken {out : ℕ → UInt8} (noNul : 0 ∉ line)
    (short : line.length < shellLineBufferSize)
    (text : readRange out 0 (line.length + 1) = line ++ [0]) :
    CString.of (readRange out 0 shellLineBufferSize) = CString.of line := by
  have room : shellLineBufferSize = line.length + 1 + (shellLineBufferSize - (line.length + 1)) :=
    (Nat.add_sub_cancel' short).symm
  have whole : CString.of line = ⟨line, noNul⟩ := by
    unfold CString.of
    simp only [cstr_of_noNul noNul, List.take_length]
  rw [room, readRange_add, text, List.append_assoc, whole]
  exact CString.of_append_nul noNul _

/-- What a line in the loop does. -/
theorem ShellLoop.execute_spec (loop : ShellLoop) (line : CString) :
    let state : ShellState := ⟨loop.shell.store, loop.shell.alloc, FdTable.reset⟩
    (loop.execute line).io =
        loop.io.write ((emitted state line).flatMap consolePutc) ∧
      (loop.execute line).shell.alloc = loop.shell.alloc ∧
      (loop.execute line).shell.store = (shellExecuteLine state line).2.store := by
  obtain ⟨effect, holds⟩ := exists_effect loop.shell.store loop.shell.alloc line
  have here := holds { loop.shell.fd with console := [] }
  have reset := holds FdTable.reset
  refine ⟨?_, here.alloc, here.store.trans reset.store.symm⟩
  rw [emitted_eq reset]
  exact congrArg (fun bytes => loop.io.write (bytes.flatMap consolePutc)) here.console

/-- A round for which no line is to come has shown the prompt and what was typed since, and holds
it. -/
structure ShellLoop.Idles (loop : ShellLoop) (stream : List UInt8) (next : ShellLoop) : Prop where
  pieces : cutPieces [] stream = []
  holds : Holds ((openPiece [] stream).foldl editByte []) next.io
  shell : next.shell = loop.shell
  console : next.io.console = loop.io.console ++
    (lineIoWrite (ascii "shell> ") ++ echoes [] (openPiece [] stream))

/-- A round takes its turn with the first piece to come, and leaves the others. -/
structure ShellLoop.Turns (loop : ShellLoop) (stream : List UInt8) (moments : ℕ)
    (piece : List UInt8) (next : ShellLoop) (later : List (Option UInt8)) : Prop where
  pieces : cutPieces [] stream =
    piece :: cutPieces [] (skipLf next.io.skipLfAfterCr (later.filterMap id))
  rest : openPiece [] stream = openPiece [] (later.filterMap id)
  shorter : later.length < moments
  empty : next.io.lineLen = 0
  alloc : next.shell.alloc = loop.shell.alloc
  store : next.shell.store = (turn loop.shell.alloc loop.shell.store piece).2
  console : next.io.console = loop.io.console ++ (turn loop.shell.alloc loop.shell.store piece).1

/-- What a round does with the stream to come. -/
def ShellLoop.Turned (loop : ShellLoop) (stream : List UInt8) (moments : ℕ) :
    ShellLoop × Option (List (Option UInt8)) → Prop
  | (next, none) => loop.Idles stream next
  | (next, some later) => ∃ piece, loop.Turns stream moments piece next later

/-- A call for a line that has an array is its loop. -/
theorem lineIoReadline_loop (io : LineIo) (out : ℕ → UInt8) (blocking : Bool)
    (schedule : List (Option UInt8)) :
    lineIoReadline io shellLineBufferSize (some out) blocking schedule =
      readlineLoop out shellLineBufferSize blocking io schedule := rfl

/-- **A round** takes the first piece to come and runs its line. -/
theorem ShellLoop.round_turned (empty : loop.io.lineLen = 0) :
    loop.Turned (skipLf loop.io.skipLfAfterCr (schedule.filterMap id)) schedule.length
      (loop.round schedule) := by
  have holds : Holds (List.foldl editByte [] []) (loop.io.write (lineIoWrite (ascii "shell> "))) :=
    Holds.empty empty
  have taken := @readlineLoop_taken [] _ loop.line shellLineBufferSize (Nat.succ_pos _) holds
    schedule
  have skip : (loop.io.write (lineIoWrite (ascii "shell> "))).skipLfAfterCr =
      loop.io.skipLfAfterCr := rfl
  rw [skip] at taken
  unfold ShellLoop.round
  simp only [lineIoReadline_loop]
  revert taken
  generalize skipLf loop.io.skipLfAfterCr (schedule.filterMap id) = stream
  generalize readlineLoop loop.line shellLineBufferSize true
    (loop.io.write (lineIoWrite (ascii "shell> "))) schedule = outcome
  intro taken
  cases outcome with
  | waiting next =>
      have waits : Waits _ [] stream next := taken
      have all : openPiece [] stream = stream := waits.rest
      refine ⟨waits.pieces, ?_, rfl, ?_⟩
      · rw [all]
        exact waits.holds
      · rw [all, waits.console]
        simp only [LineIo.write, List.foldl_nil, List.append_assoc]
  | returned answer =>
      obtain ⟨piece, takes⟩ := taken
      have pieces := takes.pieces
      have result := takes.result
      have text := takes.text
      rw [List.nil_append] at pieces result text
      have shown : answer.io.console = loop.io.console ++
          (lineIoWrite (ascii "shell> ") ++ echoes [] piece ++ [13, 10]) := by
        rw [takes.console]
        simp only [LineIo.write, List.foldl_nil, List.append_assoc]
      change answer.result = ((takenLine piece).length : ℤ) at result
      by_cases nothing : takenLine piece = []
      · have zero : answer.result ≤ 0 := by
          rw [result, nothing]
          rfl
        simp only [if_pos zero]
        refine ⟨piece, pieces, takes.rest, takes.shorter, takes.empty, rfl, ?_, ?_⟩
        · simp only [turn, if_pos nothing]
        · simp only [turn, if_pos nothing]
          exact shown
      · have some_ : ¬ answer.result ≤ 0 := by
          have positive := List.length_pos_iff.mpr nothing
          omega
        have bytes : readRange answer.out 0 ((takenLine piece).length + 1) =
            takenLine piece ++ [0] := by
          have read : answer.text = takenLine piece ++ [0] := text
          unfold Readline.text at read
          rwa [result, Int.toNat_natCast] at read
        simp only [if_neg some_,
          string_taken (noNul_takenLine piece) (length_takenLine piece) bytes]
        obtain ⟨io, alloc, store⟩ := ShellLoop.execute_spec
          { loop with
            io := answer.io
            line := answer.out } (CString.of (takenLine piece))
        refine ⟨piece, ?_, takes.rest, takes.shorter, ?_, alloc, ?_, ?_⟩
        · rw [io]
          exact pieces
        · rw [io]
          exact takes.empty
        · simp only [turn, if_neg nothing]
          exact store
        · rw [io]
          simp only [turn, if_neg nothing, LineIo.write, shown, List.append_assoc]

/-- The lines of pieces, one piece after the other. The descriptors that a line leaves are as good
as any for the ones that follow. -/
theorem store_lineOps_cons (store : PathStore) (alloc : PageAllocator) (piece : List UInt8)
    (pieces : List (List UInt8)) :
    (shell.state ⟨store, alloc, FdTable.reset⟩ (lineOps (piece :: pieces))).store =
      (shell.state ⟨(turn alloc store piece).2, alloc, FdTable.reset⟩ (lineOps pieces)).store := by
  unfold lineOps turn
  rw [List.map_cons]
  by_cases nothing : takenLine piece = []
  · rw [List.filter_cons, nothing]
    rfl
  · have kept : decide (takenLine piece ≠ []) = true := decide_eq_true nothing
    obtain ⟨effect, holds⟩ := exists_effect store alloc (CString.of (takenLine piece))
    have step := holds FdTable.reset
    rw [List.filter_cons, if_pos kept, List.map_cons, Machine.state_cons]
    simp only [if_neg nothing]
    change (shell.state (shellExecuteLine ⟨store, alloc, FdTable.reset⟩
      (CString.of (takenLine piece))).2 _).store = _
    generalize shellExecuteLine ⟨store, alloc, FdTable.reset⟩ (CString.of (takenLine piece)) =
      after at step ⊢
    obtain ⟨status, ⟨store', alloc', fd'⟩⟩ := after
    have same : alloc' = alloc := step.alloc
    rw [same]
    exact (runs_independent store' alloc fd' FdTable.reset _).2.store

/-- What a loop has done when it has taken its turns with pieces and waits behind them, where
`rest` was typed since. -/
structure Spent (loop : ShellLoop) (pieces : List (List UInt8)) (rest : List UInt8)
    (after : ShellLoop) : Prop where
  store : after.shell.store =
    (shell.state ⟨loop.shell.store, loop.shell.alloc, FdTable.reset⟩ (lineOps pieces)).store
  alloc : after.shell.alloc = loop.shell.alloc
  console : after.io.console =
    loop.io.console ++ dialogue loop.shell.alloc rest loop.shell.store pieces
  holds : Holds (rest.foldl editByte []) after.io

/-- **The rounds of the loop** take all the pieces to come, in order. -/
theorem run_spent (rounds : ℕ) (loop : ShellLoop) (schedule : List (Option UInt8))
    (enough : schedule.length < rounds) (empty : loop.io.lineLen = 0) :
    Spent loop (cutPieces [] (skipLf loop.io.skipLfAfterCr (schedule.filterMap id)))
      (openPiece [] (schedule.filterMap id)) (ShellLoop.run rounds loop schedule) := by
  induction rounds generalizing loop schedule with
  | zero => exact absurd enough (Nat.not_lt_zero _)
  | succ rounds ih =>
      have turned := @ShellLoop.round_turned loop schedule empty
      rw [← openPiece_skipLf loop.io.skipLfAfterCr]
      unfold ShellLoop.run
      revert turned
      generalize skipLf loop.io.skipLfAfterCr (schedule.filterMap id) = stream
      generalize loop.round schedule = outcome
      obtain ⟨next, _ | later⟩ := outcome
      · intro idles
        have idles : loop.Idles stream next := idles
        rw [idles.pieces]
        refine ⟨?_, ?_, idles.console, idles.holds⟩
        · rw [idles.shell]
          rfl
        · rw [idles.shell]
      · intro ⟨piece, turns⟩
        have shorter := turns.shorter
        have spent := ih next later (by omega) turns.empty
        rw [turns.pieces, turns.rest]
        refine ⟨?_, spent.alloc.trans turns.alloc, ?_, spent.holds⟩
        · rw [spent.store, store_lineOps_cons, turns.alloc, turns.store]
        · rw [spent.console, turns.console, turns.alloc, turns.store, List.append_assoc]
          rfl

end Rounds

/-- **The loop of the shell**: whenever the bytes come, the shell runs the lines of their stream
and nothing else, shows the dialogue of its pieces, and then waits behind its prompt with what
was typed since the last line. -/
theorem shellRun_dialogue (line : ℕ → UInt8) (alloc : PageAllocator)
    (schedule : List (Option UInt8)) :
    let after := shellRun LineIo.zero line alloc schedule
    let stream := schedule.filterMap id
    after.shell.store = (shell.state (shellStart alloc)
        ((typedLines shellLineBufferSize stream).map fun line => .line (CString.of line))).store ∧
      after.shell.alloc = alloc ∧
      after.io.console =
        dialogue alloc (openPiece [] stream) (shellStart alloc).store (cutPieces [] stream) ∧
      Holds ((openPiece [] stream).foldl editByte []) after.io := by
  have spent := run_spent (schedule.length + 1) ⟨LineIo.zero, line, shellStart alloc⟩ schedule
    (Nat.lt_succ_self _) rfl
  exact ⟨spent.store, spent.alloc, spent.console, spent.holds⟩

end TigerOS.Shell
