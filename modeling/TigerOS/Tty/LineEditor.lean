import TigerOS.Tty.History
import Mathlib.Data.List.DropRight

/-! # Line editing

The keys of a session edit one line at a time. The line is kept in an array of characters with a
NUL behind it, and ENTER runs it and begins another. Over any run of events the array holds what
was typed since the last ENTER, every line that was entered has run once, and the count and the
history are those of the lines that have a word (`TigerOS.Tty.line_editing`).
-/

namespace TigerOS.Tty

open Foundation TigerOS.Path TigerOS.Dir TigerOS.Shell TigerOS.Input

/-! ## What is typed -/

/-- A line of printable text that leaves room for a NUL. -/
structure Line where
  bytes : List UInt8
  printable : ∀ byte ∈ bytes, 0x20 ≤ byte ∧ byte ≤ 0x7e
  short : bytes.length < terminalSessionInputCap
  deriving DecidableEq

namespace Line

def empty : Line := ⟨[], fun _ member => absurd member List.not_mem_nil, by decide⟩

/-- A byte behind a line, if it is printable and the line is not full. -/
def insert (line : Line) (byte : UInt8) : Line :=
  if fits : (0x20 ≤ byte ∧ byte ≤ 0x7e) ∧ line.bytes.length + 1 < terminalSessionInputCap then
    ⟨line.bytes ++ [byte], by
      intro other member
      rcases List.mem_append.mp member with old | new
      · exact line.printable other old
      · exact List.mem_singleton.mp new ▸ fits.1,
      by
        rw [List.length_append]
        exact fits.2⟩
  else line

/-- The line without its last byte. -/
def erase (line : Line) : Line :=
  ⟨line.bytes.dropLast, fun byte member => line.printable byte (List.mem_of_mem_dropLast member),
    by
      rw [List.length_dropLast]
      exact (Nat.sub_le _ _).trans_lt line.short⟩

theorem bytes_erase (line : Line) : line.erase.bytes = line.bytes.dropLast := rfl

theorem bytes_insert {line : Line} {byte : UInt8} (printable : 0x20 ≤ byte ∧ byte ≤ 0x7e)
    (room : line.bytes.length + 1 < terminalSessionInputCap) :
    (line.insert byte).bytes = line.bytes ++ [byte] := by
  unfold insert
  rw [dif_pos ⟨printable, room⟩]

/-- What an event makes of a line. -/
def type (line : Line) : Option KeyboardEvent → Line
  | none => line
  | some event =>
      match event.type with
      | .text => line.insert event.text
      | .control => if event.control = keyboardControlBackspace then line.erase else line

theorem noNul (line : Line) : 0 ∉ line.bytes := by
  intro member
  have printable := (line.printable 0 member).1
  exact absurd printable (by decide)

/-- The line as a string. -/
def toCString (line : Line) : CString := ⟨line.bytes, line.noNul⟩

end Line

/-- The line that is edited, and the lines that were entered before. -/
structure Editor where
  line : Line
  entered : List Line

namespace Editor

def empty : Editor := ⟨Line.empty, []⟩

/-- An event ends the line or edits it. -/
def handle (editor : Editor) (event : Option KeyboardEvent) : Editor :=
  if IsEnter event then ⟨Line.empty, editor.entered ++ [editor.line]⟩
  else ⟨editor.line.type event, editor.entered⟩

/-- The editor after a run of events. -/
def run (events : List (Option KeyboardEvent)) : Editor := events.foldl handle empty

/-- The entered lines that have a word. -/
def worded (editor : Editor) : List (List UInt8) :=
  (editor.entered.map Line.bytes).filter fun line => HasWord line

theorem run_concat (events : List (Option KeyboardEvent)) (event : Option KeyboardEvent) :
    run (events ++ [event]) = (run events).handle event := by
  unfold run
  rw [List.foldl_append]
  rfl

/-- The line is what the events since the last ENTER make of the empty one. -/
theorem line_run (events : List (Option KeyboardEvent)) : (run events).line =
    (events.rtakeWhile fun event => ¬ IsEnter event).foldl Line.type Line.empty := by
  induction events using List.reverseRecOn with
  | nil => rfl
  | append_singleton events event ih =>
      rw [run_concat, List.rtakeWhile_concat]
      unfold handle
      by_cases enter : IsEnter event
      · rw [if_pos enter, if_neg (by simpa using enter)]
        rfl
      · rw [if_neg enter, if_pos (decide_eq_true enter), List.foldl_append, ← ih]
        rfl

end Editor

/-! ## The editor of a session -/

namespace TerminalSession

variable {Window : Type} (session : TerminalSession Window) (files : FileSlot → DynamicFile)

/-- The session after a run of events. -/
def handled (events : List (Option KeyboardEvent)) : TerminalSession Window :=
  events.foldl (fun session event => (session.handleEvent files event).2) session

/-- The session after a list of lines. -/
def executed (lines : List Line) : TerminalSession Window :=
  lines.foldl (fun session line => (session.executeLine files (some line.toCString)).2) session

end TerminalSession

section Follows

variable {Window : Type} {files : FileSlot → DynamicFile} {begun session : TerminalSession Window}
  {editor : Editor} {line : Line}

/-- The array holds a line with a NUL behind it. -/
structure Held (inputBuffer : ℕ → UInt8) (inputLen : UInt32) (line : Line) : Prop where
  text : readRange inputBuffer 0 inputLen.toNat = line.bytes
  nul : inputBuffer inputLen.toNat = 0

variable (held : Held session.inputBuffer session.inputLen line)

include held

theorem Held.len : session.inputLen.toNat = line.bytes.length := by
  rw [← held.text, length_readRange]

/-- The string in the array is the line. -/
theorem Held.input : session.input = line.toCString := by
  have room : terminalSessionInputCap =
      line.bytes.length + 1 + (terminalSessionInputCap - (line.bytes.length + 1)) :=
    (Nat.add_sub_cancel' line.short).symm
  unfold TerminalSession.input
  rw [room, readRange_add, readRange_succ, ← held.len, held.text, Nat.zero_add, held.nul,
    List.append_assoc]
  exact CString.of_append_nul line.noNul _

/-- A byte is put into the array exactly when the line has room for it. -/
theorem Held.insert {event : KeyboardEvent} (text : event.type = .text) :
    ∃ inputBuffer inputLen, (session.handleEvent files (some event)).2 =
      session.withInput inputBuffer inputLen ∧
      Held inputBuffer inputLen (line.insert event.text) := by
  have len := held.len
  have short : line.bytes.length < 128 := line.short
  have after : (session.inputLen + 1).toNat = session.inputLen.toNat + 1 := by
    rw [UInt32.toNat_add, UInt32.toNat_one]
    omega
  have full : UInt32.ofNat terminalSessionInputCap ≤ session.inputLen + 1 ↔
      terminalSessionInputCap ≤ line.bytes.length + 1 := by
    rw [UInt32.le_iff_toNat_le, after, len]
    rfl
  unfold TerminalSession.handleEvent
  simp only [text]
  by_cases printable : 0x20 ≤ event.text ∧ event.text ≤ 0x7e
  · have shown : ¬ (event.text < 0x20 ∨ 0x7e < event.text) := by
      rw [not_or, UInt8.not_lt, UInt8.not_lt]
      exact printable
    rw [if_neg shown]
    by_cases room : line.bytes.length + 1 < terminalSessionInputCap
    · rw [if_neg fun none_ => Nat.not_le.mpr room (full.mp none_)]
      refine ⟨_, _, rfl, ?_, Function.update_self _ _ _⟩
      rw [Line.bytes_insert printable room, after, readRange_update (Nat.zero_add _).le,
        readRange_update_end (Nat.zero_add _).symm, held.text]
    · unfold Line.insert
      rw [if_pos (full.mpr (Nat.not_lt.mp room)), dif_neg fun fits => room fits.2]
      exact ⟨_, _, rfl, held⟩
  · have hidden : event.text < 0x20 ∨ 0x7e < event.text := by
      rw [not_and_or, UInt8.not_le, UInt8.not_le] at printable
      exact printable
    unfold Line.insert
    rw [if_pos hidden, dif_neg fun fits => printable fits.1]
    exact ⟨_, _, rfl, held⟩

/-- BACKSPACE takes the last byte out of the array. -/
theorem Held.erase {event : KeyboardEvent}
    (control : event.type = .control) (back : event.control = keyboardControlBackspace) :
    ∃ inputBuffer inputLen, (session.handleEvent files (some event)).2 =
      session.withInput inputBuffer inputLen ∧
      Held inputBuffer inputLen line.erase := by
  have len := held.len
  unfold TerminalSession.handleEvent
  simp only [control]
  rw [if_pos back]
  by_cases some_ : 0 < session.inputLen
  · rw [if_pos some_]
    rw [UInt32.lt_iff_toNat_lt, UInt32.toNat_zero] at some_
    obtain ⟨before, succ⟩ := Nat.exists_eq_succ_of_ne_zero some_.ne'
    have last : (session.inputLen - 1).toNat = before := by
      have covered : (1 : UInt32) ≤ session.inputLen := UInt32.le_iff_toNat_le.mpr some_
      rw [UInt32.toNat_sub_of_le _ _ covered, succ]
      rfl
    have text := held.text
    rw [succ, readRange_succ] at text
    refine ⟨_, _, rfl, ?_, Function.update_self _ _ _⟩
    rw [Line.bytes_erase, last, ← text, List.dropLast_concat]
    exact readRange_update (Nat.zero_add _).le
  · rw [if_neg some_]
    refine ⟨_, _, rfl, ?_, held.nul⟩
    have none_ : line.bytes = [] := by
      rw [UInt32.lt_iff_toNat_lt, UInt32.toNat_zero, len] at some_
      exact List.length_eq_zero_iff.mp (Nat.eq_zero_of_not_pos some_)
    rw [Line.bytes_erase, held.text, none_, List.dropLast_nil]

/-- **An event that ends no line** edits the array as the line, and changes nothing else. -/
theorem Held.type {event : Option KeyboardEvent}
    (other : ¬ IsEnter event) :
    ∃ inputBuffer inputLen, (session.handleEvent files event).2 =
      session.withInput inputBuffer inputLen ∧
      Held inputBuffer inputLen (line.type event) := by
  cases event with
  | none => exact ⟨_, _, rfl, held⟩
  | some event =>
      cases kind : event.type with
      | text =>
          simp only [Line.type, kind]
          exact held.insert kind
      | control =>
          simp only [Line.type, kind]
          by_cases back : event.control = keyboardControlBackspace
          · simp only [if_pos back]
            exact held.erase kind back
          · have notEnter : ¬ event.control = keyboardControlEnter :=
              fun enter => other ⟨kind, enter⟩
            unfold TerminalSession.handleEvent
            simp only [kind, if_neg back, if_neg notEnter]
            exact ⟨_, _, rfl, held⟩

/-- **ENTER** runs the line and leaves an empty one. -/
theorem Held.enter {event : Option KeyboardEvent}
    (enter : IsEnter event) :
    ∃ inputBuffer inputLen, (session.handleEvent files event).2 =
      (session.executeLine files (some line.toCString)).2.withInput inputBuffer inputLen ∧
      Held inputBuffer inputLen Line.empty := by
  cases event with
  | none => exact absurd enter id
  | some event =>
      obtain ⟨control, enter⟩ := enter
      have notBack : ¬ event.control = keyboardControlBackspace := by
        rw [enter]
        decide
      unfold TerminalSession.handleEvent
      simp only [control, if_neg notBack, if_pos enter, held.input]
      exact ⟨_, _, rfl, rfl, Function.update_self _ _ _⟩

end Follows

/-! ## Runs of events -/

section Run

variable {Window : Type} {files : FileSlot → DynamicFile} {begun session : TerminalSession Window}
  {editor : Editor}

/-- A session follows an editor: its array holds the line, its history and its count are those of
the entered lines that have a word, and nothing but these lines has changed the rest of it. -/
structure Follows (files : FileSlot → DynamicFile) (begun session : TerminalSession Window)
    (editor : Editor) : Prop where
  held : Held session.inputBuffer session.inputLen editor.line
  rest : session.withInput begun.inputBuffer begun.inputLen = begun.executed files editor.entered
  count : session.linesExecuted = UInt32.ofNat editor.worded.length
  recent : session.typed.recent.Holds 8 editor.worded

theorem worded_concat (lines : List Line) (line next : Line) :
    (Editor.mk next (lines ++ [line])).worded =
      (Editor.mk next lines).worded ++ if HasWord line.bytes then [line.bytes] else [] := by
  unfold Editor.worded
  rw [List.map_append, List.filter_append, List.map_singleton, List.filter_singleton,
    Bool.cond_decide]

/-- **ENTER** is followed. -/
theorem Follows.enter (follows : Follows files begun session editor) {event : Option KeyboardEvent}
    (enter : IsEnter event) : Follows files begun (session.handleEvent files event).2
      ⟨Line.empty, editor.entered ++ [editor.line]⟩ := by
  obtain ⟨inputBuffer, inputLen, next, held⟩ := @Held.enter _ files _ _ follows.held _ enter
  have short : editor.line.bytes.length < terminalSessionInputCap := editor.line.short
  have inside : session.historyHead.toNat < 8 := by
    have head := follows.recent.head
    change session.historyHead.toNat = _ at head
    omega
  have typed : (session.executeLine files (some editor.line.toCString)).2.typed =
      if HasWord editor.line.bytes then (session.recorded editor.line.bytes).typed
      else session.typed := TerminalSession.typed_executeLine editor.line.toCString short
  rw [next]
  refine ⟨held, ?_, ?_, ?_⟩
  · unfold TerminalSession.executed
    rw [List.foldl_append]
    change _ = ((begun.executed files editor.entered).executeLine files _).2
    rw [← follows.rest, TerminalSession.executeLine_withInput _ short]
    rfl
  · change (session.executeLine files _).2.typed.linesExecuted = _
    rw [typed, worded_concat]
    by_cases has : HasWord editor.line.bytes
    · rw [if_pos has, if_pos has, List.length_append, List.length_singleton, UInt32.ofNat_add]
      change (session.recorded editor.line.bytes).linesExecuted = _
      rw [TerminalSession.linesExecuted_recorded, follows.count]
      rfl
    · rw [if_neg has, if_neg has, List.append_nil]
      exact follows.count
  · change (session.executeLine files _).2.typed.recent.Holds 8 _
    rw [typed, worded_concat]
    by_cases has : HasWord editor.line.bytes
    · rw [if_pos has, if_pos has, TerminalSession.recent_recorded short inside]
      exact follows.recent.push (by decide) _
    · rw [if_neg has, if_neg has, List.append_nil]
      exact follows.recent

/-- **An event** is followed. -/
theorem Follows.step (follows : Follows files begun session editor)
    (event : Option KeyboardEvent) :
    Follows files begun (session.handleEvent files event).2 (editor.handle event) := by
  unfold Editor.handle
  by_cases enter : IsEnter event
  · rw [if_pos enter]
    exact follows.enter enter
  · rw [if_neg enter]
    obtain ⟨inputBuffer, inputLen, next, held⟩ := follows.held.type enter
    rw [next]
    exact ⟨held, follows.rest, follows.count, follows.recent⟩

/-- **Every run** is followed. -/
theorem Follows.run (follows : Follows files begun begun Editor.empty)
    (events : List (Option KeyboardEvent)) :
    Follows files begun (begun.handled files events) (Editor.run events) := by
  induction events using List.reverseRecOn with
  | nil => exact follows
  | append_singleton events event ih =>
      unfold TerminalSession.handled
      rw [Editor.run_concat, List.foldl_append]
      exact ih.step event

/-- A session that was begun has typed nothing. -/
theorem follows_init (session : TerminalSession Window) {endpointId : UInt32}
    (nonzero : endpointId ≠ 0) (window : Option Window) :
    Follows files (session.init endpointId window) (session.init endpointId window)
      Editor.empty := by
  obtain ⟨history, typed⟩ : ∃ history, (session.init endpointId window).typed =
      ⟨Function.update session.inputBuffer 0 0, 0, history, 0, 0, 0⟩ := by
    unfold TerminalSession.init TerminalSession.initialized
    rw [if_neg nonzero]
    simp only
    rw [TerminalSession.blind_refreshCwdCache.typed,
      (TerminalSession.blind_hashU32 endpointId).typed]
    exact ⟨_, rfl⟩
  have buffer : (session.init endpointId window).inputBuffer =
      Function.update session.inputBuffer 0 0 := congrArg Typed.inputBuffer typed
  have len : (session.init endpointId window).inputLen = 0 := congrArg Typed.inputLen typed
  refine ⟨⟨?_, ?_⟩, rfl, congrArg Typed.linesExecuted typed, ?_⟩
  · rw [len]
    rfl
  · rw [buffer, len]
    exact Function.update_self _ _ _
  · rw [typed]
    exact Recent.holds_nil history

end Run

/-- **Line editing and history.** After any run of events on a session that was begun, its array
holds the line of the events since the last ENTER with a NUL behind it, its state is that of
the lines that were entered, each run once, but for the input, and its count and its history
are those of the entered lines that have a word. -/
theorem line_editing {Window : Type} (session : TerminalSession Window) {endpointId : UInt32}
    (nonzero : endpointId ≠ 0) (window : Option Window) (files : FileSlot → DynamicFile)
    (events : List (Option KeyboardEvent)) :
    let begun := session.init endpointId window
    let after := begun.handled files events
    let editor := Editor.run events
    (editor.line = (events.rtakeWhile fun event => ¬ IsEnter event).foldl Line.type Line.empty ∧
        editor.line.bytes.length ≤ 127 ∧ 0 ∉ editor.line.bytes) ∧
      (after.inputLen.toNat = editor.line.bytes.length ∧
        readRange after.inputBuffer 0 (editor.line.bytes.length + 1) = editor.line.bytes ++ [0]) ∧
      after.withInput begun.inputBuffer begun.inputLen = begun.executed files editor.entered ∧
      after.linesExecuted = UInt32.ofNat editor.worded.length ∧
      after.readHistory = editor.worded.drop (editor.worded.length - 8) := by
  intro begun after editor
  have follows : Follows files begun after editor :=
    (follows_init session nonzero window).run events
  have len := follows.held.len
  refine ⟨⟨Editor.line_run events, Nat.le_of_lt_succ editor.line.short, editor.line.noNul⟩,
    ⟨len, ?_⟩, follows.rest, follows.count, follows.recent.read⟩
  rw [← len, readRange_succ, follows.held.text, Nat.zero_add, follows.held.nul]

/-- The key of a character. -/
def textEvent (character : Char) : Option KeyboardEvent :=
  some ⟨.text, 0, 1, UInt8.ofNat character.toNat, 0⟩

/-- A control key. -/
def controlEvent (control : UInt8) : Option KeyboardEvent := some ⟨.control, 0, 1, 0, control⟩

/-- A blank line, a line with a mistake in it, and a line that is not yet entered. -/
theorem line_editing_mistake :
    let events := [textEvent ' ', controlEvent keyboardControlEnter, textEvent 'p', textEvent 'x',
      controlEvent keyboardControlBackspace, textEvent 'w', none, textEvent 'd',
      controlEvent keyboardControlEnter, textEvent 'l']
    let begun : TerminalSession ℕ := TerminalSession.init
      ⟨0, none, pathStateContextInit, fun _ => 7, 0, fun _ => [], 0, 0, 0, 0, []⟩ 3 (some 0)
    let after := begun.handled (fun _ => ⟨false, [], fun _ => 0, 0⟩) events
    after.inputLen.toNat = 1 ∧ readRange after.inputBuffer 0 2 = [0x6c, 0] ∧
      after.linesExecuted = 1 ∧ after.readHistory = [ascii "pwd"] := by
  intro events begun after
  obtain ⟨_, ⟨len, bytes⟩, _, count, history⟩ := line_editing
    (⟨0, none, pathStateContextInit, fun _ => 7, 0, fun _ => [], 0, 0, 0, 0, []⟩ :
      TerminalSession ℕ) (by decide : (3 : UInt32) ≠ 0) (some 0)
    (fun _ => ⟨false, [], fun _ => 0, 0⟩) events
  have line : (Editor.run events).line.bytes = [0x6c] := by decide
  have worded : (Editor.run events).worded = [ascii "pwd"] := by decide
  rw [line] at len bytes
  rw [worded] at count history
  exact ⟨len, bytes, count, history⟩

end TigerOS.Tty
