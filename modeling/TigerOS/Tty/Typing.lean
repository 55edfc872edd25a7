import TigerOS.Input.Decoder
import TigerOS.Tty.LineEditor
import TigerOS.Tty.Routing

/-! # Typing a line into a terminal

From the scancodes of a keyboard to the command that a session runs there are five tables and two
queues. A text that is typed while a terminal is active, with ENTER behind it, runs in its session
as a line, and changes no other session, whenever the keys are dispatched
(`TigerOS.Tty.typed_lines_run`). The multi-terminal test types in the same way
(`TigerOS.Tty.emitText_types`).
-/

namespace TigerOS.Tty

open Foundation TigerOS.Shell TigerOS.Input TigerOS.Wm

variable {Window : Type} [DecidableEq Window]

/-! ## The source -/

/-- The characters of `scancode_for_char` with their scancodes. -/
def scancodes : List (Char × UInt8) :=
  [('a', 0x1e), ('b', 0x30), ('c', 0x2e), ('d', 0x20), ('e', 0x12), ('f', 0x21), ('g', 0x22),
    ('h', 0x23), ('i', 0x17), ('j', 0x24), ('k', 0x25), ('l', 0x26), ('m', 0x32), ('n', 0x31),
    ('o', 0x18), ('p', 0x19), ('q', 0x10), ('r', 0x13), ('s', 0x1f), ('t', 0x14), ('u', 0x16),
    ('v', 0x2f), ('w', 0x11), ('x', 0x2d), ('y', 0x15), ('z', 0x2c), ('/', 0x35), (' ', 0x39)]

/-- `scancode_for_char`. -/
def scancodeForChar (ch : UInt8) : UInt8 :=
  ((scancodes.find? fun entry => UInt8.ofNat entry.1.toNat = ch).map Prod.snd).getD 0

section Emit

variable (desktop : Desktop Window)

/-- `emit_scancode`. -/
def emitScancode (scancode : UInt8) : Bool × Desktop Window :=
  if scancode = 0 then (false, desktop)
  else
    let (status, keyboard) := keyboardHandleScancode desktop.keyboard desktop.scene.active scancode
    let desktop := { desktop with keyboard := keyboard }
    if status = false then (false, desktop) else (true, (keyboardDispatchPending desktop).2)

/-- `emit_text` on a string that is not null. -/
def emitText : Desktop Window → List UInt8 → Bool × Desktop Window
  | desktop, [] => (true, desktop)
  | desktop, ch :: text =>
      match emitScancode desktop (scancodeForChar ch) with
      | (false, desktop) => (false, desktop)
      | (true, desktop) => emitText desktop text

/-- `emit_enter`. -/
def emitEnter : Bool × Desktop Window := emitScancode desktop 0x1c

end Emit

/-! ## What is typed -/

/-- The calls but those of the loop that serves the keyboard. -/
def DesktopOp.IsKey : DesktopOp Window → Bool
  | .dispatchPending => false
  | _ => true

/-- The events that calls of users make, with the window that is active. -/
def typedEvents : Decoder → Option Window → List (DesktopOp Window) →
    List (Option Window × KeyboardEvent)
  | _, _, [] => []
  | decoder, active, .scancode scancode :: ops =>
      ((decoder.decode scancode).1.toList.map fun event => (active, event)) ++
        typedEvents (decoder.decode scancode).2 active ops
  | decoder, _, .activate window :: ops => typedEvents decoder window ops
  | decoder, active, _ :: ops => typedEvents decoder active ops

/-- The event of ENTER. -/
def enterKey : KeyboardEvent := ⟨.control, 0x1c, 1, 0, keyboardControlEnter⟩

/-- The scancodes of a line and ENTER. -/
def Line.scancodes (line : Line) : List UInt8 := line.bytes.flatMap keystrokes ++ [0x1c, 0x9c]

/-- The events of a line and ENTER. -/
def Line.events (line : Line) : List KeyboardEvent := line.bytes.map textKey ++ [enterKey]

/-- The calls of a user who turns to a terminal and types a line into it. -/
def typeLine (entry : Window × Line) : List (DesktopOp Window) :=
  .activate (some entry.1) :: entry.2.scancodes.map .scancode

section Attending

variable {desktop : Desktop Window} {decoder : Decoder} {active : Option Window}

/-- A session does not touch the keyboard and the scene. -/
theorem dispatch_frame (desktop : Desktop Window) (focus : Option Window) (event : KeyboardEvent) :
    (dispatchToWindowEndpoint desktop focus event).keyboard = desktop.keyboard ∧
      (dispatchToWindowEndpoint desktop focus event).scene = desktop.scene := by
  unfold dispatchToWindowEndpoint
  split
  · exact ⟨rfl, rfl⟩
  split
  · exact ⟨rfl, rfl⟩
  unfold wmTerminalWindowDispatchEvent
  split
  · exact ⟨rfl, rfl⟩
  · exact ⟨rfl, rfl⟩

/-- The keyboard of a desktop remembers what the scancodes said. -/
structure Attending (decoder : Decoder) (active : Option Window) (desktop : Desktop Window) :
    Prop where
  valid : desktop.keyboard.Valid
  remembers : Remembers decoder desktop.keyboard
  active : desktop.scene.active = active

/-- The loop that serves the keyboard leaves what it remembers. -/
theorem Attending.loop (attending : Attending decoder active desktop) (rounds : ℕ)
    (processed : UInt32) :
    Attending decoder active (dispatchLoop rounds processed desktop).2 := by
  induction rounds generalizing desktop processed with
  | zero => exact attending
  | succ rounds ih =>
      unfold dispatchLoop
      have valid := (pop_pending attending.valid).1
      have remembers := attending.remembers.pop
      revert valid remembers
      generalize keyboardPopEvent desktop.keyboard = popped
      obtain ⟨_ | ⟨event, focus⟩, keyboard⟩ := popped
      · exact fun _ _ => attending
      · intro valid remembers
        obtain ⟨same, scene⟩ := dispatch_frame { desktop with keyboard := keyboard } focus event
        apply ih
        refine ⟨?_, ?_, ?_⟩
        · rw [same]
          exact valid
        · rw [same]
          exact remembers
        · rw [scene]
          exact attending.active

/-- A scancode that is answered with success is accepted as what it is decoded to. -/
theorem Attending.scancode (attending : Attending decoder active desktop) {scancode : UInt8}
    (answered : (desktops.step desktop (.scancode scancode)).1 ≠ .status false) :
    Attending (decoder.decode scancode).2 active (desktops.step desktop (.scancode scancode)).2 ∧
      acceptedBy desktop (.scancode scancode) =
        (decoder.decode scancode).1.toList.map fun event => (active, event) := by
  obtain ⟨valid, remembers, focus⟩ := attending
  obtain ⟨remembers', pending⟩ := remembers.scancode valid desktop.scene.active scancode
  have success :
      (keyboardHandleScancode desktop.keyboard desktop.scene.active scancode).1 = true := by
    rcases Bool.eq_false_or_eq_true
      (keyboardHandleScancode desktop.keyboard desktop.scene.active scancode).1 with
      success | failure
    · exact success
    · exact absurd (congrArg DesktopAnswer.status failure) answered
  refine ⟨⟨(scancode_pending valid _ scancode).1, remembers', focus⟩, ?_⟩
  rw [if_pos success] at pending
  unfold acceptedBy
  change ((keyboardHandleScancode desktop.keyboard desktop.scene.active scancode).2.pending.drop
    _).map _ = _
  rw [pending, List.drop_left, List.map_map, focus]
  rfl

/-- **A run** of calls that succeed accepts what is typed, whenever the keys are dispatched. -/
theorem Attending.accepted (attending : Attending decoder active desktop)
    {ops : List (DesktopOp Window)}
    (input : ∀ op ∈ ops, op.IsInput)
    (answered : ∀ answer ∈ desktops.results desktop ops, answer ≠ .status false) :
    accepted desktop ops = typedEvents decoder active (ops.filter DesktopOp.IsKey) := by
  induction ops generalizing decoder active desktop with
  | nil => rfl
  | cons op ops ih =>
      have input' : ∀ op ∈ ops, op.IsInput := fun other member =>
        input other (List.mem_cons_of_mem _ member)
      have answered' : ∀ answer ∈ desktops.results (desktops.step desktop op).2 ops,
          answer ≠ .status false := fun answer member =>
            answered answer (List.mem_cons_of_mem _ member)
      have now : (desktops.step desktop op).1 ≠ .status false := answered _ List.mem_cons_self
      unfold TigerOS.Tty.accepted
      cases op with
      | scancode scancode =>
          obtain ⟨next, events⟩ := attending.scancode now
          rw [events, ih next input' answered']
          rfl
      | activate window =>
          have focus : (desktops.step desktop (.activate window)).2.scene.active = window := by
            rcases activate_cases desktop.scene window with same |
              ⟨pointer, layers, named, member, moved, same⟩
            · have refused : (desktops.step desktop (.activate window)).1 = .status false :=
                congrArg (fun answer : Bool × WmScene Window => DesktopAnswer.status answer.1) same
              exact absurd refused now
            · change (wmCompositorActivateWindow desktop.scene window).2.active = window
              rw [same]
          have next : Attending decoder window (desktops.step desktop (.activate window)).2 :=
            ⟨attending.valid, attending.remembers, focus⟩
          exact ih next input' answered'
      | dispatchPending =>
          have next : Attending decoder active (desktops.step desktop .dispatchPending).2 :=
            attending.loop _ 0
          exact ih next input' answered'
      | _ => exact absurd (input _ List.mem_cons_self) id

end Attending

section Lines

variable {decoder : Decoder} {active : Option Window}

omit [DecidableEq Window] in
theorem typedEvents_scancodes (scancodes : List UInt8) (ops : List (DesktopOp Window)) :
    typedEvents decoder active (scancodes.map .scancode ++ ops) =
      ((decoder.decodeAll scancodes).1.map fun event => (active, event)) ++
        typedEvents (decoder.decodeAll scancodes).2 active ops := by
  induction scancodes generalizing decoder with
  | nil => rfl
  | cons scancode scancodes ih =>
      rw [List.map_cons, List.cons_append, typedEvents, ih, Decoder.decodeAll]
      simp only [List.map_append, List.append_assoc]

/-- The scancodes of a line are decoded to its events. -/
theorem Line.decode_scancodes (line : Line) :
    Decoder.released.decodeAll line.scancodes = (line.events, Decoder.released) := by
  unfold Line.scancodes Line.events
  rw [Decoder.decodeAll_append, decode_keystrokes _ line.printable]
  rfl

omit [DecidableEq Window] in
/-- What users type who type lines. -/
theorem typedEvents_lines (active : Option Window) (lines : List (Window × Line)) :
    typedEvents Decoder.released active (lines.flatMap typeLine) =
      lines.flatMap fun entry => entry.2.events.map fun event => (some entry.1, event) := by
  induction lines generalizing active with
  | nil => rfl
  | cons entry lines ih =>
      rw [List.flatMap_cons, List.flatMap_cons]
      unfold typeLine
      rw [List.cons_append, typedEvents, typedEvents_scancodes, Line.decode_scancodes]
      exact congrArg _ (ih _)

/-- The lines for one window. -/
def linesOf (window : Window) (lines : List (Window × Line)) : List Line :=
  lines.filterMap fun entry => if entry.1 = window then some entry.2 else none

omit [DecidableEq Window] in
theorem routed_some (window : Window) (events : List KeyboardEvent) :
    routed (events.map fun event => (some window, event)) =
      events.map fun event => (window, event) := by
  unfold routed
  rw [List.filterMap_map, ← List.filterMap_eq_map]
  rfl

theorem eventsOf_map (window own : Window) (events : List KeyboardEvent) :
    eventsOf window (events.map fun event => (own, event)) =
      if own = window then events else [] := by
  have same : ((fun item : Window × KeyboardEvent =>
        if item.1 = window then some item.2 else none) ∘ fun event => (own, event)) =
      if own = window then some else fun _ => none := by
    funext event
    simp only [Function.comp_apply]
    split <;> rfl
  unfold eventsOf
  rw [List.filterMap_map, same]
  split
  · rw [List.filterMap_some]
  · rw [List.filterMap_none]

theorem eventsOf_append (window : Window) (first second : List (Window × KeyboardEvent)) :
    eventsOf window (first ++ second) = eventsOf window first ++ eventsOf window second :=
  List.filterMap_append

/-- The events of a window are those of its lines. -/
theorem eventsOf_lines (window : Window) (lines : List (Window × Line)) :
    eventsOf window (routed (lines.flatMap fun entry =>
      entry.2.events.map fun event => (some entry.1, event))) =
      (linesOf window lines).flatMap Line.events := by
  induction lines with
  | nil => rfl
  | cons entry lines ih =>
      rw [List.flatMap_cons, routed_append, routed_some]
      rw [eventsOf_append, ih, eventsOf_map]
      unfold linesOf
      rw [List.filterMap_cons]
      by_cases own : entry.1 = window
      · simp only [if_pos own, List.flatMap_cons]
      · simp only [if_neg own, List.nil_append]

end Lines

/-! ## Sessions -/

section Sessions

variable {files : FileSlot → DynamicFile} {session : TerminalSession Window} {line : Line}

/-- A line that is typed behind another one, as far as there is room. -/
def Line.insertAll (line : Line) (text : List UInt8) : Line := text.foldl Line.insert line

omit [DecidableEq Window] in
/-- A text edits the array as the line, and changes nothing else. -/
theorem Held.typeText (held : Held session.inputBuffer session.inputLen line) (text : List UInt8) :
    ∃ inputBuffer inputLen, fed files session (text.map textKey) =
      session.withInput inputBuffer inputLen ∧
      Held inputBuffer inputLen (line.insertAll text) := by
  induction text generalizing session line with
  | nil => exact ⟨_, _, rfl, held⟩
  | cons byte text ih =>
      obtain ⟨inputBuffer, inputLen, next, held'⟩ :=
        @Held.insert _ files _ _ held (textKey byte) rfl
      obtain ⟨inputBuffer', inputLen', rest, held''⟩ :=
        @ih (session.withInput inputBuffer inputLen) _ held'
      refine ⟨inputBuffer', inputLen', ?_, held''⟩
      change fed files (session.handleEvent files (some (textKey byte))).2 (text.map textKey) = _
      rw [next, rest]
      rfl

/-- A line that is typed behind nothing. -/
theorem Line.insertAll_empty (line : Line) : Line.empty.insertAll line.bytes = line := by
  have grows (first second : List UInt8) (whole : line.bytes = first ++ second)
      (typed : Line) (same : typed.bytes = first) :
        (typed.insertAll second).bytes = line.bytes := by
    induction second generalizing first typed with
    | nil => exact same.trans (whole.trans (List.append_nil _)).symm
    | cons byte second ih =>
        have member : byte ∈ line.bytes := by
          rw [whole]
          exact List.mem_append_right _ List.mem_cons_self
        have room : typed.bytes.length + 1 < terminalSessionInputCap := by
          have short := line.short
          rw [whole, List.length_append, List.length_cons] at short
          rw [same]
          omega
        refine ih (first ++ [byte]) (by rw [whole, List.append_assoc]; rfl) (typed.insert byte) ?_
        rw [Line.bytes_insert (line.printable byte member) room, same]
  have bytes := grows [] line.bytes rfl Line.empty rfl
  cases line
  cases typed : Line.empty.insertAll _
  rw [typed] at bytes
  congr

/-- A text that is typed into an editor. -/
theorem Editor.foldl_text (editor : Editor) (text : List UInt8) :
    (text.map fun byte => some (textKey byte)).foldl Editor.handle editor =
      ⟨editor.line.insertAll text, editor.entered⟩ := by
  induction text generalizing editor with
  | nil => rfl
  | cons byte text ih =>
      have typed : editor.handle (some (textKey byte)) =
          ⟨editor.line.insert byte, editor.entered⟩ := if_neg fun enter => by cases enter.1
      rw [List.map_cons, List.foldl_cons, typed, ih]
      rfl

/-- An editor into which lines are typed has entered them. -/
theorem Editor.run_lines (lines : List Line) :
    Editor.run ((lines.flatMap Line.events).map some) = ⟨Line.empty, lines⟩ := by
  induction lines using List.reverseRecOn with
  | nil => rfl
  | append_singleton lines line ih =>
      have events : line.events.map some =
          (line.bytes.map fun byte => some (textKey byte)) ++ [some enterKey] := by
        unfold Line.events
        rw [List.map_append, List.map_map]
        rfl
      rw [List.flatMap_append, List.flatMap_singleton, List.map_append, events,
        ← List.append_assoc, Editor.run_concat]
      unfold Editor.run at ih ⊢
      rw [List.foldl_append, ih, Editor.foldl_text, Line.insertAll_empty]
      rfl

omit [DecidableEq Window] in
/-- **A session follows an editor of its keys**: it has run the lines that were entered, and holds
the line that is edited. -/
theorem Held.edited (held : Held session.inputBuffer session.inputLen Line.empty)
    (events : List KeyboardEvent) : ∃ inputBuffer inputLen,
      fed files session events =
        (session.executed files (Editor.run (events.map some)).entered).withInput inputBuffer
          inputLen ∧
      Held inputBuffer inputLen (Editor.run (events.map some)).line := by
  induction events using List.reverseRecOn with
  | nil => exact ⟨_, _, rfl, held⟩
  | append_singleton events event ih =>
      obtain ⟨inputBuffer, inputLen, before, held'⟩ := ih
      rw [fed_snoc, before, List.map_append, List.map_singleton, Editor.run_concat]
      unfold Editor.handle
      generalize Editor.run (events.map some) = editor at held' ⊢
      by_cases enter : IsEnter (some event)
      · obtain ⟨inputBuffer', inputLen', next, empty⟩ := @Held.enter _ files
          ((session.executed files editor.entered).withInput inputBuffer inputLen) _ held' _ enter
        rw [if_pos enter]
        refine ⟨inputBuffer', inputLen', ?_, empty⟩
        rw [next, TerminalSession.executeLine_withInput _ editor.line.short]
        unfold TerminalSession.executed
        rw [List.foldl_append]
        rfl
      · obtain ⟨inputBuffer', inputLen', next, typed⟩ := @Held.type _ files
          ((session.executed files editor.entered).withInput inputBuffer inputLen) _ held' _ enter
        rw [if_neg enter]
        exact ⟨inputBuffer', inputLen', next, typed⟩

end Sessions

/-! ## Opened terminals -/

section Opened

variable {made : List Window} {desktop : Desktop Window}

/-- The terminals of a desktop were begun, and nothing was typed. -/
structure Fresh (made : List Window) (desktop : Desktop Window) : Prop where
  keyboard : Remembers Decoder.released desktop.keyboard
  held : ∀ window ∈ made, Held (desktop.terminals window).session.inputBuffer
    (desktop.terminals window).session.inputLen Line.empty
  layers : ∀ window ∈ desktop.scene.layers, window ∈ made

/-- A terminal window that is initialised is begun. -/
theorem Fresh.init (fresh : Fresh made desktop) (pointer : Window) {endpointId : UInt32}
    (nonzero : endpointId ≠ 0) (title : Option CString) (x y width height ownerTaskId : UInt32) :
    Fresh (pointer :: made) (wmTerminalWindowInit desktop (some pointer) title x y width height
      endpointId ownerTaskId) := by
  refine ⟨fresh.keyboard, ?_,
    fun window member => List.mem_cons_of_mem _ (fresh.layers window member)⟩
  intro window member
  change Held (Function.update desktop.terminals pointer _ window).session.inputBuffer
    (Function.update desktop.terminals pointer _ window).session.inputLen Line.empty
  by_cases same : window = pointer
  · rw [same, Function.update_self]
    exact (@follows_init _ (fun _ => ⟨false, [], fun _ => 0, 0⟩)
      (desktop.terminals pointer).session _ nonzero (some pointer)).held
  · rw [Function.update_of_ne same]
    exact fresh.held window (List.mem_of_ne_of_mem same member)

/-- **Setting up** leaves terminals that nothing was typed into. -/
theorem Fresh.setUp (fresh : Fresh made desktop) {setup : List (DesktopOp Window)}
    (setsUp : SetsUp made setup)
    (succeed : ∀ answer ∈ desktops.results desktop setup, answer ≠ .status false) :
    ∃ made', Fresh made' (desktops.state desktop setup) := by
  induction setup generalizing made desktop with
  | nil => exact ⟨made, fresh⟩
  | cons op ops ih =>
      have later : ∀ answer ∈ desktops.results (desktops.step desktop op).2 ops,
          answer ≠ .status false := fun answer member =>
            succeed answer (List.mem_cons_of_mem _ member)
      cases op with
      | init terminalWindow title x y width height endpointId ownerTaskId =>
          cases terminalWindow with
          | none => exact absurd setsUp id
          | some pointer =>
              obtain ⟨_, nonzero, rest⟩ := setsUp
              exact ih (fresh.init pointer nonzero title x y width height ownerTaskId) rest later
      | attach terminalWindow =>
          cases terminalWindow with
          | none => exact absurd setsUp id
          | some pointer =>
              obtain ⟨member, rest⟩ := setsUp
              have attaches : (wmTerminalWindowAttach desktop (some pointer)).1 = true := by
                have answer := succeed _ List.mem_cons_self
                change DesktopAnswer.status (wmTerminalWindowAttach desktop (some pointer)).1 ≠ _
                  at answer
                rcases Bool.eq_false_or_eq_true
                  (wmTerminalWindowAttach desktop (some pointer)).1 with
                  success | failure
                · exact success
                · exact absurd (congrArg DesktopAnswer.status failure) answer
              obtain ⟨bindings, scene, keyboardBindings, _, added, _, after⟩ :=
                attach_success attaches
              have next : Fresh made (wmTerminalWindowAttach desktop (some pointer)).2 := by
                rw [after]
                refine ⟨fresh.keyboard, fresh.held, ?_⟩
                intro window inside
                change window ∈ scene.layers at inside
                rcases addWindow_cases desktop.native desktop.scene (some pointer) with refused |
                  ⟨other, named, _, _, _, accepted⟩
                · cases added.symm.trans refused
                · obtain rfl : scene = _ := (Prod.mk.inj (added.symm.trans accepted)).2
                  rcases List.mem_append.mp inside with before | new
                  · exact fresh.layers window before
                  · rw [List.mem_singleton.mp new, ← Option.some.inj named]
                    exact member
              exact ih next rest later
      | _ => exact absurd setsUp id

theorem fresh_cleared (start : Desktop Window) (backgroundColor : UInt32) :
    Fresh [] (cleared start backgroundColor) :=
  ⟨⟨rfl, rfl⟩, fun _ member => absurd member List.not_mem_nil,
    fun _ member => absurd member List.not_mem_nil⟩

end Opened

/-! ## Lines that are typed -/

section Typing

variable {endpoint : Window → UInt32} {attached : List Window} {opened desktop : Desktop Window}
  {log : List (Option Window × KeyboardEvent)}

/-- A desktop with nothing in its queue can be taken as the one where things begin. -/
theorem Routed.rebase (routed_ : Routed endpoint attached opened log desktop)
    (drained : desktop.keyboard.ring.count = 0) : Routed endpoint attached desktop [] desktop := by
  have empty : waiting desktop = [] := by
    unfold waiting KeyboardState.pending
    rw [RingIndex.contents_eq_nil drained]
    rfl
  refine ⟨routed_.wired, routed_.valid, routed_.waits, rfl, [], (List.append_nil _).symm, ?_,
    fun _ => rfl⟩
  rw [empty]
  rfl

/-- A run between moments with nothing in the queue feeds every session its own keys. -/
theorem Routed.fed_run (routed_ : Routed endpoint attached opened log desktop)
    (drained : desktop.keyboard.ring.count = 0) {ops : List (DesktopOp Window)}
    (input : ∀ op ∈ ops, op.IsInput)
    (drained' : (desktops.state desktop ops).keyboard.ring.count = 0) :
    (desktops.state desktop ops).handled = desktop.handled ++ routed (accepted desktop ops) ∧
      ∀ window, ((desktops.state desktop ops).terminals window).session =
        fed desktop.files (desktop.terminals window).session
          (eventsOf window (routed (accepted desktop ops))) := by
  have ends := (routed_.rebase drained).run input
  obtain ⟨delivered, handled, sums, sessions⟩ := ends.given
  have empty : waiting (desktops.state desktop ops) = [] := by
    unfold waiting KeyboardState.pending
    rw [RingIndex.contents_eq_nil drained']
    rfl
  rw [empty, List.nil_append] at sums
  have all : delivered = routed (accepted desktop ops) := by
    rw [← sums]
    exact (List.append_nil _).symm
  rw [← all]
  exact ⟨handled, sessions⟩

/-- Terminals that were set up are where a run begins. -/
theorem SettingUp.begins {made : List Window} (settingUp : SettingUp made attached desktop) :
    Routed desktop.endpoint attached desktop [] desktop where
  wired := settingUp.wired
  valid := settingUp.valid
  waits := by
    rw [settingUp.waits]
    exact fun entry member => absurd member List.not_mem_nil
  files := rfl
  given := by
    refine ⟨[], (List.append_nil _).symm, ?_, fun _ => rfl⟩
    rw [settingUp.waits]
    rfl

omit [DecidableEq Window] in
theorem SettingUp.drained {made : List Window} (settingUp : SettingUp made attached desktop) :
    desktop.keyboard.ring.count = 0 := by
  have waits := congrArg List.length settingUp.waits
  unfold waiting KeyboardState.pending at waits
  rwa [List.length_map, RingIndex.length_contents] at waits

omit [DecidableEq Window] in
/-- The calls of users who type lines are input. -/
theorem isInput_typed {ops : List (DesktopOp Window)} {lines : List (Window × Line)}
    (typed : ops.filter DesktopOp.IsKey = lines.flatMap typeLine) : ∀ op ∈ ops, op.IsInput := by
  intro op member
  by_cases key : op.IsKey = true
  · have inside : op ∈ lines.flatMap typeLine := by
      rw [← typed]
      exact List.mem_filter.mpr ⟨member, key⟩
    obtain ⟨entry, _, inside⟩ := List.mem_flatMap.mp inside
    rcases List.mem_cons.mp inside with rfl | scancode
    · trivial
    · obtain ⟨_, _, rfl⟩ := List.mem_map.mp scancode
      trivial
  · cases op <;> trivial

omit [DecidableEq Window] in
theorem routed_lines (lines : List (Window × Line)) :
    routed (lines.flatMap fun entry => entry.2.events.map fun event => (some entry.1, event)) =
      lines.flatMap fun entry => entry.2.events.map fun event => (entry.1, event) := by
  induction lines with
  | nil => rfl
  | cons entry lines ih => rw [List.flatMap_cons, List.flatMap_cons, routed_append, routed_some, ih]

/-- Where all keys are served, every session has followed an editor of its own. -/
theorem SettingUp.edited_run {made made' : List Window} (settingUp : SettingUp made attached opened)
    (fresh : Fresh made' opened) {run : List (DesktopOp Window)} (input : ∀ op ∈ run, op.IsInput)
    (drained : (desktops.state opened run).keyboard.ring.count = 0)
    {keys : List (Option Window × KeyboardEvent)} (taken : accepted opened run = keys) :
    (desktops.state opened run).handled = opened.handled ++ routed keys ∧
      ∀ window ∈ opened.scene.layers, ∃ inputBuffer inputLen,
        ((desktops.state opened run).terminals window).session =
          ((opened.terminals window).session.executed opened.files
            (Editor.run ((eventsOf window (routed keys)).map some)).entered).withInput inputBuffer
              inputLen ∧
        Held inputBuffer inputLen (Editor.run ((eventsOf window (routed keys)).map some)).line := by
  obtain ⟨handled, sessions⟩ := settingUp.begins.fed_run settingUp.drained input drained
  rw [taken] at handled sessions
  refine ⟨handled, ?_⟩
  intro window member
  obtain ⟨inputBuffer, inputLen, ran, held⟩ := @Held.edited _ opened.files _
    (fresh.held window (fresh.layers window member)) (eventsOf window (routed keys))
  exact ⟨inputBuffer, inputLen, (sessions window).trans ran, held⟩

end Typing

/-- **Typed lines run where they were typed.** Users turn from terminal to terminal and type a
line with ENTER into each; the loop may serve the keyboard at any moments in between, also when
another terminal is active already. Where no key is lost and all are served at the end, every
session has run its own lines in order, and holds an empty one. -/
theorem typed_lines_run (start : Desktop Window) (backgroundColor : UInt32)
    (setup run : List (DesktopOp Window)) (lines : List (Window × Line)) (setsUp : SetsUp [] setup)
    (succeed : ∀ answer ∈ desktops.results (cleared start backgroundColor) setup,
      answer ≠ .status false)
    (typed : run.filter DesktopOp.IsKey = lines.flatMap typeLine)
    (answered : ∀ answer ∈ desktops.results
      (desktops.state (cleared start backgroundColor) setup) run, answer ≠ .status false)
    (drained : (desktops.state (desktops.state (cleared start backgroundColor) setup)
      run).keyboard.ring.count = 0) :
    let opened := desktops.state (cleared start backgroundColor) setup
    let final := desktops.state opened run
    (final.handled = opened.handled ++
        lines.flatMap fun entry => entry.2.events.map fun event => (entry.1, event)) ∧
      ∀ window ∈ opened.scene.layers, ∃ inputBuffer inputLen,
        (final.terminals window).session =
          ((opened.terminals window).session.executed opened.files
            (linesOf window lines)).withInput inputBuffer inputLen ∧
        Held inputBuffer inputLen Line.empty := by
  intro opened final
  obtain ⟨made, attached, settingUp⟩ := (settingUp_cleared start backgroundColor).run setsUp succeed
  obtain ⟨made', fresh⟩ := (fresh_cleared start backgroundColor).setUp setsUp succeed
  have input := isInput_typed typed
  have attending : Attending Decoder.released opened.scene.active opened :=
    ⟨settingUp.valid, fresh.keyboard, rfl⟩
  have taken := attending.accepted input answered
  rw [typed, typedEvents_lines] at taken
  obtain ⟨handled, sessions⟩ := settingUp.edited_run fresh input drained taken
  rw [routed_lines] at handled
  refine ⟨handled, ?_⟩
  intro window member
  obtain ⟨inputBuffer, inputLen, ran, held⟩ := sessions window member
  rw [eventsOf_lines, Editor.run_lines] at ran held
  exact ⟨inputBuffer, inputLen, ran, held⟩

/-- A line of characters. -/
def Line.ofChars (chars : List Char)
    (printable : ∀ byte ∈ chars.map fun ch => UInt8.ofNat ch.toNat, 0x20 ≤ byte ∧ byte ≤ 0x7e)
    (short : (chars.map fun ch => UInt8.ofNat ch.toNat).length < terminalSessionInputCap) : Line :=
  ⟨_, printable, short⟩

/-- A line for each of two terminals, and the first key is served when the second terminal is
active already. -/
theorem typed_lines_run_two :
    (desktops.state (desktops.state (cleared (Desktop.zero : Desktop Bool) 0)
        [.init (some false) none 28 28 236 156 1 101, .init (some true) none 108 76 236 156 2 202,
          .attach (some false), .attach (some true)])
      [.activate (some false), .scancode 0x1e, .scancode 0x9e, .scancode 0x1c, .scancode 0x9c,
        .activate (some true), .dispatchPending, .scancode 0x2a, .scancode 0x30, .scancode 0xb0,
        .scancode 0xaa, .scancode 0x1c, .dispatchPending, .scancode 0x9c]).handled.map
        (fun entry => (entry.1, entry.2.text, entry.2.control)) =
      [(false, 0x61, 0), (false, 0, 1), (true, 0x42, 0), (true, 0, 1)] := by
  obtain ⟨handled, _⟩ := typed_lines_run (Desktop.zero : Desktop Bool) 0
    [.init (some false) none 28 28 236 156 1 101, .init (some true) none 108 76 236 156 2 202,
      .attach (some false), .attach (some true)]
    [.activate (some false), .scancode 0x1e, .scancode 0x9e, .scancode 0x1c, .scancode 0x9c,
      .activate (some true), .dispatchPending, .scancode 0x2a, .scancode 0x30, .scancode 0xb0,
      .scancode 0xaa, .scancode 0x1c, .dispatchPending, .scancode 0x9c]
    [(false, Line.ofChars ['a'] (by decide +kernel) (by decide +kernel)),
      (true, Line.ofChars ['B'] (by decide +kernel) (by decide +kernel))]
    ⟨by decide, by decide, by decide, by decide, by decide, by decide, trivial⟩ (by decide +kernel)
    rfl (by decide +kernel) (by decide +kernel)
  rw [handled]
  decide +kernel

/-! ## The multi-terminal test -/

/-- The characters that the test can type. -/
def Typable (ch : UInt8) : Prop := scancodeForChar ch ≠ 0

instance : DecidablePred Typable := fun ch => inferInstanceAs (Decidable (scancodeForChar ch ≠ 0))

/-- A text up to the first character that cannot be typed. -/
def typablePart (text : List UInt8) : List UInt8 := text.takeWhile fun ch => Typable ch

theorem typablePart_cons {ch : UInt8} (typable : Typable ch) (text : List UInt8) :
    typablePart (ch :: text) = ch :: typablePart text := by
  unfold typablePart
  rw [List.takeWhile_cons, if_pos (decide_eq_true typable)]

theorem typablePart_cons_neg {ch : UInt8} (typable : ¬ Typable ch) (text : List UInt8) :
    typablePart (ch :: text) = [] := by
  unfold typablePart
  rw [List.takeWhile_cons, if_neg (by rwa [decide_eq_true_iff])]

theorem typablePart_eq_self {text : List UInt8} :
    typablePart text = text ↔ ∀ ch ∈ text, Typable ch := by
  unfold typablePart
  rw [List.takeWhile_eq_self_iff]
  simp only [decide_eq_true_iff]

theorem typable_of_mem_typablePart {ch : UInt8} {text : List UInt8}
    (member : ch ∈ typablePart text) : Typable ch := by
  have holds := @List.mem_takeWhile_imp _ (fun ch => decide (Typable ch)) _ _ member
  exact of_decide_eq_true holds

/-- The calls for a character. -/
def emitOps (ch : UInt8) : List (DesktopOp Window) :=
  [.scancode (scancodeForChar ch), .dispatchPending]

section Emit

variable {endpoint : Window → UInt32} {attached : List Window} {opened desktop : Desktop Window}
  {log : List (Option Window × KeyboardEvent)} {active : Option Window} {scancode : UInt8}
  {files : FileSlot → DynamicFile} {session : TerminalSession Window} {line : Line}

/-- The scancode of a character that can be typed is decoded to it. -/
theorem Typable.decode {ch : UInt8} (typable : Typable ch) :
    Decoder.released.decode (scancodeForChar ch) = (some (textKey ch), Decoder.released) := by
  have all : ∀ n < 256, Typable (UInt8.ofNat n) →
      Decoder.released.decode (scancodeForChar (UInt8.ofNat n)) =
        (some (textKey (UInt8.ofNat n)), Decoder.released) := by decide +kernel
  have here := all ch.toNat ch.toNat_lt
  rw [UInt8.ofNat_toNat] at here
  exact here typable

/-- A desktop at rest: its keys were served, and no key is held. -/
structure Resting (endpoint : Window → UInt32) (attached : List Window) (opened : Desktop Window)
    (log : List (Option Window × KeyboardEvent)) (active : Option Window)
    (desktop : Desktop Window) :
    Prop where
  routed : Routed endpoint attached opened log desktop
  attending : Attending Decoder.released active desktop
  drained : desktop.keyboard.ring.count = 0

/-- A scancode that leaves nothing held is served at once, and leaves the desktop at rest. -/
theorem Resting.emit (resting : Resting endpoint attached opened log active desktop)
    (some_ : scancode ≠ 0) (released : (Decoder.released.decode scancode).2 = Decoder.released) :
    emitScancode desktop scancode =
        (true, desktops.state desktop [.scancode scancode, .dispatchPending]) ∧
      (∀ answer ∈ desktops.results desktop [.scancode scancode, .dispatchPending],
        answer ≠ .status false) ∧
      ∃ log, Resting endpoint attached opened log active
        (desktops.state desktop [.scancode scancode, .dispatchPending]) := by
  obtain ⟨routed_, attending, drained⟩ := resting
  have room : ∀ event, (keyboardQueuePush
      (desktop.keyboard.remember (Decoder.released.decode scancode).2) event
        desktop.scene.active).1 = true := by
    intro event
    unfold keyboardQueuePush
    have few : ¬ keyboardEventQueueCapacity ≤
        (desktop.keyboard.remember (Decoder.released.decode scancode).2).ring.count := by
      change ¬ _ ≤ desktop.keyboard.ring.count
      rw [drained]
      decide
    rw [if_neg few]
  have status :
      (keyboardHandleScancode desktop.keyboard desktop.scene.active scancode).1 = true := by
    rw [attending.remembers.handle]
    cases (Decoder.released.decode scancode).1 with
    | none => rfl
    | some event => exact room event
  have taken : (desktops.step desktop (.scancode scancode)).1 ≠ .status false := by
    change DesktopAnswer.status
      (keyboardHandleScancode desktop.keyboard desktop.scene.active scancode).1 ≠ _
    rw [status]
    exact fun same => by cases same
  obtain ⟨attending', _⟩ := attending.scancode taken
  rw [released] at attending'
  have next := @Routed.step _ _ _ _ _ _ _ routed_ (.scancode scancode) trivial
  have served := @Routed.step _ _ _ _ _ _ _ next .dispatchPending trivial
  refine ⟨?_, ?_, _, served, attending'.loop _ 0, (next.loop _ 0 le_rfl).2⟩
  · unfold emitScancode
    rw [if_neg some_]
    simp only [status]
    rfl
  · intro answer member
    rcases List.mem_cons.mp member with rfl | member
    · exact taken
    · rw [List.mem_singleton.mp member]
      exact fun same => by cases same

/-- A text is typed up to the first character that cannot be. -/
theorem Resting.emitText (resting : Resting endpoint attached opened log active desktop)
    (text : List UInt8) :
    TigerOS.Tty.emitText desktop text = (decide (typablePart text = text),
        desktops.state desktop ((typablePart text).flatMap emitOps)) ∧
      (∀ answer ∈ desktops.results desktop ((typablePart text).flatMap emitOps),
        answer ≠ .status false) ∧
      ∃ log, Resting endpoint attached opened log active
        (desktops.state desktop ((typablePart text).flatMap emitOps)) := by
  induction text generalizing log desktop with
  | nil => exact ⟨rfl, fun _ member => absurd member List.not_mem_nil, log, resting⟩
  | cons ch text ih =>
      unfold TigerOS.Tty.emitText
      by_cases typable : Typable ch
      · obtain ⟨emitted, answered, log', resting'⟩ := resting.emit typable
          (congrArg Prod.snd typable.decode)
        obtain ⟨typed, answered', last⟩ := ih resting'
        rw [typablePart_cons typable, List.flatMap_cons]
        simp only [emitted, typed]
        refine ⟨?_, ?_, ?_⟩
        · rw [Machine.state_append]
          simp only [List.cons.injEq, true_and]
          rfl
        · rw [Machine.results_append]
          intro answer member
          rcases List.mem_append.mp member with now | later
          · exact answered answer now
          · exact answered' answer later
        · rw [Machine.state_append]
          exact last
      · have none_ : scancodeForChar ch = 0 := not_not.mp typable
        have refused : emitScancode desktop (scancodeForChar ch) = (false, desktop) := by
          unfold emitScancode
          rw [if_pos none_]
        rw [typablePart_cons_neg typable]
        simp only [refused]
        refine ⟨?_, fun _ member => absurd member List.not_mem_nil, log, resting⟩
        rw [decide_eq_false (List.cons_ne_nil _ _).symm]
        rfl

omit [DecidableEq Window] in
/-- What a text that can be typed says. -/
theorem typedEvents_emitOps {text : List UInt8} (typable : ∀ ch ∈ text, Typable ch)
    (rest : List (DesktopOp Window)) :
    typedEvents Decoder.released active ((text.flatMap emitOps ++ rest).filter DesktopOp.IsKey) =
      text.map (fun ch => (active, textKey ch)) ++
        typedEvents Decoder.released active (rest.filter DesktopOp.IsKey) := by
  induction text with
  | nil => rfl
  | cons ch text ih =>
      have decoded := (typable ch List.mem_cons_self).decode
      have keys : ((ch :: text).flatMap emitOps ++ rest).filter DesktopOp.IsKey =
          .scancode (scancodeForChar ch) ::
            (text.flatMap emitOps ++ rest).filter DesktopOp.IsKey := rfl
      rw [keys, typedEvents, decoded]
      exact congrArg _ (ih fun other member => typable other (List.mem_cons_of_mem _ member))

/-- What is typed between two moments at rest goes to the active terminal. -/
theorem Resting.feed {window : Window}
    (resting : Resting endpoint attached opened log (some window) desktop)
    {ops : List (DesktopOp Window)} (input : ∀ op ∈ ops, op.IsInput)
    (answered : ∀ answer ∈ desktops.results desktop ops, answer ≠ .status false)
    (drained : (desktops.state desktop ops).keyboard.ring.count = 0) {events : List KeyboardEvent}
    (said : typedEvents Decoder.released (some window) (ops.filter DesktopOp.IsKey) =
      events.map fun event => (some window, event)) :
    (desktops.state desktop ops).handled =
        desktop.handled ++ events.map (fun event => (window, event)) ∧
      ∀ other, ((desktops.state desktop ops).terminals other).session =
        TigerOS.Tty.fed desktop.files (desktop.terminals other).session
          (if window = other then events else []) := by
  obtain ⟨handled, sessions⟩ := resting.routed.fed_run resting.drained input drained
  rw [resting.attending.accepted input answered, said, routed_some] at handled sessions
  refine ⟨handled, ?_⟩
  intro other
  rw [sessions other, eventsOf_map]

omit [DecidableEq Window] in
/-- A session that holds a line holds one after any events. -/
theorem Held.fed (held : Held session.inputBuffer session.inputLen line)
    (events : List KeyboardEvent) : ∃ line, Held (fed files session events).inputBuffer
      (TigerOS.Tty.fed files session events).inputLen line := by
  induction events using List.reverseRecOn with
  | nil => exact ⟨line, held⟩
  | append_singleton events event ih =>
      obtain ⟨before, held⟩ := ih
      rw [fed_snoc]
      by_cases enter : IsEnter (some event)
      · obtain ⟨_, _, next, after⟩ := @Held.enter _ files _ _ held _ enter
        rw [next]
        exact ⟨_, after⟩
      · obtain ⟨_, _, next, after⟩ := @Held.type _ files _ _ held _ enter
        rw [next]
        exact ⟨_, after⟩

omit [DecidableEq Window] in
/-- ENTER runs the line that a session holds. -/
theorem Held.runs {inputBuffer : ℕ → UInt8} {inputLen : UInt32}
    (held : Held inputBuffer inputLen line) : ∃ inputBuffer' inputLen',
      ((session.withInput inputBuffer inputLen).handleEvent files (some enterKey)).2 =
        (session.executeLine files (some line.toCString)).2.withInput inputBuffer' inputLen' ∧
      Held inputBuffer' inputLen' Line.empty := by
  obtain ⟨inputBuffer', inputLen', ran, empty⟩ := @Held.enter _ files
    (session.withInput inputBuffer inputLen) _ held (some enterKey) ⟨rfl, rfl⟩
  refine ⟨inputBuffer', inputLen', ?_, empty⟩
  rw [ran, TerminalSession.executeLine_withInput _ line.short]
  rfl

omit [DecidableEq Window] in
/-- A scancode that is served at once is input. -/
theorem isInput_emit (scancode : UInt8) :
    ∀ op ∈ ([.scancode scancode, .dispatchPending] : List (DesktopOp Window)), op.IsInput := by
  intro op member
  rcases List.mem_cons.mp member with rfl | member
  · trivial
  · rw [List.mem_singleton.mp member]
    trivial

end Emit

/-- **The multi-terminal test types into the active terminal.** On a desktop at rest, `emit_text`
types the characters of a text up to the first one that has no scancode, and tells whether it was
all of them; `emit_enter` runs what is in the line then. No other session sees a key. -/
theorem emitText_types (start : Desktop Window) (backgroundColor : UInt32)
    (setup before : List (DesktopOp Window)) (setsUp : SetsUp [] setup)
    (succeed : ∀ answer ∈ desktops.results (cleared start backgroundColor) setup,
      answer ≠ .status false)
    (input : ∀ op ∈ before, op.IsInput) (desktop : Desktop Window)
    (reached : desktop = desktops.state
      (desktops.state (cleared start backgroundColor) setup) before)
    (drained : desktop.keyboard.ring.count = 0)
    (released : Remembers Decoder.released desktop.keyboard)
    (window : Window) (active : desktop.scene.active = some window) (text : List UInt8) :
    let session := (desktop.terminals window).session
    let typed := emitText desktop text
    let entered := emitEnter typed.2
    (typed.1 = true ↔ ∀ ch ∈ text, Typable ch) ∧ entered.1 = true ∧
      (typed.2.handled = desktop.handled ++
        (typablePart text).map fun ch => (window, textKey ch)) ∧
      (∃ line : Line, line.toCString = session.input ∧
        (∃ inputBuffer inputLen, (typed.2.terminals window).session =
            session.withInput inputBuffer inputLen ∧
          Held inputBuffer inputLen (line.insertAll (typablePart text))) ∧
        ∃ inputBuffer inputLen, (entered.2.terminals window).session =
            (session.executeLine desktop.files
              (some (line.insertAll (typablePart text)).toCString)).2.withInput inputBuffer
                inputLen ∧
          Held inputBuffer inputLen Line.empty) ∧
      ∀ other, other ≠ window →
        (typed.2.terminals other).session = (desktop.terminals other).session ∧
          (entered.2.terminals other).session = (desktop.terminals other).session := by
  intro session typed entered
  obtain ⟨made, attached, settingUp⟩ := (settingUp_cleared start backgroundColor).run setsUp succeed
  obtain ⟨made', fresh⟩ := (fresh_cleared start backgroundColor).setUp setsUp succeed
  revert reached settingUp fresh
  generalize desktops.state (cleared start backgroundColor) setup = opened
  intro reached settingUp fresh
  have routed_ := settingUp.begins.run input
  rw [← reached] at routed_
  have resting : Resting opened.endpoint attached opened _ (some window) desktop :=
    ⟨routed_, ⟨routed_.valid, released, active⟩, drained⟩
  obtain ⟨emits, answered, log, rested⟩ := resting.emitText text
  obtain ⟨enters, answered', log', rested'⟩ :=
    @Resting.emit _ _ _ _ _ _ _ _ 0x1c rested (by decide) (by decide)
  have typedInput : ∀ op ∈ (typablePart text).flatMap (@emitOps Window), op.IsInput := by
    intro op member
    obtain ⟨ch, _, member⟩ := List.mem_flatMap.mp member
    exact isInput_emit (scancodeForChar ch) op member
  have said := @typedEvents_emitOps _ (some window) (typablePart text)
    (fun _ member => typable_of_mem_typablePart member) []
  rw [List.append_nil, List.filter_nil, typedEvents, List.append_nil] at said
  obtain ⟨handled, sessions⟩ := @Resting.feed _ _ _ _ _ _ _ _ resting _ typedInput answered
    rested.drained ((typablePart text).map textKey) (said.trans (List.map_map ..).symm)
  obtain ⟨_, sessions'⟩ := @Resting.feed _ _ _ _ _ _ _ _ rested _ (isInput_emit 0x1c) answered'
    rested'.drained [enterKey] rfl
  have typedState : typed.2 = desktops.state desktop ((typablePart text).flatMap emitOps) :=
    congrArg Prod.snd emits
  have files : typed.2.files = desktop.files := by
    rw [typedState]
    exact rested.routed.files.trans routed_.files.symm
  rw [← typedState] at handled sessions sessions' enters
  have enteredState : entered = (true, desktops.state typed.2 [.scancode 0x1c, .dispatchPending]) :=
    enters
  refine ⟨?_, congrArg Prod.fst enteredState, ?_, ?_, ?_⟩
  · have told : typed.1 = decide (typablePart text = text) := congrArg Prod.fst emits
    rw [told, ← typablePart_eq_self]
    exact decide_eq_true_iff
  · rw [handled, List.map_map]
    rfl
  · obtain ⟨delivered, _, _, own⟩ := routed_.given
    have member : window ∈ made' :=
      fresh.layers window (settingUp.layers ▸ routed_.wired.active window active)
    obtain ⟨line, held⟩ := @Held.fed _ opened.files _ _ (fresh.held window member)
      (eventsOf window delivered)
    rw [← own window] at held
    obtain ⟨inputBuffer, inputLen, typedSession, held'⟩ :=
      @Held.typeText _ desktop.files _ _ held (typablePart text)
    have here := sessions window
    rw [if_pos rfl, typedSession] at here
    refine ⟨line, held.input.symm, ⟨inputBuffer, inputLen, here, held'⟩, ?_⟩
    obtain ⟨inputBuffer', inputLen', ran, empty⟩ := @Held.runs _ desktop.files session _ _ _ held'
    refine ⟨inputBuffer', inputLen', ?_, empty⟩
    rw [enteredState]
    have there := sessions' window
    rw [if_pos rfl, here, files] at there
    exact there.trans ran
  · intro other apart
    have before := sessions other
    have after := sessions' other
    rw [if_neg apart.symm] at before after
    rw [enteredState]
    exact ⟨before, after.trans before⟩

/-- A text whose fourth character cannot be typed, into the first of two terminals. -/
theorem emitText_types_two :
    (emitText (desktops.state (desktops.state (cleared (Desktop.zero : Desktop Bool) 0)
        [.init (some false) none 28 28 236 156 1 101, .init (some true) none 108 76 236 156 2 202,
          .attach (some false), .attach (some true)]) [.activate (some false)])
        (ascii "cd .t")).2.handled.map (fun entry => (entry.1, entry.2.text)) =
      [(false, 0x63), (false, 0x64), (false, 0x20)] := by
  obtain ⟨_, _, handled, _⟩ := emitText_types (Desktop.zero : Desktop Bool) 0
    [.init (some false) none 28 28 236 156 1 101, .init (some true) none 108 76 236 156 2 202,
      .attach (some false), .attach (some true)] [.activate (some false)]
    ⟨by decide, by decide, by decide, by decide, by decide, by decide, trivial⟩ (by decide +kernel)
    (by simp [DesktopOp.IsInput]) _ rfl (by decide +kernel) ⟨by decide +kernel, by decide +kernel⟩
    false (by decide +kernel) (ascii "cd .t")
  rw [handled]
  decide +kernel

end TigerOS.Tty
