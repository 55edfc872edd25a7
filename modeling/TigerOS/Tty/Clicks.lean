import TigerOS.Tty.Typing
import TigerOS.Wm.DragPath

/-! # Keyboard and mouse together

The keyboard and the mouse have a queue and a table each, and share nothing but the scene. What the
mouse does to it is seen by the keyboard as the windows that presses bring to the front
(`TigerOS.Tty.told_run`), wherever windows are dragged meanwhile. So each key goes to the terminal
that a press was last served for, whatever comes in between, and every session follows an editor
of its own keys (`TigerOS.Tty.clicked_lines_run`).
-/

namespace TigerOS.Tty

open Foundation TigerOS.Shell TigerOS.Input TigerOS.Wm

variable {Window Memory : Type} [DecidableEq Window]

/-! ## The screen -/

/-- The globals of the desktop with those of the mouse and the drags. -/
structure Screen (Window Memory : Type) where
  desktop : Desktop Window
  mouse : MouseState
  queue : InputEventQueue
  drag : WmDragState Window Memory
  memory : Memory
  seen : List (SeenEvent Window)

/-- A desktop whose windows have other contents for the compositor. -/
def Desktop.reframe (desktop : Desktop Window) (windows : Window → WmWindow) : Desktop Window :=
  { desktop with
    terminals := fun pointer =>
      { desktop.terminals pointer with
        window := windows pointer } }

/-- What the drags work on. -/
def Screen.pointing (screen : Screen Window Memory) : DragDesktop Window Memory where
  windows := screen.desktop.native
  scene := screen.desktop.scene
  mouse := screen.mouse
  queue := screen.queue
  drag := screen.drag
  memory := screen.memory
  seen := screen.seen

/-- The screen after the drags worked on it. -/
def Screen.pointed (screen : Screen Window Memory) (pointing : DragDesktop Window Memory) :
    Screen Window Memory where
  desktop := { screen.desktop.reframe pointing.windows with scene := pointing.scene }
  mouse := pointing.mouse
  queue := pointing.queue
  drag := pointing.drag
  memory := pointing.memory
  seen := pointing.seen

/-- The calls on the screen. -/
inductive ScreenOp (Window Memory : Type) where
  | keyboard (op : DesktopOp Window)
  | pointer (op : DragOp Window Memory)

def screenStep (screen : Screen Window Memory) :
    ScreenOp Window Memory → (DesktopAnswer ⊕ DragAnswer) × Screen Window Memory
  | .keyboard op =>
      let (answer, desktop) := desktopStep screen.desktop op
      (.inl answer, { screen with desktop := desktop })
  | .pointer op => (dragStep screen.pointing op).map .inr screen.pointed

/-- The screen as a machine answering calls. -/
def screens : Machine (Screen Window Memory) (ScreenOp Window Memory)
    (DesktopAnswer ⊕ DragAnswer) :=
  ⟨screenStep⟩

/-- The calls of users and of the loops that serve them. -/
def ScreenOp.IsInput : ScreenOp Window Memory → Prop
  | .keyboard op => op.IsInput
  | .pointer (.mouse _) => True
  | .pointer .dispatchPending => True
  | _ => False

/-! ## What the desktop is told -/

/-- The window that an event brings to the front. -/
def raisedBy (desktop : DragDesktop Window Memory) (event : InputEvent) : Option Window :=
  if event.type = .mouseButtonDown then
    (desktop.drag.bindingOf (desktop.hit event.x event.y)).map WmDragBinding.window
  else none

/-- The windows that events bring to the front. -/
def raised : DragDesktop Window Memory → List InputEvent → List Window
  | _, [] => []
  | desktop, event :: events =>
      (raisedBy desktop event).toList ++ raised (wmDragProcessEvent desktop event) events

/-- The calls that bring windows to the front. -/
def activations (windows : List Window) : List (DesktopOp Window) :=
  windows.map fun window => .activate (some window)

/-- What a call on the screen is to the desktop. -/
def toldBy (screen : Screen Window Memory) : ScreenOp Window Memory → List (DesktopOp Window)
  | .keyboard op => [op]
  | .pointer .dispatchPending => activations (raised screen.pointing screen.queue.pending)
  | .pointer _ => []

/-- What calls on the screen are to the desktop. -/
def told : Screen Window Memory → List (ScreenOp Window Memory) → List (DesktopOp Window)
  | _, [] => []
  | screen, op :: ops => toldBy screen op ++ told (screens.step screen op).2 ops

section Reframe

variable (desktop : Desktop Window) (windows : Window → WmWindow)

/-- What the compositor sees of a window does not matter to its session. -/
theorem handleKey_reframe (pointer : Window) (event : KeyboardEvent) :
    wmTerminalWindowHandleKey (desktop.reframe windows) pointer event =
      (wmTerminalWindowHandleKey desktop pointer event).reframe windows := by
  unfold wmTerminalWindowHandleKey Desktop.reframe
  simp only [Desktop.mk.injEq, true_and, and_true]
  funext other
  by_cases same : other = pointer
  · rw [same, Function.update_self, Function.update_self]
  · rw [Function.update_of_ne same, Function.update_of_ne same]

theorem dispatchEvent_reframe (endpointId : UInt32) (event : KeyboardEvent) :
    wmTerminalWindowDispatchEvent (desktop.reframe windows) endpointId event =
      (wmTerminalWindowDispatchEvent desktop endpointId event).reframe windows := by
  have bindings : (desktop.reframe windows).terminalBindings = desktop.terminalBindings := rfl
  unfold wmTerminalWindowDispatchEvent
  rw [bindings]
  cases (findBindingByEndpoint desktop.terminalBindings endpointId).bind fun index =>
      desktop.terminalBindings[index]? with
  | none => rfl
  | some binding => exact handleKey_reframe desktop windows binding.window event

theorem dispatchToWindowEndpoint_reframe (focus : Option Window) (event : KeyboardEvent) :
    dispatchToWindowEndpoint (desktop.reframe windows) focus event =
      (dispatchToWindowEndpoint desktop focus event).reframe windows := by
  have sink : (desktop.reframe windows).sink = desktop.sink := rfl
  have bindings : (desktop.reframe windows).keyboardBindings = desktop.keyboardBindings := rfl
  unfold dispatchToWindowEndpoint
  rw [sink, bindings]
  cases desktop.sink with
  | none => rfl
  | some sink =>
      simp only
      cases (findBindingByWindow desktop.keyboardBindings focus).bind fun index =>
          desktop.keyboardBindings[index]? with
      | none => rfl
      | some binding => exact dispatchEvent_reframe desktop windows binding.endpointId event

theorem dispatchLoop_reframe (rounds : ℕ) (processed : UInt32) :
    dispatchLoop rounds processed (desktop.reframe windows) =
      ((dispatchLoop rounds processed desktop).1,
        (dispatchLoop rounds processed desktop).2.reframe windows) := by
  induction rounds generalizing desktop processed with
  | zero => rfl
  | succ rounds ih =>
      have popped : keyboardPopEvent (desktop.reframe windows).keyboard =
        keyboardPopEvent desktop.keyboard := rfl
      unfold dispatchLoop
      rw [popped]
      generalize keyboardPopEvent desktop.keyboard = popped
      obtain ⟨_ | ⟨event, focus⟩, keyboard⟩ := popped
      · rfl
      · have step := dispatchToWindowEndpoint_reframe { desktop with keyboard := keyboard } windows
          focus event
        simp only
        rw [← ih, ← step]
        rfl

theorem desktopStep_reframe {op : DesktopOp Window} (input : op.IsInput) :
    desktops.step (desktop.reframe windows) op =
      ((desktops.step desktop op).1, (desktops.step desktop op).2.reframe windows) := by
  cases op with
  | scancode scancode => rfl
  | activate window => rfl
  | dispatchPending =>
      have loop := dispatchLoop_reframe desktop windows desktop.keyboard.ring.count 0
      change (dispatchLoop desktop.keyboard.ring.count 0 (desktop.reframe windows)).map
        DesktopAnswer.processed id = _
      rw [loop]
      rfl
  | _ => exact absurd input id

/-- The answers of calls do not depend on it, and the calls leave it. -/
theorem desktops_reframe {ops : List (DesktopOp Window)} (input : ∀ op ∈ ops, op.IsInput) :
    desktops.results (desktop.reframe windows) ops = desktops.results desktop ops ∧
      desktops.state (desktop.reframe windows) ops =
        (desktops.state desktop ops).reframe windows := by
  induction ops generalizing desktop with
  | nil => exact ⟨rfl, rfl⟩
  | cons op ops ih =>
      have step := desktopStep_reframe desktop windows (input op List.mem_cons_self)
      obtain ⟨answers, last⟩ := ih (desktops.step desktop op).2
        fun op member => input op (List.mem_cons_of_mem _ member)
      rw [Machine.results_cons, Machine.state_cons, step, answers, last]
      exact ⟨rfl, rfl⟩

end Reframe

section Raised

variable {event : InputEvent} {window : Window}

/-- An event changes the scene as bringing a window to the front does, if it brings one. -/
theorem handleEvent_raises (desktop : DragDesktop Window Memory) (event : InputEvent) :
    (handleEvent desktop event).scene = (raisedBy desktop event).elim desktop.scene fun window =>
      (wmCompositorActivateWindow desktop.scene (some window)).2 := by
  unfold handleEvent raisedBy
  cases event.type with
  | mouseMove =>
      rw [if_neg (by decide)]
      simp only [processMouseMove]
      split
      · split
        · exact dispatchToTask_scene _ _ _ _
        · exact dispatchToTask_scene _ _ _ _
      · exact dispatchToTask_scene _ _ _ _
  | mouseButtonDown =>
      have under : desktop.drag.binding (findBindingAt desktop event.x event.y) =
          desktop.drag.bindingOf (desktop.hit event.x event.y) := binding_find _ _
      rw [if_pos rfl, ← under]
      simp only [processMouseButtonDown]
      cases desktop.drag.binding (findBindingAt desktop event.x event.y) with
      | none => rfl
      | some binding =>
          simp only
          split
          · exact dispatchToTask_scene _ _ _ _
          · exact dispatchToTask_scene _ _ _ _
  | mouseButtonUp =>
      rw [if_neg (by decide)]
      simp only [processMouseButtonUp]
      split
      · exact dispatchToTask_scene _ _ _ _
      · exact dispatchToTask_scene _ _ _ _

/-- Such a window is in the scene. -/
theorem raisedBy_activates {desktop : DragDesktop Window Memory}
    (raises : raisedBy desktop event = some window) :
    (wmCompositorActivateWindow desktop.scene (some window)).1 = true := by
  unfold raisedBy at raises
  split at raises
  · obtain ⟨binding, bound, rfl⟩ := Option.map_eq_some_iff.mp raises
    cases hit : desktop.hit event.x event.y with
    | none =>
        rw [hit] at bound
        cases bound
    | some window =>
        rw [hit] at bound
        have inside : window ∈ desktop.scene.layers.reverse :=
          List.mem_of_find?_eq_some (show desktop.scene.layers.reverse.find? _ = _ from hit)
        rw [bindingOf_window bound, activate_eq, if_pos (List.mem_reverse.mp inside)]
  · cases raises

theorem raised_cons (desktop : DragDesktop Window Memory) (event : InputEvent)
    (events : List InputEvent) : raised desktop (event :: events) =
      (raisedBy desktop event).toList ++ raised (wmDragProcessEvent desktop event) events := rfl

/-- **Events are to the scene** what bringing windows to the front is, one by one. -/
theorem eagerly_raised (pointing : DragDesktop Window Memory) (desktop : Desktop Window)
    (same : desktop.scene = pointing.scene) (events : List InputEvent) :
    desktops.state desktop (activations (raised pointing events)) =
        { desktop with scene := (eagerly.state pointing events).scene } ∧
      ∀ answer ∈ desktops.results desktop (activations (raised pointing events)),
        answer ≠ .status false := by
  induction events generalizing pointing desktop with
  | nil =>
      refine ⟨?_, fun _ member => absurd member List.not_mem_nil⟩
      change desktop = { desktop with scene := pointing.scene }
      rw [← same]
  | cons event events ih =>
      have scene : (wmDragProcessEvent pointing event).scene = _ :=
        handleEvent_raises pointing event
      rw [raised_cons]
      cases raises : raisedBy pointing event with
      | none =>
          rw [raises] at scene
          exact ih (wmDragProcessEvent pointing event) desktop (same.trans scene.symm)
      | some window =>
          rw [raises] at scene
          have step : desktops.step desktop (.activate (some window)) =
              (.status true,
                { desktop with scene := (wmDragProcessEvent pointing event).scene }) := by
            rw [scene]
            change (DesktopAnswer.status (wmCompositorActivateWindow desktop.scene (some window)).1,
              { desktop with
                scene := (wmCompositorActivateWindow desktop.scene (some window)).2 }) = _
            rw [same, raisedBy_activates raises]
            rfl
          obtain ⟨last, answered⟩ := ih (wmDragProcessEvent pointing event)
            { desktop with scene := (wmDragProcessEvent pointing event).scene } rfl
          have more : activations ((some window).toList ++
              raised (wmDragProcessEvent pointing event) events) = .activate (some window) ::
                activations (raised (wmDragProcessEvent pointing event) events) := rfl
          rw [more, Machine.state_cons, Machine.results_cons, step]
          refine ⟨last, ?_⟩
          intro answer member
          rcases List.mem_cons.mp member with rfl | member
          · exact fun refused => by cases refused
          · exact answered answer member

end Raised

/-! ## Runs -/

section Runs

variable {screen : Screen Window Memory} {ops : List (ScreenOp Window Memory)}

omit [DecidableEq Window] in
theorem isInput_activations (windows : List Window) : ∀ op ∈ activations windows, op.IsInput := by
  intro op member
  obtain ⟨window, _, rfl⟩ := List.mem_map.mp member
  trivial

/-- What the desktop is told is input. -/
theorem told_isInput (input : ∀ op ∈ ops, op.IsInput) : ∀ op ∈ told screen ops, op.IsInput := by
  induction ops generalizing screen with
  | nil => exact fun _ member => absurd member List.not_mem_nil
  | cons op ops ih =>
      intro told member
      rcases List.mem_append.mp member with here | later
      · have now := input op List.mem_cons_self
        cases op with
        | keyboard op =>
            rw [List.mem_singleton.mp here]
            exact now
        | pointer op =>
            cases op with
            | dispatchPending => exact isInput_activations _ told here
            | _ => exact absurd here List.not_mem_nil
      · exact ih (fun op member => input op (List.mem_cons_of_mem _ member)) told later

/-- A call on the screen is to the sessions what the desktop is told. -/
theorem toldBy_step (valid : screen.queue.Valid) {op : ScreenOp Window Memory} (input : op.IsInput)
    (answered : (screens.step screen op).1 ≠ .inl (.status false)) :
    (screens.step screen op).2.queue.Valid ∧
      (screens.step screen op).2.desktop =
        (desktops.state screen.desktop (toldBy screen op)).reframe
        (screens.step screen op).2.desktop.native ∧
      ∀ answer ∈ desktops.results screen.desktop (toldBy screen op), answer ≠ .status false := by
  cases op with
  | keyboard op =>
      refine ⟨valid, rfl, ?_⟩
      intro answer member refused
      rw [List.mem_singleton.mp member] at refused
      exact answered (congrArg Sum.inl refused)
  | pointer op =>
      cases op with
      | mouse call =>
          exact ⟨mouseStep_valid valid screen.mouse call, rfl,
            fun _ member => absurd member List.not_mem_nil⟩
      | dispatchPending =>
          have valid' : screen.pointing.queue.Valid := valid
          obtain ⟨turned, answers⟩ := eagerly_raised screen.pointing screen.desktop rfl
            screen.queue.pending
          refine ⟨dispatchPending_valid valid', ?_, answers⟩
          have scene : (wmDragDispatchPending screen.pointing).2.scene =
              (eagerly.state screen.pointing screen.queue.pending).scene := by
            rw [dispatchPending_eq valid', processes_eagerly]
            rfl
          change ({ screen.desktop.reframe (wmDragDispatchPending screen.pointing).2.windows with
              scene := (wmDragDispatchPending screen.pointing).2.scene } : Desktop Window) =
            (desktops.state screen.desktop (activations _)).reframe _
          rw [turned, scene]
          rfl
      | _ => exact absurd input id

/-- **The mouse is to the sessions** a way to turn to terminals. -/
theorem told_run (valid : screen.queue.Valid) (input : ∀ op ∈ ops, op.IsInput)
    (answered : ∀ answer ∈ screens.results screen ops, answer ≠ .inl (.status false)) :
    (screens.state screen ops).desktop = (desktops.state screen.desktop (told screen ops)).reframe
        (screens.state screen ops).desktop.native ∧
      ∀ answer ∈ desktops.results screen.desktop (told screen ops), answer ≠ .status false := by
  induction ops generalizing screen with
  | nil => exact ⟨rfl, fun _ member => absurd member List.not_mem_nil⟩
  | cons op ops ih =>
      obtain ⟨valid', step, answers⟩ := toldBy_step valid (input op List.mem_cons_self)
        (answered _ List.mem_cons_self)
      have input' : ∀ op ∈ ops, op.IsInput :=
        fun op member => input op (List.mem_cons_of_mem _ member)
      obtain ⟨last, answers'⟩ := ih valid' input'
        fun answer member => answered answer (List.mem_cons_of_mem _ member)
      -- the calls that come later do not see where windows were dragged before
      obtain ⟨alike, reframed⟩ := desktops_reframe
        (desktops.state screen.desktop (toldBy screen op))
        (screens.step screen op).2.desktop.native (told_isInput input')
      rw [← step] at alike reframed
      change (screens.state (screens.step screen op).2 ops).desktop =
          (desktops.state screen.desktop (toldBy screen op ++ told _ ops)).reframe
            (screens.state (screens.step screen op).2 ops).desktop.native ∧
        ∀ answer ∈ desktops.results screen.desktop (toldBy screen op ++ told _ ops), _
      rw [Machine.state_append, Machine.results_append]
      refine ⟨?_, ?_⟩
      · rw [reframed] at last
        exact last
      · intro answer member
        rcases List.mem_append.mp member with here | later
        · exact answers answer here
        · rw [← alike] at later
          exact answers' answer later

end Runs

/-! ## Clicking and typing -/

/-- **What is typed on a screen with a mouse.** Users press on windows, drag them and type, in any
order and with the mouse and the keyboard served at any moments in between, each on its own. A key
goes to the terminal that is in front when it is typed, which a press moves there once the mouse is
served. Where no key is lost and all are served at the end, every session has run the lines that an
editor of its own keys has entered, in order, and holds what was typed since. -/
theorem clicked_lines_run (start : Desktop Window) (backgroundColor : UInt32)
    (setup : List (DesktopOp Window)) (setsUp : SetsUp [] setup)
    (succeed : ∀ answer ∈ desktops.results (cleared start backgroundColor) setup,
      answer ≠ .status false)
    (opened : Screen Window Memory)
    (opens : opened.desktop = desktops.state (cleared start backgroundColor) setup)
    (queue : InputEventQueue) (reset : opened.queue = inputEventQueueReset queue)
    (run : List (ScreenOp Window Memory)) (input : ∀ op ∈ run, op.IsInput)
    (answered : ∀ answer ∈ screens.results opened run, answer ≠ .inl (.status false))
    (drained : (screens.state opened run).desktop.keyboard.ring.count = 0) :
    let keys := typedEvents Decoder.released opened.desktop.scene.active
      ((told opened run).filter DesktopOp.IsKey)
    let final := (screens.state opened run).desktop
    final.handled = opened.desktop.handled ++ routed keys ∧
      ∀ window ∈ opened.desktop.scene.layers,
        let editor := Editor.run ((eventsOf window (routed keys)).map some)
        ∃ inputBuffer inputLen,
          (final.terminals window).session =
            ((opened.desktop.terminals window).session.executed opened.desktop.files
              editor.entered).withInput inputBuffer inputLen ∧
          Held inputBuffer inputLen editor.line := by
  intro keys final
  have valid : opened.queue.Valid := by
    rw [reset]
    exact valid_inputEventQueueReset
  obtain ⟨alike, answered'⟩ := told_run valid input answered
  obtain ⟨made, attached, settingUp⟩ := (settingUp_cleared start backgroundColor).run setsUp succeed
  obtain ⟨made', fresh⟩ := (fresh_cleared start backgroundColor).setUp setsUp succeed
  rw [← opens] at settingUp fresh
  have attending : Attending Decoder.released opened.desktop.scene.active opened.desktop :=
    ⟨settingUp.valid, fresh.keyboard, rfl⟩
  have input' : ∀ op ∈ told opened run, op.IsInput := told_isInput input
  have taken : accepted opened.desktop (told opened run) = keys :=
    attending.accepted input' answered'
  have drained' : (desktops.state opened.desktop (told opened run)).keyboard.ring.count = 0 :=
    (congrArg (fun desktop => desktop.keyboard.ring.count) alike).symm.trans drained
  obtain ⟨handled, sessions⟩ := settingUp.edited_run fresh input' drained' taken
  refine ⟨(congrArg Desktop.handled alike).trans handled, ?_⟩
  intro window member
  obtain ⟨inputBuffer, inputLen, ran, held⟩ := sessions window member
  refine ⟨inputBuffer, inputLen, ?_, held⟩
  exact (congrArg (fun desktop => (desktop.terminals window).session) alike).trans ran

/-- Two terminals, bound to tasks, and a mouse that was reset. -/
def twoTerminals : Screen Bool Unit where
  desktop := desktops.state (cleared (Desktop.zero : Desktop Bool) 0)
    [.init (some false) none 28 28 236 156 1 101, .init (some true) none 108 76 236 156 2 202,
      .attach (some false), .attach (some true)]
  mouse := ⟨0, 0, 0⟩
  queue := inputEventQueueReset ⟨fun _ => ⟨.mouseMove, 0, 0, 0, 0⟩, RingIndex.empty⟩
  drag := ⟨[⟨false, 101⟩, ⟨true, 202⟩], none, 0, 0, none⟩
  memory := ()
  seen := []

/-- The first terminal is pressed and dragged while a line is typed. The press on the second comes
in the middle of the line and is served behind its second key, so that ENTER goes there; a last
press comes behind all keys. -/
def interruptedRun : List (ScreenOp Bool Unit) :=
  [.pointer (.mouse (.emitButtonDown 40 32 1)), .pointer .dispatchPending,
    .keyboard (.scancode 0x1e), .pointer (.mouse (.emitMove 60 90 1)), .keyboard (.scancode 0x9e),
    .pointer (.mouse (.emitButtonUp 60 90 1)), .pointer (.mouse (.emitButtonDown 340 80 1)),
    .keyboard (.scancode 0x30), .keyboard (.scancode 0xb0), .keyboard .dispatchPending,
    .pointer .dispatchPending, .keyboard (.scancode 0x1c), .keyboard (.scancode 0x9c),
    .keyboard (.scancode 0x2e), .keyboard .dispatchPending, .keyboard (.scancode 0xae),
    .pointer (.mouse (.emitButtonDown 40 200 1))]

theorem clicked_lines_run_two :
    (screens.state twoTerminals interruptedRun).desktop.handled.map
        (fun entry => (entry.1, entry.2.text, entry.2.control)) =
      [(false, 0x61, 0), (false, 0x62, 0), (true, 0, 1), (true, 0x63, 0)] ∧
    ∃ inputBuffer inputLen,
      ((screens.state twoTerminals interruptedRun).desktop.terminals true).session =
        ((twoTerminals.desktop.terminals true).session.executed twoTerminals.desktop.files
          [Line.empty]).withInput inputBuffer inputLen ∧
      readRange inputBuffer 0 inputLen.toNat = [0x63] := by
  obtain ⟨handled, sessions⟩ := clicked_lines_run (Desktop.zero : Desktop Bool) 0
    [.init (some false) none 28 28 236 156 1 101, .init (some true) none 108 76 236 156 2 202,
      .attach (some false), .attach (some true)]
    ⟨by decide, by decide, by decide, by decide, by decide, by decide, trivial⟩ (by decide +kernel)
    twoTerminals rfl _ rfl interruptedRun
    (by simp [interruptedRun, ScreenOp.IsInput, DesktopOp.IsInput])
    (by decide +kernel) (by decide +kernel)
  obtain ⟨inputBuffer, inputLen, ran, held⟩ := sessions true (by decide +kernel)
  refine ⟨?_, inputBuffer, inputLen, ?_, ?_⟩
  · rw [handled]
    decide +kernel
  · have entered : (Editor.run ((eventsOf true (routed (typedEvents Decoder.released
        twoTerminals.desktop.scene.active ((told twoTerminals interruptedRun).filter
          DesktopOp.IsKey)))).map some)).entered = [Line.empty] := by decide +kernel
    rw [ran, entered]
  · rw [held.text]
    decide +kernel

end TigerOS.Tty
