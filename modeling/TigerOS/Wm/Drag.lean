import TigerOS.Input.Mouse
import TigerOS.Wm.Render

/-! # Dragging windows

Mouse events go to the task of the front-most window under them, if that window is
registered. A press on a title bar makes the window the one that moves drag, until a
release. The function that tasks are notified by belongs to the program; it is a
parameter that works on memory of its own. Of every event that was processed it is
kept what was under it, and what it found and left in the memory of windows.
-/

namespace TigerOS.Wm

open Foundation TigerOS.Input

/-- `wm_dispatch_event_type_t`. -/
inductive WmDispatchEventType where
  | move
  | clickDown
  | clickUp
  | drag
  deriving DecidableEq

/-- `wm_drag_dispatch_fn`. -/
abbrev WmDragDispatchFn (Memory : Type) : Type :=
  UInt32 → WmDispatchEventType → InputEvent → Memory → Memory

/-- `wm_drag_binding_t`. -/
structure WmDragBinding (Window : Type) where
  window : Window
  taskId : UInt32
  deriving DecidableEq

/-- `wm_drag_state_t`. The table is the first entries of its array, as many as its
count, and a pointer into it an index. -/
structure WmDragState (Window Memory : Type) where
  bindings : List (WmDragBinding Window)
  dragBinding : Option ℕ
  dragOffsetX : UInt32
  dragOffsetY : UInt32
  dispatchFn : Option (WmDragDispatchFn Memory)

/-- An event that was processed: the front-most window under it, the window that was
being dragged, and the windows before it and after it. -/
structure SeenEvent (Window : Type) where
  event : InputEvent
  hit : Option Window
  dragged : Option Window
  before : Window → WmWindow
  after : Window → WmWindow

/-- The globals of the mouse, the scene and the drags, with the memory of windows and
of the program, and the events that were processed so far. -/
structure DragDesktop (Window Memory : Type) where
  windows : Window → WmWindow
  scene : WmScene Window
  mouse : MouseState
  queue : InputEventQueue
  drag : WmDragState Window Memory
  memory : Memory
  seen : List (SeenEvent Window)

/-- The desktop before the first call, of a program with some memory. -/
def DragDesktop.zero {Window Memory : Type} (memory : Memory) : DragDesktop Window Memory where
  windows := fun _ => ⟨none, ⟨0, 0, 0, 0⟩, ⟨0, 0, 0, 0, 0⟩⟩
  scene := ⟨0, [], none⟩
  mouse := ⟨0, 0, 0⟩
  queue := ⟨fun _ => ⟨.mouseMove, 0, 0, 0, 0⟩, RingIndex.empty⟩
  drag := ⟨[], none, 0, 0, none⟩
  memory := memory
  seen := []

section Drag

variable {Window Memory : Type} [DecidableEq Window]

/-! ## The table -/

/-- `wm_drag_reset`. -/
def wmDragReset : WmDragState Window Memory := ⟨[], none, 0, 0, none⟩

/-- `wm_drag_register_window`. -/
def wmDragRegisterWindow (drag : WmDragState Window Memory) (window : Option Window)
    (taskId : UInt32) : Bool × WmDragState Window Memory :=
  match window with
  | none => (false, drag)
  | some pointer =>
      if wmMaxWindows ≤ drag.bindings.length then (false, drag)
      else (true, { drag with bindings := drag.bindings ++ [⟨pointer, taskId⟩] })

/-- What a pointer into the table points to. -/
def WmDragState.binding (drag : WmDragState Window Memory) (index : Option ℕ) :
    Option (WmDragBinding Window) :=
  index.bind fun index => drag.bindings[index]?

/-- `find_binding_for_window`, as an index. -/
def findBindingForWindow (drag : WmDragState Window Memory) (window : Option Window) : Option ℕ :=
  window.bind fun window => drag.bindings.findIdx? fun binding => binding.window = window

variable (desktop : DragDesktop Window Memory)

/-- The window that `wm_compositor_hit_test` answers. -/
def DragDesktop.hit (x y : UInt32) : Option Window :=
  wmCompositorHitTest desktop.windows desktop.scene x y

/-- The window that is being dragged. -/
def DragDesktop.dragged : Option Window :=
  (desktop.drag.binding desktop.drag.dragBinding).map WmDragBinding.window

/-- `find_binding_at`, as an index. -/
def findBindingAt (x y : UInt32) : Option ℕ := findBindingForWindow desktop.drag (desktop.hit x y)

/-! ## Processing events -/

/-- `dispatch_to_task`. -/
def dispatchToTask (binding : Option ℕ) (dispatchType : WmDispatchEventType) (event : InputEvent) :
    DragDesktop Window Memory :=
  match desktop.drag.binding binding, desktop.drag.dispatchFn with
  | some binding, some dispatchFn =>
      { desktop with memory := dispatchFn binding.taskId dispatchType event desktop.memory }
  | _, _ => desktop

/-- A write of the place of a window's frame. -/
def DragDesktop.place (window : Window) (x y : UInt32) : DragDesktop Window Memory :=
  let content := desktop.windows window
  { desktop with
    windows := Function.update desktop.windows window
      { content with
        frame :=
          { content.frame with
            x := x
            y := y } } }

/-- `process_mouse_move`. -/
def processMouseMove (event : InputEvent) : DragDesktop Window Memory :=
  match desktop.drag.binding desktop.drag.dragBinding with
  | some binding =>
      if event.buttons &&& inputMouseButtonLeft ≠ 0 then
        dispatchToTask
          (desktop.place binding.window (safeSubU32 event.x desktop.drag.dragOffsetX)
            (safeSubU32 event.y desktop.drag.dragOffsetY))
          desktop.drag.dragBinding .drag event
      else dispatchToTask desktop (findBindingAt desktop event.x event.y) .move event
  | none => dispatchToTask desktop (findBindingAt desktop event.x event.y) .move event

/-- `process_mouse_button_down`. A click outside registered windows is left alone. -/
def processMouseButtonDown (event : InputEvent) : DragDesktop Window Memory :=
  let index := findBindingAt desktop event.x event.y
  match desktop.drag.binding index with
  | none => desktop
  | some binding =>
      let raised :=
        { desktop with scene := (wmCompositorActivateWindow desktop.scene (some binding.window)).2 }
      let notified := dispatchToTask raised index .clickDown event
      if event.button &&& inputMouseButtonLeft ≠ 0 ∧
          wmPointInRect (notified.windows binding.window).titleBarRect event.x event.y then
        { notified with
          drag :=
            { notified.drag with
              dragBinding := index
              dragOffsetX := event.x - (notified.windows binding.window).frame.x
              dragOffsetY := event.y - (notified.windows binding.window).frame.y } }
      else notified

/-- `process_mouse_button_up`. -/
def processMouseButtonUp (event : InputEvent) : DragDesktop Window Memory :=
  let index := desktop.drag.dragBinding.or (findBindingAt desktop event.x event.y)
  let notified := dispatchToTask desktop index .clickUp event
  if event.button &&& inputMouseButtonLeft ≠ 0 then
    { notified with
      drag :=
        { notified.drag with
          dragBinding := none } }
  else notified

/-- The handler that `wm_drag_process_event` picks. -/
def handleEvent (event : InputEvent) : DragDesktop Window Memory :=
  match event.type with
  | .mouseMove => processMouseMove desktop event
  | .mouseButtonDown => processMouseButtonDown desktop event
  | .mouseButtonUp => processMouseButtonUp desktop event

/-- `wm_drag_process_event`. -/
def wmDragProcessEvent (event : InputEvent) : DragDesktop Window Memory :=
  let handled := handleEvent desktop event
  { handled with
    seen := handled.seen ++
      [⟨event, desktop.hit event.x event.y, desktop.dragged, desktop.windows, handled.windows⟩] }

/-- The loop of `wm_drag_dispatch_pending`. Processing puts nothing into the queue, so
that the loop ends after as many rounds as events are pending. -/
def wmDragDispatchLoop :
    ℕ → UInt32 → DragDesktop Window Memory → UInt32 × DragDesktop Window Memory
  | 0, processedCount, desktop => (processedCount, desktop)
  | rounds + 1, processedCount, desktop =>
      match inputEventQueuePop desktop.queue with
      | (none, _) => (processedCount, desktop)
      | (some event, queue) =>
          wmDragDispatchLoop rounds (processedCount + 1)
            (wmDragProcessEvent { desktop with queue := queue } event)

/-- `wm_drag_dispatch_pending`. -/
def wmDragDispatchPending : UInt32 × DragDesktop Window Memory :=
  wmDragDispatchLoop desktop.queue.ring.count 0 desktop

end Drag

/-! ## The machine of the drags -/

/-- The calls on the mouse, the stack and the drags, and the writing of a window by
`wm_window_init`. -/
inductive DragOp (Window Memory : Type) where
  | dragReset
  | register (window : Option Window) (taskId : UInt32)
  | setDispatch (dispatchFn : Option (WmDragDispatchFn Memory))
  | windowInit (window : Window) (title : Option CString) (x y width height : UInt32)
  | scene (call : SceneOp Window)
  | mouse (call : MouseCall)
  | dispatchPending

/-- What a call answers. -/
inductive DragAnswer where
  | done
  | status (succeeded : Bool)
  | processed (count : UInt32)
  deriving DecidableEq

section Machine

variable {Window Memory : Type} [DecidableEq Window]

/-- A call of the mouse. -/
def DragDesktop.mouseCall (desktop : DragDesktop Window Memory) (call : MouseCall) :
    Bool × DragDesktop Window Memory :=
  let (status, mouse, queue) := mouseStep desktop.mouse desktop.queue call
  (status, { desktop with
    mouse := mouse
    queue := queue })

def dragStep (desktop : DragDesktop Window Memory) :
    DragOp Window Memory → DragAnswer × DragDesktop Window Memory
  | .dragReset => (.done, { desktop with drag := wmDragReset })
  | .register window taskId =>
      let (status, drag) := wmDragRegisterWindow desktop.drag window taskId
      (.status status, { desktop with drag := drag })
  | .setDispatch dispatchFn =>
      (.done, { desktop with
        drag :=
          { desktop.drag with
            dispatchFn := dispatchFn } })
  | .windowInit window title x y width height =>
      (.done, { desktop with
        windows := Function.update desktop.windows window (wmWindowInit title x y width height) })
  | .scene call =>
      let (status, scene) := sceneStep desktop.windows desktop.scene call
      (.status status, { desktop with scene := scene })
  | .mouse call => (desktop.mouseCall call).map .status id
  | .dispatchPending => (wmDragDispatchPending desktop).map .processed id

/-- The drags as a machine answering calls. -/
def drags : Machine (DragDesktop Window Memory) (DragOp Window Memory) DragAnswer := ⟨dragStep⟩

end Machine

end TigerOS.Wm
