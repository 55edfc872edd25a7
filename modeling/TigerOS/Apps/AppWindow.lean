import TigerOS.Wm.Drag

/-! # Application windows

An application opens a window for one of its tasks, with a function to call on events.
The drags notify a task, and the task's binding names the window whose function is
called. A window and its native window start at the same address, so one type of
pointers serves for both. Every call of such a function is kept in order.
-/

namespace TigerOS.Apps

open Foundation TigerOS.Input TigerOS.Wm

/-- `app_window_event_type_t`. -/
inductive AppWindowEventType where
  | move
  | pointerDown
  | pointerUp
  | drag
  deriving DecidableEq

/-- `app_window_event_t`. -/
structure AppWindowEvent where
  type : AppWindowEventType
  input : InputEvent
  deriving DecidableEq

/-- `app_window_desc_t`. -/
structure AppWindowDesc where
  title : Option CString
  x : UInt32
  y : UInt32
  width : UInt32
  height : UInt32

/-- `task_control_block_t`, of which only the number is read. -/
structure TaskControlBlock where
  id : UInt32
  deriving DecidableEq

/-- `app_window_t` without its native window, over the functions of applications and
what their pointers point to. -/
structure AppWindow (Callback Context : Type) where
  ownerTask : Option TaskControlBlock
  onEvent : Option Callback
  userCtx : Context

/-- `app_window_binding_t`. -/
structure AppWindowBinding (Window : Type) where
  taskId : UInt32
  appWindow : Option Window
  deriving DecidableEq

/-- A call of a window's function, with its arguments. -/
structure Invocation (Window Callback Context : Type) where
  onEvent : Callback
  window : Window
  event : AppWindowEvent
  userCtx : Context
  deriving DecidableEq

/-- The globals and the windows of applications, with the calls of their functions so
far. The table is the first entries of its array, as many as its count. -/
structure AppMemory (Window Callback Context : Type) where
  bindings : List (AppWindowBinding Window)
  apps : Window → AppWindow Callback Context
  invoked : List (Invocation Window Callback Context)

/-- The desktop of applications. -/
abbrev AppDesktop (Window Callback Context : Type) : Type :=
  DragDesktop Window (AppMemory Window Callback Context)

section Apps

variable {Window Callback Context : Type} [DecidableEq Window]

/-- `find_binding`, as an index. -/
def findBinding (bindings : List (AppWindowBinding Window)) (taskId : UInt32) : Option ℕ :=
  if taskId = 0 then none else bindings.findIdx? fun binding => binding.taskId = taskId

/-- `app_window_event_map`. -/
def appWindowEventMap : WmDispatchEventType → AppWindowEventType
  | .clickDown => .pointerDown
  | .clickUp => .pointerUp
  | .drag => .drag
  | .move => .move

/-- `app_window_dispatch_cb`. -/
def appWindowDispatchCb : WmDragDispatchFn (AppMemory Window Callback Context) :=
  fun taskId dispatchType event memory =>
    match (findBinding memory.bindings taskId).bind fun index => memory.bindings[index]? with
    | none => memory
    | some binding =>
        match binding.appWindow with
        | none => memory
        | some pointer =>
            match (memory.apps pointer).onEvent with
            | none => memory
            | some onEvent =>
                { memory with
                  invoked := memory.invoked ++
                    [⟨onEvent, pointer, ⟨appWindowEventMap dispatchType, event⟩,
                      (memory.apps pointer).userCtx⟩] }

variable (desktop : AppDesktop Window Callback Context)

/-- `app_window_reset`. -/
def appWindowReset : AppDesktop Window Callback Context :=
  { desktop with
    memory :=
      { desktop.memory with
        bindings := [] }
    drag :=
      { (wmDragReset : WmDragState Window (AppMemory Window Callback Context)) with
        dispatchFn := some appWindowDispatchCb } }

/-- What `app_window_open` writes into the window. -/
def appWindowInit (pointer : Window) (desc : AppWindowDesc) (app : AppWindow Callback Context) :
    AppDesktop Window Callback Context :=
  { desktop with
    windows := Function.update desktop.windows pointer
      (wmWindowInit desc.title desc.x desc.y desc.width desc.height)
    memory :=
      { desktop.memory with
        apps := Function.update desktop.memory.apps pointer app } }

/-- What `app_window_open` writes into the table. -/
def bindApp (bindings : List (AppWindowBinding Window)) (taskId : UInt32) (pointer : Window) :
    Bool × List (AppWindowBinding Window) :=
  match findBinding bindings taskId with
  | some index =>
      (true, bindings.modify index fun binding => { binding with appWindow := some pointer })
  | none =>
      if wmMaxWindows ≤ bindings.length then (false, bindings)
      else (true, bindings ++ [⟨taskId, some pointer⟩])

/-- `app_window_open`. -/
def appWindowOpen (appWindow : Option Window) (desc : Option AppWindowDesc)
    (ownerTask : Option TaskControlBlock) (onEvent : Option Callback) (userCtx : Context) :
    Bool × AppDesktop Window Callback Context :=
  match appWindow, desc, ownerTask, onEvent with
  | some pointer, some desc, some owner, some onEvent =>
      if owner.id = 0 then (false, desktop)
      else
        let desktop := appWindowInit desktop pointer desc ⟨some owner, some onEvent, userCtx⟩
        match wmCompositorAddWindow desktop.windows desktop.scene (some pointer) with
        | (false, _) => (false, desktop)
        | (true, scene) =>
            match wmDragRegisterWindow desktop.drag (some pointer) owner.id with
            | (false, _) => (false, { desktop with scene := scene })
            | (true, drag) =>
                let (status, bindings) := bindApp desktop.memory.bindings owner.id pointer
                (status, { desktop with
                  scene := scene
                  drag := drag
                  memory :=
                    { desktop.memory with
                      bindings := bindings } })
  | _, _, _, _ => (false, desktop)

/-- `app_window_dispatch_pending`. -/
def appWindowDispatchPending : UInt32 × AppDesktop Window Callback Context :=
  wmDragDispatchPending desktop

end Apps

/-! ## The machine of application windows -/

/-- Opening windows, filling the queue of the mouse and dispatching it. -/
inductive AppOp (Window Callback Context : Type) where
  | open (appWindow : Option Window) (desc : Option AppWindowDesc)
    (ownerTask : Option TaskControlBlock) (onEvent : Option Callback) (userCtx : Context)
  | mouse (call : MouseCall)
  | dispatchPending

/-- What a call answers. -/
inductive AppAnswer where
  | opened (succeeded : Bool)
  | status (succeeded : Bool)
  | processed (count : UInt32)
  deriving DecidableEq

section Machine

variable {Window Callback Context : Type} [DecidableEq Window]

def appStep (desktop : AppDesktop Window Callback Context) :
    AppOp Window Callback Context → AppAnswer × AppDesktop Window Callback Context
  | .open appWindow desc ownerTask onEvent userCtx =>
      (appWindowOpen desktop appWindow desc ownerTask onEvent userCtx).map .opened id
  | .mouse call => (desktop.mouseCall call).map .status id
  | .dispatchPending => (appWindowDispatchPending desktop).map .processed id

/-- Application windows as a machine answering calls. -/
def appWindows :
    Machine (AppDesktop Window Callback Context) (AppOp Window Callback Context) AppAnswer :=
  ⟨appStep⟩

end Machine

end TigerOS.Apps
