import TigerOS.Foundation.Machine
import TigerOS.Wm.Scene
import TigerOS.Tty.Session

/-! # Terminals on the desktop

A key goes from the keyboard to a session by two tables: the window that was active
when it came names an endpoint, and the endpoint names a terminal window. A terminal
window and its native window start at the same address, so one type of pointers
serves for both. Every event that a session was given is kept in order.
-/

namespace TigerOS.Tty

open Foundation TigerOS.Shell TigerOS.Input TigerOS.Wm

/-- `wm_terminal_window_t`. -/
structure WmTerminalWindow (Window : Type) where
  window : WmWindow
  session : TerminalSession Window
  ownerTaskId : UInt32

/-- `keyboard_binding_t` and `terminal_dispatch_binding_t`: a window, or terminal
window, and an endpoint. -/
structure EndpointBinding (Window : Type) where
  window : Window
  endpointId : UInt32
  deriving DecidableEq

/-- The functions that `keyboard_dispatch_set_sink` is given. -/
inductive KeyboardSink where
  | wmTerminalWindowDispatchEvent
  deriving DecidableEq

/-- The globals of the keyboard, its dispatch, the terminal windows, the scene and
the files, with the memory of the terminal windows and the events that sessions
were given so far. A table is the first entries of its array, as many as its count. -/
structure Desktop (Window : Type) where
  keyboard : KeyboardState Window
  keyboardBindings : List (EndpointBinding Window)
  sink : Option KeyboardSink
  terminalBindings : List (EndpointBinding Window)
  scene : WmScene Window
  files : FileSlot → DynamicFile
  terminals : Window → WmTerminalWindow Window
  handled : List (Window × KeyboardEvent)

/-- The desktop before the first call. -/
def Desktop.zero {Window : Type} : Desktop Window where
  keyboard := ⟨fun _ => ⟨.text, 0, 0, 0, 0⟩, fun _ => none, RingIndex.empty, 0, false⟩
  keyboardBindings := []
  sink := none
  terminalBindings := []
  scene := ⟨0, [], none⟩
  files := PathStore.zero.files
  terminals := fun _ =>
    ⟨⟨none, ⟨0, 0, 0, 0⟩, ⟨0, 0, 0, 0, 0⟩⟩,
      ⟨0, none, PathStore.zero.context, fun _ => 0, 0, fun _ => [], 0, 0, 0, 0, []⟩, 0⟩
  handled := []

section Desktop

variable {Window : Type} [DecidableEq Window] (desktop : Desktop Window)

/-! ## The tables -/

/-- `find_binding_by_window`, and `find_binding` of the keyboard, as an index. -/
def findBindingByWindow (bindings : List (EndpointBinding Window)) (window : Option Window) :
    Option ℕ :=
  window.bind fun window => bindings.findIdx? fun binding => binding.window = window

/-- `find_binding_by_endpoint`, as an index. -/
def findBindingByEndpoint (bindings : List (EndpointBinding Window)) (endpointId : UInt32) :
    Option ℕ :=
  if endpointId = 0 then none
  else bindings.findIdx? fun binding => binding.endpointId = endpointId

/-- `keyboard_dispatch_register_window`. -/
def keyboardDispatchRegisterWindow (bindings : List (EndpointBinding Window))
    (window : Option Window) (endpointId : UInt32) : Bool × List (EndpointBinding Window) :=
  match window with
  | none => (false, bindings)
  | some pointer =>
      if endpointId = 0 then (false, bindings)
      else
        match findBindingByWindow bindings window with
        | some index => (true, bindings.set index ⟨pointer, endpointId⟩)
        | none =>
            if wmMaxWindows ≤ bindings.length then (false, bindings)
            else (true, bindings ++ [⟨pointer, endpointId⟩])

/-- `register_terminal_window` on the endpoint of the session. -/
def registerTerminalWindow (bindings : List (EndpointBinding Window)) (pointer : Window)
    (endpointId : UInt32) : Bool × List (EndpointBinding Window) :=
  if endpointId = 0 then (false, bindings)
  else
    match findBindingByWindow bindings (some pointer) with
    | some index =>
        match findBindingByEndpoint bindings endpointId with
        | some existing =>
            if existing ≠ index then (false, bindings)
            else (true, bindings.set index ⟨pointer, endpointId⟩)
        | none => (true, bindings.set index ⟨pointer, endpointId⟩)
    | none =>
        if (findBindingByEndpoint bindings endpointId).isSome then (false, bindings)
        else if wmMaxWindows ≤ bindings.length then (false, bindings)
        else (true, bindings ++ [⟨pointer, endpointId⟩])

/-- `unregister_terminal_window`: the last binding takes the place of the removed
one. -/
def unregisterTerminalWindow (bindings : List (EndpointBinding Window)) (pointer : Window) :
    List (EndpointBinding Window) :=
  match findBindingByWindow bindings (some pointer), bindings.getLast? with
  | some index, some last => (bindings.set index last).dropLast
  | _, _ => bindings

/-! ## Terminal windows -/

/-- The windows as the compositor reads them. -/
def Desktop.native (pointer : Window) : WmWindow := (desktop.terminals pointer).window

/-- `wm_terminal_window_init`. -/
def wmTerminalWindowInit (terminalWindow : Option Window) (title : Option CString)
    (x y width height endpointId ownerTaskId : UInt32) : Desktop Window :=
  match terminalWindow with
  | none => desktop
  | some pointer =>
      let window := wmWindowInit title x y width height
      let style : WmWindowStyle :=
        { window.style with
          titleBarColor := 0x003a4b69
          contentColor := 0x00f4f7fc }
      { desktop with
        terminals := Function.update desktop.terminals pointer
          { window := { window with style := style }
            session := (desktop.terminals pointer).session.init endpointId (some pointer)
            ownerTaskId := ownerTaskId } }

/-- `wm_terminal_window_attach`. -/
def wmTerminalWindowAttach (terminalWindow : Option Window) : Bool × Desktop Window :=
  match terminalWindow with
  | none => (false, desktop)
  | some pointer =>
      let endpointId := (desktop.terminals pointer).session.endpointId
      let wasRegistered := (findBindingByWindow desktop.terminalBindings terminalWindow).isSome
      match registerTerminalWindow desktop.terminalBindings pointer endpointId with
      | (false, _) => (false, desktop)
      | (true, bindings) =>
          match wmCompositorAddWindow desktop.native desktop.scene terminalWindow with
          | (false, _) =>
              if wasRegistered = true then (false, { desktop with terminalBindings := bindings })
              else
                (false,
                  { desktop with terminalBindings := unregisterTerminalWindow bindings pointer })
          | (true, scene) =>
              let (status, keyboardBindings) :=
                keyboardDispatchRegisterWindow desktop.keyboardBindings terminalWindow endpointId
              (status, { desktop with
                terminalBindings := bindings
                scene := scene
                keyboardBindings := keyboardBindings })

/-- `wm_terminal_window_handle_key` on a terminal window that is not null. -/
def wmTerminalWindowHandleKey (pointer : Window) (event : KeyboardEvent) : Desktop Window :=
  let terminal := desktop.terminals pointer
  { desktop with
    terminals := Function.update desktop.terminals pointer
      { terminal with session := (terminal.session.handleEvent desktop.files (some event)).2 }
    handled := desktop.handled ++ [(pointer, event)] }

/-- `wm_terminal_window_dispatch_event`. -/
def wmTerminalWindowDispatchEvent (endpointId : UInt32) (event : KeyboardEvent) : Desktop Window :=
  match (findBindingByEndpoint desktop.terminalBindings endpointId).bind fun index =>
      desktop.terminalBindings[index]? with
  | none => desktop
  | some binding => wmTerminalWindowHandleKey desktop binding.window event

/-! ## Dispatching keys -/

/-- `dispatch_to_window_endpoint`. -/
def dispatchToWindowEndpoint (focusWindow : Option Window) (event : KeyboardEvent) :
    Desktop Window :=
  match desktop.sink with
  | none => desktop
  | some .wmTerminalWindowDispatchEvent =>
      match (findBindingByWindow desktop.keyboardBindings focusWindow).bind fun index =>
          desktop.keyboardBindings[index]? with
      | none => desktop
      | some binding => wmTerminalWindowDispatchEvent desktop binding.endpointId event

/-- The loop of `keyboard_dispatch_pending`. A session puts nothing into the queue, so
that the loop ends after as many rounds as events are pending. -/
def dispatchLoop : ℕ → UInt32 → Desktop Window → UInt32 × Desktop Window
  | 0, processedCount, desktop => (processedCount, desktop)
  | rounds + 1, processedCount, desktop =>
      match keyboardPopEvent desktop.keyboard with
      | (none, _) => (processedCount, desktop)
      | (some (event, focusWindow), keyboard) =>
          dispatchLoop rounds (processedCount + 1)
            (dispatchToWindowEndpoint { desktop with keyboard := keyboard } focusWindow event)

/-- `keyboard_dispatch_pending`. -/
def keyboardDispatchPending : UInt32 × Desktop Window :=
  dispatchLoop desktop.keyboard.ring.count 0 desktop

end Desktop

/-! ## The machine of the desktop -/

/-- The calls on the desktop. -/
inductive DesktopOp (Window : Type) where
  | keyboardReset
  | keyboardDispatchReset
  | terminalDispatchReset
  | setSink (sink : Option KeyboardSink)
  | compositorReset (backgroundColor : UInt32)
  | init (terminalWindow : Option Window) (title : Option CString) (x y width height : UInt32)
    (endpointId ownerTaskId : UInt32)
  | attach (terminalWindow : Option Window)
  | scancode (scancode : UInt8)
  | activate (window : Option Window)
  | dispatchPending

/-- What a call answers. -/
inductive DesktopAnswer where
  | done
  | status (succeeded : Bool)
  | processed (count : UInt32)
  deriving DecidableEq

section Machine

variable {Window : Type} [DecidableEq Window]

def desktopStep (desktop : Desktop Window) : DesktopOp Window → DesktopAnswer × Desktop Window
  | .keyboardReset => (.done, { desktop with keyboard := keyboardReset desktop.keyboard })
  | .keyboardDispatchReset => (.done, { desktop with keyboardBindings := [], sink := none })
  | .terminalDispatchReset => (.done, { desktop with terminalBindings := [] })
  | .setSink sink => (.done, { desktop with sink := sink })
  | .compositorReset backgroundColor =>
      (.status true, { desktop with scene := wmCompositorReset backgroundColor })
  | .init terminalWindow title x y width height endpointId ownerTaskId =>
      (.done, wmTerminalWindowInit desktop terminalWindow title x y width height endpointId
        ownerTaskId)
  | .attach terminalWindow => (wmTerminalWindowAttach desktop terminalWindow).map .status id
  | .scancode scancode =>
      let (status, keyboard) :=
        keyboardHandleScancode desktop.keyboard desktop.scene.active scancode
      (.status status, { desktop with keyboard := keyboard })
  | .activate window =>
      let (status, scene) := wmCompositorActivateWindow desktop.scene window
      (.status status, { desktop with scene := scene })
  | .dispatchPending => (keyboardDispatchPending desktop).map .processed id

/-- The desktop as a machine answering calls. -/
def desktops : Machine (Desktop Window) (DesktopOp Window) DesktopAnswer := ⟨desktopStep⟩

end Machine

end TigerOS.Tty
