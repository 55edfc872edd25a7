import TigerOS.Wm.Window

/-! # The stack of windows

The compositor keeps pointers to windows from the back to the front, and the
focus a pointer to the active one. A pointer is a value of a type `Window`, and
`none` is the null pointer; what the windows hold is a store that the functions
which follow pointers read. A status of `0` is modelled as `true`.
-/

namespace TigerOS.Wm

open Foundation

abbrev wmMaxWindows : ℕ := 8

/-- `g_scene` with `g_active_window`. The layers are the first `count` pointers of
their array. -/
structure WmScene (Window : Type) where
  backgroundColor : UInt32
  layers : List Window
  active : Option Window

section Scene

variable {Window : Type} [DecidableEq Window] (windows : Window → WmWindow) (scene : WmScene Window)

/-- `wm_layers_index_of`. -/
def wmLayersIndexOf (layers : List Window) (window : Option Window) : Option ℕ :=
  window.bind fun window => layers.findIdx? (· = window)

/-- `wm_layers_push_back`. -/
def wmLayersPushBack (layers : List Window) (window : Option Window) : Option (List Window) :=
  match window with
  | none => none
  | some window => if wmMaxWindows ≤ layers.length then none else some (layers ++ [window])

/-- `wm_layers_move_to_front`: the windows in front of the moving one each go one
place back. -/
def wmLayersMoveToFront (layers : List Window) (window : Option Window) : Option (List Window) :=
  match wmLayersIndexOf layers window with
  | none => none
  | some index =>
      if index = layers.length - 1 then some layers
      else some (layers.eraseIdx index ++ (layers[index]?).toList)

/-- `wm_compositor_reset`. -/
def wmCompositorReset (backgroundColor : UInt32) : WmScene Window := ⟨backgroundColor, [], none⟩

/-- `wm_compositor_add_window`. -/
def wmCompositorAddWindow (window : Option Window) : Bool × WmScene Window :=
  match window with
  | none => (false, scene)
  | some pointer =>
      if ¬ (windows pointer).IsValid then (false, scene)
      else if (wmLayersIndexOf scene.layers window).isSome then (false, scene)
      else
        match wmLayersPushBack scene.layers window with
        | none => (false, scene)
        | some layers => (true, { scene with layers := layers, active := window })

/-- `wm_compositor_activate_window`. -/
def wmCompositorActivateWindow (window : Option Window) : Bool × WmScene Window :=
  match wmLayersMoveToFront scene.layers window with
  | none => (false, scene)
  | some layers => (true, { scene with layers := layers, active := window })

/-- `wm_focus_hit_test`, and `wm_compositor_hit_test`: the layers from the front to
the back. -/
def wmCompositorHitTest (x y : UInt32) : Option Window :=
  scene.layers.reverse.find? fun window => wmPointInRect (windows window).frame x y

/-- `wm_compositor_activate_at`. -/
def wmCompositorActivateAt (x y : UInt32) : Bool × WmScene Window :=
  match wmCompositorHitTest windows scene x y with
  | none => (false, scene)
  | some window => wmCompositorActivateWindow scene (some window)

end Scene

end TigerOS.Wm
