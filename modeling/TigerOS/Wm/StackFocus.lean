import TigerOS.Wm.DragSteps
import TigerOS.Wm.Layers

/-! # The stack and the focus

The array of the stack and the pointer to the active window are changed apart from each
other, by resets, adds, activations and clicks. After any of them the stack holds no
window twice and at most eight, the active window is the one in front, and every window
of the stack can be brought there (`TigerOS.Wm.stack_focus_agree`). The array is what the
desktop of the drags keeps its scene in (`TigerOS.Wm.drags_represented`), so that the
same holds after the calls of the desktop.
-/

namespace TigerOS.Wm

open Foundation TigerOS.Input

/-- What changes the stack or the focus: the calls of the compositor, and an event of the
mouse that is processed, each with what the windows and the table hold by then. -/
inductive StackOp (Window Memory : Type) where
  | reset (backgroundColor : UInt32)
  | add (contents : Window → WmWindow) (window : Option Window)
  | activate (window : Option Window)
  | activateAt (contents : Window → WmWindow) (x y : UInt32)
  | process (contents : Window → WmWindow) (drag : WmDragState Window Memory) (event : InputEvent)

section Machines

variable {Window Memory : Type} [DecidableEq Window]

/-- What processing an event does to the array and the focus: a press raises the window
of the binding that it hits. -/
def WmStack.process (stack : WmStack Window) (contents : Window → WmWindow)
    (drag : WmDragState Window Memory) (event : InputEvent) : WmStack Window :=
  match event.type with
  | .mouseButtonDown =>
      match drag.binding (findBindingForWindow drag (stack.hitTest contents event.x event.y)) with
      | none => stack
      | some binding => (stack.activateWindow (some binding.window)).2
  | _ => stack

/-- What processing an event does to the scene. -/
def WmScene.process (scene : WmScene Window) (contents : Window → WmWindow)
    (drag : WmDragState Window Memory) (event : InputEvent) : WmScene Window :=
  match event.type with
  | .mouseButtonDown =>
      match drag.binding (findBindingForWindow drag
        (wmCompositorHitTest contents scene event.x event.y)) with
      | none => scene
      | some binding => (wmCompositorActivateWindow scene (some binding.window)).2
  | _ => scene

/-- The array and the focus as a machine answering calls. -/
def layerStacks : Machine (WmStack Window) (StackOp Window Memory) Bool where
  step stack
    | .reset _ => (true, stack.reset)
    | .add contents window => stack.addWindow contents window
    | .activate window => stack.activateWindow window
    | .activateAt contents x y => stack.activateAt contents x y
    | .process contents drag event => (true, stack.process contents drag event)

/-- The scene as a machine answering the same calls. -/
def stackScenes : Machine (WmScene Window) (StackOp Window Memory) Bool where
  step scene
    | .reset backgroundColor => (true, wmCompositorReset backgroundColor)
    | .add contents window => wmCompositorAddWindow contents scene window
    | .activate window => wmCompositorActivateWindow scene window
    | .activateAt contents x y => wmCompositorActivateAt contents scene x y
    | .process contents drag event => (true, scene.process contents drag event)

/-- The array is simulated by the scene it represents. -/
def layerStacksSimulation :
    (layerStacks : Machine (WmStack Window) (StackOp Window Memory) Bool).Simulation stackScenes
      fun _ _ => True where
  related := Represents
  step := by
    intro stack scene op represents _
    cases op with
    | reset backgroundColor => exact ⟨rfl, holds_reset stack.layers, rfl⟩
    | add contents window => exact represents.addWindow contents window
    | activate window => exact represents.activateWindow window
    | activateAt contents x y => exact represents.activateAt contents x y
    | process contents drag event =>
        refine ⟨rfl, ?_⟩
        change Represents (stack.process contents drag event) (scene.process contents drag event)
        unfold WmStack.process WmScene.process
        rw [represents.hitTest]
        cases event.type with
        | mouseMove => exact represents
        | mouseButtonUp => exact represents
        | mouseButtonDown =>
            simp only
            cases drag.binding (findBindingForWindow drag
              (wmCompositorHitTest contents scene event.x event.y)) with
            | none => exact represents
            | some binding => exact (represents.activateWindow (some binding.window)).2

end Machines

/-! ## The invariant -/

section Invariant

variable {Window Memory : Type} [DecidableEq Window] {scene : WmScene Window}
  {stack : WmStack Window} {contents : Window → WmWindow}

/-- The windows of a scene are at most eight and apart, and the active one is in front. -/
structure Focused (scene : WmScene Window) : Prop where
  room : scene.layers.length ≤ wmMaxWindows
  once : scene.layers.Nodup
  front : scene.active = scene.layers.getLast?

omit [DecidableEq Window] in
theorem focused_reset (backgroundColor : UInt32) :
    Focused (wmCompositorReset backgroundColor : WmScene Window) :=
  ⟨Nat.zero_le _, List.nodup_nil, rfl⟩

theorem Focused.add (focused : Focused scene) (contents : Window → WmWindow)
    (window : Option Window) : Focused (wmCompositorAddWindow contents scene window).2 := by
  rcases addWindow_cases contents scene window with same | ⟨pointer, -, -, absent, room, same⟩
  · rw [same]
    exact focused
  · rw [same]
    refine ⟨?_, ?_, ?_⟩
    · rw [List.length_append, List.length_singleton]
      exact room
    · rw [← List.concat_eq_append]
      exact focused.once.concat absent
    · exact (List.getLast?_concat).symm

theorem Focused.activate (focused : Focused scene) (window : Option Window) :
    Focused (wmCompositorActivateWindow scene window).2 := by
  cases window with
  | none => exact focused
  | some pointer =>
      rw [activate_eq]
      by_cases member : pointer ∈ scene.layers
      · rw [if_pos member]
        have moved : (scene.layers.erase pointer ++ [pointer]).Perm scene.layers :=
          List.perm_append_comm.trans (List.perm_cons_erase member).symm
        refine ⟨moved.length_eq.trans_le focused.room, moved.nodup_iff.mpr focused.once, ?_⟩
        exact (List.getLast?_concat).symm
      · rw [if_neg member]
        exact focused

/-- **One step** keeps the focus on the window in front. -/
theorem Focused.step (focused : Focused scene) (op : StackOp Window Memory) :
    Focused (stackScenes.step scene op).2 := by
  cases op with
  | reset backgroundColor => exact focused_reset backgroundColor
  | add contents window => exact focused.add contents window
  | activate window => exact focused.activate window
  | activateAt contents x y =>
      change Focused (wmCompositorActivateAt contents scene x y).2
      unfold wmCompositorActivateAt
      cases wmCompositorHitTest contents scene x y with
      | none => exact focused
      | some window => exact focused.activate (some window)
  | process contents drag event =>
      change Focused (scene.process contents drag event)
      unfold WmScene.process
      cases event.type with
      | mouseMove => exact focused
      | mouseButtonUp => exact focused
      | mouseButtonDown =>
          simp only
          cases drag.binding (findBindingForWindow drag
            (wmCompositorHitTest contents scene event.x event.y)) with
          | none => exact focused
          | some binding => exact focused.activate (some binding.window)

/-- Every run ends in a stack that represents a focused scene. -/
theorem focused_run (ops : List (StackOp Window Memory)) : ∃ scene, Focused scene ∧
    Represents (layerStacks.state (WmStack.zero Window) ops) scene := by
  have start : Represents (WmStack.zero Window) (wmCompositorReset 0) :=
    ⟨⟨rfl, fun i inside => absurd inside (Nat.not_lt_zero i)⟩, rfl⟩
  refine ⟨_, ?_, (layerStacksSimulation.run start
    (Machine.along_of_forall (fun _ _ _ => trivial) _)).2⟩
  exact Machine.state_invariant (fun _ op focused => focused.step op) (focused_reset 0) ops

end Invariant

/-! ## The agreement -/

section Agreement

variable {Window Memory : Type} [DecidableEq Window]

/-- A window of the stack is moved to the front of it and gets the focus; the others keep
their order. -/
structure Raises (stack next : WmStack Window) (pointer : Window) : Prop where
  member : pointer ∈ stack.layers.list
  list : next.layers.list = stack.layers.list.erase pointer ++ [pointer]
  active : next.active = some pointer

/-- A window is put in front of the stack and gets the focus. -/
structure Puts (stack next : WmStack Window) (pointer : Window) : Prop where
  list : next.layers.list = stack.layers.list ++ [pointer]
  active : next.active = some pointer

/-- The stack takes a window: it is valid and not in the stack, and there is room. -/
structure Takes (stack : WmStack Window) (contents : Window → WmWindow) (pointer : Window) :
    Prop where
  valid : (contents pointer).IsValid
  absent : pointer ∉ stack.layers.list
  room : stack.layers.count < wmMaxWindows

/-- The event is a press on a window that is registered. -/
structure PressesOn (stack : WmStack Window) (contents : Window → WmWindow)
    (drag : WmDragState Window Memory) (event : InputEvent) (pointer : Window) : Prop where
  down : event.type = .mouseButtonDown
  under : stack.hitTest contents event.x event.y = some pointer
  registered : ∃ binding ∈ drag.bindings, binding.window = pointer

/-- The stack and the focus agree: the windows in the array are at most eight and apart,
and the active window is the one in front. An add puts the window in front wherever the
stack takes it; an activation of a window of the stack, by its pointer, by a place on it or
by a press there, raises it; all else changes nothing. -/
structure StackFocus (stack : WmStack Window) : Prop where
  room : stack.layers.count ≤ wmMaxWindows
  filled : stack.layers.list.length = stack.layers.count
  once : stack.layers.list.Nodup
  front : stack.active = stack.layers.getAt (stack.layers.count - 1)
  empty : stack.active = none ↔ stack.layers.count = 0
  adds : ∀ contents window, (stack.addWindow contents window).1 = true ↔
    ∃ pointer, window = some pointer ∧ Takes stack contents pointer
  added : ∀ contents pointer, Takes stack contents pointer →
    Puts stack (stack.addWindow contents (some pointer)).2 pointer
  activates : ∀ window, (stack.activateWindow window).1 = true ↔
    ∃ pointer, window = some pointer ∧ pointer ∈ stack.layers.list
  activated : ∀ pointer, pointer ∈ stack.layers.list →
    Raises stack (stack.activateWindow (some pointer)).2 pointer
  activatesAt : ∀ contents x y, (stack.activateAt contents x y).1 = true ↔
    ∃ pointer, stack.hitTest contents x y = some pointer
  activatedAt : ∀ contents x y pointer, stack.hitTest contents x y = some pointer →
    Raises stack (stack.activateAt contents x y).2 pointer
  pressed : ∀ {Memory : Type} contents (drag : WmDragState Window Memory) event pointer,
    PressesOn stack contents drag event pointer →
      Raises stack (stack.process contents drag event) pointer
  unpressed : ∀ {Memory : Type} contents (drag : WmDragState Window Memory) event,
    (∀ pointer, ¬ PressesOn stack contents drag event pointer) →
      stack.process contents drag event = stack
  addKept : ∀ contents window, (stack.addWindow contents window).1 = false →
    (stack.addWindow contents window).2 = stack
  activateKept : ∀ window, (stack.activateWindow window).1 = false →
    (stack.activateWindow window).2 = stack
  activateAtKept : ∀ contents x y, (stack.activateAt contents x y).1 = false →
    (stack.activateAt contents x y).2 = stack

variable {stack : WmStack Window} {scene : WmScene Window} {contents : Window → WmWindow}

omit [DecidableEq Window] in
/-- The stack takes the windows that can be added to its scene. -/
theorem Represents.takes_iff (represents : Represents stack scene) (contents : Window → WmWindow)
    (pointer : Window) : Takes stack contents pointer ↔ Addable contents scene pointer := by
  have list := represents.layers.list_eq
  have count := represents.layers.count
  constructor
  · intro takes
    exact ⟨takes.valid, list ▸ takes.absent, count ▸ takes.room⟩
  · intro addable
    refine ⟨addable.valid, ?_, ?_⟩
    · rw [list]
      exact addable.absent
    · rw [count]
      exact addable.room

/-- An add succeeds exactly for the windows the stack takes. -/
theorem Represents.adds_iff (represents : Represents stack scene) (contents : Window → WmWindow)
    (window : Option Window) : (stack.addWindow contents window).1 = true ↔
      ∃ pointer, window = some pointer ∧ Takes stack contents pointer := by
  rw [(represents.addWindow contents window).1]
  cases window with
  | none =>
      refine iff_of_false Bool.false_ne_true ?_
      intro ⟨_, same, _⟩
      cases same
  | some pointer =>
      rw [addWindow_eq]
      by_cases addable : Addable contents scene pointer
      · rw [if_pos addable]
        exact iff_of_true rfl ⟨pointer, rfl, (represents.takes_iff contents pointer).mpr addable⟩
      · rw [if_neg addable]
        refine iff_of_false Bool.false_ne_true ?_
        intro ⟨_, same, takes⟩
        cases same
        exact addable ((represents.takes_iff contents pointer).mp takes)

/-- A window the stack takes is put in front. -/
theorem Represents.added (represents : Represents stack scene) {pointer : Window}
    (takes : Takes stack contents pointer) :
    Puts stack (stack.addWindow contents (some pointer)).2 pointer := by
  have next := (represents.addWindow contents (some pointer)).2
  rw [addWindow_eq, if_pos ((represents.takes_iff contents pointer).mp takes)] at next
  refine ⟨?_, next.active⟩
  rw [next.layers.list_eq, represents.layers.list_eq]

/-- An activation succeeds exactly for the windows of the stack. -/
theorem Represents.activates_iff (represents : Represents stack scene) (window : Option Window) :
    (stack.activateWindow window).1 = true ↔
      ∃ pointer, window = some pointer ∧ pointer ∈ stack.layers.list := by
  rw [(represents.activateWindow window).1, represents.layers.list_eq]
  cases window with
  | none =>
      refine iff_of_false Bool.false_ne_true ?_
      intro ⟨_, same, _⟩
      cases same
  | some pointer =>
      rw [activate_eq]
      by_cases member : pointer ∈ scene.layers
      · rw [if_pos member]
        exact iff_of_true rfl ⟨pointer, rfl, member⟩
      · rw [if_neg member]
        refine iff_of_false Bool.false_ne_true ?_
        intro ⟨_, same, other⟩
        cases same
        exact member other

/-- **An activation** of a window of the stack raises it. -/
theorem Represents.raises (represents : Represents stack scene) {pointer : Window}
    (member : pointer ∈ stack.layers.list) :
    Raises stack (stack.activateWindow (some pointer)).2 pointer := by
  have next := (represents.activateWindow (some pointer)).2
  rw [activate_eq, if_pos (represents.layers.list_eq ▸ member)] at next
  refine ⟨member, ?_, next.active⟩
  rw [next.layers.list_eq, represents.layers.list_eq]

omit [DecidableEq Window] in
/-- The window under a place is in the stack. -/
theorem Represents.mem_of_hit (represents : Represents stack scene) {x y : UInt32}
    {pointer : Window} (under : stack.hitTest contents x y = some pointer) :
    pointer ∈ stack.layers.list := by
  rw [represents.hitTest, wmCompositorHitTest] at under
  rw [represents.layers.list_eq]
  exact List.mem_reverse.mp (List.mem_of_find?_eq_some under)

/-- An activation by a place is one of the window there. -/
theorem activateAt_hit {x y : UInt32} {pointer : Window}
    (under : stack.hitTest contents x y = some pointer) :
    stack.activateAt contents x y = stack.activateWindow (some pointer) := by
  unfold WmStack.activateAt
  rw [under]

/-- An activation by a place succeeds exactly where there is a window. -/
theorem Represents.activatesAt_iff (represents : Represents stack scene) (x y : UInt32) :
    (stack.activateAt contents x y).1 = true ↔
      ∃ pointer, stack.hitTest contents x y = some pointer := by
  constructor
  · intro succeeded
    unfold WmStack.activateAt at succeeded
    cases under : stack.hitTest contents x y with
    | none =>
        rw [under] at succeeded
        cases succeeded
    | some pointer => exact ⟨pointer, rfl⟩
  · intro ⟨pointer, under⟩
    rw [activateAt_hit under]
    exact (represents.activates_iff _).mpr ⟨pointer, rfl, represents.mem_of_hit under⟩

/-- A press on a registered window is an activation of it. -/
theorem PressesOn.process {drag : WmDragState Window Memory} {event : InputEvent}
    {pointer : Window} (presses : PressesOn stack contents drag event pointer) :
    stack.process contents drag event = (stack.activateWindow (some pointer)).2 := by
  obtain ⟨binding, member, same⟩ := presses.registered
  unfold WmStack.process
  rw [presses.down]
  simp only
  rw [binding_find, presses.under]
  cases found : drag.bindingOf (some pointer) with
  | none =>
      have other := List.find?_eq_none.mp (found : drag.bindings.find? _ = none) binding member
      exact absurd (decide_eq_true same) other
  | some binding => simp only [bindingOf_window found]

/-- **What is no press** on a registered window leaves the stack as it is. -/
theorem process_unpressed {drag : WmDragState Window Memory} {event : InputEvent}
    (unpressed : ∀ pointer, ¬ PressesOn stack contents drag event pointer) :
    stack.process contents drag event = stack := by
  unfold WmStack.process
  cases down : event.type with
  | mouseMove => rfl
  | mouseButtonUp => rfl
  | mouseButtonDown =>
      simp only
      rw [binding_find]
      cases under : stack.hitTest contents event.x event.y with
      | none => rfl
      | some pointer =>
          cases found : drag.bindingOf (some pointer) with
          | none => rfl
          | some binding =>
              have member := List.mem_of_find?_eq_some (found : drag.bindings.find? _ = _)
              exact absurd ⟨down, under, binding, member, bindingOf_window found⟩
                (unpressed pointer)

/-- An array that represents a focused scene agrees with its focus. -/
theorem Represents.stackFocus (represents : Represents stack scene) (focused : Focused scene) :
    StackFocus stack where
  room := represents.layers.count.trans_le focused.room
  filled := by rw [represents.layers.list_eq, represents.layers.count]
  once := by
    rw [represents.layers.list_eq]
    exact focused.once
  front := by
    rw [represents.active, focused.front, represents.layers.getAt, represents.layers.count]
    exact List.getLast?_eq_getElem?
  empty := by
    rw [represents.active, focused.front, List.getLast?_eq_none_iff, represents.layers.count]
    exact List.length_eq_zero_iff.symm
  adds := represents.adds_iff
  added := fun _ _ takes => represents.added takes
  activates := represents.activates_iff
  activated := fun _ member => represents.raises member
  activatesAt := fun _ x y => represents.activatesAt_iff x y
  activatedAt := by
    intro contents x y pointer under
    rw [activateAt_hit under]
    exact represents.raises (represents.mem_of_hit under)
  pressed := by
    intro _ contents drag event pointer presses
    rw [presses.process]
    exact represents.raises (represents.mem_of_hit presses.under)
  unpressed := fun _ _ _ none => process_unpressed none
  addKept := fun _ _ failed => addWindow_failed failed
  activateKept := fun _ failed => activateWindow_failed failed
  activateAtKept := fun _ _ _ failed => activateAt_failed failed

/-- Any resets, adds, activations, clicks and events of the mouse keep the stack and the
focus in agreement. -/
theorem stackFocus_run (ops : List (StackOp Window Memory)) :
    StackFocus (layerStacks.state (WmStack.zero Window) ops) := by
  obtain ⟨scene, focused, represents⟩ := focused_run ops
  exact represents.stackFocus focused

end Agreement

/-! ## The scene of the desktop -/

section Desktop

variable {Window Memory : Type} [DecidableEq Window] {desktop : DragDesktop Window Memory}

/-- Handling an event does to the scene what processing it does. -/
theorem handleEvent_scene (desktop : DragDesktop Window Memory) (event : InputEvent) :
    (handleEvent desktop event).scene =
      desktop.scene.process desktop.windows desktop.drag event := by
  unfold handleEvent WmScene.process
  cases event.type with
  | mouseMove =>
      simp only [processMouseMove]
      cases desktop.drag.binding desktop.drag.dragBinding with
      | none => exact dispatchToTask_scene _ _ _ _
      | some binding =>
          simp only
          split
          · rw [dispatchToTask_scene]
            rfl
          · rw [dispatchToTask_scene]
  | mouseButtonDown =>
      simp only [processMouseButtonDown, findBindingAt, DragDesktop.hit]
      cases desktop.drag.binding (findBindingForWindow desktop.drag
        (wmCompositorHitTest desktop.windows desktop.scene event.x event.y)) with
      | none => rfl
      | some binding =>
          simp only [dispatchToTask_windows, dispatchToTask_drag]
          rw [apply_ite DragDesktop.scene]
          simp only [dispatchToTask_scene, ite_self]
  | mouseButtonUp =>
      simp only [processMouseButtonUp]
      split
      · simp only [dispatchToTask_scene]
      · rw [dispatchToTask_scene]

/-- The scene of a desktop is in some array that the calls on it can reach. -/
structure Reached (desktop : DragDesktop Window Memory) : Prop where
  valid : desktop.queue.Valid
  array : ∃ ops : List (StackOp Window Memory),
    Represents (layerStacks.state (WmStack.zero Window) ops) desktop.scene

/-- One more call takes the array to the next scene. -/
theorem Reached.next (reached : Reached desktop) (op : StackOp Window Memory) :
    ∃ ops : List (StackOp Window Memory), Represents
      (layerStacks.state (WmStack.zero Window) ops) (stackScenes.step desktop.scene op).2 := by
  obtain ⟨ops, represents⟩ := reached.array
  refine ⟨ops ++ [op], ?_⟩
  rw [Machine.state_append]
  have stepped : _ ∧ Represents (layerStacks.step _ op).2 (stackScenes.step desktop.scene op).2 :=
    layerStacksSimulation.step represents trivial
  exact stepped.2

theorem Reached.process (reached : Reached desktop) (event : InputEvent) :
    Reached (processes.step desktop event).2 where
  valid := by
    rw [processes_queue]
    exact (mousePop_pending reached.valid).1
  array := by
    change ∃ ops, Represents _ (wmDragProcessEvent _ event).scene
    rw [processEvent_eq]
    simp only
    rw [handleEvent_scene]
    exact reached.next (.process desktop.windows desktop.drag event)

/-- **One call** of the desktop is none or some of the array. -/
theorem Reached.step (reached : Reached desktop) (op : DragOp Window Memory) :
    Reached (drags.step desktop op).2 := by
  cases op with
  | dragReset => exact ⟨reached.valid, reached.array⟩
  | register window taskId => exact ⟨reached.valid, reached.array⟩
  | setDispatch dispatchFn => exact ⟨reached.valid, reached.array⟩
  | windowInit window title x y width height => exact ⟨reached.valid, reached.array⟩
  | mouse call => exact ⟨mouseStep_valid reached.valid desktop.mouse call, reached.array⟩
  | scene call =>
      refine ⟨reached.valid, ?_⟩
      cases call with
      | reset backgroundColor => exact reached.next (.reset backgroundColor)
      | add window => exact reached.next (.add desktop.windows window)
      | activate window => exact reached.next (.activate window)
      | activateAt x y => exact reached.next (.activateAt desktop.windows x y)
  | dispatchPending =>
      change Reached (wmDragDispatchPending desktop).2
      exact dispatchPending_invariant reached.valid
        (Machine.along_of_forall (fun _ _ _ => trivial) _) reached
        (fun _ event reached (_ : True) => reached.process event)

/-- The scene of the desktop is at every time in an array that calls of the compositor and
processed events lead to. -/
theorem drags_represented (memory : Memory) (ops : List (DragOp Window Memory)) :
    ∃ calls : List (StackOp Window Memory), Represents
      (layerStacks.state (WmStack.zero Window) calls)
      (drags.state (DragDesktop.zero memory) ops).scene := by
  have start : Reached (DragDesktop.zero memory : DragDesktop Window Memory) :=
    ⟨RingIndex.valid_empty (by decide),
      [], ⟨rfl, fun i inside => absurd inside (Nat.not_lt_zero i)⟩, rfl⟩
  exact (Machine.along_of_forall (fun _ _ _ => trivial) _).state_invariant start
    (fun _ op reached (_ : True) => reached.step op) |>.array

/-- **The stack and the focus agree** after any resets, adds, activations, clicks and
events of the mouse, and in an array of the scene after any calls of the desktop. -/
theorem stack_focus_agree (ops : List (StackOp Window Memory)) (memory : Memory)
    (calls : List (DragOp Window Memory)) :
    StackFocus (layerStacks.state (WmStack.zero Window) ops) ∧
      ∃ stack, Represents stack (drags.state (DragDesktop.zero memory) calls).scene ∧
        StackFocus stack := by
  refine ⟨stackFocus_run ops, ?_⟩
  obtain ⟨steps, represents⟩ := drags_represented memory calls
  exact ⟨_, represents, stackFocus_run steps⟩

end Desktop

end TigerOS.Wm
