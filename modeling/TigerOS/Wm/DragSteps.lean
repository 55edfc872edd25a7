import TigerOS.Foundation.Lookup
import TigerOS.Wm.Drag
import TigerOS.Wm.Stack

/-! # What an event does

An event changes the windows by moving the one that is dragged
(`TigerOS.Wm.handleEvent_windows`), decides which one is dragged after it
(`TigerOS.Wm.handleEvent_dragged`) and tells the task of one window
(`TigerOS.Wm.handleEvent_memory`). Dispatching what is pending is processing the
events of the queue in their order (`TigerOS.Wm.dispatchPending_eq`).
-/

namespace TigerOS.Wm

open Foundation TigerOS.Input

variable {Window Memory : Type} [DecidableEq Window] {desktop : DragDesktop Window Memory}
  {event : InputEvent} {pointer : Window}

/-! ## Buttons -/

/-- A press of the left button. -/
def LeftDown (event : InputEvent) : Prop :=
  event.type = .mouseButtonDown ∧ event.button &&& inputMouseButtonLeft ≠ 0

/-- A release of the left button. -/
def LeftUp (event : InputEvent) : Prop :=
  event.type = .mouseButtonUp ∧ event.button &&& inputMouseButtonLeft ≠ 0

instance (event : InputEvent) : Decidable (LeftDown event) := inferInstanceAs (Decidable (_ ∧ _))

instance (event : InputEvent) : Decidable (LeftUp event) := inferInstanceAs (Decidable (_ ∧ _))

/-! ## The table -/

/-- The binding of a window: the first one for it. -/
def WmDragState.bindingOf (drag : WmDragState Window Memory) (window : Option Window) :
    Option (WmDragBinding Window) :=
  window.bind fun window => drag.bindings.find? fun binding => binding.window = window

/-- The pointer to the dragged binding, if any, is the one that a search finds. -/
def WmDragState.Pointed (drag : WmDragState Window Memory) : Prop :=
  ∀ index, drag.dragBinding = some index →
    ∃ window, findBindingForWindow drag (some window) = some index

section Table

variable {drag : WmDragState Window Memory} {binding : WmDragBinding Window} {index : ℕ}

theorem binding_find (drag : WmDragState Window Memory) (window : Option Window) :
    drag.binding (findBindingForWindow drag window) = drag.bindingOf window := by
  cases window with
  | none => rfl
  | some window => exact findIdx?_bind drag.bindings _

theorem bindingOf_window (found : drag.bindingOf (some pointer) = some binding) :
    binding.window = pointer := by
  have hit := List.find?_some (show drag.bindings.find? _ = some binding from found)
  exact of_decide_eq_true hit

/-- A search that finds a place finds a binding of the window there. -/
theorem binding_of_find {window : Option Window}
    (found : findBindingForWindow drag window = some index) :
    ∃ binding, drag.bindings[index]? = some binding ∧ window = some binding.window := by
  cases window with
  | none => cases found
  | some window =>
      obtain ⟨inside, here, _⟩ := List.findIdx?_eq_some_iff_getElem.mp found
      exact ⟨_, List.getElem?_eq_getElem inside, congrArg some (of_decide_eq_true here).symm⟩

/-- The dragged binding is the one of the dragged window. -/
theorem WmDragState.Pointed.binding_eq (pointed : desktop.drag.Pointed) :
    desktop.drag.binding desktop.drag.dragBinding = desktop.drag.bindingOf desktop.dragged := by
  unfold DragDesktop.dragged
  cases dragging : desktop.drag.dragBinding with
  | none => rfl
  | some index =>
      obtain ⟨window, found⟩ := pointed index dragging
      rw [← found, binding_find]
      cases here : desktop.drag.bindingOf (some window) with
      | none => rfl
      | some binding => rw [Option.map_some, bindingOf_window here, here]

/-- Registering a window keeps what a pointer points to. -/
theorem bindings_append {added : List (WmDragBinding Window)}
    (found : findBindingForWindow drag (some pointer) = some index) :
    findBindingForWindow { drag with bindings := drag.bindings ++ added } (some pointer) =
      some index := by
  change (drag.bindings ++ added).findIdx? _ = some index
  rw [List.findIdx?_append]
  change (findBindingForWindow drag (some pointer)).or _ = _
  rw [found]
  rfl

end Table

/-! ## Notifying -/

section Notify

variable (desktop) (binding : Option ℕ) (dispatchType : WmDispatchEventType) (event : InputEvent)

omit [DecidableEq Window] in
/-- A notification changes only the memory of the program. -/
theorem dispatchToTask_eq : dispatchToTask desktop binding dispatchType event =
    { desktop with memory := (dispatchToTask desktop binding dispatchType event).memory } := by
  unfold dispatchToTask
  split <;> rfl

omit [DecidableEq Window] in
@[simp] theorem dispatchToTask_windows :
    (dispatchToTask desktop binding dispatchType event).windows = desktop.windows := by
  rw [dispatchToTask_eq]

omit [DecidableEq Window] in
@[simp] theorem dispatchToTask_scene :
    (dispatchToTask desktop binding dispatchType event).scene = desktop.scene := by
  rw [dispatchToTask_eq]

omit [DecidableEq Window] in
@[simp] theorem dispatchToTask_drag :
    (dispatchToTask desktop binding dispatchType event).drag = desktop.drag := by
  rw [dispatchToTask_eq]

/-- The memory of the program after the task of a window is told of an event. -/
def DragDesktop.told (window : Option Window) : Memory :=
  match desktop.drag.bindingOf window, desktop.drag.dispatchFn with
  | some binding, some dispatchFn =>
      dispatchFn binding.taskId dispatchType event desktop.memory
  | _, _ => desktop.memory

variable {binding} in
theorem dispatchToTask_memory {window : Option Window}
    (bound : desktop.drag.binding binding = desktop.drag.bindingOf window) :
    (dispatchToTask desktop binding dispatchType event).memory =
      desktop.told dispatchType event window := by
  unfold dispatchToTask DragDesktop.told
  rw [bound]
  cases desktop.drag.bindingOf window with
  | none => rfl
  | some binding => cases desktop.drag.dispatchFn <;> rfl

end Notify

/-! ## Handling an event -/

/-- The title bar of the front-most window under an event, which is registered, has
the event in it. -/
def Grasps (desktop : DragDesktop Window Memory) (event : InputEvent) (window : Window) : Prop :=
  desktop.hit event.x event.y = some window ∧ (desktop.drag.bindingOf (some window)).isSome ∧
    wmPointInRect (desktop.windows window).titleBarRect event.x event.y

section Handle

/-- What every event keeps. -/
structure HandleKept (desktop desktop' : DragDesktop Window Memory) : Prop where
  queue : desktop'.queue = desktop.queue
  seen : desktop'.seen = desktop.seen
  bindings : desktop'.drag.bindings = desktop.drag.bindings
  dispatchFn : desktop'.drag.dispatchFn = desktop.drag.dispatchFn

theorem handleEvent_kept (desktop : DragDesktop Window Memory) (event : InputEvent) :
    HandleKept desktop (handleEvent desktop event) := by
  have told (start : DragDesktop Window Memory) (kept : HandleKept desktop start)
      (binding : Option ℕ) (dispatchType : WmDispatchEventType) :
      HandleKept desktop (dispatchToTask start binding dispatchType event) := by
    rw [dispatchToTask_eq]
    exact ⟨kept.queue, kept.seen, kept.bindings, kept.dispatchFn⟩
  have same : HandleKept desktop desktop := ⟨rfl, rfl, rfl, rfl⟩
  unfold handleEvent
  cases event.type with
  | mouseMove =>
      simp only [processMouseMove]
      split
      · split
        · apply told
          exact ⟨rfl, rfl, rfl, rfl⟩
        · exact told _ same _ _
      · exact told _ same _ _
  | mouseButtonDown =>
      simp only [processMouseButtonDown]
      split
      · exact same
      · rename_i binding bound
        have raised := told
          { desktop with
            scene := (wmCompositorActivateWindow desktop.scene (some binding.window)).2 }
          ⟨rfl, rfl, rfl, rfl⟩ (findBindingAt desktop event.x event.y) .clickDown
        split
        · exact ⟨raised.queue, raised.seen, raised.bindings, raised.dispatchFn⟩
        · exact raised
  | mouseButtonUp =>
      simp only [processMouseButtonUp]
      have notified := told desktop same
        (desktop.drag.dragBinding.or (findBindingAt desktop event.x event.y)) .clickUp
      split
      · exact ⟨notified.queue, notified.seen, notified.bindings, notified.dispatchFn⟩
      · exact notified

/-- **An event moves** at most the window that is dragged, and that only as a move. -/
theorem handleEvent_windows (desktop : DragDesktop Window Memory) (event : InputEvent) :
    (handleEvent desktop event).windows = desktop.windows ∨
      event.type = .mouseMove ∧ ∃ window x y, desktop.dragged = some window ∧
        (handleEvent desktop event).windows = (desktop.place window x y).windows := by
  unfold handleEvent
  cases type : event.type with
  | mouseMove =>
      simp only [processMouseMove]
      cases bound : desktop.drag.binding desktop.drag.dragBinding with
      | none => exact .inl (dispatchToTask_windows _ _ _ _)
      | some binding =>
          simp only
          split
          · refine .inr ⟨trivial, binding.window, _, _, ?_, dispatchToTask_windows _ _ _ _⟩
            unfold DragDesktop.dragged
            rw [bound]
            rfl
          · exact .inl (dispatchToTask_windows _ _ _ _)
  | mouseButtonDown =>
      left
      simp only [processMouseButtonDown]
      split
      · rfl
      split
      · exact dispatchToTask_windows _ _ _ _
      · exact dispatchToTask_windows _ _ _ _
  | mouseButtonUp =>
      left
      simp only [processMouseButtonUp]
      split
      · exact dispatchToTask_windows _ _ _ _
      · exact dispatchToTask_windows _ _ _ _

/-- What an event does to the pointer to the dragged binding. -/
theorem handleEvent_dragBinding (desktop : DragDesktop Window Memory) (event : InputEvent) :
    LeftUp event ∧ (handleEvent desktop event).drag.dragBinding = none ∨
    LeftDown event ∧ (∃ window, Grasps desktop event window ∧
      (handleEvent desktop event).drag.dragBinding =
        findBindingForWindow desktop.drag (some window)) ∨
    ¬ LeftUp event ∧ (LeftDown event → ∀ window, ¬ Grasps desktop event window) ∧
      (handleEvent desktop event).drag.dragBinding = desktop.drag.dragBinding := by
  unfold handleEvent
  cases type : event.type with
  | mouseMove =>
      refine .inr (.inr ⟨fun up => ?_, fun down => ?_, ?_⟩)
      · cases type.symm.trans up.1
      · cases type.symm.trans down.1
      · simp only [processMouseMove]
        split
        · split
          · rw [dispatchToTask_drag]
            rfl
          · rw [dispatchToTask_drag]
        · rw [dispatchToTask_drag]
  | mouseButtonDown =>
      have notUp : ¬ LeftUp event := fun up => by cases type.symm.trans up.1
      simp only [processMouseButtonDown, dispatchToTask_windows, dispatchToTask_drag]
      have here := binding_find desktop.drag (desktop.hit event.x event.y)
      change desktop.drag.binding (findBindingAt desktop event.x event.y) = _ at here
      cases bound : desktop.drag.binding (findBindingAt desktop event.x event.y) with
      | none =>
          refine .inr (.inr ⟨notUp, fun _ window grasps => ?_, rfl⟩)
          obtain ⟨hit, registered, _⟩ := grasps
          rw [← hit, ← here, bound] at registered
          cases registered
      | some binding =>
          rw [bound] at here
          have hit : desktop.hit event.x event.y = some binding.window := by
            cases hit : desktop.hit event.x event.y with
            | none =>
                rw [hit] at here
                cases here
            | some window =>
                rw [hit] at here
                rw [bindingOf_window here.symm]
          simp only
          by_cases grasped : event.button &&& inputMouseButtonLeft ≠ 0 ∧
              wmPointInRect (desktop.windows binding.window).titleBarRect event.x event.y
          · rw [if_pos grasped]
            rw [hit] at here
            refine .inr (.inl ⟨⟨type, grasped.1⟩, binding.window, ⟨hit, ?_, grasped.2⟩, ?_⟩)
            · rw [← here]
              rfl
            · change findBindingForWindow desktop.drag (desktop.hit event.x event.y) = _
              rw [hit]
          · rw [if_neg grasped, dispatchToTask_drag]
            refine .inr (.inr ⟨notUp, fun down window grasps => grasped ⟨down.2, ?_⟩, rfl⟩)
            rw [Option.some.inj (hit.symm.trans grasps.1)]
            exact grasps.2.2
  | mouseButtonUp =>
      simp only [processMouseButtonUp]
      by_cases left : event.button &&& inputMouseButtonLeft ≠ 0
      · rw [if_pos left]
        exact .inl ⟨⟨type, left⟩, rfl⟩
      · rw [if_neg left, dispatchToTask_drag]
        refine .inr (.inr ⟨fun up => left up.2, fun down => ?_, rfl⟩)
        cases type.symm.trans down.1

/-- The dragged binding stays one that a search finds. -/
theorem handleEvent_pointed (pointed : desktop.drag.Pointed) (event : InputEvent) :
    (handleEvent desktop event).drag.Pointed := by
  have bindings := (handleEvent_kept desktop event).bindings
  intro index dragging
  unfold findBindingForWindow
  rw [bindings]
  rcases handleEvent_dragBinding desktop event with ⟨_, released⟩ | ⟨_, window, _, grasped⟩ |
    ⟨_, _, same⟩
  · cases released.symm.trans dragging
  · exact ⟨window, grasped.symm.trans dragging⟩
  · exact pointed index (same.symm.trans dragging)

/-- **An event decides** which window is dragged: none after a release of the left
button, the one whose title bar it grasps as a press of it, and else the one before. -/
theorem handleEvent_dragged (desktop : DragDesktop Window Memory) (event : InputEvent) :
    LeftUp event ∧ (handleEvent desktop event).dragged = none ∨
    LeftDown event ∧ (∃ window, Grasps desktop event window ∧
      (handleEvent desktop event).dragged = some window) ∨
    ¬ LeftUp event ∧ (LeftDown event → ∀ window, ¬ Grasps desktop event window) ∧
      (handleEvent desktop event).dragged = desktop.dragged := by
  have bindings := (handleEvent_kept desktop event).bindings
  unfold DragDesktop.dragged WmDragState.binding
  rw [bindings]
  rcases handleEvent_dragBinding desktop event with ⟨up, released⟩ |
    ⟨down, window, grasps, grasped⟩ | ⟨notUp, misses, same⟩
  · rw [released]
    exact .inl ⟨up, rfl⟩
  · rw [grasped]
    refine .inr (.inl ⟨down, window, grasps, ?_⟩)
    change (desktop.drag.binding (findBindingForWindow desktop.drag (some window))).map _ = _
    rw [binding_find]
    obtain ⟨binding, bound⟩ := Option.isSome_iff_exists.mp grasps.2.1
    rw [bound, Option.map_some, bindingOf_window bound]
  · rw [same]
    exact .inr (.inr ⟨notUp, misses, rfl⟩)

/-- The window that an event is told to the task of, and as what. -/
def SeenEvent.concern (seen : SeenEvent Window) : Option Window × WmDispatchEventType :=
  match seen.event.type with
  | .mouseMove =>
      if seen.dragged.isSome ∧ seen.event.buttons &&& inputMouseButtonLeft ≠ 0 then
        (seen.dragged, .drag)
      else (seen.hit, .move)
  | .mouseButtonDown => (seen.hit, .clickDown)
  | .mouseButtonUp => (seen.dragged.or seen.hit, .clickUp)

/-- What is kept of an event. -/
def DragDesktop.seeing (desktop : DragDesktop Window Memory) (event : InputEvent) :
    SeenEvent Window :=
  ⟨event, desktop.hit event.x event.y, desktop.dragged, desktop.windows,
    (handleEvent desktop event).windows⟩

/-- **An event is told** to the task of the window it concerns. -/
theorem handleEvent_memory (pointed : desktop.drag.Pointed) (event : InputEvent) :
    (handleEvent desktop event).memory =
      desktop.told (desktop.seeing event).concern.2 event (desktop.seeing event).concern.1 := by
  have under : desktop.drag.binding (findBindingAt desktop event.x event.y) =
      desktop.drag.bindingOf (desktop.hit event.x event.y) := binding_find _ _
  have dragging := pointed.binding_eq
  unfold handleEvent SeenEvent.concern DragDesktop.seeing
  cases event.type with
  | mouseMove =>
      simp only [processMouseMove]
      cases bound : desktop.drag.binding desktop.drag.dragBinding with
      | none =>
          have free : desktop.dragged = none := by
            unfold DragDesktop.dragged
            rw [bound]
            rfl
          simp only [free, Option.isSome_none, Bool.false_eq_true, false_and, ↓reduceIte]
          exact dispatchToTask_memory _ _ _ under
      | some binding =>
          have held : desktop.dragged = some binding.window := by
            unfold DragDesktop.dragged
            rw [bound]
            rfl
          simp only [held, Option.isSome_some, true_and]
          split
          · exact dispatchToTask_memory
              (desktop.place binding.window (safeSubU32 event.x desktop.drag.dragOffsetX)
                (safeSubU32 event.y desktop.drag.dragOffsetY)) _ _ (held ▸ dragging)
          · exact dispatchToTask_memory _ _ _ under
  | mouseButtonDown =>
      simp only [processMouseButtonDown]
      cases bound : desktop.drag.binding (findBindingAt desktop event.x event.y) with
      | none =>
          simp only
          unfold DragDesktop.told
          rw [← under, bound]
      | some binding =>
          simp only
          have notified := dispatchToTask_memory
            { desktop with
              scene := (wmCompositorActivateWindow desktop.scene (some binding.window)).2 }
            .clickDown event under
          split
          · exact notified
          · exact notified
  | mouseButtonUp =>
      simp only [processMouseButtonUp]
      have notified : (dispatchToTask desktop
          (desktop.drag.dragBinding.or (findBindingAt desktop event.x event.y)) .clickUp
            event).memory =
          desktop.told .clickUp event (desktop.dragged.or (desktop.hit event.x event.y)) := by
        apply dispatchToTask_memory
        cases held : desktop.drag.dragBinding with
        | none =>
            have free : desktop.dragged = none := by
              unfold DragDesktop.dragged
              rw [held]
              rfl
            rw [free]
            exact under
        | some index =>
            obtain ⟨window, found⟩ := pointed index held
            obtain ⟨binding, here, _⟩ := binding_of_find found
            have grasped : desktop.dragged = some binding.window := by
              unfold DragDesktop.dragged
              rw [held]
              exact congrArg (Option.map WmDragBinding.window) here
            rw [grasped, Option.some_or, Option.some_or, ← held, dragging, grasped]
      split
      · exact notified
      · exact notified

/-- An event keeps which windows are in the stack. -/
theorem handleEvent_layers (desktop : DragDesktop Window Memory) (event : InputEvent) :
    (handleEvent desktop event).scene.layers.Perm desktop.scene.layers := by
  unfold handleEvent
  cases event.type with
  | mouseMove =>
      simp only [processMouseMove]
      split
      · split
        · rw [dispatchToTask_scene]
          exact .refl _
        · rw [dispatchToTask_scene]
      · rw [dispatchToTask_scene]
  | mouseButtonDown =>
      simp only [processMouseButtonDown]
      split
      · exact .refl _
      · rename_i binding _
        have raised : (wmCompositorActivateWindow desktop.scene
            (some binding.window)).2.layers.Perm desktop.scene.layers := by
          rcases activate_cases desktop.scene (some binding.window) with refused |
            ⟨_, _, _, _, reordered, accepted⟩
          · rw [refused]
          · rw [accepted]
            exact reordered
        split
        · simp only [dispatchToTask_scene]
          exact raised
        · rw [dispatchToTask_scene]
          exact raised
  | mouseButtonUp =>
      simp only [processMouseButtonUp]
      split
      · simp only [dispatchToTask_scene]
        exact .refl _
      · rw [dispatchToTask_scene]

/-- Processing an event is handling it and keeping what was seen of it. -/
theorem processEvent_eq (desktop : DragDesktop Window Memory) (event : InputEvent) :
    wmDragProcessEvent desktop event =
      { handleEvent desktop event with
        seen := desktop.seen ++ [desktop.seeing event] } := by
  unfold wmDragProcessEvent
  rw [← (handleEvent_kept desktop event).seen]
  rfl

end Handle

/-! ## Dispatching -/

/-- The events of the queue, taken off it and processed one by one. -/
def processes : Machine (DragDesktop Window Memory) InputEvent Unit where
  step desktop event :=
    ((), wmDragProcessEvent { desktop with queue := (inputEventQueuePop desktop.queue).2 } event)

section Dispatch

theorem processes_queue (desktop : DragDesktop Window Memory) (event : InputEvent) :
    (processes.step desktop event).2.queue = (inputEventQueuePop desktop.queue).2 := by
  change (wmDragProcessEvent _ event).queue = _
  rw [processEvent_eq]
  exact (handleEvent_kept _ event).queue

/-- The loop processes what is pending, in its order. -/
theorem dispatchLoop_eq (valid : desktop.queue.Valid) {rounds : ℕ}
    (counted : desktop.queue.ring.count = rounds) (processedCount : UInt32) :
    (wmDragDispatchLoop rounds processedCount desktop).2 =
      processes.state desktop desktop.queue.pending := by
  induction rounds generalizing desktop processedCount with
  | zero =>
      unfold InputEventQueue.pending
      rw [RingIndex.contents_eq_nil counted]
      rfl
  | succ rounds ih =>
      obtain ⟨valid', popped⟩ := mousePop_pending valid
      have some_ : ¬ desktop.queue.ring.count = 0 := by
        rw [counted]
        exact Nat.succ_ne_zero rounds
      have out : inputEventQueuePop desktop.queue =
          (some (desktop.queue.events desktop.queue.ring.read),
            (inputEventQueuePop desktop.queue).2) := by
        unfold inputEventQueuePop
        rw [if_neg some_]
      have fewer : (inputEventQueuePop desktop.queue).2.ring.count = rounds := by
        unfold inputEventQueuePop
        rw [if_neg some_]
        change desktop.queue.ring.count - 1 = rounds
        rw [counted]
        rfl
      rw [out] at popped
      unfold wmDragDispatchLoop
      rw [out, popped]
      have queue := processes_queue desktop (desktop.queue.events desktop.queue.ring.read)
      have rest := @ih (processes.step desktop (desktop.queue.events desktop.queue.ring.read)).2
        (by rw [queue]; exact valid') (by rw [queue]; exact fewer) (processedCount + 1)
      rw [queue] at rest
      exact rest

/-- **Dispatching what is pending** processes the events of the queue in their order. -/
theorem dispatchPending_eq (valid : desktop.queue.Valid) :
    (wmDragDispatchPending desktop).2 = processes.state desktop desktop.queue.pending :=
  dispatchLoop_eq valid rfl 0

/-- What processing events keeps, dispatching keeps. -/
theorem dispatchPending_invariant {invariant : DragDesktop Window Memory → Prop}
    {admitted : DragDesktop Window Memory → InputEvent → Prop} (valid : desktop.queue.Valid)
    (along : processes.Along admitted desktop desktop.queue.pending) (initially : invariant desktop)
    (kept : ∀ desktop event, invariant desktop → admitted desktop event →
      invariant (processes.step desktop event).2) :
    invariant (wmDragDispatchPending desktop).2 := by
  rw [dispatchPending_eq valid]
  exact along.state_invariant initially kept

/-- Processing and dispatching keep the queue a ring. -/
theorem dispatchPending_valid (valid : desktop.queue.Valid) :
    (wmDragDispatchPending desktop).2.queue.Valid := by
  rw [dispatchPending_eq valid]
  refine @Machine.state_invariant _ _ _ processes (fun desktop => desktop.queue.Valid) ?_ _ valid _
  intro desktop event valid
  rw [processes_queue]
  exact (mousePop_pending valid).1

end Dispatch

end TigerOS.Wm
