import TigerOS.Wm.DragSafety
import TigerOS.Wm.Geometry

/-! # Where a drag ends

The mouse puts its events into a queue, and the loop processes them whenever it comes to it. What
the windows are like once the queue is empty does not depend on when that was
(`TigerOS.Wm.Served.run`). Between a press that grasps a title bar and the release, every move with
the button held carries the window along, so that only the last of them counts
(`TigerOS.Wm.drag_carries`).
-/

namespace TigerOS.Wm

open Foundation TigerOS.Input

variable {Window Memory : Type} [DecidableEq Window] {desktop start : DragDesktop Window Memory}
  {window : Window}

/-! ## Events that wait -/

/-- The events, processed one by one as they come. -/
def eagerly : Machine (DragDesktop Window Memory) InputEvent Unit where
  step desktop event := ((), wmDragProcessEvent desktop event)

/-- A desktop with another mouse and queue. -/
def DragDesktop.withMouse (desktop : DragDesktop Window Memory) (mouse : MouseState)
    (queue : InputEventQueue) : DragDesktop Window Memory :=
  { desktop with
    mouse := mouse
    queue := queue }

/-- The event of a call, of a mouse whose buttons are known. -/
def mouseEvent (mouse : MouseState) : MouseCall → Option InputEvent
  | .reset => none
  | .emitMove x y buttons => some ⟨.mouseMove, x, y, buttons, 0⟩
  | .emitButtonDown x y buttonMask =>
      some ⟨.mouseButtonDown, x, y, mouse.buttons ||| buttonMask, buttonMask⟩
  | .emitButtonUp x y buttonMask =>
      some ⟨.mouseButtonUp, x, y, mouse.buttons &&& ~~~buttonMask, buttonMask⟩
  | .push event => some event

/-- The mouse after a call. -/
def mouseAfter (mouse : MouseState) : MouseCall → MouseState
  | .reset => ⟨0, 0, 0⟩
  | .emitMove x y buttons => ⟨x, y, buttons⟩
  | .emitButtonDown x y buttonMask => ⟨x, y, mouse.buttons ||| buttonMask⟩
  | .emitButtonUp x y buttonMask => ⟨x, y, mouse.buttons &&& ~~~buttonMask⟩
  | .push _ => mouse

/-- The events of calls. -/
def mouseEvents : MouseState → List MouseCall → List InputEvent
  | _, [] => []
  | mouse, call :: calls =>
      (mouseEvent mouse call).toList ++ mouseEvents (mouseAfter mouse call) calls

/-- The calls of the mouse among those of a run. -/
def mouseCalls (ops : List (DragOp Window Memory)) : List MouseCall :=
  ops.filterMap fun
    | .mouse call => some call
    | _ => none

/-- The calls of a user of the mouse and of the loop that serves it. -/
def DragOp.IsPointing : DragOp Window Memory → Prop
  | .mouse .reset => False
  | .mouse _ => True
  | .dispatchPending => True
  | _ => False

section Waiting

omit [DecidableEq Window] in
theorem dispatchToTask_withMouse (desktop : DragDesktop Window Memory) (binding : Option ℕ)
    (dispatchType : WmDispatchEventType) (event : InputEvent) (mouse : MouseState)
    (queue : InputEventQueue) :
    dispatchToTask (desktop.withMouse mouse queue) binding dispatchType event =
      (dispatchToTask desktop binding dispatchType event).withMouse mouse queue := by
  unfold dispatchToTask DragDesktop.withMouse
  simp only
  cases desktop.drag.binding binding with
  | none => rfl
  | some binding => cases desktop.drag.dispatchFn <;> rfl

/-- Handling an event has nothing to do with the mouse and the queue. -/
theorem handleEvent_withMouse (desktop : DragDesktop Window Memory) (event : InputEvent)
    (mouse : MouseState) (queue : InputEventQueue) :
    handleEvent (desktop.withMouse mouse queue) event =
      (handleEvent desktop event).withMouse mouse queue := by
  unfold handleEvent
  cases event.type with
  | mouseMove =>
      simp only [processMouseMove]
      cases bound : desktop.drag.binding desktop.drag.dragBinding with
      | none =>
          have bound' : (desktop.withMouse mouse queue).drag.binding
            (desktop.withMouse mouse queue).drag.dragBinding = none := bound
          rw [bound']
          exact dispatchToTask_withMouse desktop _ _ _ _ _
      | some binding =>
          have bound' : (desktop.withMouse mouse queue).drag.binding
            (desktop.withMouse mouse queue).drag.dragBinding = some binding := bound
          rw [bound']
          simp only
          split
          · exact dispatchToTask_withMouse (desktop.place _ _ _) _ _ _ _ _
          · exact dispatchToTask_withMouse desktop _ _ _ _ _
  | mouseButtonDown =>
      simp only [processMouseButtonDown]
      have same : findBindingAt (desktop.withMouse mouse queue) event.x event.y =
        findBindingAt desktop event.x event.y := rfl
      rw [same]
      cases bound : desktop.drag.binding (findBindingAt desktop event.x event.y) with
      | none =>
          have bound' : (desktop.withMouse mouse queue).drag.binding
            (findBindingAt desktop event.x event.y) = none := bound
          rw [bound']
      | some binding =>
          have bound' : (desktop.withMouse mouse queue).drag.binding
            (findBindingAt desktop event.x event.y) = some binding := bound
          rw [bound']
          simp only
          have raised := dispatchToTask_withMouse
            { desktop with
              scene := (wmCompositorActivateWindow desktop.scene (some binding.window)).2 }
            (findBindingAt desktop event.x event.y) .clickDown event mouse queue
          unfold DragDesktop.withMouse at raised ⊢
          rw [raised]
          split <;> rfl
  | mouseButtonUp =>
      simp only [processMouseButtonUp]
      have same : findBindingAt (desktop.withMouse mouse queue) event.x event.y =
        findBindingAt desktop event.x event.y := rfl
      rw [same, dispatchToTask_withMouse]
      split <;> rfl

theorem processEvent_withMouse (desktop : DragDesktop Window Memory) (event : InputEvent)
    (mouse : MouseState) (queue : InputEventQueue) :
    wmDragProcessEvent (desktop.withMouse mouse queue) event =
      (wmDragProcessEvent desktop event).withMouse mouse queue := by
  unfold wmDragProcessEvent
  rw [handleEvent_withMouse]
  rfl

theorem eagerly_withMouse (desktop : DragDesktop Window Memory) (mouse : MouseState)
    (queue : InputEventQueue) (events : List InputEvent) :
    eagerly.state (desktop.withMouse mouse queue) events =
      (eagerly.state desktop events).withMouse mouse queue := by
  induction events generalizing desktop with
  | nil => rfl
  | cons event events ih =>
      change eagerly.state (wmDragProcessEvent _ event) events = _
      rw [processEvent_withMouse, ih]
      rfl

/-- Taking the events off the queue makes no difference to what they do. -/
theorem processes_eagerly (desktop : DragDesktop Window Memory) (events : List InputEvent) :
    processes.state desktop events = (eagerly.state desktop events).withMouse desktop.mouse
      (processes.state desktop events).queue := by
  induction events generalizing desktop with
  | nil => rfl
  | cons event events ih =>
      have step : (processes.step desktop event).2 = (wmDragProcessEvent desktop event).withMouse
          desktop.mouse (inputEventQueuePop desktop.queue).2 :=
        processEvent_withMouse desktop event desktop.mouse _
      rw [Machine.state_cons, step, ih, eagerly_withMouse]
      rfl

/-- The queue is empty after the events that were in it. -/
theorem processes_pending (valid : desktop.queue.Valid) {events : List InputEvent}
    (waits : desktop.queue.pending = events) :
    (processes.state desktop events).queue.pending = [] := by
  induction events generalizing desktop with
  | nil => exact waits
  | cons event events ih =>
      obtain ⟨valid', popped⟩ := mousePop_pending valid
      have some_ : desktop.queue.ring.count ≠ 0 := by
        intro none_
        unfold InputEventQueue.pending at waits
        rw [RingIndex.contents_eq_nil none_] at waits
        cases waits
      obtain ⟨oldest, rest, out⟩ := mousePop_some some_
      rw [waits, out] at popped
      have after := processes_queue desktop event
      rw [out] at after valid'
      apply ih
      · rw [after]
        exact valid'
      · rw [after]
        exact (List.cons.inj popped).2.symm

end Waiting

/-- Of the events that came since a moment, the first were processed, and the others wait. -/
structure Served (start : DragDesktop Window Memory) (events : List InputEvent)
    (desktop : DragDesktop Window Memory) : Prop where
  valid : desktop.queue.Valid
  processed : ∃ served, events = served ++ desktop.queue.pending ∧
    desktop = (eagerly.state start served).withMouse desktop.mouse desktop.queue

section Served

variable {events : List InputEvent}

/-- A call that the queue takes an event from puts it behind those that wait. -/
theorem mouseStep_accepts {queue : InputEventQueue} (valid : queue.Valid) (mouse : MouseState)
    {call : MouseCall} (emits : call ≠ .reset) (accepted : (mouseStep mouse queue call).1 = true) :
    (mouseStep mouse queue call).2.2.Valid ∧ (mouseStep mouse queue call).2.2.pending =
        queue.pending ++ (mouseEvent mouse call).toList ∧
      (mouseStep mouse queue call).2.1 = mouseAfter mouse call := by
  have pushed (event : InputEvent) (taken : (inputEventQueuePush queue event).1 = true) :
      (inputEventQueuePush queue event).2.Valid ∧
        (inputEventQueuePush queue event).2.pending = queue.pending ++ [event] := by
    rcases Nat.lt_or_ge queue.ring.count inputEventQueueCapacity with room | full
    · obtain ⟨next, put, valid', waits⟩ := mousePush_room valid room event
      rw [put]
      exact ⟨valid', waits⟩
    · rw [mousePush_full full] at taken
      cases taken
  cases call with
  | reset => exact absurd rfl emits
  | push event => exact ⟨(pushed event accepted).1, (pushed event accepted).2, rfl⟩
  | _ => exact ⟨(pushed _ accepted).1, (pushed _ accepted).2, rfl⟩

/-- An event that the queue takes waits. -/
theorem Served.emit (served : Served start events desktop) {call : MouseCall}
    (emits : call ≠ .reset) (accepted : (desktop.mouseCall call).1 = true) :
    Served start (events ++ (mouseEvent desktop.mouse call).toList) (desktop.mouseCall call).2 ∧
      (desktop.mouseCall call).2.mouse = mouseAfter desktop.mouse call := by
  obtain ⟨valid, waits, mouse⟩ := mouseStep_accepts served.valid desktop.mouse emits accepted
  obtain ⟨before, sums, same⟩ := served.processed
  refine ⟨⟨valid, before, ?_, ?_⟩, mouse⟩
  · rw [sums, List.append_assoc]
    exact congrArg (before ++ ·) waits.symm
  · change desktop.withMouse _ _ = _
    rw [same]
    rfl

/-- Serving the mouse leaves nothing waiting. -/
theorem Served.dispatch (served : Served start events desktop) :
    Served start events (wmDragDispatchPending desktop).2 ∧
      (wmDragDispatchPending desktop).2.mouse = desktop.mouse := by
  obtain ⟨before, sums, same⟩ := served.processed
  have after : (wmDragDispatchPending desktop).2 = (eagerly.state start events).withMouse
      desktop.mouse (wmDragDispatchPending desktop).2.queue := by
    rw [dispatchPending_eq served.valid]
    conv_lhs => rw [processes_eagerly]
    have all : eagerly.state desktop desktop.queue.pending =
        (eagerly.state start events).withMouse desktop.mouse desktop.queue := by
      conv_lhs => rw [same, eagerly_withMouse]
      rw [sums, Machine.state_append]
      rfl
    rw [all]
    rfl
  have mouse : (wmDragDispatchPending desktop).2.mouse = desktop.mouse := by
    rw [after]
    rfl
  refine ⟨⟨dispatchPending_valid served.valid, events, ?_, ?_⟩, mouse⟩
  · rw [dispatchPending_eq served.valid, processes_pending served.valid rfl, List.append_nil]
  · rw [mouse]
    exact after

/-- **The moments do not matter** at which the loop serves the mouse. -/
theorem Served.run (served : Served start events desktop) {ops : List (DragOp Window Memory)}
    (pointing : ∀ op ∈ ops, op.IsPointing)
    (answered : ∀ answer ∈ drags.results desktop ops, answer ≠ .status false) :
    Served start (events ++ mouseEvents desktop.mouse (mouseCalls ops))
      (drags.state desktop ops) := by
  induction ops generalizing events desktop with
  | nil =>
      have quiet : mouseEvents desktop.mouse (mouseCalls ([] : List (DragOp Window Memory))) = [] :=
        rfl
      rw [quiet, List.append_nil]
      exact served
  | cons op ops ih =>
      have pointing' : ∀ op ∈ ops, op.IsPointing :=
        fun op member => pointing op (List.mem_cons_of_mem _ member)
      have answered' : ∀ answer ∈ drags.results (drags.step desktop op).2 ops,
          answer ≠ .status false := fun answer member =>
            answered answer (List.mem_cons_of_mem _ member)
      have here := pointing op List.mem_cons_self
      cases op with
      | mouse call =>
          have emits : call ≠ .reset := by
            intro reset
            subst reset
            exact here
          have accepted : (desktop.mouseCall call).1 = true := by
            have answer := answered _ List.mem_cons_self
            change DragAnswer.status (desktop.mouseCall call).1 ≠ _ at answer
            rcases Bool.eq_false_or_eq_true (desktop.mouseCall call).1 with success | failure
            · exact success
            · exact absurd (congrArg DragAnswer.status failure) answer
          obtain ⟨next, mouse⟩ := served.emit emits accepted
          have rest := ih next pointing' answered'
          rw [mouse, List.append_assoc] at rest
          exact rest
      | dispatchPending =>
          obtain ⟨next, mouse⟩ := served.dispatch
          have rest := ih next pointing' answered'
          rw [mouse] at rest
          exact rest
      | _ => exact absurd here id

end Served

/-! ## A drag -/

/-- A move with the left button held. -/
def HeldMove (event : InputEvent) : Prop :=
  event.type = .mouseMove ∧ event.buttons &&& inputMouseButtonLeft ≠ 0

instance (event : InputEvent) : Decidable (HeldMove event) := inferInstanceAs (Decidable (_ ∧ _))

/-- The place of a move with the left button held. -/
def heldPlace (event : InputEvent) : Option (UInt32 × UInt32) :=
  if HeldMove event then some (event.x, event.y) else none

/-- The windows after one was dragged to under a place, by a grip in its title bar. -/
def draggedTo (windows : Window → WmWindow) (window : Window) (gripX gripY : UInt32)
    (place : Option (UInt32 × UInt32)) : Window → WmWindow :=
  place.elim windows fun place =>
    Function.update windows window
      { windows window with
        frame :=
          { (windows window).frame with
            x := safeSubU32 place.1 gripX
            y := safeSubU32 place.2 gripY } }

section Gesture

variable {event : InputEvent}

/-- Only a press of the left button changes what a window is held by. -/
theorem handleEvent_offsets (desktop : DragDesktop Window Memory) (notDown : ¬ LeftDown event) :
    (handleEvent desktop event).drag.dragOffsetX = desktop.drag.dragOffsetX ∧
      (handleEvent desktop event).drag.dragOffsetY = desktop.drag.dragOffsetY := by
  unfold handleEvent
  cases type : event.type with
  | mouseMove =>
      simp only [processMouseMove]
      split
      · split
        · rw [dispatchToTask_drag]
          exact ⟨rfl, rfl⟩
        · rw [dispatchToTask_drag]
          exact ⟨rfl, rfl⟩
      · rw [dispatchToTask_drag]
        exact ⟨rfl, rfl⟩
  | mouseButtonDown =>
      simp only [processMouseButtonDown]
      split
      · exact ⟨rfl, rfl⟩
      · rw [if_neg fun grasped => notDown ⟨type, grasped.1⟩, dispatchToTask_drag]
        exact ⟨rfl, rfl⟩
  | mouseButtonUp =>
      simp only [processMouseButtonUp]
      split
      · simp only [dispatchToTask_drag, and_self]
      · rw [dispatchToTask_drag]
        exact ⟨rfl, rfl⟩

/-- A press in a title bar grasps the window and moves nothing. -/
theorem handleEvent_grasp (down : LeftDown event) (grasps : Grasps desktop event window) :
    (handleEvent desktop event).dragged = some window ∧
      (handleEvent desktop event).windows = desktop.windows ∧
      (handleEvent desktop event).drag.dragOffsetX =
        event.x - (desktop.windows window).frame.x ∧
      (handleEvent desktop event).drag.dragOffsetY =
        event.y - (desktop.windows window).frame.y := by
  refine ⟨?_, ?_, ?_⟩
  · rcases handleEvent_dragged desktop event with ⟨up, _⟩ | ⟨_, window', grasps', dragged⟩ |
      ⟨_, misses, _⟩
    · cases down.1.symm.trans up.1
    · rw [dragged, ← grasps'.1, grasps.1]
    · exact absurd grasps (misses down window)
  · rcases handleEvent_windows desktop event with same | ⟨move, _⟩
    · exact same
    · cases down.1.symm.trans move
  · obtain ⟨binding, bound⟩ := Option.isSome_iff_exists.mp grasps.2.1
    have here : desktop.drag.binding (findBindingAt desktop event.x event.y) = some binding := by
      unfold findBindingAt
      rw [binding_find, grasps.1, bound]
    obtain rfl : binding.window = window := bindingOf_window bound
    unfold handleEvent
    rw [down.1]
    simp only [processMouseButtonDown, here, dispatchToTask_windows]
    rw [if_pos ⟨down.2, grasps.2.2⟩]
    exact ⟨rfl, rfl⟩

/-- Only a move with the button held moves a window. -/
theorem handleEvent_still (desktop : DragDesktop Window Memory) (notHeld : ¬ HeldMove event) :
    (handleEvent desktop event).windows = desktop.windows := by
  rcases handleEvent_windows desktop event with same | ⟨move, _⟩
  · exact same
  · unfold handleEvent
    rw [move]
    simp only [processMouseMove]
    split
    · rw [if_neg fun held => notHeld ⟨move, held⟩]
      exact dispatchToTask_windows _ _ _ _
    · exact dispatchToTask_windows _ _ _ _

/-- Such a move carries the dragged window along. -/
theorem handleEvent_carries (dragging : desktop.dragged = some window) (event : InputEvent) :
    (handleEvent desktop event).windows = draggedTo desktop.windows window
      desktop.drag.dragOffsetX desktop.drag.dragOffsetY (heldPlace event) := by
  unfold heldPlace
  by_cases held : HeldMove event
  · rw [if_pos held]
    unfold DragDesktop.dragged at dragging
    obtain ⟨binding, bound, named⟩ := Option.map_eq_some_iff.mp dragging
    obtain rfl : binding.window = window := named
    unfold handleEvent
    rw [held.1]
    simp only [processMouseMove, bound]
    rw [if_pos held.2, dispatchToTask_windows]
    rfl
  · rw [if_neg held]
    exact handleEvent_still desktop held

/-- Without a window in hand nothing moves. -/
theorem handleEvent_free (free : desktop.dragged = none) (event : InputEvent) :
    (handleEvent desktop event).windows = desktop.windows := by
  rcases handleEvent_windows desktop event with same | ⟨_, window, _, _, dragging, _⟩
  · exact same
  · cases free.symm.trans dragging

end Gesture

/-- A window is in hand, by a grip, and was carried to under a place from where it was. -/
structure InHand (windows : Window → WmWindow) (window : Window) (gripX gripY : UInt32)
    (place : Option (UInt32 × UInt32)) (desktop : DragDesktop Window Memory) : Prop where
  dragged : desktop.dragged = some window
  offsetX : desktop.drag.dragOffsetX = gripX
  offsetY : desktop.drag.dragOffsetY = gripY
  carried : desktop.windows = draggedTo windows window gripX gripY place

section InHand

variable {windows : Window → WmWindow} {gripX gripY : UInt32} {place : Option (UInt32 × UInt32)}

/-- Being carried on makes no difference to where a window comes from. -/
theorem draggedTo_draggedTo (windows : Window → WmWindow) (window : Window) (gripX gripY : UInt32)
    (first next : Option (UInt32 × UInt32)) :
    draggedTo (draggedTo windows window gripX gripY first) window gripX gripY next =
      draggedTo windows window gripX gripY (next.or first) := by
  cases next with
  | none => rfl
  | some next =>
      cases first with
      | none => rfl
      | some first =>
          unfold draggedTo
          simp only [Option.elim_some, Option.some_or, Function.update_self, Function.update_idem]

/-- An event that neither presses nor releases the left button keeps a window in hand. -/
theorem InHand.step {event : InputEvent} (inHand : InHand windows window gripX gripY place desktop)
    (notDown : ¬ LeftDown event) (notUp : ¬ LeftUp event) :
    InHand windows window gripX gripY ((heldPlace event).or place)
      (wmDragProcessEvent desktop event) := by
  rw [processEvent_eq]
  obtain ⟨offsetX, offsetY⟩ := handleEvent_offsets desktop notDown
  refine ⟨?_, offsetX.trans inHand.offsetX, offsetY.trans inHand.offsetY, ?_⟩
  · change (handleEvent desktop event).dragged = some window
    rcases handleEvent_dragged desktop event with ⟨up, _⟩ | ⟨down, _⟩ | ⟨_, _, same⟩
    · exact absurd up notUp
    · exact absurd down notDown
    · exact same.trans inHand.dragged
  · change (handleEvent desktop event).windows = _
    rw [handleEvent_carries inHand.dragged, inHand.offsetX, inHand.offsetY, inHand.carried,
      draggedTo_draggedTo]

/-- Through all of them it is carried to under the last place. -/
theorem InHand.run (inHand : InHand windows window gripX gripY place desktop)
    {events : List InputEvent} (steer : ∀ event ∈ events, ¬ LeftDown event ∧ ¬ LeftUp event) :
    InHand windows window gripX gripY ((events.filterMap heldPlace).getLast?.or place)
      (eagerly.state desktop events) := by
  induction events generalizing desktop place with
  | nil => exact inHand
  | cons event events ih =>
      obtain ⟨notDown, notUp⟩ := steer event List.mem_cons_self
      have rest := ih (inHand.step notDown notUp)
        fun event member => steer event (List.mem_cons_of_mem _ member)
      rw [List.filterMap_cons]
      cases here : heldPlace event with
      | none =>
          rw [here] at rest
          exact rest
      | some reached =>
          rw [here] at rest
          simp only [List.getLast?_cons]
          cases last : (events.filterMap heldPlace).getLast? with
          | none =>
              rw [last] at rest
              exact rest
          | some place =>
              rw [last] at rest
              exact rest

end InHand

/-- With no window in hand, events without a press of the left button move none. -/
theorem eagerly_free (free : desktop.dragged = none) {events : List InputEvent}
    (steer : ∀ event ∈ events, ¬ LeftDown event) :
    (eagerly.state desktop events).dragged = none ∧
      (eagerly.state desktop events).windows = desktop.windows := by
  induction events generalizing desktop with
  | nil => exact ⟨free, rfl⟩
  | cons event events ih =>
      have stays : (handleEvent desktop event).dragged = none := by
        rcases handleEvent_dragged desktop event with ⟨_, released⟩ | ⟨down, _⟩ | ⟨_, _, same⟩
        · exact released
        · exact absurd down (steer event List.mem_cons_self)
        · exact same.trans free
      have next : (wmDragProcessEvent desktop event).dragged = none := by
        rw [processEvent_eq]
        exact stays
      obtain ⟨last, windows⟩ := ih next
        fun event member => steer event (List.mem_cons_of_mem _ member)
      refine ⟨last, windows.trans ?_⟩
      rw [processEvent_eq]
      exact handleEvent_free free event

/-- **A drag**, from the press to the release of the left button. -/
theorem eagerly_drag (desktop : DragDesktop Window Memory) {press release : InputEvent}
    {events : List InputEvent} (down : LeftDown press)
    (steer : ∀ event ∈ events, ¬ LeftDown event ∧ ¬ LeftUp event) (up : LeftUp release) :
    let after := eagerly.state desktop (press :: (events ++ [release]))
    after.dragged = none ∧
      (∀ window, Grasps desktop press window → after.windows = draggedTo desktop.windows window
        (press.x - (desktop.windows window).frame.x) (press.y - (desktop.windows window).frame.y)
        (events.filterMap heldPlace).getLast?) ∧
      (desktop.dragged = none → (∀ window, ¬ Grasps desktop press window) →
        after.windows = desktop.windows) := by
  intro after
  have last : after = wmDragProcessEvent
      (eagerly.state (wmDragProcessEvent desktop press) events) release := by
    change eagerly.state desktop (press :: (events ++ [release])) = _
    rw [Machine.state_cons, Machine.state_append]
    rfl
  generalize flight : eagerly.state (wmDragProcessEvent desktop press) events = inFlight at last
  have stays : after.windows = inFlight.windows := by
    rw [last, processEvent_eq]
    apply handleEvent_still inFlight
    intro move
    cases up.1.symm.trans move.1
  refine ⟨?_, ?_, ?_⟩
  · rw [last, processEvent_eq]
    change (handleEvent inFlight release).dragged = none
    rcases handleEvent_dragged inFlight release with ⟨_, released⟩ | ⟨down, _⟩ | ⟨notUp, _⟩
    · exact released
    · cases up.1.symm.trans down.1
    · exact absurd up notUp
  · intro window grasps
    obtain ⟨dragged, windows, offsetX, offsetY⟩ := handleEvent_grasp down grasps
    have taken : InHand desktop.windows window (press.x - (desktop.windows window).frame.x)
        (press.y - (desktop.windows window).frame.y) none (wmDragProcessEvent desktop press) := by
      rw [processEvent_eq]
      exact ⟨dragged, offsetX, offsetY, windows⟩
    have flown := (taken.run steer).carried
    rw [flight, Option.or_none] at flown
    rw [stays, flown]
  · intro free misses
    have still : (wmDragProcessEvent desktop press).dragged = none := by
      rw [processEvent_eq]
      rcases handleEvent_dragged desktop press with ⟨_, released⟩ | ⟨_, window, grasps, _⟩ |
        ⟨_, _, same⟩
      · exact released
      · exact absurd grasps (misses window)
      · exact same.trans free
    obtain ⟨_, windows⟩ := eagerly_free still fun event member => (steer event member).1
    rw [stays, ← flight, windows, processEvent_eq]
    exact handleEvent_free free press

/-! ## The calls of a drag -/

/-- A call that neither presses nor releases the left button. -/
def Steering : MouseCall → Prop
  | .emitMove _ _ _ => True
  | .emitButtonDown _ _ buttonMask | .emitButtonUp _ _ buttonMask =>
      buttonMask &&& inputMouseButtonLeft = 0
  | _ => False

instance : DecidablePred Steering
  | .emitMove _ _ _ => inferInstanceAs (Decidable True)
  | .emitButtonDown _ _ _ | .emitButtonUp _ _ _ => inferInstanceAs (Decidable (_ = _))
  | .reset | .push _ => inferInstanceAs (Decidable False)

/-- The place of a call that moves the mouse with the left button held. -/
def heldAt : MouseCall → Option (UInt32 × UInt32)
  | .emitMove x y buttons => if buttons &&& inputMouseButtonLeft ≠ 0 then some (x, y) else none
  | _ => none

section Calls

theorem mouseEvents_cons {mouse : MouseState} {call : MouseCall} {event : InputEvent}
    (emits : mouseEvent mouse call = some event) (calls : List MouseCall) :
    mouseEvents mouse (call :: calls) = event :: mouseEvents (mouseAfter mouse call) calls := by
  change (mouseEvent mouse call).toList ++ _ = _
  rw [emits]
  rfl

theorem mouseEvents_append (mouse : MouseState) (first second : List MouseCall) :
    mouseEvents mouse (first ++ second) =
      mouseEvents mouse first ++ mouseEvents (first.foldl mouseAfter mouse) second := by
  induction first generalizing mouse with
  | nil => rfl
  | cons call calls ih =>
      change (mouseEvent mouse call).toList ++
        mouseEvents (mouseAfter mouse call) (calls ++ second) =
        (mouseEvent mouse call).toList ++ mouseEvents (mouseAfter mouse call) calls ++ _
      rw [ih, List.append_assoc]
      rfl

/-- Such calls have events that keep a window in hand, and the same places. -/
theorem mouseEvents_steering {calls : List MouseCall} (steering : ∀ call ∈ calls, Steering call)
    (mouse : MouseState) :
    (∀ event ∈ mouseEvents mouse calls, ¬ LeftDown event ∧ ¬ LeftUp event) ∧
      (mouseEvents mouse calls).filterMap heldPlace = calls.filterMap heldAt := by
  induction calls generalizing mouse with
  | nil => exact ⟨fun _ member => absurd member List.not_mem_nil, rfl⟩
  | cons call calls ih =>
      obtain ⟨others, places⟩ :=
        ih (fun call member => steering call (List.mem_cons_of_mem _ member))
        (mouseAfter mouse call)
      have here := steering call List.mem_cons_self
      have consists (event : InputEvent) (emits : mouseEvent mouse call = some event)
          (steers : ¬ LeftDown event ∧ ¬ LeftUp event) (place : heldPlace event = heldAt call) :
          (∀ event ∈ mouseEvents mouse (call :: calls), ¬ LeftDown event ∧ ¬ LeftUp event) ∧
            (mouseEvents mouse (call :: calls)).filterMap heldPlace =
              (call :: calls).filterMap heldAt := by
        rw [mouseEvents_cons emits]
        refine ⟨?_, ?_⟩
        · intro other member
          rcases List.mem_cons.mp member with rfl | member
          · exact steers
          · exact others other member
        · rw [List.filterMap_cons, List.filterMap_cons, place, places]
      cases call with
      | reset => exact absurd here id
      | push event => exact absurd here id
      | emitMove x y buttons =>
          apply consists _ rfl
          · exact ⟨(fun down => by cases down.1), (fun up => by cases up.1)⟩
          · unfold heldPlace heldAt
            by_cases held : buttons &&& inputMouseButtonLeft ≠ 0
            · exact (if_pos ⟨rfl, held⟩).trans (if_pos held).symm
            · exact (if_neg fun move => held move.2).trans (if_neg held).symm
      | emitButtonDown x y buttonMask =>
          apply consists _ rfl
          · exact ⟨fun down => down.2 here, fun up => by cases up.1⟩
          · exact if_neg fun move => by cases move.1
      | emitButtonUp x y buttonMask =>
          apply consists _ rfl
          · exact ⟨(fun down => by cases down.1), fun up => up.2 here⟩
          · exact if_neg fun move => by cases move.1

end Calls

/-- Windows before and after one was dragged from under a place to under another: it moved as the
mouse did, as far as it stays on the screen to the left and above, and nothing else changed. -/
structure Carried (before after : Window → WmWindow) (window : Window)
    (grip drop : UInt32 × UInt32) : Prop where
  others : ∀ other, other ≠ window → after other = before other
  rest : after window = { before window with
    frame :=
      { (before window).frame with
        x := (after window).frame.x
        y := (after window).frame.y } }
  x : ((after window).frame.x.toNat : ℤ) =
    max 0 ((before window).frame.x.toNat + ((drop.1.toNat : ℤ) - grip.1.toNat))
  y : ((after window).frame.y.toNat : ℤ) =
    max 0 ((before window).frame.y.toNat + ((drop.2.toNat : ℤ) - grip.2.toNat))

section Carried

variable {grip drop : UInt32 × UInt32}

/-- The arithmetic of one coordinate. -/
theorem carried_coordinate {corner grip drop : UInt32} (inside : corner ≤ grip) :
    ((safeSubU32 drop (grip - corner)).toNat : ℤ) =
      max 0 (corner.toNat + ((drop.toNat : ℤ) - grip.toNat)) := by
  rw [toNat_safeSubU32, UInt32.toNat_sub_of_le _ _ inside]
  have inside' := UInt32.le_iff_toNat_le.mp inside
  omega

/-- A window that is grasped is under the mouse. -/
theorem Grasps.inside {event : InputEvent} (grasps : Grasps desktop event window) :
    (desktop.windows window).frame.x ≤ event.x ∧ (desktop.windows window).frame.y ≤ event.y := by
  have hit :=
    List.find?_some (show desktop.scene.layers.reverse.find? _ = some window from grasps.1)
  obtain ⟨_, _, left, top, _⟩ := of_decide_eq_true hit
  exact ⟨left, top⟩

theorem carried_draggedTo {windows : Window → WmWindow} {place : Option (UInt32 × UInt32)}
    (left : (windows window).frame.x ≤ grip.1) (top : (windows window).frame.y ≤ grip.2) :
    Carried windows (draggedTo windows window (grip.1 - (windows window).frame.x)
      (grip.2 - (windows window).frame.y) place) window grip (place.getD grip) := by
  cases place with
  | none =>
      refine ⟨fun _ _ => rfl, rfl, ?_, ?_⟩
      · change ((windows window).frame.x.toNat : ℤ) =
          max 0 ((windows window).frame.x.toNat + ((grip.1.toNat : ℤ) - grip.1.toNat))
        omega
      · change ((windows window).frame.y.toNat : ℤ) =
          max 0 ((windows window).frame.y.toNat + ((grip.2.toNat : ℤ) - grip.2.toNat))
        omega
  | some place =>
      unfold draggedTo
      simp only [Option.elim_some, Option.getD_some]
      constructor
      case others => exact fun other apart => Function.update_of_ne apart _ _
      all_goals rw [Function.update_self]
      case x => exact carried_coordinate left
      case y => exact carried_coordinate top

end Carried

section Drag

/-- A call keeps the queue a ring. -/
theorem drags_valid (valid : desktop.queue.Valid) (op : DragOp Window Memory) :
    (drags.step desktop op).2.queue.Valid := by
  cases op with
  | mouse call => exact mouseStep_valid valid _ call
  | dispatchPending => exact dispatchPending_valid valid
  | _ => exact valid

/-- **A drag carries a window as far as the mouse goes.** A user presses the left button, moves the
mouse and releases it, and the loop serves the mouse at any moments in between. If the press
grasped a title bar, the window ends as far from where it was as the mouse was last moved with the
button held; no other move counts, and no other window. Else nothing moves. -/
theorem drag_carries (start : DragDesktop Window Memory) (before ops : List (DragOp Window Memory))
    (x y x' y' : UInt32) (mask mask' : UInt8) (steers : List MouseCall)
    (idle : (drags.state start.cleared before).queue.ring.count = 0)
    (left : mask &&& inputMouseButtonLeft ≠ 0) (left' : mask' &&& inputMouseButtonLeft ≠ 0)
    (steering : ∀ call ∈ steers, Steering call) (pointing : ∀ op ∈ ops, op.IsPointing)
    (gesture : mouseCalls ops =
      .emitButtonDown x y mask :: (steers ++ [.emitButtonUp x' y' mask']))
    (answered : ∀ answer ∈ drags.results (drags.state start.cleared before) ops,
      answer ≠ .status false)
    (drained : (drags.state (drags.state start.cleared before) ops).queue.ring.count = 0) :
    let desktop := drags.state start.cleared before
    let press : InputEvent := ⟨.mouseButtonDown, x, y, desktop.mouse.buttons ||| mask, mask⟩
    let after := drags.state desktop ops
    after.dragged = none ∧
      (∀ window, Grasps desktop press window → Carried desktop.windows after.windows window (x, y)
        ((steers.filterMap heldAt).getLast?.getD (x, y))) ∧
      (desktop.dragged = none → (∀ window, ¬ Grasps desktop press window) →
        after.windows = desktop.windows) := by
  intro desktop press after
  have valid : desktop.queue.Valid :=
    @Machine.state_invariant _ _ _ drags (fun desktop => desktop.queue.Valid)
      (fun _ op valid => drags_valid valid op) _ valid_inputEventQueueReset before
  have begins : Served desktop [] desktop := by
    refine ⟨valid, [], ?_, rfl⟩
    unfold InputEventQueue.pending
    rw [RingIndex.contents_eq_nil idle]
    rfl
  obtain ⟨_, served, sums, ends⟩ := begins.run pointing answered
  have none_ : (drags.state desktop ops).queue.pending = [] := by
    unfold InputEventQueue.pending
    rw [RingIndex.contents_eq_nil drained]
  obtain ⟨steer, places⟩ := mouseEvents_steering steering
    (mouseAfter desktop.mouse (.emitButtonDown x y mask))
  rw [none_, List.append_nil, List.nil_append, gesture, mouseEvents_cons rfl,
    mouseEvents_append] at sums
  generalize released : mouseEvents _ [MouseCall.emitButtonUp x' y' mask'] = last at sums
  obtain ⟨release, rfl, up⟩ : ∃ release, last = [release] ∧ LeftUp release :=
    ⟨_, released.symm, rfl, left'⟩
  have drag := @eagerly_drag _ _ _ desktop press _ _ ⟨rfl, left⟩ steer up
  rw [places] at drag
  obtain ⟨dropped, carries, still⟩ := drag
  have path : after = (eagerly.state desktop (press :: (_ ++ [release]))).withMouse _ _ :=
    sums ▸ ends
  refine ⟨?_, ?_, ?_⟩
  · rw [path]
    exact dropped
  · intro window grasps
    have flown : after.windows = _ :=
      (congrArg DragDesktop.windows path).trans (carries window grasps)
    rw [flown]
    exact @carried_draggedTo _ _ _ (x, y) _ _ grasps.inside.1 grasps.inside.2
  · intro free misses
    exact (congrArg DragDesktop.windows path).trans (still free misses)

/-- A window is dragged by its title bar past the left edge of the screen, and the loop comes
twice. -/
theorem drag_carries_one :
    let after := drags.state (drags.state (DragDesktop.zero ()).cleared oneWindow)
      [.mouse (.emitButtonDown 40 32 1), .mouse (.emitMove 300 90 1), .dispatchPending,
        .mouse (.emitMove 8 40 1), .mouse (.emitMove 500 500 0), .mouse (.emitButtonUp 9 9 1),
        .dispatchPending]
    ((after.windows ()).frame.x.toNat : ℤ) = 0 ∧ ((after.windows ()).frame.y.toNat : ℤ) = 36 := by
  intro after
  obtain ⟨_, carries, _⟩ := drag_carries (DragDesktop.zero ()) oneWindow
    [.mouse (.emitButtonDown 40 32 1), .mouse (.emitMove 300 90 1), .dispatchPending,
      .mouse (.emitMove 8 40 1), .mouse (.emitMove 500 500 0), .mouse (.emitButtonUp 9 9 1),
      .dispatchPending]
    40 32 9 9 1 1 [.emitMove 300 90 1, .emitMove 8 40 1, .emitMove 500 500 0]
    (by decide +kernel) (by decide) (by decide) (by decide) (by simp [DragOp.IsPointing]) rfl
    (by decide +kernel) (by decide +kernel)
  have carried := carries () ⟨by decide +kernel, by decide +kernel, by decide +kernel⟩
  exact ⟨carried.x.trans (by decide +kernel), carried.y.trans (by decide +kernel)⟩

end Drag

end TigerOS.Wm
