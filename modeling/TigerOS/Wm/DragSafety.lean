import TigerOS.Wm.DragSteps

/-! # Only a held title bar moves a window

A window is held from a press of the left button in its title bar until the next press
or release of that button. The window that is dragged is held
(`TigerOS.Wm.DragInvariant`), as long as a press that grasps nothing only comes while no
window is dragged; then every event moves at most the window that is held
(`TigerOS.Wm.drag_safe`). A release that is lost on a full queue is what lets such a
press come (`TigerOS.Wm.lostRelease_drags`).
-/

namespace TigerOS.Wm

open Foundation TigerOS.Input

variable {Window Memory : Type} {desktop : DragDesktop Window Memory} {event : InputEvent}
  {window : Window} {earlier : List (SeenEvent Window)} {last : SeenEvent Window}

/-! ## Holding a title bar -/

/-- An event has a window as its front-most hit, and lies in the title bar of it. -/
def SeenEvent.OnTitleBar (seen : SeenEvent Window) (window : Window) : Prop :=
  seen.hit = some window ∧
    wmPointInRect (seen.before window).titleBarRect seen.event.x seen.event.y

/-- The last press of the left button among some events had a window as its front-most
hit and fell inside its title bar, and no release of the left button came since. -/
def Held (events : List (SeenEvent Window)) (window : Window) : Prop :=
  ∃ before press since, events = before ++ press :: since ∧ LeftDown press.event ∧
    press.OnTitleBar window ∧ ∀ other ∈ since, ¬ LeftDown other.event ∧ ¬ LeftUp other.event

/-- An event changes at most the frame of a window that is held, as a move and in its
place only. -/
structure MovesHeld (earlier : List (SeenEvent Window)) (seen : SeenEvent Window) : Prop where
  moved : ∀ window, (seen.after window).frame ≠ (seen.before window).frame →
    seen.event.type = .mouseMove ∧ Held earlier window
  sizes : ∀ window, (seen.after window).frame.width = (seen.before window).frame.width ∧
    (seen.after window).frame.height = (seen.before window).frame.height

/-- Every event moves at most the window that is held when it comes. -/
def DragSafe (events : List (SeenEvent Window)) : Prop :=
  ∀ earlier seen, earlier ++ [seen] <+: events → MovesHeld earlier seen

section Hold

/-- A press in a title bar holds it. -/
theorem held_press (down : LeftDown last.event) (onTitleBar : last.OnTitleBar window) :
    Held (earlier ++ [last]) window :=
  ⟨earlier, last, [], rfl, down, onTitleBar, fun _ member => absurd member List.not_mem_nil⟩

/-- What is held stays held over other events. -/
theorem Held.concat (held : Held earlier window) (notDown : ¬ LeftDown last.event)
    (notUp : ¬ LeftUp last.event) : Held (earlier ++ [last]) window := by
  obtain ⟨before, press, since, rfl, down, onTitleBar, quiet⟩ := held
  refine ⟨before, press, since ++ [last], by rw [List.append_assoc, List.cons_append], down,
    onTitleBar, ?_⟩
  intro other member
  rcases List.mem_append.mp member with among | new
  · exact quiet other among
  · rw [List.mem_singleton.mp new]
    exact ⟨notDown, notUp⟩

/-- After a press only what it grasps is held. -/
theorem Held.of_press (held : Held (earlier ++ [last]) window) (down : LeftDown last.event) :
    last.OnTitleBar window := by
  obtain ⟨before, press, since, same, _, onTitleBar, quiet⟩ := held
  have ends := congrArg List.getLast? same
  rw [List.getLast?_concat, List.getLast?_append_of_ne_nil _ (List.cons_ne_nil _ _)] at ends
  rcases List.mem_cons.mp (List.mem_of_getLast? ends.symm) with rfl | later
  · exact onTitleBar
  · exact absurd down (quiet last later).1

theorem dragSafe_nil : DragSafe ([] : List (SeenEvent Window)) := by
  intro earlier seen beginning
  exact absurd (List.prefix_nil.mp beginning)
    (List.append_ne_nil_of_right_ne_nil _ (List.cons_ne_nil _ _))

theorem DragSafe.concat (safe : DragSafe earlier) (moves : MovesHeld earlier last) :
    DragSafe (earlier ++ [last]) := by
  intro before seen beginning
  rcases List.prefix_concat_iff.mp beginning with same | shorter
  · obtain ⟨rfl, lasts⟩ := List.append_inj' same rfl
    rw [List.cons.injEq] at lasts
    exact lasts.1 ▸ moves
  · exact safe before seen shorter

end Hold

/-! ## The invariant -/

variable [DecidableEq Window]

/-- The dragged window is held, and so far only held windows were moved. -/
structure DragInvariant (desktop : DragDesktop Window Memory) : Prop where
  pointed : desktop.drag.Pointed
  held : ∀ window, desktop.dragged = some window → Held desktop.seen window
  safe : DragSafe desktop.seen

/-- While a window is dragged, a press of the left button falls into the title bar of
its front-most hit, and that window is registered. -/
def Regrasps (desktop : DragDesktop Window Memory) (event : InputEvent) : Prop :=
  LeftDown event → desktop.dragged ≠ none → ∃ window, Grasps desktop event window

instance (desktop : DragDesktop Window Memory) (event : InputEvent) :
    Decidable (∃ window, Grasps desktop event window) :=
  decidable_of_iff (∃ window ∈ desktop.hit event.x event.y,
    (desktop.drag.bindingOf (some window)).isSome ∧
      wmPointInRect (desktop.windows window).titleBarRect event.x event.y) Iff.rfl

instance (desktop : DragDesktop Window Memory) (event : InputEvent) :
    Decidable (Regrasps desktop event) :=
  inferInstanceAs (Decidable (LeftDown event → desktop.dragged ≠ none → _))

section Step

/-- An event moves at most the dragged window. -/
theorem movesHeld_seeing (held : ∀ window, desktop.dragged = some window → Held earlier window)
    (event : InputEvent) : MovesHeld earlier (desktop.seeing event) := by
  have same (window : Window)
      (kept : (handleEvent desktop event).windows window = desktop.windows window) :
      ((desktop.seeing event).after window).frame =
        ((desktop.seeing event).before window).frame := congrArg WmWindow.frame kept
  rcases handleEvent_windows desktop event with still | ⟨move, dragged, x, y, dragging, placed⟩
  · refine ⟨fun window changed => ?_, fun window => ?_⟩
    · exact absurd (same window (congrFun still window)) changed
    · rw [same window (congrFun still window)]
      exact ⟨rfl, rfl⟩
  · have elsewhere (window : Window) (other : window ≠ dragged) :
        (handleEvent desktop event).windows window = desktop.windows window := by
      rw [placed]
      exact Function.update_of_ne other _ _
    refine ⟨fun window changed => ?_, fun window => ?_⟩
    · by_cases here : window = dragged
      · exact ⟨move, held window (here ▸ dragging)⟩
      · exact absurd (same window (elsewhere window here)) changed
    · by_cases here : window = dragged
      · change ((handleEvent desktop event).windows window).frame.width = _ ∧
          ((handleEvent desktop event).windows window).frame.height = _
        rw [placed, here]
        simp only [DragDesktop.place, DragDesktop.seeing, Function.update_self, and_self]
      · rw [same window (elsewhere window here)]
        exact ⟨rfl, rfl⟩

/-- An event keeps the invariant, unless it is a press that grasps nothing while a window
is dragged. -/
theorem DragInvariant.process (invariant : DragInvariant desktop)
    (regrasps : Regrasps desktop event) : DragInvariant (wmDragProcessEvent desktop event) := by
  rw [processEvent_eq]
  refine ⟨handleEvent_pointed invariant.pointed event, ?_,
    invariant.safe.concat (movesHeld_seeing invariant.held event)⟩
  intro window dragging
  change (handleEvent desktop event).dragged = some window at dragging
  rcases handleEvent_dragged desktop event with ⟨_, released⟩ | ⟨down, grasped, grasps, dragged⟩ |
    ⟨notUp, misses, same⟩
  · cases released.symm.trans dragging
  · obtain rfl : grasped = window := Option.some.inj (dragged.symm.trans dragging)
    exact held_press down ⟨grasps.1, grasps.2.2⟩
  · rw [same] at dragging
    have notDown : ¬ LeftDown event := by
      intro down
      have busy : desktop.dragged ≠ none := by
        rw [dragging]
        exact Option.some_ne_none window
      obtain ⟨grasped, grasps⟩ := regrasps down busy
      exact misses down grasped grasps
    exact (invariant.held window dragging).concat notDown notUp

/-- The invariant is about the drags and what was seen. -/
theorem DragInvariant.congr {desktop' : DragDesktop Window Memory}
    (invariant : DragInvariant desktop) (bindings : desktop'.drag.bindings = desktop.drag.bindings)
    (dragBinding : desktop'.drag.dragBinding = desktop.drag.dragBinding)
    (seen : desktop'.seen = desktop.seen) : DragInvariant desktop' := by
  refine ⟨?_, ?_, ?_⟩
  · unfold WmDragState.Pointed findBindingForWindow
    rw [bindings, dragBinding]
    exact invariant.pointed
  · unfold DragDesktop.dragged WmDragState.binding
    rw [bindings, dragBinding, seen]
    exact invariant.held
  · rw [seen]
    exact invariant.safe

/-- Registering a window keeps which one is dragged. -/
theorem DragInvariant.register (invariant : DragInvariant desktop) (window : Option Window)
    (taskId : UInt32) :
    DragInvariant { desktop with drag := (wmDragRegisterWindow desktop.drag window taskId).2 } := by
  cases window with
  | none => exact invariant
  | some pointer =>
      unfold wmDragRegisterWindow
      simp only
      split
      · exact invariant
      refine ⟨fun index dragging => ?_, fun window dragging => ?_, invariant.safe⟩
      · obtain ⟨window, found⟩ := invariant.pointed index dragging
        exact ⟨window, bindings_append found⟩
      · apply invariant.held window
        rw [← dragging]
        unfold DragDesktop.dragged WmDragState.binding
        simp only
        cases held : desktop.drag.dragBinding with
        | none => rfl
        | some index =>
            obtain ⟨_, found⟩ := invariant.pointed index held
            obtain ⟨binding, here, _⟩ := binding_of_find found
            obtain ⟨inside, _⟩ := List.getElem?_eq_some_iff.mp here
            rw [Option.bind_some, Option.bind_some, List.getElem?_append_left inside]

end Step

/-! ## Runs -/

/-- A call lets no press of the left button that grasps nothing come while a window is
dragged. -/
def StepRegrasps (desktop : DragDesktop Window Memory) : DragOp Window Memory → Prop
  | .dispatchPending => processes.Along Regrasps desktop desktop.queue.pending
  | _ => True

instance (desktop : DragDesktop Window Memory) :
    (op : DragOp Window Memory) → Decidable (StepRegrasps desktop op)
  | .dispatchPending =>
      inferInstanceAs (Decidable (processes.Along Regrasps desktop desktop.queue.pending))
  | .dragReset | .register _ _ | .setDispatch _ | .windowInit _ _ _ _ _ _ | .scene _
  | .mouse _ => inferInstanceAs (Decidable True)

/-- The desktop after `wm_drag_reset` and `mouse_reset`, with no event seen yet. -/
def DragDesktop.cleared (start : DragDesktop Window Memory) : DragDesktop Window Memory :=
  { start with
    mouse := (mouseReset start.queue).1
    queue := (mouseReset start.queue).2
    drag := wmDragReset
    seen := [] }

section Run

theorem dragInvariant_cleared (start : DragDesktop Window Memory) : DragInvariant start.cleared :=
  ⟨(fun _ dragging => by cases dragging), (fun _ dragging => by cases dragging), dragSafe_nil⟩

/-- A call keeps the invariant. -/
theorem DragInvariant.step (invariant : DragInvariant desktop) (valid : desktop.queue.Valid)
    {op : DragOp Window Memory} (regrasps : StepRegrasps desktop op) :
    DragInvariant (drags.step desktop op).2 ∧ (drags.step desktop op).2.queue.Valid := by
  cases op with
  | dragReset =>
      refine ⟨⟨?_, ?_, invariant.safe⟩, valid⟩
      · exact fun _ dragging => by cases dragging
      · exact fun _ dragging => by cases dragging
  | register window taskId => exact ⟨invariant.register window taskId, valid⟩
  | mouse call => exact ⟨invariant.congr rfl rfl rfl, mouseStep_valid valid _ call⟩
  | dispatchPending =>
      refine ⟨?_, dispatchPending_valid valid⟩
      apply dispatchPending_invariant valid regrasps invariant
      intro desktop event invariant regrasps
      exact DragInvariant.process (invariant.congr rfl rfl rfl) regrasps
  | _ => exact ⟨invariant.congr rfl rfl rfl, valid⟩

/-- **Only a held title bar moves a window**, in every run in which a press of the left
button that grasps no title bar of a registered window only comes while no window is
dragged. -/
theorem drag_safe (start : DragDesktop Window Memory) (ops : List (DragOp Window Memory))
    (along : drags.Along StepRegrasps start.cleared ops) :
    DragSafe (drags.state start.cleared ops).seen := by
  have initially : DragInvariant start.cleared ∧ start.cleared.queue.Valid :=
    ⟨dragInvariant_cleared start, valid_inputEventQueueReset⟩
  have invariant := @Machine.Along.state_invariant _ _ _ drags _ _ _
    (fun desktop => DragInvariant desktop ∧ desktop.queue.Valid) along initially
    fun _ _ before regrasps => before.1.step before.2 regrasps
  exact invariant.1.safe

/-- One window is opened where windows are by default. -/
def oneWindow : List (DragOp Unit Unit) :=
  [.windowInit () none 28 28 236 156, .scene (.reset 0), .scene (.add (some ())),
    .register (some ()) 1]

/-- A drag by the title bar of a window. -/
theorem drag_safe_one :
    DragSafe (drags.state (DragDesktop.zero ()).cleared (oneWindow ++
      [.mouse (.emitButtonDown 40 32 1), .mouse (.emitMove 60 40 1),
        .mouse (.emitButtonUp 60 40 1), .dispatchPending])).seen :=
  drag_safe (DragDesktop.zero ()) _ (by decide +kernel)

/-- The queue fills with moves and loses the release of a drag; then the left button is
pressed where no window is, and the mouse moved. -/
def lostRelease : List (DragOp Unit Unit) :=
  oneWindow ++ .mouse (.emitButtonDown 40 32 1) ::
    List.replicate 63 (.mouse (.emitMove 40 32 1)) ++
    [.mouse (.emitButtonUp 40 32 1), .dispatchPending, .mouse (.emitButtonDown 300 190 1),
      .dispatchPending, .mouse (.emitMove 310 195 1), .dispatchPending]

/-- What is seen of that run. -/
def lostReleaseSeen : List (SeenEvent Unit) :=
  (drags.state (DragDesktop.zero ()).cleared lostRelease).seen

theorem lostReleaseSeen_length : lostReleaseSeen.length = 66 := by decide +kernel

/-- The place of an event of that run. -/
def seenAt (index : ℕ) (inside : index < 66) : Fin lostReleaseSeen.length :=
  ⟨index, lostReleaseSeen_length.symm ▸ inside⟩

/-- The press where no window is. -/
def missedPress : SeenEvent Unit := lostReleaseSeen.get (seenAt 64 (by decide))

/-- The move after it. -/
def staleMove : SeenEvent Unit := lostReleaseSeen.get (seenAt 65 (by decide))

theorem take_concat_seen (index : ℕ) (inside : index < 66) :
    lostReleaseSeen.take index ++ [lostReleaseSeen.get (seenAt index inside)] =
      lostReleaseSeen.take (index + 1) :=
  List.take_append_getElem (seenAt index inside).isLt

theorem missedPress_down : LeftDown missedPress.event := by decide +kernel

theorem missedPress_hit : missedPress.hit = none := by decide +kernel

theorem staleMove_frame : (staleMove.after ()).frame ≠ (staleMove.before ()).frame := by
  decide +kernel

/-- The window moves although the last press came where no window was. -/
theorem lostRelease_drags :
    ¬ ∀ (start : DragDesktop Unit Unit) (ops : List (DragOp Unit Unit)),
      DragSafe (drags.state start.cleared ops).seen := by
  intro safe
  have seen : DragSafe lostReleaseSeen := safe (DragDesktop.zero ()) lostRelease
  have beginning : lostReleaseSeen.take 65 ++ [staleMove] <+: lostReleaseSeen := by
    rw [staleMove, take_concat_seen]
    exact List.take_prefix 66 lostReleaseSeen
  obtain ⟨_, held⟩ := (seen _ _ beginning).moved () staleMove_frame
  rw [← take_concat_seen 64 (by decide)] at held
  exact Option.some_ne_none () ((held.of_press missedPress_down).1.symm.trans missedPress_hit)

end Run

end TigerOS.Wm
