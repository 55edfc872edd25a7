import TigerOS.Apps.AppWindow
import TigerOS.Wm.DragSteps

/-! # Events reach the window they concern

An event concerns the front-most window under it, or the one that is dragged. As long as
no task opens a second window, every event calls the function of the window it concerns,
with that window and its own context, once, and no other function
(`TigerOS.Apps.events_routed`). A second window of a task takes the events of the first
(`TigerOS.Apps.secondWindow_takes`).
-/

namespace TigerOS.Apps

open Foundation TigerOS.Input TigerOS.Wm

variable {Window Callback Context : Type}

/-! ## What events should call -/

/-- The call that an event should make: of the function of the window it concerns. -/
def ownInvocation (apps : Window → AppWindow Callback Context) (seen : SeenEvent Window) :
    List (Invocation Window Callback Context) :=
  match seen.concern with
  | (none, _) => []
  | (some window, dispatchType) =>
      match (apps window).onEvent with
      | none => []
      | some onEvent =>
          [⟨onEvent, window, ⟨appWindowEventMap dispatchType, seen.event⟩, (apps window).userCtx⟩]

/-- The calls so far are those that the events seen so far should make, and every window
that an event concerned has a function. -/
structure Routed (desktop : AppDesktop Window Callback Context) : Prop where
  invoked : desktop.memory.invoked = desktop.seen.flatMap (ownInvocation desktop.memory.apps)
  owned : ∀ seen ∈ desktop.seen, ∀ window, seen.concern.1 = some window →
    (desktop.memory.apps window).onEvent.isSome

/-! ## The table of tasks -/

/-- The binding of a task. -/
def boundApp (bindings : List (AppWindowBinding Window)) (taskId : UInt32) :
    Option (AppWindowBinding Window) :=
  (findBinding bindings taskId).bind fun index => bindings[index]?

section Table

variable {bindings : List (AppWindowBinding Window)} {taskId : UInt32}
  {binding : AppWindowBinding Window}

theorem boundApp_eq (nonzero : taskId ≠ 0) : boundApp bindings taskId =
    bindings.find? fun binding => binding.taskId = taskId := by
  unfold boundApp findBinding
  rw [if_neg nonzero]
  exact findIdx?_bind bindings _

/-- The task of a binding that is found is not zero. -/
theorem boundApp_nonzero (found : boundApp bindings taskId = some binding) : taskId ≠ 0 := by
  rintro rfl
  cases found

/-- A binding stays found when others are added behind it. -/
theorem boundApp_append (found : boundApp bindings taskId = some binding)
    (added : List (AppWindowBinding Window)) :
    boundApp (bindings ++ added) taskId = some binding := by
  have nonzero := boundApp_nonzero found
  rw [boundApp_eq nonzero] at found ⊢
  rw [List.find?_append, found]
  rfl

/-- The binding of a task that had none is the one that is added. -/
theorem boundApp_concat (nonzero : taskId ≠ 0) (fresh : findBinding bindings taskId = none)
    (appWindow : Option Window) :
    boundApp (bindings ++ [⟨taskId, appWindow⟩]) taskId = some ⟨taskId, appWindow⟩ := by
  have unfound : boundApp bindings taskId = none := by
    unfold boundApp
    rw [fresh]
    rfl
  rw [boundApp_eq nonzero] at unfound ⊢
  rw [List.find?_append, unfound, List.find?_cons, decide_eq_true rfl]
  rfl

end Table

/-! ## The invariant -/

variable [DecidableEq Window]

/-- The windows of the stack are those registered, each under a task whose binding names
the window; and events went where they should. -/
structure Wired (desktop : AppDesktop Window Callback Context) : Prop where
  dispatchFn : desktop.drag.dispatchFn = some appWindowDispatchCb
  pointed : desktop.drag.Pointed
  valid : desktop.queue.Valid
  registered : ∀ window, window ∈ desktop.scene.layers ↔
    ∃ binding ∈ desktop.drag.bindings, binding.window = window
  owners : ∀ binding ∈ desktop.drag.bindings,
    boundApp desktop.memory.bindings binding.taskId = some ⟨binding.taskId, some binding.window⟩ ∧
      (desktop.memory.apps binding.window).onEvent.isSome
  concerned : ∀ seen ∈ desktop.seen, ∀ window, seen.concern.1 = some window →
    window ∈ desktop.scene.layers
  invoked : desktop.memory.invoked = desktop.seen.flatMap (ownInvocation desktop.memory.apps)

section Events

variable {desktop : AppDesktop Window Callback Context} {event : InputEvent}

/-- What is registered and in the stack was routed. -/
theorem Wired.routed (wired : Wired desktop) : Routed desktop := by
  refine ⟨wired.invoked, ?_⟩
  intro seen member window concerns
  obtain ⟨binding, bound, rfl⟩ :=
    (wired.registered window).mp (wired.concerned seen member window concerns)
  exact (wired.owners binding bound).2

/-- An event concerns a window of the stack. -/
theorem Wired.concern_mem (wired : Wired desktop) (event : InputEvent) {window : Window}
    (concerns : (desktop.seeing event).concern.1 = some window) :
    window ∈ desktop.scene.layers := by
  have hits (hit : desktop.hit event.x event.y = some window) : window ∈ desktop.scene.layers := by
    exact List.mem_reverse.mp (List.mem_of_find?_eq_some hit)
  have drags (dragged : desktop.dragged = some window) : window ∈ desktop.scene.layers := by
    obtain ⟨binding, held, rfl⟩ := Option.map_eq_some_iff.mp dragged
    obtain ⟨index, _, here⟩ := Option.bind_eq_some_iff.mp held
    exact (wired.registered _).mpr ⟨binding, List.mem_of_getElem? here, rfl⟩
  unfold SeenEvent.concern DragDesktop.seeing at concerns
  cases type : event.type with
  | mouseMove =>
      simp only [type] at concerns
      split at concerns
      · exact drags concerns
      · exact hits concerns
  | mouseButtonDown =>
      simp only [type] at concerns
      exact hits concerns
  | mouseButtonUp =>
      simp only [type] at concerns
      rcases Option.or_eq_some_iff.mp concerns with dragged | ⟨_, hit⟩
      · exact drags dragged
      · exact hits hit

/-- The task of a window of the stack is found, and its binding names the window. -/
theorem Wired.binding_eq (wired : Wired desktop) {window : Window}
    (member : window ∈ desktop.scene.layers) :
    ∃ taskId, desktop.drag.bindingOf (some window) = some ⟨window, taskId⟩ ∧
      boundApp desktop.memory.bindings taskId = some ⟨taskId, some window⟩ ∧
      (desktop.memory.apps window).onEvent.isSome := by
  obtain ⟨binding, bound, named⟩ := (wired.registered window).mp member
  cases found : desktop.drag.bindingOf (some window) with
  | none =>
      have missed := List.find?_eq_none.mp
        (show desktop.drag.bindings.find? _ = none from found) binding bound
      exact absurd (decide_eq_true named) missed
  | some first =>
      obtain rfl := bindingOf_window found
      have listed : first ∈ desktop.drag.bindings :=
        List.mem_of_find?_eq_some (show desktop.drag.bindings.find? _ = some first from found)
      obtain ⟨owned, callable⟩ := wired.owners first listed
      exact ⟨first.taskId, rfl, owned, callable⟩

omit [DecidableEq Window] in
/-- The call-back calls the function of the window that the task's binding names. -/
theorem dispatchCb_eq {memory : AppMemory Window Callback Context} {taskId : UInt32}
    {window : Window} {onEvent : Callback} (dispatchType : WmDispatchEventType)
    (bound : boundApp memory.bindings taskId = some ⟨taskId, some window⟩)
    (callable : (memory.apps window).onEvent = some onEvent) :
    appWindowDispatchCb taskId dispatchType event memory =
      { memory with
        invoked := memory.invoked ++
          [⟨onEvent, window, ⟨appWindowEventMap dispatchType, event⟩,
            (memory.apps window).userCtx⟩] } := by
  unfold appWindowDispatchCb
  change boundApp memory.bindings taskId = _ at bound
  unfold boundApp at bound
  rw [bound]
  simp only
  rw [callable]

/-- **An event** calls what it should. -/
theorem Wired.told_eq (wired : Wired desktop) (event : InputEvent) :
    desktop.told (desktop.seeing event).concern.2 event (desktop.seeing event).concern.1 =
      { desktop.memory with
        invoked := desktop.memory.invoked ++
          ownInvocation desktop.memory.apps (desktop.seeing event) } := by
  have member := @Wired.concern_mem _ _ _ _ _ wired event
  have same : (desktop.seeing event).event = event := rfl
  unfold ownInvocation
  generalize (desktop.seeing event).concern = concern at member ⊢
  obtain ⟨_ | window, dispatchType⟩ := concern
  · rw [List.append_nil]
    rfl
  · obtain ⟨taskId, registered, bound, callable⟩ := wired.binding_eq (member rfl)
    obtain ⟨onEvent, function⟩ := Option.isSome_iff_exists.mp callable
    unfold DragDesktop.told
    simp only [registered, wired.dispatchFn, function, same]
    exact dispatchCb_eq dispatchType bound function

/-- Processing an event keeps the windows wired. -/
theorem Wired.process (wired : Wired desktop) (event : InputEvent) :
    Wired (wmDragProcessEvent desktop event) := by
  have kept := handleEvent_kept desktop event
  have told := (handleEvent_memory wired.pointed event).trans (wired.told_eq event)
  have layers (window : Window) :
      window ∈ (handleEvent desktop event).scene.layers ↔ window ∈ desktop.scene.layers :=
    (handleEvent_layers desktop event).mem_iff
  rw [processEvent_eq]
  refine ⟨kept.dispatchFn.trans wired.dispatchFn, handleEvent_pointed wired.pointed event, ?_, ?_,
    ?_, ?_, ?_⟩
  · change (handleEvent desktop event).queue.Valid
    rw [kept.queue]
    exact wired.valid
  · intro window
    change window ∈ (handleEvent desktop event).scene.layers ↔
      ∃ binding ∈ (handleEvent desktop event).drag.bindings, binding.window = window
    rw [layers, kept.bindings]
    exact wired.registered window
  · change ∀ binding ∈ (handleEvent desktop event).drag.bindings,
      boundApp (handleEvent desktop event).memory.bindings binding.taskId = _ ∧ _
    rw [kept.bindings, told]
    exact wired.owners
  · intro seen member window concerns
    apply (layers window).mpr
    rcases List.mem_append.mp member with before | new
    · exact wired.concerned seen before window concerns
    · rw [List.mem_singleton.mp new] at concerns
      exact wired.concern_mem event concerns
  · change (handleEvent desktop event).memory.invoked = _
    rw [told]
    change desktop.memory.invoked ++ _ = (desktop.seen ++ [desktop.seeing event]).flatMap _
    rw [List.flatMap_append, List.flatMap_singleton, ← wired.invoked]

/-- What is wired does not depend on the queue. -/
theorem Wired.withQueue (wired : Wired desktop) (mouse : MouseState) {queue : InputEventQueue}
    (valid : queue.Valid) :
    Wired { desktop with
      mouse := mouse
      queue := queue } :=
  ⟨wired.dispatchFn, wired.pointed, valid, wired.registered, wired.owners, wired.concerned,
    wired.invoked⟩

end Events

/-! ## Opening windows -/

section Open

variable {desktop : AppDesktop Window Callback Context} {appWindow : Option Window}
  {desc : Option AppWindowDesc} {ownerTask : Option TaskControlBlock} {onEvent : Option Callback}
  {userCtx : Context}

/-- A call that opens a window writes it, adds it to the stack and to both tables; it
was not in the stack before. -/
theorem open_success
    (opens : (appWindowOpen desktop appWindow desc ownerTask onEvent userCtx).1 = true) :
    ∃ pointer content owner function bindings, ownerTask = some owner ∧ owner.id ≠ 0 ∧
      pointer ∉ desktop.scene.layers ∧
      bindApp desktop.memory.bindings owner.id pointer = (true, bindings) ∧
      (appWindowOpen desktop appWindow desc ownerTask onEvent userCtx).2 =
        { desktop with
          windows := Function.update desktop.windows pointer content
          scene :=
            { desktop.scene with
              layers := desktop.scene.layers ++ [pointer]
              active := some pointer }
          drag :=
            { desktop.drag with
              bindings := desktop.drag.bindings ++ [⟨pointer, owner.id⟩] }
          memory :=
            { desktop.memory with
              bindings := bindings
              apps := Function.update desktop.memory.apps pointer
                ⟨some owner, some function, userCtx⟩ } } := by
  unfold appWindowOpen at opens ⊢
  cases appWindow with
  | none => cases opens
  | some pointer =>
  cases desc with
  | none => cases opens
  | some desc =>
  cases ownerTask with
  | none => cases opens
  | some owner =>
  cases onEvent with
  | none => cases opens
  | some function =>
      simp only at opens ⊢
      by_cases zero : owner.id = 0
      · rw [if_pos zero] at opens
        cases opens
      rw [if_neg zero] at opens ⊢
      generalize started : appWindowInit desktop pointer desc ⟨some owner, some function, userCtx⟩ =
        initialized at opens ⊢
      rcases addWindow_cases initialized.windows initialized.scene (some pointer) with refused |
        ⟨other, named, _, absent, _, accepted⟩
      · rw [refused] at opens
        cases opens
      obtain rfl : pointer = other := Option.some.inj named
      rw [accepted] at opens ⊢
      unfold wmDragRegisterWindow at opens ⊢
      simp only at opens ⊢
      by_cases full : wmMaxWindows ≤ initialized.drag.bindings.length
      · rw [if_pos full] at opens
        cases opens
      rw [if_neg full] at opens ⊢
      cases bound : bindApp initialized.memory.bindings owner.id pointer with
      | mk status bindings =>
          simp only [bound] at opens ⊢
          subst opens
          subst started
          exact ⟨pointer, _, owner, function, bindings, rfl, zero, absent, bound, rfl⟩

/-- Opening a window for a task that had none keeps the windows wired. -/
theorem Wired.open (wired : Wired desktop)
    (opens : (appWindowOpen desktop appWindow desc ownerTask onEvent userCtx).1 = true)
    (fresh : ∀ owner, ownerTask = some owner →
      findBinding desktop.memory.bindings owner.id = none) :
    Wired (appWindowOpen desktop appWindow desc ownerTask onEvent userCtx).2 := by
  obtain ⟨pointer, content, owner, function, bindings, owned, nonzero, absent, bound, after⟩ :=
    open_success opens
  have unbound := fresh owner owned
  have appended : bindings = desktop.memory.bindings ++ [⟨owner.id, some pointer⟩] := by
    unfold bindApp at bound
    rw [unbound] at bound
    simp only at bound
    split at bound
    · cases bound
    · exact (Prod.mk.inj bound).2.symm
  have apart (window : Window) (member : window ∈ desktop.scene.layers) : window ≠ pointer := by
    rintro rfl
    exact absent member
  rw [after, appended]
  refine ⟨wired.dispatchFn, ?_, wired.valid, ?_, ?_, ?_, ?_⟩
  · intro index dragging
    obtain ⟨window, found⟩ := wired.pointed index dragging
    exact ⟨window, bindings_append found⟩
  · intro window
    change window ∈ desktop.scene.layers ++ [pointer] ↔
      ∃ binding ∈ desktop.drag.bindings ++ [⟨pointer, owner.id⟩], binding.window = window
    rw [List.mem_append, wired.registered, List.mem_singleton]
    constructor
    · rintro (⟨binding, listed, named⟩ | rfl)
      · exact ⟨binding, List.mem_append_left _ listed, named⟩
      · exact ⟨_, List.mem_append_right _ List.mem_cons_self, rfl⟩
    · rintro ⟨binding, either, named⟩
      rcases List.mem_append.mp either with listed | new
      · exact .inl ⟨binding, listed, named⟩
      · rw [List.mem_singleton.mp new] at named
        exact .inr named.symm
  · intro binding either
    rcases List.mem_append.mp either with listed | new
    · obtain ⟨bound, callable⟩ := wired.owners binding listed
      have other := apart binding.window ((wired.registered _).mpr ⟨binding, listed, rfl⟩)
      refine ⟨boundApp_append bound _, ?_⟩
      simp only [Function.update_of_ne other]
      exact callable
    · rw [List.mem_singleton.mp new]
      refine ⟨boundApp_concat nonzero unbound _, ?_⟩
      simp only [Function.update_self, Option.isSome_some]
  · intro seen member window concerns
    exact List.mem_append_left _ (wired.concerned seen member window concerns)
  · rw [wired.invoked]
    apply List.flatMap_congr
    intro seen member
    unfold ownInvocation
    have concerned := wired.concerned seen member
    generalize seen.concern = concern at concerned ⊢
    obtain ⟨_ | window, dispatchType⟩ := concern
    · rfl
    · simp only [Function.update_of_ne (apart window (concerned window rfl))]

end Open

/-! ## Runs -/

/-- A call opens no second window for a task. -/
def OpensForNewTask (desktop : AppDesktop Window Callback Context) :
    AppOp Window Callback Context → Prop
  | .open _ _ ownerTask _ _ =>
      ∀ owner ∈ ownerTask, findBinding desktop.memory.bindings owner.id = none
  | _ => True

instance (desktop : AppDesktop Window Callback Context) :
    (op : AppOp Window Callback Context) → Decidable (OpensForNewTask desktop op)
  | .open _ _ ownerTask _ _ =>
      inferInstanceAs (Decidable (∀ owner ∈ ownerTask, findBinding _ owner.id = none))
  | .mouse _ | .dispatchPending => inferInstanceAs (Decidable True)

/-- The desktop after `app_window_reset`, `mouse_reset` and `wm_compositor_reset`, with no
event seen yet. -/
def cleared (start : AppDesktop Window Callback Context) (backgroundColor : UInt32) :
    AppDesktop Window Callback Context :=
  { appWindowReset start with
    scene := wmCompositorReset backgroundColor
    mouse := (mouseReset start.queue).1
    queue := (mouseReset start.queue).2
    memory :=
      { (appWindowReset start).memory with
        invoked := [] }
    seen := [] }

section Run

variable {desktop : AppDesktop Window Callback Context}

theorem wired_cleared (start : AppDesktop Window Callback Context) (backgroundColor : UInt32) :
    Wired (cleared start backgroundColor) where
  dispatchFn := rfl
  pointed := fun _ dragging => by cases dragging
  valid := valid_inputEventQueueReset
  registered := fun _ => iff_of_false List.not_mem_nil fun ⟨_, listed, _⟩ => List.not_mem_nil listed
  owners := fun _ listed => absurd listed List.not_mem_nil
  concerned := fun _ member => absurd member List.not_mem_nil
  invoked := rfl

/-- Dispatching keeps the windows wired. -/
theorem Wired.dispatch (wired : Wired desktop) : Wired (appWindowDispatchPending desktop).2 := by
  apply dispatchPending_invariant wired.valid
    (Machine.along_of_forall (fun _ _ _ => trivial) desktop) wired
  intro desktop event wired _
  exact (wired.withQueue desktop.mouse (mousePop_pending wired.valid).1).process event

/-- What a run leaves in which opening succeeds and no task opens a second window. -/
theorem Wired.run (wired : Wired desktop) {ops : List (AppOp Window Callback Context)}
    (succeed : ∀ answer ∈ appWindows.results desktop ops, answer ≠ .opened false)
    (along : appWindows.Along OpensForNewTask desktop ops) :
    Wired (appWindows.state desktop ops) := by
  induction ops generalizing desktop with
  | nil => exact wired
  | cons op ops ih =>
      obtain ⟨forNew, rest⟩ := along
      refine @ih (appWindows.step desktop op).2 ?_
        (fun answer member => succeed answer (List.mem_cons_of_mem _ member)) rest
      cases op with
      | «open» appWindow desc ownerTask onEvent userCtx =>
          have answer := succeed _ List.mem_cons_self
          apply wired.open
          · apply Bool.eq_true_of_not_eq_false
            exact fun failed => answer (congrArg AppAnswer.opened failed)
          · rintro owner rfl
            exact forNew owner rfl
      | mouse call => exact wired.withQueue _ (mouseStep_valid wired.valid _ call)
      | dispatchPending => exact wired.dispatch

/-- **Events reach the window they concern**, in every run in which opening succeeds and
no task opens a second window. -/
theorem events_routed (start : AppDesktop Window Callback Context) (backgroundColor : UInt32)
    (ops : List (AppOp Window Callback Context))
    (succeed : ∀ answer ∈ appWindows.results (cleared start backgroundColor) ops,
      answer ≠ .opened false)
    (along : appWindows.Along OpensForNewTask (cleared start backgroundColor) ops) :
    Routed (appWindows.state (cleared start backgroundColor) ops) :=
  ((wired_cleared start backgroundColor).run succeed along).routed

/-- The desktop before the first call, of applications that name their functions. -/
def noApps : AppDesktop Bool Bool Unit :=
  DragDesktop.zero ⟨[], fun _ => ⟨none, none, ()⟩, []⟩

/-- Two windows that overlap, opened for two tasks, and the mouse moved over the one
behind. -/
def twoWindows (first second : UInt32) : List (AppOp Bool Bool Unit) :=
  [.open (some false) (some ⟨none, 28, 28, 236, 156⟩) (some ⟨first⟩) (some false) (),
    .open (some true) (some ⟨none, 108, 76, 200, 120⟩) (some ⟨second⟩) (some true) (),
    .mouse (.emitMove 40 32 0), .dispatchPending]

/-- Two tasks with a window each. -/
theorem events_routed_two :
    Routed (appWindows.state (cleared noApps 0) (twoWindows 1 2)) :=
  events_routed noApps 0 (twoWindows 1 2) (by decide +kernel) (by decide +kernel)

/-- The second window of a task takes the events of the first. -/
theorem secondWindow_takes :
    ¬ ∀ (start : AppDesktop Bool Bool Unit) (backgroundColor : UInt32)
        (ops : List (AppOp Bool Bool Unit)),
      (∀ answer ∈ appWindows.results (cleared start backgroundColor) ops,
        answer ≠ .opened false) →
      Routed (appWindows.state (cleared start backgroundColor) ops) := by
  intro routed
  have opened : ∀ answer ∈ appWindows.results (cleared noApps 0) (twoWindows 1 1),
      answer ≠ .opened false := by decide +kernel
  have calls := (routed noApps 0 (twoWindows 1 1) opened).invoked
  exact absurd calls (by decide +kernel)

end Run

end TigerOS.Apps
