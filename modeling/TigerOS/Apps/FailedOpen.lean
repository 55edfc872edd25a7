import TigerOS.Apps.AppWindow
import TigerOS.Wm.Stack

/-! # Opens that fail

A call that opens a window writes the window first and enters it into three tables after that,
and takes nothing back. A window that cannot be added to the stack is left with what was written,
and one that finds the table of the drags full is left in the stack. A failed call leaves the
tables and the open windows as they were exactly when neither comes to pass
(`TigerOS.Apps.failed_app_unchanged`).
-/

namespace TigerOS.Apps

open Foundation TigerOS.Wm

variable {Window Callback Context : Type} [DecidableEq Window]

/-! ## The calls -/

/-- The arguments of a call that opens a window. -/
structure OpenArgs (Window Callback Context : Type) where
  appWindow : Option Window
  desc : Option AppWindowDesc
  ownerTask : Option TaskControlBlock
  onEvent : Option Callback
  userCtx : Context

/-- The calls that fill the tables and empty them. -/
inductive TableOp (Window Callback Context : Type) where
  | open (args : OpenArgs Window Callback Context)
  | appWindowReset
  | compositorReset (backgroundColor : UInt32)
  | dragRegister (window : Option Window) (taskId : UInt32)

section Calls

variable (desktop : AppDesktop Window Callback Context)

/-- `app_window_open` on its arguments. -/
def OpenArgs.call (args : OpenArgs Window Callback Context) :
    Bool × AppDesktop Window Callback Context :=
  appWindowOpen desktop args.appWindow args.desc args.ownerTask args.onEvent args.userCtx

def tableStep : TableOp Window Callback Context → Bool × AppDesktop Window Callback Context
  | .open args => args.call desktop
  | .appWindowReset => (true, appWindowReset desktop)
  | .compositorReset backgroundColor =>
      (true, { desktop with scene := wmCompositorReset backgroundColor })
  | .dragRegister window taskId =>
      let (status, drag) := wmDragRegisterWindow desktop.drag window taskId
      (status, { desktop with drag := drag })

end Calls

/-- The tables as a machine. -/
def tables : Machine (AppDesktop Window Callback Context) (TableOp Window Callback Context) Bool :=
  ⟨tableStep⟩

/-- The desktop at boot, whatever the memory of the windows holds. -/
def AppDesktop.boot (apps : Window → AppWindow Callback Context) :
    AppDesktop Window Callback Context :=
  DragDesktop.zero ⟨[], apps, []⟩

section Conditions

variable (desktop : AppDesktop Window Callback Context)

/-- A window is open: it is in the stack, or events of a task go to it. -/
def IsOpen (window : Window) : Prop :=
  window ∈ desktop.scene.layers ∨
    ∃ binding ∈ desktop.memory.bindings, binding.appWindow = some window

/-- Two desktops have the same stack and active window, the same tables, and the same frames,
owners and functions of the windows that are open in the first. -/
structure SameOpen (desktop after : AppDesktop Window Callback Context) : Prop where
  layers : after.scene.layers = desktop.scene.layers
  active : after.scene.active = desktop.scene.active
  drags : after.drag.bindings = desktop.drag.bindings
  tasks : after.memory.bindings = desktop.memory.bindings
  windows : ∀ window, IsOpen desktop window →
    (after.windows window).frame = (desktop.windows window).frame ∧
      (after.memory.apps window).ownerTask = (desktop.memory.apps window).ownerTask ∧
      (after.memory.apps window).onEvent = (desktop.memory.apps window).onEvent

/-- A call that fails leaves the stack, the tables and the open windows as they were. -/
def OpenUnchanged (args : OpenArgs Window Callback Context) : Prop :=
  (args.call desktop).1 = false → SameOpen desktop (args.call desktop).2

/-- Nothing is left behind by a call that fails: its arguments are refused, or the table of the
drags has room for a window that can be added, or a window that cannot be added is not open or has
the frame, the owner and the function that the call gives it. -/
def OpenClean (args : OpenArgs Window Callback Context) : Prop :=
  match args.appWindow, args.desc, args.ownerTask, args.onEvent with
  | some pointer, some desc, some owner, some onEvent =>
      let window := wmWindowInit desc.title desc.x desc.y desc.width desc.height
      owner.id ≠ 0 →
        if Addable (Function.update desktop.windows pointer window) desktop.scene pointer then
          desktop.drag.bindings.length < wmMaxWindows
        else
          IsOpen desktop pointer →
            window.frame = (desktop.windows pointer).frame ∧
              some owner = (desktop.memory.apps pointer).ownerTask ∧
              some onEvent = (desktop.memory.apps pointer).onEvent
  | _, _, _, _ => True

end Conditions

/-! ## One call -/

section Open

variable {desktop : AppDesktop Window Callback Context} {pointer : Window} {desc : AppWindowDesc}
  {owner : TaskControlBlock} {onEvent : Callback} {userCtx : Context}

omit [DecidableEq Window] in
/-- The table of the tasks takes a window when it has room. -/
theorem bindApp_of_room {bindings : List (AppWindowBinding Window)}
    (room : bindings.length < wmMaxWindows) (taskId : UInt32) (pointer : Window) :
    (bindApp bindings taskId pointer).1 = true := by
  unfold bindApp
  cases findBinding bindings taskId with
  | none => simp only [if_neg (Nat.not_le.mpr room)]
  | some index => rfl

omit [DecidableEq Window] in
theorem length_bindApp_le (bindings : List (AppWindowBinding Window)) (taskId : UInt32)
    (pointer : Window) : (bindApp bindings taskId pointer).2.length ≤ bindings.length + 1 := by
  unfold bindApp
  cases findBinding bindings taskId with
  | none =>
      simp only
      split
      · exact Nat.le_succ _
      · exact (List.length_append.trans rfl).le
  | some index =>
      simp only [List.length_modify]
      exact Nat.le_succ _

/-- A window that a call opens is written first. -/
def opening (desktop : AppDesktop Window Callback Context) (pointer : Window)
    (desc : AppWindowDesc) (owner : TaskControlBlock) (onEvent : Callback) (userCtx : Context) :
    AppDesktop Window Callback Context :=
  appWindowInit desktop pointer desc ⟨some owner, some onEvent, userCtx⟩

/-- A call is refused for its arguments, or it has all of them and a task with a number. -/
theorem OpenArgs.complete_or_refused (args : OpenArgs Window Callback Context) :
    (∀ desktop, args.call desktop = (false, desktop) ∧ OpenClean desktop args) ∨
      ∃ pointer desc owner onEvent userCtx, owner.id ≠ 0 ∧
        args = ⟨some pointer, some desc, some owner, some onEvent, userCtx⟩ := by
  obtain ⟨appWindow, desc, ownerTask, onEvent, userCtx⟩ := args
  cases appWindow with
  | none => exact .inl fun _ => ⟨rfl, trivial⟩
  | some pointer =>
  cases desc with
  | none => exact .inl fun _ => ⟨rfl, trivial⟩
  | some desc =>
  cases ownerTask with
  | none => exact .inl fun _ => ⟨rfl, trivial⟩
  | some owner =>
  cases onEvent with
  | none => exact .inl fun _ => ⟨rfl, trivial⟩
  | some onEvent =>
      by_cases zero : owner.id = 0
      · exact .inl fun _ => ⟨if_pos zero, fun nonzero => absurd zero nonzero⟩
      · exact .inr ⟨pointer, desc, owner, onEvent, userCtx, zero, rfl⟩

/-- A window that cannot be added is written. -/
theorem open_refused (nonzero : owner.id ≠ 0)
    (refused : ¬ Addable (opening desktop pointer desc owner onEvent userCtx).windows
      desktop.scene pointer) :
    appWindowOpen desktop (some pointer) (some desc) (some owner) (some onEvent) userCtx =
      (false, opening desktop pointer desc owner onEvent userCtx) := by
  have added : wmCompositorAddWindow (opening desktop pointer desc owner onEvent userCtx).windows
      (opening desktop pointer desc owner onEvent userCtx).scene (some pointer) =
        (false, desktop.scene) := (addWindow_eq _ _ _).trans (if_neg refused)
  unfold appWindowOpen
  simp only
  rw [if_neg nonzero, ← opening, added]

/-- The stack with a window in front that it did not have. -/
def inFront (scene : WmScene Window) (pointer : Window) : WmScene Window :=
  ⟨scene.backgroundColor, scene.layers ++ [pointer], some pointer⟩

/-- A window that can be added stays in the stack where the table of the drags is full. -/
theorem open_full (nonzero : owner.id ≠ 0)
    (addable : Addable (opening desktop pointer desc owner onEvent userCtx).windows
      desktop.scene pointer)
    (full : wmMaxWindows ≤ desktop.drag.bindings.length) :
    appWindowOpen desktop (some pointer) (some desc) (some owner) (some onEvent) userCtx =
      (false, { opening desktop pointer desc owner onEvent userCtx with
        scene := inFront desktop.scene pointer }) := by
  have added : wmCompositorAddWindow (opening desktop pointer desc owner onEvent userCtx).windows
      (opening desktop pointer desc owner onEvent userCtx).scene (some pointer) =
        (true, inFront desktop.scene pointer) :=
    (addWindow_eq _ _ _).trans (if_pos addable)
  have refused : wmDragRegisterWindow (opening desktop pointer desc owner onEvent userCtx).drag
      (some pointer) owner.id = (false, desktop.drag) := if_pos full
  unfold appWindowOpen
  simp only
  rw [if_neg nonzero, ← opening, added]
  simp only
  rw [refused]

/-- A window that can be added goes into all tables where the table of the drags has room. -/
theorem open_taken (nonzero : owner.id ≠ 0)
    (addable : Addable (opening desktop pointer desc owner onEvent userCtx).windows
      desktop.scene pointer)
    (room : desktop.drag.bindings.length < wmMaxWindows) :
    appWindowOpen desktop (some pointer) (some desc) (some owner) (some onEvent) userCtx =
      ((bindApp desktop.memory.bindings owner.id pointer).1,
        { opening desktop pointer desc owner onEvent userCtx with
          scene := inFront desktop.scene pointer
          drag :=
            { desktop.drag with
              bindings := desktop.drag.bindings ++ [⟨pointer, owner.id⟩] }
          memory :=
            { (opening desktop pointer desc owner onEvent userCtx).memory with
              bindings := (bindApp desktop.memory.bindings owner.id pointer).2 } }) := by
  have added : wmCompositorAddWindow (opening desktop pointer desc owner onEvent userCtx).windows
      (opening desktop pointer desc owner onEvent userCtx).scene (some pointer) =
        (true, inFront desktop.scene pointer) :=
    (addWindow_eq _ _ _).trans (if_pos addable)
  have taken : wmDragRegisterWindow (opening desktop pointer desc owner onEvent userCtx).drag
      (some pointer) owner.id =
        (true, { desktop.drag with
          bindings := desktop.drag.bindings ++ [⟨pointer, owner.id⟩] }) :=
    if_neg (Nat.not_le.mpr room)
  unfold appWindowOpen
  simp only
  rw [if_neg nonzero, ← opening, added]
  simp only
  rw [taken]
  rfl

end Open

/-! ## Whole runs -/

section Runs

variable {desktop : AppDesktop Window Callback Context}

/-- A task is bound by calls that also fill the table of the drags. -/
def Balanced (desktop : AppDesktop Window Callback Context) : Prop :=
  desktop.memory.bindings.length ≤ desktop.drag.bindings.length

omit [DecidableEq Window] in
theorem SameOpen.refl (desktop : AppDesktop Window Callback Context) : SameOpen desktop desktop :=
  ⟨rfl, rfl, rfl, rfl, fun _ _ => ⟨rfl, rfl, rfl⟩⟩

omit [DecidableEq Window] in
/-- A window that goes to the front of the stack changes it. -/
theorem not_sameOpen_inFront {after : AppDesktop Window Callback Context} {pointer : Window}
    (front : after.scene = inFront desktop.scene pointer) : ¬ SameOpen desktop after := by
  intro same
  have layers := same.layers
  rw [front] at layers
  exact List.cons_ne_nil _ _ (List.append_right_eq_self.mp layers)

/-- What is written into a window is seen where it is open and had something else. -/
theorem sameOpen_opening_iff {pointer : Window} {desc : AppWindowDesc} {owner : TaskControlBlock}
    {onEvent : Callback} {userCtx : Context} :
    SameOpen desktop (opening desktop pointer desc owner onEvent userCtx) ↔
      (IsOpen desktop pointer →
        (wmWindowInit desc.title desc.x desc.y desc.width desc.height).frame =
            (desktop.windows pointer).frame ∧
          some owner = (desktop.memory.apps pointer).ownerTask ∧
          some onEvent = (desktop.memory.apps pointer).onEvent) := by
  constructor
  · intro same isOpen
    have written := same.windows pointer isOpen
    simp only [opening, appWindowInit, Function.update_self] at written
    exact written
  · intro written
    refine ⟨rfl, rfl, rfl, rfl, fun window isOpen => ?_⟩
    simp only [opening, appWindowInit]
    by_cases here : window = pointer
    · subst here
      simp only [Function.update_self]
      exact written isOpen
    · simp only [Function.update_of_ne here, and_self]

/-- A failed call leaves everything as it was exactly where it is clean. -/
theorem openUnchanged_iff (balanced : Balanced desktop)
    (args : OpenArgs Window Callback Context) :
    OpenUnchanged desktop args ↔ OpenClean desktop args := by
  rcases args.complete_or_refused with
    refused | ⟨pointer, desc, owner, onEvent, userCtx, nonzero, rfl⟩
  · unfold OpenUnchanged
    rw [(refused desktop).1]
    exact iff_of_true (fun _ => SameOpen.refl desktop) (refused desktop).2
  unfold OpenUnchanged OpenClean OpenArgs.call
  simp only
  rw [forall_prop_of_true nonzero]
  by_cases addable : Addable (Function.update desktop.windows pointer
    (wmWindowInit desc.title desc.x desc.y desc.width desc.height)) desktop.scene pointer
  · rw [if_pos addable]
    by_cases full : wmMaxWindows ≤ desktop.drag.bindings.length
    · rw [open_full nonzero addable full]
      exact iff_of_false (fun same => not_sameOpen_inFront rfl (same rfl))
        (Nat.not_lt.mpr full)
    · have room := Nat.lt_of_not_le full
      rw [open_taken nonzero addable room,
        bindApp_of_room (Nat.lt_of_le_of_lt balanced room) owner.id pointer]
      exact iff_of_true (fun failed => Bool.noConfusion failed) room
  · rw [if_neg addable, open_refused nonzero addable, ← sameOpen_opening_iff]
    exact ⟨fun same => same rfl, fun same _ => same⟩

theorem Balanced.call (balanced : Balanced desktop) (args : OpenArgs Window Callback Context) :
    Balanced (args.call desktop).2 := by
  rcases args.complete_or_refused with
    refused | ⟨pointer, desc, owner, onEvent, userCtx, nonzero, rfl⟩
  · rw [(refused desktop).1]
    exact balanced
  unfold OpenArgs.call
  by_cases addable : Addable (opening desktop pointer desc owner onEvent userCtx).windows
    desktop.scene pointer
  · by_cases full : wmMaxWindows ≤ desktop.drag.bindings.length
    · rw [open_full nonzero addable full]
      exact balanced
    · rw [open_taken nonzero addable (Nat.lt_of_not_le full)]
      change (bindApp _ _ _).2.length ≤ (_ ++ [_]).length
      rw [List.length_append]
      exact (length_bindApp_le _ _ _).trans (Nat.add_le_add_right balanced 1)
  · rw [open_refused nonzero addable]
    exact balanced

theorem Balanced.step (balanced : Balanced desktop) (op : TableOp Window Callback Context) :
    Balanced (tables.step desktop op).2 := by
  cases op with
  | appWindowReset => exact Nat.le_refl 0
  | compositorReset backgroundColor => exact balanced
  | «open» args => exact balanced.call args
  | dragRegister window taskId =>
      cases window with
      | none => exact balanced
      | some pointer =>
          change _ ≤ (wmDragRegisterWindow desktop.drag (some pointer) taskId).2.bindings.length
          unfold wmDragRegisterWindow
          simp only
          split
          · exact balanced
          · rw [List.length_append]
            exact balanced.trans (Nat.le_add_right _ _)

/-- **A failed open has no effect** exactly where it is clean, after any calls from boot. -/
theorem failed_app_unchanged (apps : Window → AppWindow Callback Context)
    (ops : List (TableOp Window Callback Context)) (args : OpenArgs Window Callback Context) :
    let desktop := tables.state (AppDesktop.boot apps) ops
    OpenUnchanged desktop args ↔ OpenClean desktop args := by
  have kept (desktop : AppDesktop Window Callback Context)
      (op : TableOp Window Callback Context) :
      Balanced desktop → Balanced (tables.step desktop op).2 := fun balanced => balanced.step op
  have initially : Balanced (AppDesktop.boot apps) := Nat.le_refl 0
  have balanced := Machine.state_invariant kept initially ops
  exact openUnchanged_iff balanced args

end Runs

/-! ## Opens that leave something behind -/

/-- A call that opens a window for a task at a place. -/
def openArgs (window : ℕ) (x y taskId : UInt32) : OpenArgs ℕ ℕ Unit :=
  ⟨some window, some ⟨none, x, y, 236, 156⟩, some ⟨taskId⟩, some 0, ()⟩

/-- The calls before one that fails: a window is open. -/
def openedRun : List (TableOp ℕ ℕ Unit) :=
  [.compositorReset 0, .appWindowReset, .open (openArgs 0 28 28 1)]

/-- The calls before one that fails: other windows fill the table of the drags. -/
def registeredRun : List (TableOp ℕ ℕ Unit) :=
  [.compositorReset 0, .appWindowReset] ++
    (List.range 8).map fun window => .dragRegister (some (window + 1)) 7

/-- **Two failed opens that leave something behind**: an open window is moved, and a window
without a task gets the focus. -/
theorem failed_app_changes :
    ¬ OpenUnchanged (tables.state (AppDesktop.boot fun _ => ⟨none, none, ()⟩) openedRun)
        (openArgs 0 108 76 1) ∧
      ¬ OpenUnchanged (tables.state (AppDesktop.boot fun _ => ⟨none, none, ()⟩) registeredRun)
        (openArgs 0 28 28 1) := by
  refine ⟨fun unchanged => ?_, fun unchanged => ?_⟩
  · have moved := ((unchanged (by decide +kernel)).windows 0 (.inl (by decide +kernel))).1
    revert moved
    decide +kernel
  · have focus := (unchanged (by decide +kernel)).active
    revert focus
    decide +kernel

end TigerOS.Apps
