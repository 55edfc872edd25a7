import TigerOS.Wm.Stack

/-! # The array of the stack

The compositor keeps its windows in an array with a count, and moves a window to the
front by a loop that shifts the windows in front of it. The array represents the list of
the windows from the back to the front, and its functions do to it what those of the
list do (`TigerOS.Wm.Represents.moveToFront`, `TigerOS.Wm.Represents.activateWindow`).
A status of `0` is modelled as `true`.
-/

namespace TigerOS.Wm

open Foundation

/-- `wm_layer_stack_t`. -/
structure WmLayerStack (Window : Type) where
  windows : ℕ → Option Window
  count : ℕ

namespace WmLayerStack

variable {Window : Type} [DecidableEq Window] (stack : WmLayerStack Window)

/-- `wm_layers_reset`; the slots behind the array are not its own. -/
def reset : WmLayerStack Window where
  windows := fun i => if i < wmMaxWindows then none else stack.windows i
  count := 0

/-- `wm_layers_push_back`. -/
def pushBack (window : Option Window) : Bool × WmLayerStack Window :=
  if window = none then (false, stack)
  else if wmMaxWindows ≤ stack.count then (false, stack)
  else
    (true, { stack with
      windows := Function.update stack.windows stack.count window
      count := stack.count + 1 })

/-- `wm_layers_get_at`. -/
def getAt (index : ℕ) : Option Window := if stack.count ≤ index then none else stack.windows index

/-- `wm_layers_index_of`; an answer of `-1` is `none`. -/
def indexOf (window : Option Window) : Option ℕ :=
  if window = none then none
  else (List.range stack.count).find? fun i => stack.windows i = window

/-- The loop of `wm_layers_move_to_front`; `rounds` is `front_index - i`. -/
def shiftLoop : ℕ → ℕ → (ℕ → Option Window) → ℕ → Option Window
  | 0, _, windows => windows
  | rounds + 1, i, windows => shiftLoop rounds (i + 1) (Function.update windows i (windows (i + 1)))

/-- `wm_layers_move_to_front`. -/
def moveToFront (window : Option Window) : Bool × WmLayerStack Window :=
  if window = none ∨ stack.count = 0 then (false, stack)
  else
    match stack.indexOf window with
    | none => (false, stack)
    | some index =>
        let frontIndex := stack.count - 1
        if index = frontIndex then (true, stack)
        else
          let movingWindow := stack.windows index
          (true, { stack with
            windows := Function.update (shiftLoop (frontIndex - index) index stack.windows)
              frontIndex movingWindow })

/-- The loop of `wm_focus_hit_test`, from the slot below `i` down. -/
def hitTestLoop (contents : Window → WmWindow) (x y : UInt32) : ℕ → Option Window
  | 0 => none
  | i + 1 =>
      match stack.getAt i with
      | none => hitTestLoop contents x y i
      | some window =>
          if wmPointInRect (contents window).frame x y then some window
          else hitTestLoop contents x y i

end WmLayerStack

/-- `g_scene.layers` with `g_active_window`. -/
structure WmStack (Window : Type) where
  layers : WmLayerStack Window
  active : Option Window

namespace WmStack

/-- The globals before the first call. -/
def zero (Window : Type) : WmStack Window := ⟨⟨fun _ => none, 0⟩, none⟩

variable {Window : Type} [DecidableEq Window] (stack : WmStack Window)
  (contents : Window → WmWindow)

/-- `wm_compositor_reset`, with `wm_focus_reset`. -/
def reset : WmStack Window := ⟨stack.layers.reset, none⟩

/-- `wm_compositor_add_window`, with `wm_focus_set_active_window`. -/
def addWindow (window : Option Window) : Bool × WmStack Window :=
  match window with
  | none => (false, stack)
  | some pointer =>
      if ¬ (contents pointer).IsValid then (false, stack)
      else if (stack.layers.indexOf window).isSome then (false, stack)
      else
        match stack.layers.pushBack window with
        | (false, layers) => (false, { stack with layers := layers })
        | (true, layers) => (true, ⟨layers, window⟩)

/-- `wm_compositor_activate_window`, with `wm_focus_set_active_window`. -/
def activateWindow (window : Option Window) : Bool × WmStack Window :=
  match stack.layers.moveToFront window with
  | (false, layers) => (false, { stack with layers := layers })
  | (true, layers) => (true, ⟨layers, window⟩)

/-- `wm_compositor_hit_test`. -/
def hitTest (x y : UInt32) : Option Window :=
  stack.layers.hitTestLoop contents x y stack.layers.count

/-- `wm_compositor_activate_at`. -/
def activateAt (x y : UInt32) : Bool × WmStack Window :=
  match stack.hitTest contents x y with
  | none => (false, stack)
  | some window => stack.activateWindow (some window)

end WmStack

/-! ## The list in the array -/

/-- The windows in the array, from the back to the front. -/
def WmLayerStack.list {Window : Type} (stack : WmLayerStack Window) : List Window :=
  (List.range stack.count).filterMap stack.windows

section Holds

variable {Window : Type} {stack : WmLayerStack Window} {list : List Window}

/-- The array holds the windows of a list, from the back to the front. -/
structure WmLayerStack.Holds (stack : WmLayerStack Window) (list : List Window) : Prop where
  count : stack.count = list.length
  slots : ∀ i < list.length, stack.windows i = list[i]?

theorem holds_reset (stack : WmLayerStack Window) : stack.reset.Holds [] :=
  ⟨rfl, fun i inside => absurd inside (Nat.not_lt_zero i)⟩

namespace WmLayerStack.Holds

/-- The list that an array holds is the list of the windows in it. -/
theorem list_eq (holds : stack.Holds list) : stack.list = list := by
  have slots (k : ℕ) (within : k ≤ list.length) :
      (List.range k).filterMap stack.windows = list.take k := by
    induction k with
    | zero => rfl
    | succ k ih =>
        have inside : k < list.length := within
        have here : stack.windows k = some list[k] := by
          rw [holds.slots k inside, List.getElem?_eq_getElem inside]
        rw [List.range_succ, List.filterMap_append, ih (Nat.le_of_lt inside),
          List.filterMap_cons_some here, List.filterMap_nil,
          List.take_succ_eq_append_getElem inside]
  unfold WmLayerStack.list
  rw [holds.count, slots list.length (Nat.le_refl _), List.take_length]

theorem getAt (holds : stack.Holds list) (i : ℕ) : stack.getAt i = list[i]? := by
  unfold WmLayerStack.getAt
  rw [holds.count]
  by_cases outside : list.length ≤ i
  · rw [if_pos outside, List.getElem?_eq_none outside]
  · rw [if_neg outside, holds.slots i (Nat.lt_of_not_le outside)]

/-- Windows put into the array one after the other are put at the end of the list. -/
theorem pushBack (holds : stack.Holds list) (pointer : Window) :
    ({ stack with
      windows := Function.update stack.windows stack.count (some pointer)
      count := stack.count + 1 } : WmLayerStack Window).Holds (list ++ [pointer]) where
  count := by
    rw [List.length_append, List.length_singleton, ← holds.count]
  slots := by
    intro i inside
    rw [List.length_append, List.length_singleton] at inside
    simp only
    rw [holds.count]
    rcases Nat.lt_or_eq_of_le (Nat.le_of_lt_succ inside) with before | last
    · rw [Function.update_of_ne (Nat.ne_of_lt before), holds.slots i before,
        List.getElem?_append_left before]
    · rw [last, Function.update_self, List.getElem?_concat_length]

variable [DecidableEq Window]

/-- The search in the array is the search in the list. -/
theorem indexOf (holds : stack.Holds list) (window : Option Window) :
    stack.indexOf window = wmLayersIndexOf list window := by
  unfold WmLayerStack.indexOf wmLayersIndexOf
  cases window with
  | none => rfl
  | some pointer =>
      rw [if_neg (Option.some_ne_none pointer), Option.bind_some, holds.count]
      have slot {j : ℕ} (inside : j < list.length) :
          decide (stack.windows j = some pointer) = decide (list[j] = pointer) := by
        rw [holds.slots j inside, List.getElem?_eq_getElem inside]
        exact decide_eq_decide.mpr (Option.some_inj)
      apply Option.ext
      intro index
      rw [List.find?_range_eq_some, List.findIdx?_eq_some_iff_getElem]
      constructor
      · intro found
        obtain ⟨here, within, earlier⟩ := found
        rw [List.mem_range] at within
        refine ⟨within, (slot within) ▸ here, ?_⟩
        intro j before
        rw [← slot (before.trans within)]
        have other := earlier j before
        rw [Bool.not_eq_true'] at other
        rw [other]
        exact Bool.false_ne_true
      · intro found
        obtain ⟨within, here, earlier⟩ := found
        refine ⟨(slot within) ▸ here, List.mem_range.mpr within, ?_⟩
        intro j before
        rw [slot (before.trans within), Bool.not_eq_true', Bool.eq_false_iff]
        exact earlier j before

omit [DecidableEq Window] in
/-- **The hit test** of the array goes through the list from the front to the back. -/
theorem hitTestLoop (holds : stack.Holds list) (contents : Window → WmWindow) (x y : UInt32)
    {i : ℕ} (within : i ≤ list.length) : stack.hitTestLoop contents x y i =
      (list.take i).reverse.find? fun window => wmPointInRect (contents window).frame x y := by
  induction i with
  | zero => rfl
  | succ i ih =>
      have inside : i < list.length := within
      unfold WmLayerStack.hitTestLoop
      rw [holds.getAt, List.getElem?_eq_getElem inside, List.take_succ_eq_append_getElem inside,
        List.reverse_append, List.reverse_singleton, List.singleton_append, List.find?_cons]
      by_cases here : wmPointInRect (contents list[i]).frame x y
      · simp only [here, if_true, decide_true]
      · simp only [here, if_false, decide_false]
        exact ih (Nat.le_of_lt inside)

end WmLayerStack.Holds

/-! ## Moving to the front -/

/-- **The shift loop**: the slots it passes get the window in front of each. -/
theorem shiftLoop_apply (rounds start : ℕ) (windows : ℕ → Option Window) (j : ℕ) :
    WmLayerStack.shiftLoop rounds start windows j =
      if start ≤ j ∧ j < start + rounds then windows (j + 1) else windows j := by
  induction rounds generalizing start windows with
  | zero =>
      rw [if_neg fun both => absurd both.2 (Nat.not_lt.mpr both.1)]
      rfl
  | succ rounds ih =>
      unfold WmLayerStack.shiftLoop
      rw [ih]
      by_cases first : j = start
      · subst first
        rw [if_neg fun both => absurd both.1 (Nat.not_succ_le_self j), Function.update_self,
          if_pos ⟨Nat.le_refl j, Nat.lt_add_of_pos_right (Nat.succ_pos rounds)⟩]
      · rw [Function.update_of_ne first]
        by_cases passed : start ≤ j ∧ j < start + (rounds + 1)
        · rw [if_pos passed, if_pos (by omega),
            Function.update_of_ne (Nat.ne_of_gt (Nat.lt_succ_of_le passed.1))]
        · rw [if_neg passed, if_neg (by omega)]

/-- A window taken out of a list and put at its end. -/
theorem getElem?_rotated {index : ℕ} (inside : index < list.length) (j : ℕ) :
    (list.eraseIdx index ++ [list[index]])[j]? =
      if j = list.length - 1 then some list[index]
      else if index ≤ j then list[j + 1]? else list[j]? := by
  have length : (list.eraseIdx index).length = list.length - 1 := by
    rw [List.length_eraseIdx, if_pos inside]
  rw [List.getElem?_append, length, List.getElem?_eraseIdx]
  by_cases before : j < list.length - 1
  · rw [if_pos before, if_neg (Nat.ne_of_lt before)]
    by_cases behind : j < index
    · rw [if_pos behind, if_neg (Nat.not_le.mpr behind)]
    · rw [if_neg behind, if_pos (Nat.le_of_not_lt behind)]
  · rw [if_neg before]
    by_cases last : j = list.length - 1
    · rw [if_pos last, last, Nat.sub_self]
      rfl
    · rw [if_neg last, if_pos (by omega), List.getElem?_eq_none (by simp; omega),
        List.getElem?_eq_none (by omega)]

/-- **Moving to the front** in the array is moving to the front in the list, for every
place of the window. -/
theorem WmLayerStack.Holds.moveToFront [DecidableEq Window] (holds : stack.Holds list)
    (window : Option Window) :
    match wmLayersMoveToFront list window with
    | none => stack.moveToFront window = (false, stack)
    | some moved => ∃ next, stack.moveToFront window = (true, next) ∧ next.Holds moved := by
  have search := holds.indexOf window
  unfold wmLayersMoveToFront WmLayerStack.moveToFront
  rw [← search]
  by_cases refused : window = none ∨ stack.count = 0
  · have nothing : stack.indexOf window = none := by
      rcases refused with null | empty
      · rw [search, null]
        rfl
      · unfold WmLayerStack.indexOf
        rw [empty, List.range_zero, List.find?_nil, ite_self]
    rw [if_pos refused, nothing]
  rw [if_neg refused]
  cases found : stack.indexOf window with
  | none => rfl
  | some index =>
      simp only
      have inside : index < list.length := by
        rw [search] at found
        cases window with
        | none => cases found
        | some pointer => exact (List.findIdx?_eq_some_iff_getElem.mp found).1
      rw [holds.count]
      by_cases front : index = list.length - 1
      · rw [if_pos front, if_pos front]
        exact ⟨stack, rfl, holds⟩
      · rw [if_neg front, if_neg front]
        refine ⟨_, rfl, ?_, ?_⟩
        · rw [List.getElem?_eq_getElem inside, Option.toList_some, List.length_append,
            List.length_eraseIdx, if_pos inside, List.length_singleton]
          exact (Nat.sub_add_cancel (Nat.zero_lt_of_lt inside)).symm
        · intro j within
          rw [List.getElem?_eq_getElem inside, Option.toList_some] at within ⊢
          rw [List.length_append, List.length_eraseIdx, if_pos inside, List.length_singleton,
            Nat.sub_add_cancel (Nat.zero_lt_of_lt inside)] at within
          rw [getElem?_rotated inside]
          simp only
          by_cases last : j = list.length - 1
          · rw [if_pos last, last, Function.update_self, holds.slots index inside,
              List.getElem?_eq_getElem inside]
          · rw [if_neg last, Function.update_of_ne last, shiftLoop_apply]
            by_cases passed : index ≤ j
            · rw [if_pos passed, if_pos (by omega), holds.slots _ (by omega)]
            · rw [if_neg passed, if_neg (by omega), holds.slots _ within]

end Holds

/-! ## The stack with its focus -/

section Represents

variable {Window : Type} [DecidableEq Window] {stack : WmStack Window} {scene : WmScene Window}
  {contents : Window → WmWindow} {window : Option Window}

/-- The globals represent a scene: its windows are in the array, and the active window
is its own. -/
structure Represents (stack : WmStack Window) (scene : WmScene Window) : Prop where
  layers : stack.layers.Holds scene.layers
  active : stack.active = scene.active

/-- A window that cannot be moved leaves the array as it is. -/
theorem moveToFront_failed {layers : WmLayerStack Window}
    (failed : (layers.moveToFront window).1 = false) : (layers.moveToFront window).2 = layers := by
  unfold WmLayerStack.moveToFront at failed ⊢
  by_cases refused : window = none ∨ layers.count = 0
  · rw [if_pos refused]
  · rw [if_neg refused] at failed ⊢
    cases found : layers.indexOf window with
    | none => rfl
    | some index =>
        rw [found] at failed
        simp only at failed
        by_cases front : index = layers.count - 1
        · rw [if_pos front] at failed
          cases failed
        · rw [if_neg front] at failed
          cases failed

/-- **An activation that fails** changes nothing. -/
theorem activateWindow_failed (failed : (stack.activateWindow window).1 = false) :
    (stack.activateWindow window).2 = stack := by
  have kept := @moveToFront_failed _ _ window stack.layers
  unfold WmStack.activateWindow at failed ⊢
  revert kept failed
  generalize stack.layers.moveToFront window = out
  obtain ⟨_ | _, layers⟩ := out
  · intro _ kept
    have same : layers = stack.layers := kept rfl
    rw [same]
  · intro failed _
    cases failed

/-- **An add that fails** changes nothing. -/
theorem addWindow_failed (failed : (stack.addWindow contents window).1 = false) :
    (stack.addWindow contents window).2 = stack := by
  unfold WmStack.addWindow at failed ⊢
  cases window with
  | none => rfl
  | some pointer =>
      simp only at failed ⊢
      by_cases invalid : ¬ (contents pointer).IsValid
      · rw [if_pos invalid]
      rw [if_neg invalid] at failed ⊢
      by_cases present : (stack.layers.indexOf (some pointer)).isSome = true
      · rw [if_pos present]
      rw [if_neg present] at failed ⊢
      unfold WmLayerStack.pushBack at failed ⊢
      rw [if_neg (Option.some_ne_none pointer)] at failed ⊢
      by_cases full : wmMaxWindows ≤ stack.layers.count
      · rw [if_pos full]
      · rw [if_neg full] at failed
        cases failed

/-- An activation by a place that fails changes nothing. -/
theorem activateAt_failed {x y : UInt32} (failed : (stack.activateAt contents x y).1 = false) :
    (stack.activateAt contents x y).2 = stack := by
  unfold WmStack.activateAt at failed ⊢
  cases under : stack.hitTest contents x y with
  | none => rfl
  | some window =>
      rw [under] at failed
      exact activateWindow_failed failed

theorem Represents.activateWindow (represents : Represents stack scene) (window : Option Window) :
    (stack.activateWindow window).1 = (wmCompositorActivateWindow scene window).1 ∧
      Represents (stack.activateWindow window).2 (wmCompositorActivateWindow scene window).2 := by
  have moves := represents.layers.moveToFront window
  unfold WmStack.activateWindow wmCompositorActivateWindow
  cases moved : wmLayersMoveToFront scene.layers window with
  | none =>
      rw [moved] at moves
      simp only at moves
      rw [moves]
      exact ⟨rfl, represents⟩
  | some layers =>
      rw [moved] at moves
      obtain ⟨next, same, holds⟩ := moves
      rw [same]
      exact ⟨rfl, holds, rfl⟩

theorem Represents.addWindow (represents : Represents stack scene)
    (contents : Window → WmWindow) (window : Option Window) :
    (stack.addWindow contents window).1 = (wmCompositorAddWindow contents scene window).1 ∧
      Represents (stack.addWindow contents window).2
        (wmCompositorAddWindow contents scene window).2 := by
  unfold WmStack.addWindow wmCompositorAddWindow
  cases window with
  | none => exact ⟨rfl, represents⟩
  | some pointer =>
      simp only
      by_cases invalid : ¬ (contents pointer).IsValid
      · rw [if_pos invalid, if_pos invalid]
        exact ⟨rfl, represents⟩
      rw [if_neg invalid, if_neg invalid, represents.layers.indexOf]
      by_cases present : (wmLayersIndexOf scene.layers (some pointer)).isSome = true
      · rw [if_pos present, if_pos present]
        exact ⟨rfl, represents⟩
      rw [if_neg present, if_neg present]
      unfold WmLayerStack.pushBack wmLayersPushBack
      rw [if_neg (Option.some_ne_none pointer), represents.layers.count]
      by_cases full : wmMaxWindows ≤ scene.layers.length
      · rw [if_pos full]
        simp only
        rw [if_pos full]
        exact ⟨rfl, represents⟩
      · rw [if_neg full]
        simp only
        rw [if_neg full]
        have holds := represents.layers.pushBack pointer
        rw [represents.layers.count] at holds
        exact ⟨rfl, holds, rfl⟩

omit [DecidableEq Window] in
theorem Represents.hitTest (represents : Represents stack scene) (contents : Window → WmWindow)
    (x y : UInt32) : stack.hitTest contents x y = wmCompositorHitTest contents scene x y := by
  unfold WmStack.hitTest wmCompositorHitTest
  rw [represents.layers.count, represents.layers.hitTestLoop contents x y (Nat.le_refl _),
    List.take_length]

theorem Represents.activateAt (represents : Represents stack scene)
    (contents : Window → WmWindow) (x y : UInt32) :
    (stack.activateAt contents x y).1 = (wmCompositorActivateAt contents scene x y).1 ∧
      Represents (stack.activateAt contents x y).2
        (wmCompositorActivateAt contents scene x y).2 := by
  unfold WmStack.activateAt wmCompositorActivateAt
  rw [represents.hitTest]
  cases wmCompositorHitTest contents scene x y with
  | none => exact ⟨rfl, represents⟩
  | some window => exact represents.activateWindow (some window)

end Represents

end TigerOS.Wm
