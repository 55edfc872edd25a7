import TigerOS.Wm.Render
import Mathlib.Data.List.Perm.Basic

/-! # The stack under its calls

A window that is added was valid and not in the stack, and goes to its front
(`TigerOS.Wm.addWindow_cases`). An activation keeps the windows and moves one of them
to the front (`TigerOS.Wm.activate_cases`). All windows of the stack are therefore
valid after any calls (`TigerOS.Wm.valid_run`).
-/

namespace TigerOS.Wm

variable {Window : Type} [DecidableEq Window] {windows : Window → WmWindow}
  {scene : WmScene Window} {window : Option Window}

/-- A window that the compositor takes is valid, was not in the stack, and gets the
focus. -/
theorem addWindow_cases (windows : Window → WmWindow) (scene : WmScene Window)
    (window : Option Window) :
    wmCompositorAddWindow windows scene window = (false, scene) ∨
      ∃ pointer, window = some pointer ∧ (windows pointer).IsValid ∧ pointer ∉ scene.layers ∧
        scene.layers.length < wmMaxWindows ∧
        wmCompositorAddWindow windows scene window = (true,
          { scene with layers := scene.layers ++ [pointer], active := some pointer }) := by
  unfold wmCompositorAddWindow
  cases window with
  | none => exact .inl rfl
  | some pointer =>
      simp only
      by_cases valid : (windows pointer).IsValid
      · rw [if_neg (not_not.mpr valid)]
        by_cases present : (wmLayersIndexOf scene.layers (some pointer)).isSome = true
        · rw [if_pos present]
          exact .inl rfl
        · rw [if_neg present]
          unfold wmLayersPushBack
          simp only
          by_cases full : wmMaxWindows ≤ scene.layers.length
          · rw [if_pos full]
            exact .inl rfl
          · rw [if_neg full]
            refine .inr ⟨pointer, rfl, valid, fun member => present ?_, Nat.lt_of_not_le full, rfl⟩
            exact List.findIdx?_isSome.trans
              (List.any_eq_true.mpr ⟨pointer, member, decide_eq_true rfl⟩)
      · rw [if_pos valid]
        exact .inl rfl

/-- A window can be added: it is valid and not in the stack, and there is room. -/
structure Addable (windows : Window → WmWindow) (scene : WmScene Window) (pointer : Window) :
    Prop where
  valid : (windows pointer).IsValid
  absent : pointer ∉ scene.layers
  room : scene.layers.length < wmMaxWindows

instance (windows : Window → WmWindow) (scene : WmScene Window) (pointer : Window) :
    Decidable (Addable windows scene pointer) :=
  decidable_of_iff ((windows pointer).IsValid ∧ pointer ∉ scene.layers ∧
    scene.layers.length < wmMaxWindows)
    ⟨fun ⟨valid, absent, room⟩ => ⟨valid, absent, room⟩,
      fun addable => ⟨addable.valid, addable.absent, addable.room⟩⟩

/-- The compositor takes the windows that can be added, and no others. -/
theorem addWindow_eq (windows : Window → WmWindow) (scene : WmScene Window) (pointer : Window) :
    wmCompositorAddWindow windows scene (some pointer) =
      if Addable windows scene pointer then
        (true, { scene with layers := scene.layers ++ [pointer], active := some pointer })
      else (false, scene) := by
  by_cases addable : Addable windows scene pointer
  · have new : ¬ (wmLayersIndexOf scene.layers (some pointer)).isSome = true := by
      intro present
      obtain ⟨other, member, same⟩ := List.any_eq_true.mp (List.findIdx?_isSome.symm.trans present)
      exact addable.absent (of_decide_eq_true same ▸ member)
    unfold wmCompositorAddWindow wmLayersPushBack
    simp only
    rw [if_pos addable, if_neg (not_not.mpr addable.valid), if_neg new,
      if_neg (Nat.not_le.mpr addable.room)]
  · rw [if_neg addable]
    rcases addWindow_cases windows scene (some pointer) with
      same | ⟨_, here, valid, absent, room, _⟩
    · exact same
    · cases here
      exact absurd ⟨valid, absent, room⟩ addable

/-- **An activation** takes a window of the stack out of its place and puts it to the
front. -/
theorem activate_eq (scene : WmScene Window) (pointer : Window) :
    wmCompositorActivateWindow scene (some pointer) =
      if pointer ∈ scene.layers then
        (true, { scene with
          layers := scene.layers.erase pointer ++ [pointer]
          active := some pointer })
      else (false, scene) := by
  unfold wmCompositorActivateWindow wmLayersMoveToFront wmLayersIndexOf
  rw [Option.bind_some]
  cases found : scene.layers.findIdx? fun other => decide (other = pointer) with
  | none =>
      have absent : pointer ∉ scene.layers := by
        intro member
        have other := List.findIdx?_eq_none_iff.mp found pointer member
        rw [decide_eq_false_iff_not] at other
        exact other rfl
      rw [if_neg absent]
  | some index =>
      obtain ⟨inside, here, earlier⟩ := List.findIdx?_eq_some_iff_getElem.mp found
      have same : scene.layers[index] = pointer := of_decide_eq_true here
      have member : pointer ∈ scene.layers := same ▸ List.getElem_mem inside
      have erased : scene.layers.erase pointer = scene.layers.eraseIdx index := by
        apply List.erase_eq_eraseIdx_of_idxOf
        rw [List.idxOf, List.findIdx_eq inside]
        exact ⟨beq_iff_eq.mpr same, fun j before => beq_eq_false_iff_ne.mpr fun equal =>
          earlier j before (decide_eq_true equal)⟩
      rw [if_pos member, erased]
      simp only
      by_cases front : index = scene.layers.length - 1
      · subst front
        have last : scene.layers.dropLast ++ [pointer] = scene.layers := by
          rw [← same, ← List.getLast_eq_getElem (List.ne_nil_of_mem member)]
          exact List.dropLast_append_getLast _
        rw [if_pos rfl, List.eraseIdx_eq_dropLast (by omega), last]
      · rw [if_neg front, List.getElem?_eq_getElem inside, Option.toList_some, same]

/-- An activation that succeeds moves a window of the stack to the front of it. -/
theorem activate_cases (scene : WmScene Window) (window : Option Window) :
    wmCompositorActivateWindow scene window = (false, scene) ∨
      ∃ pointer layers, window = some pointer ∧ pointer ∈ scene.layers ∧ layers.Perm scene.layers ∧
        wmCompositorActivateWindow scene window =
          (true, { scene with layers := layers, active := window }) := by
  cases window with
  | none => exact .inl rfl
  | some pointer =>
      rw [activate_eq]
      by_cases member : pointer ∈ scene.layers
      · rw [if_pos member]
        refine .inr ⟨pointer, _, rfl, member, ?_, rfl⟩
        exact List.perm_append_comm.trans (List.perm_cons_erase member).symm
      · rw [if_neg member]
        exact .inl rfl

/-- All windows of a stack are valid. -/
def AllValid (windows : Window → WmWindow) (scene : WmScene Window) : Prop :=
  ∀ window ∈ scene.layers, (windows window).IsValid

theorem AllValid.activate (valid : AllValid windows scene) (window : Option Window) :
    AllValid windows (wmCompositorActivateWindow scene window).2 := by
  rcases activate_cases scene window with same | ⟨pointer, layers, _, _, moved, same⟩
  · rw [same]
    exact valid
  · rw [same]
    exact fun other member => valid other (moved.mem_iff.mp member)

theorem AllValid.step (valid : AllValid windows scene) (op : SceneOp Window) :
    AllValid windows ((scenes windows).step scene op).2 := by
  cases op with
  | reset backgroundColor => exact fun _ member => absurd member List.not_mem_nil
  | add window =>
      change AllValid windows (wmCompositorAddWindow windows scene window).2
      rcases addWindow_cases windows scene window with same | ⟨pointer, _, new, _, _, same⟩
      · rw [same]
        exact valid
      · rw [same]
        intro other member
        rcases List.mem_append.mp member with before | last
        · exact valid other before
        · rw [List.mem_singleton.mp last]
          exact new
  | activate window => exact valid.activate window
  | activateAt x y =>
      change AllValid windows (wmCompositorActivateAt windows scene x y).2
      unfold wmCompositorActivateAt
      cases wmCompositorHitTest windows scene x y with
      | none => exact valid
      | some window => exact valid.activate (some window)

/-- **Every window of the stack is valid** after any calls. -/
theorem valid_run (windows : Window → WmWindow) (backgroundColor : UInt32)
    (ops : List (SceneOp Window)) :
    AllValid windows ((scenes windows).state (wmCompositorReset backgroundColor) ops) :=
  Foundation.Machine.state_invariant (fun _ op valid => valid.step op)
    (fun _ member => absurd member List.not_mem_nil) ops

end TigerOS.Wm
