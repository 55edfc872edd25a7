import TigerOS.Wm.Geometry
import Mathlib.Data.Set.Lattice
import Mathlib.Order.CompletePartialOrder

/-! # The parts of a window

The border band, the title bar and the contents of a window are made of clamped words. Where
the frame does not wrap they share no point and leave none of the frame out, for every border
and every title bar (`TigerOS.Wm.window_decomposition`). The title bar and the contents lie in
the frame also where it wraps.
-/

namespace TigerOS.Wm

open TigerOS.Gfx

/-- The points of a rectangle, by `wm_point_in_rect`. -/
def WmRect.points (rect : WmRect) : Set (UInt32 × UInt32) :=
  { point | wmPointInRect rect point.1 point.2 }

namespace WmWindow

variable (window : WmWindow)

/-- The points of the frame that are closer than the effective border to one of its edges. The
distances are those to the first and the last column, and to the first and the last row. -/
def band : Set (UInt32 × UInt32) :=
  { point | point ∈ window.frame.points ∧
    (point.1.toNat - window.frame.x.toNat < window.effectiveBorder.toNat ∨
      window.frame.x.toNat + window.frame.width.toNat - 1 - point.1.toNat <
        window.effectiveBorder.toNat ∨
      point.2.toNat - window.frame.y.toNat < window.effectiveBorder.toNat ∨
      window.frame.y.toNat + window.frame.height.toNat - 1 - point.2.toNat <
        window.effectiveBorder.toNat) }

/-- The end of the frame fits a word along both axes. -/
structure Unwrapped : Prop where
  width : window.frame.x.toNat + window.frame.width.toNat ≤ 2 ^ 32 - 1
  height : window.frame.y.toNat + window.frame.height.toNat ≤ 2 ^ 32 - 1

variable {window} {x y : UInt32}

/-- The frame of a window that does not wrap, on natural numbers. -/
theorem mem_frame : (x, y) ∈ window.frame.points ↔
    (window.frame.x.toNat ≤ x.toNat ∧
      x.toNat < window.frame.x.toNat + window.frame.width.toNat) ∧
      window.frame.y.toNat ≤ y.toNat ∧
        y.toNat < window.frame.y.toNat + window.frame.height.toNat := pointInRect_iff ..

/-- The title bar: the rows of the inside from the first on. -/
theorem mem_titleBar (unwrapped : window.Unwrapped) (solid : ¬ window.Flat) :
    (x, y) ∈ window.titleBarRect.points ↔
      (window.frame.x.toNat + window.effectiveBorder.toNat ≤ x.toNat ∧
        x.toNat + window.effectiveBorder.toNat <
          window.frame.x.toNat + window.frame.width.toNat) ∧
      window.frame.y.toNat + window.effectiveBorder.toNat ≤ y.toNat ∧
        y.toNat < window.frame.y.toNat + window.effectiveBorder.toNat +
          window.titleBarRect.height.toNat := by
  obtain ⟨left, top, width, height⟩ := titleBarRect_spec solid
  obtain ⟨halfWidth, halfHeight⟩ := effectiveBorder_le window
  obtain ⟨across, down⟩ := unwrapped
  change wmPointInRect _ x y ↔ _
  rw [pointInRect_iff]
  omega

/-- The contents: the rows of the inside after those of the title bar. -/
theorem mem_content (unwrapped : window.Unwrapped) (solid : ¬ window.Flat) :
    (x, y) ∈ window.contentRect.points ↔
      (window.frame.x.toNat + window.effectiveBorder.toNat ≤ x.toNat ∧
        x.toNat + window.effectiveBorder.toNat <
          window.frame.x.toNat + window.frame.width.toNat) ∧
      window.frame.y.toNat + window.effectiveBorder.toNat +
          window.titleBarRect.height.toNat ≤ y.toNat ∧
        y.toNat + window.effectiveBorder.toNat <
          window.frame.y.toNat + window.frame.height.toNat := by
  obtain ⟨left, top, width, height⟩ := titleBarRect_spec solid
  obtain ⟨left', width', top', height'⟩ := contentRect_spec solid
  obtain ⟨halfWidth, halfHeight⟩ := effectiveBorder_le window
  obtain ⟨across, down⟩ := unwrapped
  change wmPointInRect _ x y ↔ _
  rw [pointInRect_iff, left', width']
  omega

/-- A frame without points has no part with points. -/
theorem flat_points (flat : window.Flat) : window.frame.points = ∅ ∧
    window.titleBarRect.points = ∅ ∧ window.contentRect.points = ∅ := by
  refine ⟨?_, ?_, ?_⟩
  · apply Set.eq_empty_of_forall_notMem
    rintro ⟨x, y⟩ ⟨wide, tall, _⟩
    exact flat.elim wide tall
  · exact Set.eq_empty_of_forall_notMem fun point => (flat_outside flat point.1 point.2).1
  · exact Set.eq_empty_of_forall_notMem fun point => (flat_outside flat point.1 point.2).2

/-- A point of the frame is in exactly one of the parts. -/
theorem parts_iff (unwrapped : window.Unwrapped) (solid : ¬ window.Flat) :
    ((x, y) ∈ window.band ∪ window.titleBarRect.points ∪ window.contentRect.points ↔
      (x, y) ∈ window.frame.points) ∧
    ¬ ((x, y) ∈ window.band ∧ (x, y) ∈ window.titleBarRect.points) ∧
    ¬ ((x, y) ∈ window.band ∧ (x, y) ∈ window.contentRect.points) ∧
    ¬ ((x, y) ∈ window.titleBarRect.points ∧ (x, y) ∈ window.contentRect.points) := by
  obtain ⟨_, _, width, height⟩ := titleBarRect_spec solid
  obtain ⟨halfWidth, halfHeight⟩ := effectiveBorder_le window
  simp only [Set.mem_union, band, Set.mem_ofPred_eq, mem_frame, mem_titleBar unwrapped solid,
    mem_content unwrapped solid]
  omega

end WmWindow

/-- **The parts of a window.** Where the frame does not wrap, the border band, the title bar
and the contents are pairwise disjoint and together are the frame. Every point of the title
bar or the contents is in the frame of any window. -/
theorem window_decomposition (window : WmWindow) :
    (window.Unwrapped →
      [window.band, window.titleBarRect.points, window.contentRect.points].Pairwise Disjoint ∧
        window.band ∪ window.titleBarRect.points ∪ window.contentRect.points =
          window.frame.points) ∧
    window.titleBarRect.points ∪ window.contentRect.points ⊆ window.frame.points := by
  constructor
  · intro unwrapped
    by_cases flat : window.Flat
    · obtain ⟨frame, bar, content⟩ := WmWindow.flat_points flat
      have band : window.band = ∅ :=
        Set.subset_empty_iff.mp fun point inside => frame ▸ inside.1
      simp [frame, bar, content, band]
    · have parts (point : UInt32 × UInt32) :=
        @WmWindow.parts_iff window point.1 point.2 unwrapped flat
      refine ⟨?_, Set.ext fun point => (parts point).1⟩
      simp only [List.pairwise_cons, List.mem_cons, List.not_mem_nil, or_false, forall_eq_or_imp,
        forall_eq, Set.disjoint_left, List.Pairwise.nil, and_true, IsEmpty.forall_iff,
        implies_true]
      exact ⟨⟨fun point band bar => (parts point).2.1 ⟨band, bar⟩,
        fun point band content => (parts point).2.2.1 ⟨band, content⟩⟩,
        fun point bar content => (parts point).2.2.2 ⟨bar, content⟩⟩
  · rintro ⟨x, y⟩ (bar | content)
    · exact WmWindow.titleBar_inside bar
    · exact WmWindow.content_inside content

/-- A window whose border takes half of its height and leaves one row inside. -/
theorem window_decomposition_thick :
    let window : WmWindow := ⟨none, ⟨3, 5, 20, 9⟩, ⟨0, 0, 0, 100, 18⟩⟩
    window.band ∪ window.titleBarRect.points ∪ window.contentRect.points =
      window.frame.points :=
  ((window_decomposition ⟨none, ⟨3, 5, 20, 9⟩, ⟨0, 0, 0, 100, 18⟩⟩).1
    ⟨by decide, by decide⟩).2

end TigerOS.Wm
