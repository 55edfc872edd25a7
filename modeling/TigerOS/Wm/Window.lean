import TigerOS.Foundation.CString

/-! # Windows

A window is a frame with a border, a title bar and contents. Its rectangles are
computed on 32-bit words: sums that do not fit stop at the greatest word,
differences below zero stop at zero.
-/

namespace TigerOS.Wm

open Foundation

/-- `wm_rect_t`. -/
structure WmRect where
  x : UInt32
  y : UInt32
  width : UInt32
  height : UInt32
  deriving DecidableEq

/-- `wm_window_style_t`. -/
structure WmWindowStyle where
  borderColor : UInt32
  titleBarColor : UInt32
  contentColor : UInt32
  borderThickness : UInt32
  titleBarHeight : UInt32
  deriving DecidableEq

/-- `wm_window_t`. -/
structure WmWindow where
  title : Option CString
  frame : WmRect
  style : WmWindowStyle
  deriving DecidableEq

/-- `min_u32`. -/
def minU32 (a b : UInt32) : UInt32 := if a < b then a else b

/-- `saturating_add_u32`. -/
def saturatingAddU32 (a b : UInt32) : UInt32 := if a + b < a then 0xffffffff else a + b

/-- `safe_sub_u32`, and `clamp_sub_u32` of the drags. -/
def safeSubU32 (value subtractor : UInt32) : UInt32 :=
  if value ≤ subtractor then 0 else value - subtractor

/-- `wm_window_init`. -/
def wmWindowInit (title : Option CString) (x y width height : UInt32) : WmWindow where
  title := some (title.getD (CString.of []))
  frame := ⟨x, y, width, height⟩
  style := ⟨0x00d8d8d8, 0x0039699f, 0x00f2f4f8, 1, 18⟩

namespace WmWindow

variable (window : WmWindow)

/-- `effective_border`. -/
def effectiveBorder : UInt32 :=
  minU32 window.style.borderThickness (minU32 (window.frame.width / 2) (window.frame.height / 2))

/-- `wm_window_title_bar_rect`. -/
def titleBarRect : WmRect :=
  if window.frame.width = 0 ∨ window.frame.height = 0 then ⟨0, 0, 0, 0⟩
  else
    let border := window.effectiveBorder
    let innerWidth := safeSubU32 (safeSubU32 window.frame.width border) border
    let innerHeight := safeSubU32 (safeSubU32 window.frame.height border) border
    { x := saturatingAddU32 window.frame.x border
      y := saturatingAddU32 window.frame.y border
      width := innerWidth
      height := minU32 window.style.titleBarHeight innerHeight }

/-- `wm_window_content_rect`. -/
def contentRect : WmRect :=
  let titleBar := window.titleBarRect
  if window.frame.height = 0 then ⟨0, 0, 0, 0⟩
  else
    let border := window.effectiveBorder
    let innerHeight := safeSubU32 (safeSubU32 window.frame.height border) border
    { x := titleBar.x
      y := saturatingAddU32 titleBar.y titleBar.height
      width := titleBar.width
      height := safeSubU32 innerHeight titleBar.height }

/-- `wm_window_is_valid`. -/
def IsValid : Prop :=
  window.frame.width ≠ 0 ∧ window.frame.height ≠ 0 ∧
    window.titleBarRect.width ≠ 0 ∧ window.titleBarRect.height ≠ 0 ∧
    window.contentRect.width ≠ 0 ∧ window.contentRect.height ≠ 0

instance : Decidable window.IsValid := inferInstanceAs (Decidable (_ ∧ _))

end WmWindow

/-- `wm_point_in_rect`, and `point_in_rect` of the drags. -/
def wmPointInRect (rect : WmRect) (x y : UInt32) : Prop :=
  rect.width ≠ 0 ∧ rect.height ≠ 0 ∧ rect.x ≤ x ∧ rect.y ≤ y ∧
    x - rect.x < rect.width ∧ y - rect.y < rect.height

instance (rect : WmRect) (x y : UInt32) : Decidable (wmPointInRect rect x y) :=
  inferInstanceAs (Decidable (_ ∧ _))

end TigerOS.Wm
