import TigerOS.Wm.Render

/-! # Where a window paints

The title bar and the contents of a window lie in its frame wherever the frame is,
because their corners stop at the greatest word. The accent lies in the title bar
unless its own corner, computed with a plain sum, does not fit a word
(`TigerOS.Wm.WmWindow.accent_inside`); then it starts at the other end of the axis,
outside the frame (`TigerOS.Wm.WmWindow.accent_outside`).
-/

namespace TigerOS.Wm

open Foundation TigerOS.Gfx

section Words

theorem toNat_minU32 (a b : UInt32) : (minU32 a b).toNat = min a.toNat b.toNat := by
  unfold minU32
  split
  · rename_i less
    exact (Nat.min_eq_left (UInt32.lt_iff_toNat_lt.mp less).le).symm
  · rename_i more
    exact (Nat.min_eq_right (UInt32.le_iff_toNat_le.mp (UInt32.not_lt.mp more))).symm

theorem toNat_saturatingAddU32 (a b : UInt32) :
    (saturatingAddU32 a b).toNat = min (a.toNat + b.toNat) (2 ^ 32 - 1) := by
  have sum : (a + b).toNat = (a.toNat + b.toNat) % 2 ^ 32 := UInt32.toNat_add _ _
  have aBound := a.toNat_lt
  have bBound := b.toNat_lt
  unfold saturatingAddU32
  split
  · rename_i wraps
    rw [UInt32.lt_iff_toNat_lt, sum] at wraps
    change 2 ^ 32 - 1 = _
    omega
  · rename_i fits
    rw [UInt32.lt_iff_toNat_lt, sum] at fits
    rw [sum]
    omega

theorem toNat_safeSubU32 (value subtractor : UInt32) :
    (safeSubU32 value subtractor).toNat = value.toNat - subtractor.toNat := by
  unfold safeSubU32
  split
  · rename_i small
    rw [UInt32.le_iff_toNat_le] at small
    change 0 = _
    omega
  · rename_i large
    exact UInt32.toNat_sub_of_le _ _ (UInt32.le_of_lt (UInt32.not_le.mp large))

/-- A sum of words that does not fit starts again from zero. -/
theorem toNat_add_lt_iff (a b : UInt32) : a + b < a ↔ 2 ^ 32 ≤ a.toNat + b.toNat := by
  have sum : (a + b).toNat = (a.toNat + b.toNat) % 2 ^ 32 := UInt32.toNat_add _ _
  have aBound := a.toNat_lt
  have bBound := b.toNat_lt
  rw [UInt32.lt_iff_toNat_lt, sum]
  omega

end Words

namespace WmWindow

variable {window : WmWindow} {x y : UInt32}

/-- The border takes at most half of each side. -/
theorem effectiveBorder_le (window : WmWindow) :
    2 * window.effectiveBorder.toNat ≤ window.frame.width.toNat ∧
      2 * window.effectiveBorder.toNat ≤ window.frame.height.toNat := by
  unfold effectiveBorder
  rw [toNat_minU32, toNat_minU32, UInt32.toNat_div, UInt32.toNat_div]
  change 2 * min _ (min (_ / 2) (_ / 2)) ≤ _ ∧ 2 * min _ (min (_ / 2) (_ / 2)) ≤ _
  omega

/-- The frame of a window has no points. -/
def Flat (window : WmWindow) : Prop := window.frame.width = 0 ∨ window.frame.height = 0

theorem IsValid.not_flat (valid : window.IsValid) : ¬ window.Flat := not_or.mpr ⟨valid.1, valid.2.1⟩

/-- The title bar of a window whose frame has points, on natural numbers. -/
theorem titleBarRect_spec (solid : ¬ window.Flat) :
    window.titleBarRect.x.toNat =
        min (window.frame.x.toNat + window.effectiveBorder.toNat) (2 ^ 32 - 1) ∧
      window.titleBarRect.y.toNat =
        min (window.frame.y.toNat + window.effectiveBorder.toNat) (2 ^ 32 - 1) ∧
      window.titleBarRect.width.toNat =
        window.frame.width.toNat - 2 * window.effectiveBorder.toNat ∧
      window.titleBarRect.height.toNat = min window.style.titleBarHeight.toNat
        (window.frame.height.toNat - 2 * window.effectiveBorder.toNat) := by
  have plain : ¬ (window.frame.width = 0 ∨ window.frame.height = 0) := solid
  unfold titleBarRect
  rw [if_neg plain]
  simp only [toNat_saturatingAddU32, toNat_safeSubU32, toNat_minU32, Nat.sub_sub, ← Nat.two_mul,
    and_self]

theorem contentRect_spec (solid : ¬ window.Flat) :
    window.contentRect.x = window.titleBarRect.x ∧
      window.contentRect.width = window.titleBarRect.width ∧
      window.contentRect.y.toNat =
        min (window.titleBarRect.y.toNat + window.titleBarRect.height.toNat) (2 ^ 32 - 1) ∧
      window.contentRect.height.toNat = window.frame.height.toNat -
        2 * window.effectiveBorder.toNat - window.titleBarRect.height.toNat := by
  unfold contentRect
  simp only [if_neg (not_or.mp solid).2, toNat_saturatingAddU32, toNat_safeSubU32, Nat.sub_sub,
    ← Nat.two_mul, and_self]

/-- Neither the title bar nor the contents of a frame without points have points. -/
theorem flat_outside (flat : window.Flat) (x y : UInt32) :
    ¬ wmPointInRect window.titleBarRect x y ∧ ¬ wmPointInRect window.contentRect x y := by
  have bar : window.titleBarRect = ⟨0, 0, 0, 0⟩ := if_pos flat
  constructor
  · rw [bar]
    exact fun inside => inside.1 rfl
  · unfold contentRect
    rw [bar]
    simp only
    split <;> exact fun inside => inside.1 rfl

/-- The title bar lies in the frame. -/
theorem titleBar_inside (inside : wmPointInRect window.titleBarRect x y) :
    wmPointInRect window.frame x y := by
  have solid : ¬ window.Flat := fun flat => (flat_outside flat x y).1 inside
  obtain ⟨left, top, width, height⟩ := titleBarRect_spec solid
  obtain ⟨halfWidth, halfHeight⟩ := effectiveBorder_le window
  have xBound := window.frame.x.toNat_lt
  have yBound := window.frame.y.toNat_lt
  rw [pointInRect_iff] at inside ⊢
  omega

/-- The contents lie in the frame. -/
theorem content_inside (inside : wmPointInRect window.contentRect x y) :
    wmPointInRect window.frame x y := by
  have solid : ¬ window.Flat := fun flat => (flat_outside flat x y).2 inside
  obtain ⟨left, top, width, height⟩ := titleBarRect_spec solid
  obtain ⟨left', width', top', height'⟩ := contentRect_spec solid
  obtain ⟨halfWidth, halfHeight⟩ := effectiveBorder_le window
  have xBound := window.frame.x.toNat_lt
  have yBound := window.frame.y.toNat_lt
  rw [pointInRect_iff, left', width'] at inside
  rw [pointInRect_iff]
  omega

/-- The corner of the accent does not fit a word along an axis. -/
def AccentWraps (window : WmWindow) : Prop :=
  window.titleBarRect.x + 4 < window.titleBarRect.x ∨
    window.titleBarRect.y + 4 < window.titleBarRect.y

instance (window : WmWindow) : Decidable window.AccentWraps := inferInstanceAs (Decidable (_ ∨ _))

/-- The accent is shorter than the title bar by a margin on both sides. -/
theorem accentRect_width (accent : window.HasAccent) :
    4 ≤ window.accentRect.width.toNat ∧
      window.accentRect.width.toNat + 4 < window.titleBarRect.width.toNat := by
  obtain ⟨wide, _⟩ := accent
  have wide' := UInt32.lt_iff_toNat_lt.mp wide
  change 8 < _ at wide'
  have bound := window.titleBarRect.width.toNat_lt
  have span : (window.titleBarRect.width - 8).toNat = window.titleBarRect.width.toNat - 8 :=
    UInt32.toNat_sub_of_le _ _ (UInt32.le_of_lt wide)
  have part : (hashTitle window.title).toNat % (window.titleBarRect.width.toNat - 8) <
      window.titleBarRect.width.toNat - 8 := Nat.mod_lt _ (by omega)
  have sum : (8 + hashTitle window.title % (window.titleBarRect.width - 8)).toNat =
      8 + (hashTitle window.title).toNat % (window.titleBarRect.width.toNat - 8) := by
    rw [UInt32.toNat_add, UInt32.toNat_mod, span]
    exact Nat.mod_eq_of_lt (by change 8 + _ < 2 ^ 32; omega)
  have length : window.accentRect.width.toNat =
      8 + (hashTitle window.title).toNat % (window.titleBarRect.width.toNat - 8) - 4 := by
    rw [← sum]
    exact UInt32.toNat_sub_of_le _ _ (UInt32.le_iff_toNat_le.mpr (by
      rw [sum]
      change 4 ≤ _
      omega))
  omega

/-- **The accent lies in the frame** where its corner fits. -/
theorem accent_inside (accent : window.HasAccent) (fits : ¬ window.AccentWraps)
    (inside : wmPointInRect window.accentRect x y) :
    wmPointInRect window.frame x y := by
  obtain ⟨_, short⟩ := accentRect_width accent
  have tall := UInt32.lt_iff_toNat_lt.mp accent.2
  change 4 < _ at tall
  unfold AccentWraps at fits
  rw [not_or, toNat_add_lt_iff, toNat_add_lt_iff] at fits
  have left : window.accentRect.x.toNat = window.titleBarRect.x.toNat + 4 := by
    change (window.titleBarRect.x + 4).toNat = _
    rw [UInt32.toNat_add]
    exact Nat.mod_eq_of_lt (Nat.not_le.mp fits.1)
  have top : window.accentRect.y.toNat = window.titleBarRect.y.toNat + 4 := by
    change (window.titleBarRect.y + 4).toNat = _
    rw [UInt32.toNat_add]
    exact Nat.mod_eq_of_lt (Nat.not_le.mp fits.2)
  have height : window.accentRect.height.toNat = 1 := rfl
  apply titleBar_inside
  rw [pointInRect_iff] at inside ⊢
  omega

/-- An accent whose corner does not fit starts outside the frame. -/
theorem accent_outside (valid : window.IsValid) (wraps : window.AccentWraps) :
    ¬ wmPointInRect window.frame window.accentRect.x window.accentRect.y := by
  obtain ⟨left, top, _, _⟩ := titleBarRect_spec valid.not_flat
  obtain ⟨halfWidth, halfHeight⟩ := effectiveBorder_le window
  have widthBound := window.frame.width.toNat_lt
  have heightBound := window.frame.height.toNat_lt
  have four : (4 : UInt32).toNat = 4 := rfl
  have across : window.accentRect.x.toNat = (window.titleBarRect.x.toNat + 4) % 2 ^ 32 :=
    UInt32.toNat_add _ _
  have down : window.accentRect.y.toNat = (window.titleBarRect.y.toNat + 4) % 2 ^ 32 :=
    UInt32.toNat_add _ _
  unfold AccentWraps at wraps
  rw [toNat_add_lt_iff, toNat_add_lt_iff, four] at wraps
  rw [pointInRect_iff]
  omega

end WmWindow

end TigerOS.Wm
