import TigerOS.Wm.Window
import Mathlib.Algebra.Group.Nat.Defs
import Mathlib.Tactic.Common

/-! # The framebuffer

A framebuffer is memory for rows of pixels, of which the first `width` of each row
are shown. Indices are computed on 32-bit words. In a framebuffer whose rows do not
overlap, a filled rectangle changes exactly the shown pixels that lie in it
(`TigerOS.Gfx.Framebuffer.Fits.pixel_fillRect`), also where its corner past the end
does not fit a word.
-/

namespace TigerOS.Gfx

open TigerOS.Wm

/-- `struct framebuffer_info`, where `mapped` says that `pixels` is not null. A colour
is a word; its type is a parameter, so that a colour may be kept with whom it was
painted for. -/
structure Framebuffer (Color : Type) where
  mapped : Bool
  pixels : UInt32 → Color
  width : UInt32
  height : UInt32
  stride : UInt32

section Fill

variable {Color : Type} (color : Color)

/-- The inner loop of `framebuffer_fill_rect`, over the columns of a row. -/
def fillCols (rowBase : UInt32) : ℕ → UInt32 → (UInt32 → Color) → UInt32 → Color
  | 0, _, pixels => pixels
  | rounds + 1, col, pixels =>
      fillCols rowBase rounds (col + 1) (Function.update pixels (rowBase + col) color)

/-- The outer loop of `framebuffer_fill_rect`, over the rows. -/
def fillRows (stride x maxX : UInt32) : ℕ → UInt32 → (UInt32 → Color) → UInt32 → Color
  | 0, _, pixels => pixels
  | rounds + 1, row, pixels =>
      fillRows stride x maxX rounds (row + 1)
        (fillCols color (row * stride) (maxX - x).toNat x pixels)

/-- The end of a rectangle along one axis, cut where the framebuffer ends or the sum
does not fit a word. -/
def clipEnd (start length limit : UInt32) : UInt32 :=
  if start + length < start ∨ limit < start + length then limit else start + length

/-- `framebuffer_fill_rect`. -/
def framebufferFillRect (fb : Framebuffer Color) (x y width height : UInt32) : Framebuffer Color :=
  if fb.mapped = false ∨ width = 0 ∨ height = 0 then fb
  else if fb.width ≤ x ∨ fb.height ≤ y then fb
  else
    let maxX := clipEnd x width fb.width
    let maxY := clipEnd y height fb.height
    { fb with pixels := fillRows color fb.stride x maxX (maxY - y).toNat y fb.pixels }

end Fill

/-- `framebuffer_init` on the mode that `video_get_mode` answers. -/
def framebufferInit : Framebuffer UInt32 := ⟨true, fun _ => 0, 320, 200, 320⟩

namespace Framebuffer

variable {Color : Type}

/-- The pixel at a column and a row. -/
def pixel (fb : Framebuffer Color) (col row : UInt32) : Color := fb.pixels (row * fb.stride + col)

/-- A framebuffer that is mapped, with rows that do not overlap. -/
structure Fits (fb : Framebuffer Color) : Prop where
  mapped : fb.mapped = true
  rows : fb.width ≤ fb.stride
  words : fb.height.toNat * fb.stride.toNat ≤ 2 ^ 32

/-- A pixel that is shown. -/
def Shown (fb : Framebuffer Color) (col row : UInt32) : Prop := col < fb.width ∧ row < fb.height

end Framebuffer

/-! ## Places -/

section Places

variable {Color : Type} {color : Color} {stride : ℕ}

/-- A place in rows determines its row and its column. -/
theorem place_inj {row col row' col' : ℕ} (inside : col < stride) (inside' : col' < stride)
    (same : row * stride + col = row' * stride + col') : row = row' ∧ col = col' := by
  have positive : 0 < stride := Nat.zero_lt_of_lt inside
  have rows : row = row' := by
    have quotient := congrArg (· / stride) same
    simpa only [Nat.add_comm _ col, Nat.add_comm _ col', Nat.add_mul_div_right _ _ positive,
      Nat.div_eq_of_lt inside, Nat.div_eq_of_lt inside', Nat.zero_add] using quotient
  subst rows
  exact ⟨rfl, Nat.add_left_cancel same⟩

/-- A place lies in a piece of a row exactly when it lies in that row and its column
in that piece. -/
theorem place_within {row col row' start length : ℕ} (inside : col < stride)
    (piece : start + length ≤ stride) :
    row' * stride + start ≤ row * stride + col ∧
      row * stride + col < row' * stride + start + length ↔
      row = row' ∧ start ≤ col ∧ col < start + length := by
  constructor
  · rintro ⟨above, below⟩
    obtain ⟨offset, reached⟩ := Nat.exists_eq_add_of_le above
    rw [Nat.add_assoc] at reached
    have short : start + offset < stride := by omega
    obtain ⟨rows, cols⟩ := place_inj inside short reached
    exact ⟨rows, by omega, by omega⟩
  · rintro ⟨rfl, above, below⟩
    exact ⟨Nat.add_le_add_left above _, by omega⟩

/-- What the loop over columns writes. -/
theorem fillCols_apply {rowBase col : UInt32} {rounds : ℕ} {pixels : UInt32 → Color}
    (short : col.toNat + rounds < 2 ^ 32) (fits : rowBase.toNat + (col.toNat + rounds) ≤ 2 ^ 32)
    (index : UInt32) :
    fillCols color rowBase rounds col pixels index =
      if rowBase.toNat + col.toNat ≤ index.toNat ∧
          index.toNat < rowBase.toNat + col.toNat + rounds then color
      else pixels index := by
  induction rounds generalizing col pixels with
  | zero =>
      rw [if_neg (by omega)]
      rfl
  | succ rounds ih =>
      have next : (col + 1).toNat = col.toNat + 1 := by
        rw [UInt32.toNat_add]
        exact Nat.mod_eq_of_lt (by change col.toNat + 1 < 2 ^ 32; omega)
      have here : (rowBase + col).toNat = rowBase.toNat + col.toNat := by
        rw [UInt32.toNat_add]
        exact Nat.mod_eq_of_lt (by omega)
      unfold fillCols
      rw [ih (by omega) (by omega), next]
      by_cases same : index = rowBase + col
      · subst same
        rw [Function.update_self, here, if_neg (by omega), if_pos (by omega)]
      · have apart : index.toNat ≠ rowBase.toNat + col.toNat := fun equal =>
          same (UInt32.toNat_inj.mp (equal.trans here.symm))
        rw [Function.update_of_ne same]
        by_cases later : rowBase.toNat + (col.toNat + 1) ≤ index.toNat ∧
            index.toNat < rowBase.toNat + (col.toNat + 1) + rounds
        · rw [if_pos later, if_pos (by omega)]
        · rw [if_neg later, if_neg (by omega)]

/-- What the loop over rows writes at a place of a row. -/
theorem fillRows_apply {strideWord x maxX row col' row' : UInt32} {rounds height : ℕ}
    {pixels : UInt32 → Color} (words : height * strideWord.toNat ≤ 2 ^ 32)
    (tall : height < 2 ^ 32) (piece : x ≤ maxX) (wide : maxX ≤ strideWord)
    (within : row.toNat + rounds ≤ height) (inside : col' < strideWord)
    (place : UInt32) (placed : place.toNat = row'.toNat * strideWord.toNat + col'.toNat) :
    fillRows color strideWord x maxX rounds row pixels place =
      if row.toNat ≤ row'.toNat ∧ row'.toNat < row.toNat + rounds ∧
          x ≤ col' ∧ col' < maxX then color
      else pixels place := by
  rw [UInt32.le_iff_toNat_le] at piece wide
  rw [UInt32.lt_iff_toNat_lt] at inside
  have columns : (maxX - x).toNat = maxX.toNat - x.toNat :=
    UInt32.toNat_sub_of_le _ _ (UInt32.le_iff_toNat_le.mpr piece)
  induction rounds generalizing row pixels with
  | zero =>
      rw [if_neg (by omega)]
      rfl
  | succ rounds ih =>
      have next : (row + 1).toNat = row.toNat + 1 := by
        rw [UInt32.toNat_add]
        exact Nat.mod_eq_of_lt (by change row.toNat + 1 < 2 ^ 32; omega)
      have last : (row.toNat + 1) * strideWord.toNat ≤ 2 ^ 32 :=
        (Nat.mul_le_mul_right _ (by omega)).trans words
      rw [Nat.add_mul, Nat.one_mul] at last
      have base : (row * strideWord).toNat = row.toNat * strideWord.toNat := by
        rw [UInt32.toNat_mul]
        exact Nat.mod_eq_of_lt (by omega)
      unfold fillRows
      rw [ih (by omega), next, fillCols_apply (by rw [columns]; have := maxX.toNat_lt; omega)
        (by rw [columns, base]; omega), base, columns, placed]
      have piece' : x.toNat + (maxX.toNat - x.toNat) ≤ strideWord.toNat := by omega
      have hit := @place_within strideWord.toNat row'.toNat col'.toNat row.toNat x.toNat
        (maxX.toNat - x.toNat) inside piece'
      rw [Nat.add_sub_cancel' piece] at hit
      simp only [hit, UInt32.le_iff_toNat_le, UInt32.lt_iff_toNat_lt]
      by_cases below : row.toNat + 1 ≤ row'.toNat ∧ row'.toNat < row.toNat + 1 + rounds ∧
          x.toNat ≤ col'.toNat ∧ col'.toNat < maxX.toNat
      · rw [if_pos below, if_pos (by omega)]
      · rw [if_neg below]
        by_cases same : row'.toNat = row.toNat ∧ x.toNat ≤ col'.toNat ∧ col'.toNat < maxX.toNat
        · rw [if_pos same, if_pos (by omega)]
        · rw [if_neg same, if_neg (by omega)]

end Places

/-! ## Rectangles -/

section Rectangles

variable {Color : Type} {fb : Framebuffer Color} {color : Color}

/-- A point lies in a rectangle by its distance from the corner, on words. -/
theorem pointInRect_iff (rect : WmRect) (x y : UInt32) : wmPointInRect rect x y ↔
    (rect.x.toNat ≤ x.toNat ∧ x.toNat < rect.x.toNat + rect.width.toNat) ∧
      rect.y.toNat ≤ y.toNat ∧ y.toNat < rect.y.toNat + rect.height.toNat := by
  have axis (start length place : UInt32) : start ≤ place ∧ place - start < length ↔
      start.toNat ≤ place.toNat ∧ place.toNat < start.toNat + length.toNat := by
    constructor
    · rintro ⟨above, near⟩
      rw [UInt32.lt_iff_toNat_lt, UInt32.toNat_sub_of_le _ _ above] at near
      rw [UInt32.le_iff_toNat_le] at above
      exact ⟨above, by omega⟩
    · rintro ⟨above, near⟩
      have above' : start ≤ place := UInt32.le_iff_toNat_le.mpr above
      refine ⟨above', ?_⟩
      rw [UInt32.lt_iff_toNat_lt, UInt32.toNat_sub_of_le _ _ above']
      exact Nat.sub_lt_left_of_lt_add above near
  have solid (length : UInt32) (some_ : 0 < length.toNat) : length ≠ 0 := by
    rintro rfl
    exact absurd some_ (Nat.lt_irrefl 0)
  unfold wmPointInRect
  constructor
  · rintro ⟨_, _, left, top, right, bottom⟩
    exact ⟨(axis _ _ _).mp ⟨left, right⟩, (axis _ _ _).mp ⟨top, bottom⟩⟩
  · rintro ⟨across, down⟩
    obtain ⟨left, right⟩ := (axis _ _ _).mpr across
    obtain ⟨top, bottom⟩ := (axis _ _ _).mpr down
    exact ⟨solid _ (by omega), solid _ (by omega), left, top, right, bottom⟩

/-- Where a rectangle that starts inside is cut. -/
theorem clipEnd_spec {start length limit : UInt32} (inside : start < limit) {place : UInt32}
    (shown : place < limit) :
    start ≤ clipEnd start length limit ∧ clipEnd start length limit ≤ limit ∧
      (place < clipEnd start length limit ↔ place.toNat < start.toNat + length.toNat) := by
  have sum : (start + length).toNat = (start.toNat + length.toNat) % 2 ^ 32 := UInt32.toNat_add _ _
  have startBound := start.toNat_lt
  have lengthBound := length.toNat_lt
  have limitBound := limit.toNat_lt
  unfold clipEnd
  rw [UInt32.lt_iff_toNat_lt] at inside shown
  simp only [UInt32.lt_iff_toNat_lt, sum]
  split
  · rw [UInt32.le_iff_toNat_le, UInt32.le_iff_toNat_le]
    exact ⟨inside.le, le_rfl, by omega⟩
  · rw [UInt32.le_iff_toNat_le, UInt32.le_iff_toNat_le, sum]
    exact ⟨by omega, by omega, by omega⟩

/-- **A filled rectangle** changes the shown pixels that lie in it, and no other shown
pixel. -/
theorem Framebuffer.Fits.pixel_fillRect (fits : fb.Fits) (x y width height : UInt32)
    {col row : UInt32} (shown : fb.Shown col row) :
    (framebufferFillRect color fb x y width height).pixel col row =
      if wmPointInRect ⟨x, y, width, height⟩ col row then color else fb.pixel col row := by
  obtain ⟨mapped, rows, words⟩ := fits
  obtain ⟨inWidth, inHeight⟩ := shown
  unfold framebufferFillRect
  by_cases flat : fb.mapped = false ∨ width = 0 ∨ height = 0
  · rw [if_pos flat, if_neg]
    rintro ⟨wide, tall, _⟩
    rcases flat with unmapped | narrow | low
    · rw [mapped] at unmapped
      cases unmapped
    · exact wide narrow
    · exact tall low
  rw [if_neg flat]
  by_cases outside : fb.width ≤ x ∨ fb.height ≤ y
  · rw [if_pos outside, if_neg]
    rintro ⟨_, _, left, top, _⟩
    rcases outside with right | below
    · exact UInt32.not_le.mpr inWidth (UInt32.le_trans right left)
    · exact UInt32.not_le.mpr inHeight (UInt32.le_trans below top)
  rw [if_neg outside]
  rw [not_or, UInt32.not_le, UInt32.not_le] at outside
  obtain ⟨startX, endX, cutX⟩ := @clipEnd_spec x width fb.width outside.1 col inWidth
  obtain ⟨startY, endY, cutY⟩ := @clipEnd_spec y height fb.height outside.2 row inHeight
  have tall := fb.height.toNat_lt
  rw [UInt32.le_iff_toNat_le] at startY endY
  have count : (clipEnd y height fb.height - y).toNat =
      (clipEnd y height fb.height).toNat - y.toNat :=
    UInt32.toNat_sub_of_le _ _ (UInt32.le_iff_toNat_le.mpr startY)
  have wide := UInt32.lt_iff_toNat_lt.mp (UInt32.lt_of_lt_of_le inWidth rows)
  have rowEnd : (row.toNat + 1) * fb.stride.toNat ≤ 2 ^ 32 :=
    (Nat.mul_le_mul_right _ (UInt32.lt_iff_toNat_lt.mp inHeight)).trans words
  rw [Nat.add_mul, Nat.one_mul] at rowEnd
  have placed : (row * fb.stride + col).toNat = row.toNat * fb.stride.toNat + col.toNat := by
    have base : (row * fb.stride).toNat = row.toNat * fb.stride.toNat := by
      rw [UInt32.toNat_mul]
      exact Nat.mod_eq_of_lt (by omega)
    rw [UInt32.toNat_add, base]
    exact Nat.mod_eq_of_lt (by omega)
  have hit : (y.toNat ≤ row.toNat ∧ row.toNat < y.toNat + (clipEnd y height fb.height - y).toNat ∧
      x ≤ col ∧ col < clipEnd x width fb.width) ↔ wmPointInRect ⟨x, y, width, height⟩ col row := by
    rw [pointInRect_iff, cutX, count, Nat.add_sub_cancel' startY, ← UInt32.lt_iff_toNat_lt, cutY,
      UInt32.le_iff_toNat_le]
    exact ⟨fun ⟨top, bottom, left, right⟩ => ⟨⟨left, right⟩, top, bottom⟩,
      fun ⟨⟨left, right⟩, top, bottom⟩ => ⟨top, bottom, left, right⟩⟩
  unfold Framebuffer.pixel
  simp only
  rw [fillRows_apply words tall startX (UInt32.le_trans endX rows) (by omega)
    (UInt32.lt_of_lt_of_le inWidth rows) _ placed]
  exact if_congr hit rfl rfl

end Rectangles

end TigerOS.Gfx
