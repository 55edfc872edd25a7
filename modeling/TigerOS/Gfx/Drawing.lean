import TigerOS.Gfx.Framebuffer
import TigerOS.Foundation.Loop

/-! # Drawing

The framebuffer fills rectangles and copies pictures into them. Both cut the rectangle at the
edges before they loop. What they draw is what setting one pixel after the other at every point
of the whole rectangle draws, also where the rectangle ends past the largest word
(`TigerOS.Gfx.clipped_drawing`).
-/

namespace TigerOS.Gfx

open Foundation

variable {Color : Type}

/-! ## The source's drawing -/

section Source

variable (fb : Framebuffer Color)

/-- `framebuffer_put_pixel`. -/
def framebufferPutPixel (x y : UInt32) (color : Color) : Framebuffer Color :=
  if fb.mapped = false then fb
  else if fb.width ≤ x ∨ fb.height ≤ y then fb
  else { fb with pixels := Function.update fb.pixels (y * fb.stride + x) color }

variable (src : ℕ → Color)

/-- The inner loop of `framebuffer_blit`, over the columns of a row. -/
def blitCols (destRowBase x srcRowBase : UInt32) : ℕ → UInt32 → (UInt32 → Color) → UInt32 → Color
  | 0, _, pixels => pixels
  | rounds + 1, col, pixels =>
      blitCols destRowBase x srcRowBase rounds (col + 1)
        (Function.update pixels (destRowBase + x + col) (src (srcRowBase + col).toNat))

/-- The outer loop of `framebuffer_blit`, over the rows. -/
def blitRows (stride srcStride x y copyWidth : UInt32) :
    ℕ → UInt32 → (UInt32 → Color) → UInt32 → Color
  | 0, _, pixels => pixels
  | rounds + 1, row, pixels =>
      blitRows stride srcStride x y copyWidth rounds (row + 1)
        (blitCols src ((y + row) * stride) x (row * srcStride) copyWidth.toNat 0 pixels)

/-- What is copied of a length along one axis, cut to the space that is left. -/
def clipLength (start length limit : UInt32) : UInt32 :=
  if limit - start < length then limit - start else length

/-- `framebuffer_blit`, where no source is a null pointer. The source is memory apart from the
framebuffer. -/
def framebufferBlit (src : Option (ℕ → Color)) (srcStride x y width height : UInt32) :
    Framebuffer Color :=
  match src with
  | none => fb
  | some src =>
      if srcStride = 0 ∨ width = 0 ∨ height = 0 then fb
      else if srcStride < width ∨ fb.mapped = false then fb
      else if fb.width ≤ x ∨ fb.height ≤ y then fb
      else
        let copyWidth := clipLength x width fb.width
        let copyHeight := clipLength y height fb.height
        { fb with
          pixels := blitRows src fb.stride srcStride x y copyWidth copyHeight.toNat 0 fb.pixels }

end Source

/-! ## Drawing by points -/

section Points

variable (fb : Framebuffer Color)

/-- Sets the pixel at a point, which a call can name only where both coordinates are words. -/
def putPoint (col row : ℕ) (color : Color) : Framebuffer Color :=
  if col < 2 ^ 32 ∧ row < 2 ^ 32 then
    framebufferPutPixel fb (UInt32.ofNat col) (UInt32.ofNat row) color
  else fb

/-- Sets the pixels at all points of some columns and rows, one after the other. -/
def putPoints (paint : ℕ → ℕ → Color) (cols rows : List ℕ) : Framebuffer Color :=
  rows.foldl (fun fb row => cols.foldl (fun fb col => putPoint fb col row (paint col row)) fb) fb

/-- The points of a rectangle, which does not wrap. -/
def putRect (paint : ℕ → ℕ → Color) (x y width height : UInt32) : Framebuffer Color :=
  putPoints fb paint (List.range' x.toNat width.toNat) (List.range' y.toNat height.toNat)

/-- A point that is shown. -/
def ShownPoint (col row : ℕ) : Prop :=
  fb.mapped = true ∧ col < fb.width.toNat ∧ row < fb.height.toNat

instance (col row : ℕ) : Decidable (ShownPoint fb col row) :=
  inferInstanceAs (Decidable (_ ∧ _))

/-- What setting the pixel at a point does to the memory. -/
def putAt (col row : ℕ) (color : Color) (pixels : UInt32 → Color) : UInt32 → Color :=
  if ShownPoint fb col row then
    Function.update pixels (UInt32.ofNat row * fb.stride + UInt32.ofNat col) color
  else pixels

variable {fb}

theorem putPoint_eq (pixels : UInt32 → Color) (col row : ℕ) (color : Color) :
    putPoint { fb with pixels := pixels } col row color =
      { fb with pixels := putAt fb col row color pixels } := by
  have wide := fb.width.toNat_lt
  have tall := fb.height.toNat_lt
  unfold putPoint putAt framebufferPutPixel
  by_cases words : col < 2 ^ 32 ∧ row < 2 ^ 32
  · have here : fb.width ≤ UInt32.ofNat col ↔ fb.width.toNat ≤ col := by
      rw [UInt32.le_iff_toNat_le, UInt32.toNat_ofNat_of_lt' words.1]
    have there : fb.height ≤ UInt32.ofNat row ↔ fb.height.toNat ≤ row := by
      rw [UInt32.le_iff_toNat_le, UInt32.toNat_ofNat_of_lt' words.2]
    rw [if_pos words]
    simp only [here, there]
    by_cases shown : ShownPoint fb col row
    · rw [if_pos shown, if_neg (by rw [shown.1]; exact Bool.noConfusion),
        if_neg (by have := shown.2; omega)]
    · rw [if_neg shown]
      split
      · rfl
      · rename_i mapped
        rw [if_pos]
        by_contra inside
        exact shown ⟨by simpa using mapped, by omega, by omega⟩
  · rw [if_neg words, if_neg (fun shown : ShownPoint fb col row => words (by
      have := shown.2
      omega))]

/-- Drawing by points is drawing in the memory. -/
theorem putPoints_eq (paint : ℕ → ℕ → Color) (cols rows : List ℕ) :
    putPoints fb paint cols rows =
      { fb with
        pixels :=
          rows.foldl (fun pixels row =>
            cols.foldl (fun pixels col => putAt fb col row (paint col row) pixels) pixels)
            fb.pixels } := by
  have along (pixels : UInt32 → Color) (row : ℕ) :
      cols.foldl (fun fb col => putPoint fb col row (paint col row)) { fb with pixels := pixels } =
        { fb with
          pixels :=
            cols.foldl (fun pixels col => putAt fb col row (paint col row) pixels) pixels } :=
    List.foldl_hom (fun pixels => { fb with pixels := pixels })
      (fun pixels col => putPoint_eq pixels col row (paint col row))
  exact List.foldl_hom (fun pixels => ({ fb with pixels := pixels } : Framebuffer Color)) along

/-- Points that are not shown draw nothing. -/
theorem putPoints_hidden {paint : ℕ → ℕ → Color} {cols rows : List ℕ}
    (hidden : ∀ col ∈ cols, ∀ row ∈ rows, ¬ ShownPoint fb col row) :
    putPoints fb paint cols rows = fb := by
  rw [putPoints_eq, foldl_idle]
  intro row inRows pixels
  exact foldl_idle (fun col inCols pixels => if_neg (hidden col inCols row inRows)) pixels

/-- A length is cut to the space that is left. -/
structure IsCut (start length limit cut : ℕ) : Prop where
  short : cut ≤ length
  inside : start + cut ≤ limit
  full : cut = length ∨ limit ≤ start + cut

/-- Points outside the framebuffer may be left out. -/
theorem putPoints_cut {paint : ℕ → ℕ → Color} {x y cols rows width height : ℕ}
    (across : IsCut x width fb.width.toNat cols) (down : IsCut y height fb.height.toNat rows) :
    putPoints fb paint (List.range' x width) (List.range' y height) =
      putPoints fb paint (List.range' x cols) (List.range' y rows) := by
  have row_eq (row : ℕ) (pixels : UInt32 → Color) :
      (List.range' x width).foldl (fun pixels col => putAt fb col row (paint col row) pixels)
          pixels =
        (List.range' x cols).foldl (fun pixels col => putAt fb col row (paint col row) pixels)
          pixels := by
    refine foldl_range'_cut across.short (fun col past inside pixels => if_neg ?_) pixels
    rintro ⟨_, shown, _⟩
    have := across.full
    omega
  rw [putPoints_eq, putPoints_eq, foldl_range'_cut down.short]
  · simp only [row_eq]
  · intro row past inside pixels
    refine foldl_idle (fun col _ pixels => if_neg ?_) pixels
    rintro ⟨_, _, shown⟩
    have := down.full
    omega

/-- The word of a shown point is its place, which does not wrap. -/
theorem toNat_shown (rows : fb.width ≤ fb.stride)
    (words : fb.height.toNat * fb.stride.toNat < 2 ^ 32) {col row : ℕ}
    (shown : ShownPoint fb col row) :
    (UInt32.ofNat row * fb.stride + UInt32.ofNat col).toNat = row * fb.stride.toNat + col := by
  obtain ⟨_, inWidth, inHeight⟩ := shown
  have wide := fb.width.toNat_lt
  have tall := fb.height.toNat_lt
  have last : (row + 1) * fb.stride.toNat < 2 ^ 32 :=
    lt_of_le_of_lt (Nat.mul_le_mul_right _ inHeight) words
  rw [Nat.add_mul, Nat.one_mul] at last
  rw [UInt32.le_iff_toNat_le] at rows
  rw [UInt32.toNat_add, UInt32.toNat_mul, UInt32.toNat_ofNat_of_lt' (inHeight.trans tall),
    UInt32.toNat_ofNat_of_lt' (inWidth.trans wide),
    Nat.mod_eq_of_lt (show row * fb.stride.toNat < 2 ^ 32 by omega)]
  exact Nat.mod_eq_of_lt (by omega)

/-- **What is drawn outside the visible area** is nothing: a word that is no shown pixel keeps its
value. -/
theorem putPoints_outside (rows : fb.width ≤ fb.stride)
    (words : fb.height.toNat * fb.stride.toNat < 2 ^ 32) {index : UInt32}
    (outside : ∀ row < fb.height.toNat, ∀ col < fb.width.toNat,
      index.toNat ≠ row * fb.stride.toNat + col)
    (paint : ℕ → ℕ → Color) (colList rowList : List ℕ) :
    (putPoints fb paint colList rowList).pixels index = fb.pixels index := by
  have spared (col row : ℕ) (color : Color) (pixels : UInt32 → Color)
      (same : pixels index = fb.pixels index) :
      putAt fb col row color pixels index = fb.pixels index := by
    unfold putAt
    by_cases shown : ShownPoint fb col row
    · rw [if_pos shown, Function.update_of_ne _, same]
      rintro rfl
      exact outside row shown.2.2 col shown.2.1 (toNat_shown rows words shown)
    · rw [if_neg shown, same]
  rw [putPoints_eq]
  refine @foldl_keeps _ _ _ (fun pixels : UInt32 → Color => pixels index = fb.pixels index) _ ?_ _
    rfl
  intro row _ pixels same
  exact foldl_keeps (fun col _ pixels same => spared col row _ pixels same) same

/-- Loops over rows and columns draw by points, when each of their rounds does. -/
theorem loops_eq_putPoints
    {body : UInt32 → UInt32 → (UInt32 → Color) → UInt32 → Color} {paint : ℕ → ℕ → Color}
    (originX originY startX startY cols rows : ℕ)
    (draws : ∀ row ∈ List.range' (originY + startY) rows,
      ∀ col ∈ List.range' (originX + startX) cols, ∀ pixels,
        body (UInt32.ofNat (row - originY)) (UInt32.ofNat (col - originX)) pixels =
          putAt fb col row (paint col row) pixels) :
    { fb with
      pixels := countedLoop
        (fun row pixels => countedLoop (body row) cols (UInt32.ofNat startX) pixels) rows
        (UInt32.ofNat startY) fb.pixels } =
      putPoints fb paint (List.range' (originX + startX) cols)
        (List.range' (originY + startY) rows) := by
  rw [putPoints_eq, countedLoop_eq_foldl originY]
  congr 1
  refine List.foldl_ext _ _ _ (fun pixels row inRows => ?_)
  rw [countedLoop_eq_foldl originX]
  exact List.foldl_ext _ _ _ (fun pixels col inCols => draws row inRows col inCols pixels)

end Points

/-! ## The loops -/

section Loops

variable (color : Color) (src : ℕ → Color)

theorem fillCols_eq (rowBase col : UInt32) (rounds : ℕ) (pixels : UInt32 → Color) :
    fillCols color rowBase rounds col pixels =
      countedLoop (fun col pixels => Function.update pixels (rowBase + col) color) rounds col
        pixels := by
  induction rounds generalizing col pixels with
  | zero => rfl
  | succ rounds ih => exact ih _ _

theorem fillRows_eq (stride x maxX row : UInt32) (rounds : ℕ) (pixels : UInt32 → Color) :
    fillRows color stride x maxX rounds row pixels =
      countedLoop (fun row pixels => countedLoop (fun col pixels =>
        Function.update pixels (row * stride + col) color) (maxX - x).toNat x pixels) rounds row
        pixels := by
  induction rounds generalizing row pixels with
  | zero => rfl
  | succ rounds ih =>
      unfold fillRows countedLoop
      rw [ih, fillCols_eq]

theorem blitCols_eq (destRowBase x srcRowBase col : UInt32) (rounds : ℕ)
    (pixels : UInt32 → Color) :
    blitCols src destRowBase x srcRowBase rounds col pixels =
      countedLoop (fun col pixels => Function.update pixels (destRowBase + x + col)
        (src (srcRowBase + col).toNat)) rounds col pixels := by
  induction rounds generalizing col pixels with
  | zero => rfl
  | succ rounds ih => exact ih _ _

theorem blitRows_eq (stride srcStride x y copyWidth row : UInt32) (rounds : ℕ)
    (pixels : UInt32 → Color) :
    blitRows src stride srcStride x y copyWidth rounds row pixels =
      countedLoop (fun row pixels => countedLoop (fun col pixels =>
        Function.update pixels ((y + row) * stride + x + col)
          (src (row * srcStride + col).toNat)) copyWidth.toNat 0 pixels) rounds row pixels := by
  induction rounds generalizing row pixels with
  | zero => rfl
  | succ rounds ih =>
      unfold blitRows countedLoop
      rw [ih, blitCols_eq]

end Loops

/-! ## The rectangles -/

section Rectangles

variable {fb : Framebuffer Color} {start length limit : UInt32}

theorem clipEnd_isCut (inside : start < limit) :
    IsCut start.toNat length.toNat limit.toNat (clipEnd start length limit - start).toNat := by
  have sum : (start + length).toNat = (start.toNat + length.toNat) % 2 ^ 32 := UInt32.toNat_add _ _
  have startBound := start.toNat_lt
  have lengthBound := length.toNat_lt
  have limitBound := limit.toNat_lt
  have inside' := UInt32.lt_iff_toNat_lt.mp inside
  unfold clipEnd
  by_cases cut : start + length < start ∨ limit < start + length
  · rw [if_pos cut, UInt32.toNat_sub_of_le _ _ (UInt32.le_of_lt inside)]
    rw [UInt32.lt_iff_toNat_lt, UInt32.lt_iff_toNat_lt] at cut
    exact ⟨by omega, by omega, by omega⟩
  · rw [if_neg cut]
    rw [not_or, UInt32.not_lt, UInt32.not_lt] at cut
    rw [UInt32.toNat_sub_of_le _ _ cut.1]
    rw [UInt32.le_iff_toNat_le, UInt32.le_iff_toNat_le] at cut
    exact ⟨by omega, by omega, by omega⟩

theorem clipLength_isCut (inside : start < limit) :
    IsCut start.toNat length.toNat limit.toNat (clipLength start length limit).toNat := by
  have left : (limit - start).toNat = limit.toNat - start.toNat :=
    UInt32.toNat_sub_of_le _ _ (UInt32.le_of_lt inside)
  have inside' := UInt32.lt_iff_toNat_lt.mp inside
  unfold clipLength
  by_cases cut : limit - start < length
  · rw [if_pos cut]
    rw [UInt32.lt_iff_toNat_lt] at cut
    exact ⟨by omega, by omega, by omega⟩
  · rw [if_neg cut]
    rw [UInt32.not_lt, UInt32.le_iff_toNat_le] at cut
    exact ⟨by omega, by omega, by omega⟩

/-- A rectangle none of whose points is shown. -/
theorem putRect_hidden {paint : ℕ → ℕ → Color} {x y width height : UInt32}
    (hidden : fb.mapped = false ∨ width = 0 ∨ height = 0 ∨ fb.width ≤ x ∨ fb.height ≤ y) :
    putRect fb paint x y width height = fb := by
  refine putPoints_hidden ?_
  rintro col inCols row inRows ⟨mapped, inWidth, inHeight⟩
  rw [List.mem_range'_1] at inCols inRows
  rcases hidden with unmapped | rfl | rfl | right | below
  · rw [mapped] at unmapped
    cases unmapped
  · exact absurd inCols.2 (Nat.not_lt.mpr inCols.1)
  · exact absurd inRows.2 (Nat.not_lt.mpr inRows.1)
  · rw [UInt32.le_iff_toNat_le] at right
    omega
  · rw [UInt32.le_iff_toNat_le] at below
    omega

/-- Loops over a rectangle that is cut at the edges draw its points, when each of their rounds
sets the pixel of its point. -/
theorem loops_eq_putRect {body : UInt32 → UInt32 → (UInt32 → Color) → UInt32 → Color}
    {paint : ℕ → ℕ → Color} {x y width height : UInt32} {cols rows : ℕ} (mapped : fb.mapped = true)
    (across : IsCut x.toNat width.toNat fb.width.toNat cols)
    (down : IsCut y.toNat height.toNat fb.height.toNat rows)
    (originX originY startX startY : ℕ) (left : originX + startX = x.toNat)
    (top : originY + startY = y.toNat)
    (sets : ∀ col row pixels, x.toNat ≤ col → col < x.toNat + width.toNat → y.toNat ≤ row →
      row < y.toNat + height.toNat →
        body (UInt32.ofNat (row - originY)) (UInt32.ofNat (col - originX)) pixels =
          Function.update pixels (UInt32.ofNat row * fb.stride + UInt32.ofNat col)
            (paint col row)) :
    { fb with
      pixels := countedLoop
        (fun row pixels => countedLoop (body row) cols (UInt32.ofNat startX) pixels) rows
        (UInt32.ofNat startY) fb.pixels } =
      putRect fb paint x y width height := by
  unfold putRect
  rw [putPoints_cut across down, loops_eq_putPoints originX originY, left, top]
  intro row inRows col inCols pixels
  rw [top, List.mem_range'_1] at inRows
  rw [left, List.mem_range'_1] at inCols
  have shown : ShownPoint fb col row :=
    ⟨mapped, by have := across.inside; omega, by have := down.inside; omega⟩
  have := across.short
  have := down.short
  rw [sets col row pixels inCols.1 (by omega) inRows.1 (by omega), putAt, if_pos shown]

/-- A filled rectangle draws its points. -/
theorem framebufferFillRect_eq (fb : Framebuffer Color) (x y width height : UInt32)
    (color : Color) :
    framebufferFillRect color fb x y width height =
      putRect fb (fun _ _ => color) x y width height := by
  unfold framebufferFillRect
  by_cases flat : fb.mapped = false ∨ width = 0 ∨ height = 0
  · rw [if_pos flat, putRect_hidden (by tauto)]
  rw [if_neg flat]
  by_cases outside : fb.width ≤ x ∨ fb.height ≤ y
  · rw [if_pos outside, putRect_hidden (by tauto)]
  rw [if_neg outside]
  rw [not_or, UInt32.not_le, UInt32.not_le] at outside
  rw [not_or, Bool.not_eq_false] at flat
  have loops := @loops_eq_putRect _ fb
    (fun row col pixels => Function.update pixels (row * fb.stride + col) color)
    (fun _ _ => color) x y width height _ _ flat.1 (clipEnd_isCut outside.1)
    (clipEnd_isCut outside.2) 0 0 x.toNat y.toNat (Nat.zero_add _) (Nat.zero_add _)
    (fun col row pixels _ _ _ _ => rfl)
  rw [UInt32.ofNat_toNat, UInt32.ofNat_toNat] at loops
  simp only [fillRows_eq]
  exact loops

/-- A count from a place on reaches a place. -/
theorem add_ofNat_sub {start : UInt32} {place : ℕ} (past : start.toNat ≤ place) :
    start + UInt32.ofNat (place - start.toNat) = UInt32.ofNat place :=
  calc start + UInt32.ofNat (place - start.toNat)
      = UInt32.ofNat start.toNat + UInt32.ofNat (place - start.toNat) := by
        rw [UInt32.ofNat_toNat]
    _ = UInt32.ofNat place := by rw [← UInt32.ofNat_add, Nat.add_sub_cancel' past]

/-- A picture that is copied draws its points, each with the pixel that its word names. -/
theorem framebufferBlit_words (fb : Framebuffer Color) (src : ℕ → Color)
    {srcStride x y width height : UInt32} (wide : width ≤ srcStride) :
    framebufferBlit fb (some src) srcStride x y width height =
      putRect fb (fun col row => src
        (UInt32.ofNat (row - y.toNat) * srcStride + UInt32.ofNat (col - x.toNat)).toNat)
        x y width height := by
  unfold framebufferBlit
  simp only
  by_cases flat : srcStride = 0 ∨ width = 0 ∨ height = 0
  · rw [if_pos flat, putRect_hidden]
    rcases flat with rfl | narrow | low
    · exact .inr (.inl (UInt32.le_zero_iff.mp wide))
    · exact .inr (.inl narrow)
    · exact .inr (.inr (.inl low))
  rw [if_neg flat]
  by_cases unmapped : srcStride < width ∨ fb.mapped = false
  · rw [if_pos unmapped, putRect_hidden]
    exact .inl (unmapped.resolve_left (UInt32.not_lt.mpr wide))
  rw [if_neg unmapped]
  by_cases outside : fb.width ≤ x ∨ fb.height ≤ y
  · rw [if_pos outside, putRect_hidden (by tauto)]
  rw [if_neg outside]
  rw [not_or, UInt32.not_le, UInt32.not_le] at outside
  rw [not_or, Bool.not_eq_false] at unmapped
  have loops := @loops_eq_putRect _ fb
    (fun row col pixels => Function.update pixels ((y + row) * fb.stride + x + col)
      (src (row * srcStride + col).toNat))
    (fun col row => src
      (UInt32.ofNat (row - y.toNat) * srcStride + UInt32.ofNat (col - x.toNat)).toNat)
    x y width height _ _ unmapped.2 (clipLength_isCut outside.1) (clipLength_isCut outside.2)
    x.toNat y.toNat 0 0 (Nat.add_zero _) (Nat.add_zero _)
  simp only [blitRows_eq]
  refine loops (fun col row pixels left right top bottom => ?_)
  rw [add_ofNat_sub top, UInt32.add_assoc, add_ofNat_sub left]

/-- A picture that is wider than its rows is not copied. -/
theorem framebufferBlit_narrow (fb : Framebuffer Color) (src : ℕ → Color)
    {srcStride x y width height : UInt32} (narrow : srcStride < width) :
    framebufferBlit fb (some src) srcStride x y width height = fb := by
  unfold framebufferBlit
  simp only
  split
  · rfl
  · rw [if_pos (.inl narrow)]

/-- A rectangle is drawn by what its own points are painted with. -/
theorem putRect_congr {paint other : ℕ → ℕ → Color} {x y width height : UInt32}
    (same : ∀ col row, x.toNat ≤ col → col < x.toNat + width.toNat → y.toNat ≤ row →
      row < y.toNat + height.toNat → paint col row = other col row) :
    putRect fb paint x y width height = putRect fb other x y width height := by
  refine List.foldl_ext _ _ _ (fun fb row inRows => ?_)
  refine List.foldl_ext _ _ _ (fun fb col inCols => ?_)
  rw [List.mem_range'_1] at inRows inCols
  rw [same col row inCols.1 inCols.2 inRows.1 inRows.2]

/-- A picture whose rows do not overlap, and whose places are words, is copied pixel by pixel. -/
theorem framebufferBlit_eq (fb : Framebuffer Color) (src : ℕ → Color)
    {srcStride x y width height : UInt32} (wide : width ≤ srcStride)
    (places : srcStride.toNat * height.toNat < 2 ^ 32) :
    framebufferBlit fb (some src) srcStride x y width height =
      putRect fb (fun col row => src ((row - y.toNat) * srcStride.toNat + (col - x.toNat)))
        x y width height := by
  rw [framebufferBlit_words fb src wide]
  refine putRect_congr (fun col row left right top bottom => congrArg src ?_)
  have wide' := UInt32.le_iff_toNat_le.mp wide
  have inside : (row - y.toNat + 1) * srcStride.toNat < 2 ^ 32 := by
    rw [Nat.mul_comm] at places
    exact lt_of_le_of_lt (Nat.mul_le_mul_right _ (by omega)) places
  rw [Nat.add_mul, Nat.one_mul] at inside
  have widthBound := width.toNat_lt
  have heightBound := height.toNat_lt
  rw [UInt32.toNat_add, UInt32.toNat_mul,
    UInt32.toNat_ofNat_of_lt' (show row - y.toNat < 2 ^ 32 by omega),
    UInt32.toNat_ofNat_of_lt' (show col - x.toNat < 2 ^ 32 by omega),
    Nat.mod_eq_of_lt (show (row - y.toNat) * srcStride.toNat < 2 ^ 32 by omega)]
  exact Nat.mod_eq_of_lt (by omega)

/-- **Clipped drawing is drawing by points.** A filled rectangle is what setting the pixel at
every point of the whole rectangle draws, and a copied picture is what setting each of these
pixels to its pixel of the picture draws. Neither changes a word that is no shown pixel. -/
theorem clipped_drawing (fb : Framebuffer Color) (rows : fb.width ≤ fb.stride)
    (words : fb.height.toNat * fb.stride.toNat < 2 ^ 32) (x y width height : UInt32) :
    (∀ color, framebufferFillRect color fb x y width height =
        putRect fb (fun _ _ => color) x y width height) ∧
      (∀ (src : ℕ → Color) (srcStride : UInt32), width ≤ srcStride →
        srcStride.toNat * height.toNat < 2 ^ 32 →
        framebufferBlit fb (some src) srcStride x y width height =
          putRect fb (fun col row => src ((row - y.toNat) * srcStride.toNat + (col - x.toNat)))
            x y width height) ∧
      ∀ index : UInt32, (∀ row < fb.height.toNat, ∀ col < fb.width.toNat,
          index.toNat ≠ row * fb.stride.toNat + col) →
        (∀ color, (framebufferFillRect color fb x y width height).pixels index =
            fb.pixels index) ∧
          ∀ (src : Option (ℕ → Color)) (srcStride : UInt32),
            (framebufferBlit fb src srcStride x y width height).pixels index =
              fb.pixels index := by
  refine ⟨framebufferFillRect_eq fb x y width height,
    fun src srcStride wide places => framebufferBlit_eq fb src wide places,
    fun index outside => ⟨fun color => ?_, fun src srcStride => ?_⟩⟩
  · rw [framebufferFillRect_eq]
    exact putPoints_outside rows words outside _ _ _
  · cases src with
    | none => rfl
    | some src =>
        by_cases wide : width ≤ srcStride
        · rw [framebufferBlit_words fb src wide]
          exact putPoints_outside rows words outside _ _ _
        · rw [framebufferBlit_narrow fb src (UInt32.not_le.mp wide)]

/-- A framebuffer with a margin, and a rectangle that ends past the largest word. -/
theorem clipped_drawing_margin :
    let fb : Framebuffer ℕ := ⟨true, fun _ => 0, 3, 2, 4⟩
    framebufferFillRect 7 fb 2 1 4294967295 1 = putRect fb (fun _ _ => 7) 2 1 4294967295 1 ∧
      framebufferBlit fb (some fun place => place) 4294967295 2 1 4294967295 1 =
        putRect fb (fun col row => (row - (1 : UInt32).toNat) * (4294967295 : UInt32).toNat +
          (col - (2 : UInt32).toNat)) 2 1 4294967295 1 ∧
      (framebufferFillRect 7 fb 2 1 4294967295 1).pixels 7 = fb.pixels 7 := by
  intro fb
  obtain ⟨fill, blit, outside⟩ :=
    clipped_drawing fb (by decide) (by decide) 2 1 4294967295 1
  exact ⟨fill 7, blit _ 4294967295 (by decide) (by decide), (outside 7 (by decide)).1 7⟩

end Rectangles


end TigerOS.Gfx
