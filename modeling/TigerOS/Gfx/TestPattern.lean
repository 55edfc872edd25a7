import TigerOS.Gfx.Drawing
import TigerOS.Wm.Visibility

/-! # The test pattern

At boot the framebuffer draws a pattern of four fields with a frame, a diagonal and a stamp in the
middle. What it looks like is known pixel by pixel (`TigerOS.Gfx.testPattern_pixel`).
-/

namespace TigerOS.Gfx

open Foundation TigerOS.Wm

/-! ## The source -/

/-- `center_stamp`. -/
def centerStamp : List UInt32 :=
  [0x00ffffff, 0x00000000, 0x00ffffff, 0x00000000, 0x00ffffff, 0x00000000, 0x00ffffff, 0x00000000,
    0x00000000, 0x00ffffff, 0x00000000, 0x00ffffff, 0x00000000, 0x00ffffff, 0x00000000, 0x00ffffff,
    0x00ffffff, 0x00000000, 0x00ffffff, 0x00000000, 0x00ffffff, 0x00000000, 0x00ffffff, 0x00000000,
    0x00000000, 0x00ffffff, 0x00000000, 0x00ffffff, 0x00000000, 0x00ffffff, 0x00000000, 0x00ffffff,
    0x00ffffff, 0x00000000, 0x00ffffff, 0x00000000, 0x00ffffff, 0x00000000, 0x00ffffff, 0x00000000,
    0x00000000, 0x00ffffff, 0x00000000, 0x00ffffff, 0x00000000, 0x00ffffff, 0x00000000, 0x00ffffff,
    0x00ffffff, 0x00000000, 0x00ffffff, 0x00000000, 0x00ffffff, 0x00000000, 0x00ffffff, 0x00000000,
    0x00000000, 0x00ffffff, 0x00000000, 0x00ffffff, 0x00000000, 0x00ffffff, 0x00000000, 0x00ffffff]

/-- The fields of `framebuffer_render_test_pattern`. -/
def drawFields (fb : Framebuffer UInt32) : Framebuffer UInt32 :=
  let halfWidth := fb.width / 2
  let halfHeight := fb.height / 2
  let fb := framebufferFillRect 0x00101010 fb 0 0 fb.width fb.height
  let fb := framebufferFillRect 0x00e53935 fb 0 0 halfWidth halfHeight
  let fb := framebufferFillRect 0x0043a047 fb halfWidth 0 halfWidth halfHeight
  let fb := framebufferFillRect 0x001e88e5 fb 0 halfHeight halfWidth halfHeight
  framebufferFillRect 0x00fdd835 fb halfWidth halfHeight halfWidth halfHeight

/-- A loop of `framebuffer_render_test_pattern` that sets white pixels. -/
def drawWhite (points : UInt32 → List (UInt32 × UInt32)) (rounds : UInt32)
    (fb : Framebuffer UInt32) : Framebuffer UInt32 :=
  countedLoop
    (fun i fb => (points i).foldl
      (fun fb point => framebufferPutPixel fb point.1 point.2 0x00ffffff) fb)
    rounds.toNat 0 fb

/-- What `framebuffer_render_test_pattern` draws. -/
def drawTestPattern (fb : Framebuffer UInt32) : Framebuffer UInt32 :=
  let fb := drawFields fb
  let fb := drawWhite (fun i => [(i, 0), (i, fb.height - 1)]) fb.width fb
  let fb := drawWhite (fun i => [(0, i), (fb.width - 1, i)]) fb.height fb
  let fb := drawWhite (fun i => [(i, i)]) (minU32 fb.height fb.width) fb
  framebufferBlit fb (some fun place => centerStamp.getD place 0) 8 (fb.width / 2 - 4)
    (fb.height / 2 - 4) 8 8

/-- `framebuffer_render_test_pattern`. -/
def framebufferRenderTestPattern (fb : Framebuffer UInt32) : UInt32 × Framebuffer UInt32 :=
  if fb.mapped = false then (0, fb)
  else
    let drawn := drawTestPattern fb
    (fnv1a32Pixels drawn.pixels (drawn.height * drawn.stride), drawn)

/-! ## Drawing points -/

section Points

variable {Color : Type} {fb : Framebuffer Color} {col row : UInt32}

/-- The word of a shown pixel is its place. -/
theorem Framebuffer.Fits.place (fits : fb.Fits) (shown : fb.Shown col row) :
    (row * fb.stride + col).toNat = row.toNat * fb.stride.toNat + col.toNat := by
  have wide := UInt32.lt_iff_toNat_lt.mp (UInt32.lt_of_lt_of_le shown.1 fits.rows)
  have last : (row.toNat + 1) * fb.stride.toNat ≤ 2 ^ 32 :=
    (Nat.mul_le_mul_right _ (UInt32.lt_iff_toNat_lt.mp shown.2)).trans fits.words
  rw [Nat.add_mul, Nat.one_mul] at last
  rw [UInt32.toNat_add, UInt32.toNat_mul,
    Nat.mod_eq_of_lt (show row.toNat * fb.stride.toNat < 2 ^ 32 by omega)]
  exact Nat.mod_eq_of_lt (by omega)

/-- Setting a pixel changes it and no other that is shown. -/
theorem pixel_putPixel (fits : fb.Fits) (shown : fb.Shown col row) (x y : UInt32) (color : Color) :
    (framebufferPutPixel fb x y color).pixel col row =
      if (col, row) = (x, y) then color else fb.pixel col row := by
  unfold framebufferPutPixel
  rw [if_neg (by rw [fits.mapped]; exact Bool.noConfusion)]
  by_cases outside : fb.width ≤ x ∨ fb.height ≤ y
  · rw [if_pos outside, if_neg]
    intro same
    obtain ⟨rfl, rfl⟩ := Prod.mk.inj same
    rcases outside with right | below
    · exact UInt32.not_le.mpr shown.1 right
    · exact UInt32.not_le.mpr shown.2 below
  · rw [if_neg outside]
    rw [not_or, UInt32.not_le, UInt32.not_le] at outside
    by_cases same : (col, row) = (x, y)
    · rw [if_pos same]
      obtain ⟨rfl, rfl⟩ := Prod.mk.inj same
      exact Function.update_self _ _ _
    · rw [if_neg same]
      apply Function.update_of_ne
      intro word
      apply same
      have places := (fits.place shown).symm.trans
        ((congrArg UInt32.toNat word).trans (fits.place outside))
      obtain ⟨rows, cols⟩ := place_inj
        (UInt32.lt_iff_toNat_lt.mp (UInt32.lt_of_lt_of_le shown.1 fits.rows))
        (UInt32.lt_iff_toNat_lt.mp (UInt32.lt_of_lt_of_le outside.1 fits.rows)) places
      rw [UInt32.toNat_inj.mp rows, UInt32.toNat_inj.mp cols]

theorem pixel_putPoint (fits : fb.Fits) (shown : fb.Shown col row) (x y : ℕ) (color : Color) :
    (putPoint fb x y color).pixel col row =
      if (col.toNat, row.toNat) = (x, y) then color else fb.pixel col row := by
  unfold putPoint
  by_cases words : x < 2 ^ 32 ∧ y < 2 ^ 32
  · rw [if_pos words, pixel_putPixel fits shown]
    refine if_congr ?_ rfl rfl
    rw [Prod.mk.injEq, Prod.mk.injEq, ← UInt32.toNat_inj, ← UInt32.toNat_inj,
      UInt32.toNat_ofNat_of_lt' words.1, UInt32.toNat_ofNat_of_lt' words.2]
  · rw [if_neg words, if_neg]
    intro same
    obtain ⟨rfl, rfl⟩ := Prod.mk.inj same
    exact words ⟨col.toNat_lt, row.toNat_lt⟩

/-- Of points that are set one after the other, each shown one has its colour. -/
theorem pixel_foldl_putPoint (fits : fb.Fits) (shown : fb.Shown col row)
    (paint : ℕ × ℕ → Color) (points : List (ℕ × ℕ)) :
    (points.foldl (fun fb point => putPoint fb point.1 point.2 (paint point)) fb).pixel col row =
      if (col.toNat, row.toNat) ∈ points then paint (col.toNat, row.toNat)
      else fb.pixel col row := by
  induction points generalizing fb with
  | nil => exact (if_neg List.not_mem_nil).symm
  | cons point points ih =>
      have first := painted_putPoint fb point.1 point.2 (paint point)
      rw [List.foldl_cons, ih (first.fits fits) (first.shown shown)]
      rw [pixel_putPoint fits shown]
      by_cases later : (col.toNat, row.toNat) ∈ points
      · rw [if_pos later, if_pos (List.mem_cons_of_mem _ later)]
      · rw [if_neg later]
        by_cases here : (col.toNat, row.toNat) = point
        · rw [if_pos here, if_pos (here ▸ List.mem_cons_self), here]
        · rw [if_neg here, if_neg]
          intro member
          rcases List.mem_cons.mp member with same | member
          · exact here same
          · exact later member

/-- The points of a rectangle, row by row. -/
def rectPoints (x y width height : UInt32) : List (ℕ × ℕ) :=
  (List.range' y.toNat height.toNat).flatMap fun row =>
    (List.range' x.toNat width.toNat).map fun col => (col, row)

theorem mem_rectPoints {x y width height : UInt32} {col row : ℕ} :
    (col, row) ∈ rectPoints x y width height ↔
      (x.toNat ≤ col ∧ col < x.toNat + width.toNat) ∧
        y.toNat ≤ row ∧ row < y.toNat + height.toNat := by
  unfold rectPoints
  rw [List.mem_flatMap]
  simp only [List.mem_map, List.mem_range'_1, Prod.mk.injEq]
  constructor
  · intro ⟨_, down, _, across, left, top⟩
    subst left top
    exact ⟨across, down⟩
  · intro ⟨across, down⟩
    exact ⟨row, down, col, across, rfl, rfl⟩

theorem putRect_eq_foldl (fb : Framebuffer Color) (paint : ℕ → ℕ → Color)
    (x y width height : UInt32) : putRect fb paint x y width height =
      (rectPoints x y width height).foldl
        (fun fb point => putPoint fb point.1 point.2 (paint point.1 point.2)) fb := by
  unfold putRect putPoints rectPoints
  rw [List.foldl_flatMap]
  simp only [List.foldl_map]

/-- **A rectangle that is drawn by points** gives each shown one in it its colour. -/
theorem pixel_putRect (fits : fb.Fits) (shown : fb.Shown col row) (paint : ℕ → ℕ → Color)
    (x y width height : UInt32) :
    (putRect fb paint x y width height).pixel col row =
      if wmPointInRect ⟨x, y, width, height⟩ col row then paint col.toNat row.toNat
      else fb.pixel col row := by
  rw [putRect_eq_foldl, pixel_foldl_putPoint fits shown (fun point => paint point.1 point.2)]
  refine if_congr ?_ rfl rfl
  rw [pointInRect_iff]
  exact mem_rectPoints

end Points

/-! ## The pattern -/

section Pattern

variable {fb : Framebuffer UInt32} {col row : UInt32}

/-- The points of a loop, as numbers. -/
def whitePoints (points : UInt32 → List (UInt32 × UInt32)) (rounds : UInt32) : List (ℕ × ℕ) :=
  (List.range rounds.toNat).flatMap fun i =>
    (points (UInt32.ofNat i)).map fun point => (point.1.toNat, point.2.toNat)

theorem drawWhite_eq (points : UInt32 → List (UInt32 × UInt32)) (rounds : UInt32)
    (fb : Framebuffer UInt32) : drawWhite points rounds fb =
      (whitePoints points rounds).foldl
        (fun fb point => putPoint fb point.1 point.2 0x00ffffff) fb := by
  have one (fb : Framebuffer UInt32) (point : UInt32 × UInt32) :
      framebufferPutPixel fb point.1 point.2 0x00ffffff =
        putPoint fb point.1.toNat point.2.toNat 0x00ffffff := by
    unfold putPoint
    rw [if_pos ⟨point.1.toNat_lt, point.2.toNat_lt⟩, UInt32.ofNat_toNat, UInt32.ofNat_toNat]
  unfold drawWhite whitePoints
  have loop := @countedLoop_eq_foldl _ (fun i fb => (points i).foldl
    (fun fb point => framebufferPutPixel fb point.1 point.2 0x00ffffff) fb) 0 0 rounds.toNat fb
  rw [List.foldl_flatMap]
  simp only [List.foldl_map, ← one, List.range_eq_range']
  exact loop

theorem painted_drawWhite (points : UInt32 → List (UInt32 × UInt32)) (rounds : UInt32)
    (fb : Framebuffer UInt32) : Painted fb (drawWhite points rounds fb) := by
  rw [drawWhite_eq]
  exact painted_foldl (fun fb (point : ℕ × ℕ) => painted_putPoint fb point.1 point.2 _) fb _

/-- A loop sets the points of its rounds. -/
theorem pixel_drawWhite (fits : fb.Fits) (shown : fb.Shown col row)
    {points : UInt32 → List (UInt32 × UInt32)} {rounds : UInt32} {hit : Prop} [Decidable hit]
    (hits : (∃ i < rounds, (col, row) ∈ points i) ↔ hit) :
    (drawWhite points rounds fb).pixel col row =
      if hit then 0x00ffffff else fb.pixel col row := by
  rw [drawWhite_eq, pixel_foldl_putPoint fits shown (fun _ => 0x00ffffff)]
  refine if_congr ?_ rfl rfl
  rw [← hits]
  unfold whitePoints
  rw [List.mem_flatMap]
  constructor
  · intro ⟨i, below, member⟩
    obtain ⟨point, member, same⟩ := List.mem_map.mp member
    obtain ⟨left, top⟩ := Prod.mk.inj same
    rw [List.mem_range] at below
    refine ⟨UInt32.ofNat i, ?_, ?_⟩
    · rw [UInt32.lt_iff_toNat_lt, UInt32.toNat_ofNat_of_lt' (below.trans rounds.toNat_lt)]
      exact below
    · rw [← UInt32.toNat_inj.mp left, ← UInt32.toNat_inj.mp top]
      exact member
  · intro ⟨i, below, member⟩
    refine ⟨i.toNat, List.mem_range.mpr (UInt32.lt_iff_toNat_lt.mp below), ?_⟩
    rw [UInt32.ofNat_toNat]
    exact List.mem_map.mpr ⟨(col, row), member, rfl⟩

/-- The picture: black and white squares in the middle, where there is room for them, else a white
frame and diagonal, else four fields. -/
def patternColour (width height col row : UInt32) : UInt32 :=
  if wmPointInRect ⟨width / 2 - 4, height / 2 - 4, 8, 8⟩ col row then
    if (col - (width / 2 - 4) + (row - (height / 2 - 4))) % 2 = 0 then 0x00ffffff else 0
  else if col = row ∨ col = 0 ∨ row = 0 ∨ col = width - 1 ∨ row = height - 1 then 0x00ffffff
  else if row < height / 2 then if col < width / 2 then 0x00e53935 else 0x0043a047
  else if col < width / 2 then 0x001e88e5 else 0x00fdd835

/-- A place before the last one lies in one of two halves. -/
theorem halves {place length : UInt32} (shown : place < length) (notLast : place ≠ length - 1) :
    (length / 2).toNat = length.toNat / 2 ∧ place.toNat < length.toNat / 2 + length.toNat / 2 := by
  have half : (length / 2).toNat = length.toNat / 2 := UInt32.toNat_div length 2
  have one : (1 : UInt32).toNat = 1 := rfl
  have inside := UInt32.lt_iff_toNat_lt.mp shown
  have last : (length - 1).toNat = length.toNat - 1 := by
    rw [UInt32.toNat_sub_of_le _ _ (by rw [UInt32.le_iff_toNat_le]; omega), one]
  have apart : place.toNat ≠ length.toNat - 1 := fun same =>
    notLast (UInt32.toNat_inj.mp (same.trans last.symm))
  exact ⟨half, by omega⟩

/-- The field that a pixel off the frame lies in. -/
theorem pixel_drawFields (fits : fb.Fits) (shown : fb.Shown col row)
    (right : col ≠ fb.width - 1) (bottom : row ≠ fb.height - 1) :
    (drawFields fb).pixel col row =
      if row < fb.height / 2 then if col < fb.width / 2 then 0x00e53935 else 0x0043a047
      else if col < fb.width / 2 then 0x001e88e5 else 0x00fdd835 := by
  obtain ⟨halfWidth, across⟩ := halves shown.1 right
  obtain ⟨halfHeight, down⟩ := halves shown.2 bottom
  have zero : (0 : UInt32).toNat = 0 := rfl
  have first := painted_rect 0x00101010 fb ⟨0, 0, fb.width, fb.height⟩
  have second := first.trans (painted_rect 0x00e53935 _
    ⟨0, 0, fb.width / 2, fb.height / 2⟩)
  have third := second.trans (painted_rect 0x0043a047 _
    ⟨fb.width / 2, 0, fb.width / 2, fb.height / 2⟩)
  have fourth := third.trans (painted_rect 0x001e88e5 _
    ⟨0, fb.height / 2, fb.width / 2, fb.height / 2⟩)
  refine (pixel_fillRect (fourth.fits fits) (fourth.shown shown) 0x00fdd835
    ⟨fb.width / 2, fb.height / 2, fb.width / 2, fb.height / 2⟩).trans ?_
  rw [pixel_fillRect (third.fits fits) (third.shown shown),
    pixel_fillRect (second.fits fits) (second.shown shown),
    pixel_fillRect (first.fits fits) (first.shown shown)]
  simp only [pointInRect_iff, UInt32.lt_iff_toNat_lt, halfWidth, halfHeight, zero]
  by_cases top : row.toNat < fb.height.toNat / 2
  · by_cases left : col.toNat < fb.width.toNat / 2
    · rw [if_neg (by omega), if_neg (by omega), if_neg (by omega), if_pos (by omega), if_pos top,
        if_pos left]
    · rw [if_neg (by omega), if_neg (by omega), if_pos (by omega), if_pos top, if_neg left]
  · by_cases left : col.toNat < fb.width.toNat / 2
    · rw [if_neg (by omega), if_pos (by omega), if_neg top, if_pos left]
    · rw [if_pos (by omega), if_neg top, if_neg left]

theorem painted_drawFields (fb : Framebuffer UInt32) : Painted fb (drawFields fb) :=
  ((((painted_fillRect _ fb _ _ _ _).trans (painted_fillRect _ _ _ _ _ _)).trans
    (painted_fillRect _ _ _ _ _ _)).trans (painted_fillRect _ _ _ _ _ _)).trans
      (painted_fillRect _ _ _ _ _ _)

/-- The stamp is made of black and white squares. -/
theorem centerStamp_square {col row : ℕ} (across : col < 8) (down : row < 8) :
    centerStamp.getD (row * 8 + col) 0 = if (col + row) % 2 = 0 then 0x00ffffff else 0 := by
  have squares : ∀ row : Fin 8, ∀ col : Fin 8, centerStamp.getD (row.val * 8 + col.val) 0 =
      if (col.val + row.val) % 2 = 0 then 0x00ffffff else 0 := by decide
  exact squares ⟨row, down⟩ ⟨col, across⟩

/-- Two coordinates in a square of the stamp, as words. -/
theorem stamp_parity {x y : UInt32} (left : x ≤ col) (top : y ≤ row) :
    (col - x + (row - y)) % 2 = 0 ↔ (col.toNat - x.toNat + (row.toNat - y.toNat)) % 2 = 0 := by
  have zero : (0 : UInt32).toNat = 0 := rfl
  have two : (2 : UInt32).toNat = 2 := rfl
  rw [← UInt32.toNat_inj, UInt32.toNat_mod, UInt32.toNat_add, UInt32.toNat_sub_of_le _ _ left,
    UInt32.toNat_sub_of_le _ _ top, zero, two]
  omega

/-- The stamp is drawn where there is room for it. -/
theorem pixel_centerStamp (fits : fb.Fits) (shown : fb.Shown col row) (x y : UInt32) :
    (framebufferBlit fb (some fun place => centerStamp.getD place 0) 8 x y 8 8).pixel col row =
      if wmPointInRect ⟨x, y, 8, 8⟩ col row then
        if (col - x + (row - y)) % 2 = 0 then 0x00ffffff else 0
      else fb.pixel col row := by
  rw [framebufferBlit_eq fb _ (UInt32.le_refl 8) (by decide), pixel_putRect fits shown _ x y 8 8]
  by_cases inside : wmPointInRect ⟨x, y, 8, 8⟩ col row
  · rw [if_pos inside, if_pos inside]
    obtain ⟨_, _, left, top, across, down⟩ := inside
    rw [UInt32.lt_iff_toNat_lt, UInt32.toNat_sub_of_le _ _ left] at across
    rw [UInt32.lt_iff_toNat_lt, UInt32.toNat_sub_of_le _ _ top] at down
    exact (centerStamp_square across down).trans (if_congr (stamp_parity left top).symm rfl rfl)
  · rw [if_neg inside, if_neg inside]

/-- Where the loop along the width draws. -/
theorem hits_rows {width height : UInt32} (inside : col < width) :
    (∃ i < width, (col, row) ∈ [(i, (0 : UInt32)), (i, height - 1)]) ↔
      row = 0 ∨ row = height - 1 := by
  simp only [List.mem_cons, Prod.mk.injEq, List.not_mem_nil, or_false, ← and_or_left]
  constructor
  · exact fun ⟨_, _, _, edge⟩ => edge
  · exact fun edge => ⟨col, inside, rfl, edge⟩

/-- Where the loop along the height draws. -/
theorem hits_cols {width height : UInt32} (inside : row < height) :
    (∃ i < height, (col, row) ∈ [((0 : UInt32), i), (width - 1, i)]) ↔
      col = 0 ∨ col = width - 1 := by
  simp only [List.mem_cons, Prod.mk.injEq, List.not_mem_nil, or_false, ← or_and_right]
  constructor
  · exact fun ⟨_, _, edge, _⟩ => edge
  · exact fun edge => ⟨row, inside, edge, rfl⟩

/-- Where the loop along both draws. -/
theorem hits_diagonal {width height : UInt32} (across : col < width) (down : row < height) :
    (∃ i < minU32 height width, (col, row) ∈ [(i, i)]) ↔ col = row := by
  simp only [List.mem_singleton, Prod.mk.injEq]
  constructor
  · exact fun ⟨_, _, left, top⟩ => left.trans top.symm
  · intro same
    refine ⟨col, ?_, rfl, same.symm⟩
    unfold minU32
    split
    · exact same ▸ down
    · exact across

/-- The picture in the order in which it is painted, the last layer first. -/
theorem patternColour_layers (width height : UInt32) :
    patternColour width height col row =
      if wmPointInRect ⟨width / 2 - 4, height / 2 - 4, 8, 8⟩ col row then
        if (col - (width / 2 - 4) + (row - (height / 2 - 4))) % 2 = 0 then 0x00ffffff else 0
      else if col = row then 0x00ffffff
      else if col = 0 ∨ col = width - 1 then 0x00ffffff
      else if row = 0 ∨ row = height - 1 then 0x00ffffff
      else if row < height / 2 then if col < width / 2 then 0x00e53935 else 0x0043a047
      else if col < width / 2 then 0x001e88e5 else 0x00fdd835 := by
  unfold patternColour
  apply if_congr Iff.rfl rfl
  by_cases line : col = row
  · rw [if_pos (.inl line), if_pos line]
  rw [if_neg line]
  by_cases side : col = 0 ∨ col = width - 1
  · rw [if_pos side, if_pos]
    rcases side with left | right
    · exact .inr (.inl left)
    · exact .inr (.inr (.inr (.inl right)))
  rw [if_neg side]
  by_cases edge : row = 0 ∨ row = height - 1
  · rw [if_pos edge, if_pos]
    rcases edge with top | bottom
    · exact .inr (.inr (.inl top))
    · exact .inr (.inr (.inr (.inr bottom)))
  rw [if_neg edge, if_neg]
  rw [not_or] at side edge
  rw [not_or, not_or, not_or, not_or]
  exact ⟨line, side.1, edge.1, side.2, edge.2⟩

/-- **The picture of the test pattern**, pixel by pixel. -/
theorem testPattern_pixel (fits : fb.Fits) (shown : fb.Shown col row) :
    (framebufferRenderTestPattern fb).2.pixel col row =
      patternColour fb.width fb.height col row := by
  -- every step paints over the ones before
  have fields := painted_drawFields fb
  have top := pixel_drawWhite (fields.fits fits) (fields.shown shown)
    (@hits_rows _ _ _ fb.height shown.1)
  have framed :=
    fields.trans (painted_drawWhite (fun i => [(i, 0), (i, fb.height - 1)]) fb.width _)
  have sides := pixel_drawWhite (framed.fits fits) (framed.shown shown)
    (@hits_cols _ _ fb.width _ shown.2)
  have bounded :=
    framed.trans (painted_drawWhite (fun i => [(0, i), (fb.width - 1, i)]) fb.height _)
  have across := pixel_drawWhite (bounded.fits fits) (bounded.shown shown)
    (hits_diagonal shown.1 shown.2)
  have lined :=
    bounded.trans (painted_drawWhite (fun i => [(i, i)]) (minU32 fb.height fb.width) _)
  have stamp := pixel_centerStamp (lined.fits fits) (lined.shown shown) (fb.width / 2 - 4)
    (fb.height / 2 - 4)
  have drawn : (framebufferRenderTestPattern fb).2 = _ :=
    congrArg Prod.snd (if_neg (by rw [fits.mapped]; exact Bool.noConfusion))
  rw [drawn]
  unfold drawTestPattern
  simp only [fields.shape.2.1, fields.shape.2.2.1, framed.shape.2.1, framed.shape.2.2.1,
    bounded.shape.2.1, bounded.shape.2.2.1, lined.shape.2.1, lined.shape.2.2.1]
  rw [stamp, across, sides, top, patternColour_layers]
  -- only off the frame is a pixel of a field seen
  apply if_congr Iff.rfl rfl
  apply if_congr Iff.rfl rfl
  by_cases side : col = 0 ∨ col = fb.width - 1
  · rw [if_pos side, if_pos side]
  rw [if_neg side, if_neg side]
  by_cases edge : row = 0 ∨ row = fb.height - 1
  · rw [if_pos edge, if_pos edge]
  rw [if_neg edge, if_neg edge]
  exact pixel_drawFields fits shown (not_or.mp side).2 (not_or.mp edge).2

/-- A square of the stamp, at boot. -/
theorem testPattern_pixel_stamp :
    (framebufferRenderTestPattern framebufferInit).2.pixel 157 96 = 0 :=
  (testPattern_pixel framebufferInit_fits ⟨by decide, by decide⟩).trans (by decide)

end Pattern

end TigerOS.Gfx
