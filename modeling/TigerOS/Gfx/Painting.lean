import TigerOS.Gfx.Drawing

/-! # Painting

Drawing sets shown pixels and leaves the rest of a framebuffer as it is. Whatever is drawn step by
step from the primitives is therefore drawn on shown pixels alone, and on a framebuffer of the same
shape.
-/

namespace TigerOS.Gfx

variable {Color : Type} {fb fb' : Framebuffer Color}

/-- A word that is the pixel of a shown point. -/
def ShownWord (fb : Framebuffer Color) (index : UInt32) : Prop :=
  ∃ col row, ShownPoint fb col row ∧ UInt32.ofNat row * fb.stride + UInt32.ofNat col = index

/-- A framebuffer after something was drawn on it: the words that are not shown are as before. -/
def Painted (fb fb' : Framebuffer Color) : Prop :=
  ∃ pixels, fb' = { fb with pixels := pixels } ∧
    ∀ index, ¬ ShownWord fb index → pixels index = fb.pixels index

/-! ## The shape -/

theorem Painted.refl (fb : Framebuffer Color) : Painted fb fb := ⟨fb.pixels, rfl, fun _ _ => rfl⟩

theorem Painted.trans {fb'' : Framebuffer Color} (first : Painted fb fb')
    (second : Painted fb' fb'') : Painted fb fb'' := by
  obtain ⟨pixels, rfl, hidden⟩ := first
  obtain ⟨pixels', rfl, hidden'⟩ := second
  exact ⟨pixels', rfl, fun index apart => (hidden' index apart).trans (hidden index apart)⟩

/-- What is drawn on keeps its shape. -/
theorem Painted.shape (painted : Painted fb fb') : fb'.mapped = fb.mapped ∧
    fb'.width = fb.width ∧ fb'.height = fb.height ∧ fb'.stride = fb.stride := by
  obtain ⟨_, rfl, _⟩ := painted
  exact ⟨rfl, rfl, rfl, rfl⟩

theorem Painted.fits (painted : Painted fb fb') (fits : fb.Fits) : fb'.Fits := by
  obtain ⟨pixels, rfl, _⟩ := painted
  exact ⟨fits.mapped, fits.rows, fits.words⟩

theorem Painted.shown {x y : UInt32} (painted : Painted fb fb') (shown : fb.Shown x y) :
    fb'.Shown x y := by
  obtain ⟨pixels, rfl, _⟩ := painted
  exact shown

/-! ## The primitives -/

theorem painted_putPoint (fb : Framebuffer Color) (x y : ℕ) (color : Color) :
    Painted fb (putPoint fb x y color) := by
  have put := @putPoint_eq _ fb fb.pixels x y color
  refine ⟨putAt fb x y color fb.pixels, put, ?_⟩
  intro index apart
  unfold putAt
  by_cases shown : ShownPoint fb x y
  · rw [if_pos shown]
    apply Function.update_of_ne
    intro same
    exact apart ⟨x, y, shown, same.symm⟩
  · rw [if_neg shown]

/-- Steps that draw draw together. -/
theorem painted_foldl {Step : Type} {draw : Framebuffer Color → Step → Framebuffer Color}
    (draws : ∀ fb step, Painted fb (draw fb step)) (fb : Framebuffer Color) (steps : List Step) :
    Painted fb (steps.foldl draw fb) := by
  induction steps generalizing fb with
  | nil => exact .refl fb
  | cons step steps ih => exact (draws fb step).trans (ih (draw fb step))

theorem painted_putPoints (fb : Framebuffer Color) (paint : ℕ → ℕ → Color) (cols rows : List ℕ) :
    Painted fb (putPoints fb paint cols rows) :=
  painted_foldl (fun fb row =>
    painted_foldl (fun fb col => painted_putPoint fb col row (paint col row)) fb cols) fb rows

theorem painted_fillRect (color : Color) (fb : Framebuffer Color) (x y width height : UInt32) :
    Painted fb (framebufferFillRect color fb x y width height) := by
  rw [framebufferFillRect_eq]
  exact painted_putPoints fb _ _ _

theorem painted_putPixel (fb : Framebuffer Color) (x y : UInt32) (color : Color) :
    Painted fb (framebufferPutPixel fb x y color) := by
  have point : framebufferPutPixel fb x y color = putPoint fb x.toNat y.toNat color := by
    unfold putPoint
    rw [if_pos ⟨x.toNat_lt, y.toNat_lt⟩, UInt32.ofNat_toNat, UInt32.ofNat_toNat]
  rw [point]
  exact painted_putPoint fb _ _ color

theorem painted_blit (fb : Framebuffer Color) (src : Option (ℕ → Color))
    (srcStride x y width height : UInt32) :
    Painted fb (framebufferBlit fb src srcStride x y width height) := by
  cases src with
  | none => exact .refl fb
  | some src =>
      by_cases wide : width ≤ srcStride
      · rw [framebufferBlit_words fb src wide]
        exact painted_putPoints fb _ _ _
      · rw [framebufferBlit_narrow fb src (UInt32.not_le.mp wide)]
        exact .refl fb

end TigerOS.Gfx
