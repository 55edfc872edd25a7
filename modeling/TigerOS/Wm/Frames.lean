import TigerOS.Gfx.TestPattern

/-! # The screen forgets

Whatever was drawn before, a rendered scene and its marker are those that a fresh framebuffer would
show, and so is the test pattern (`TigerOS.Wm.screen_forgets`): drawing never leaves the shown
pixels, and both begin with all of them.
-/

namespace TigerOS.Wm

open Foundation TigerOS.Gfx

variable {Color Window : Type} {fb fb' : Framebuffer Color}

/-! ## Drawing on shown pixels -/

section Painted

theorem painted_render (windows : Window → WmWindow) (scene : WmScene Window)
    (fb : Framebuffer UInt32) : Painted fb (wmCompositorRender windows scene fb).2 := by
  unfold wmCompositorRender
  split
  · exact .refl fb
  · have drawn : Painted fb (renderScene windows scene (fun _ color => color) fb) :=
      (painted_fillRect _ fb _ _ _ _).trans
        (painted_foldl (fun fb window => painted_draw _ fb (windows window)) _ scene.layers)
    simp only
    cases mulU32Overflow _ _ with
    | none => exact drawn
    | some pixelCount => exact drawn

theorem painted_testPattern (fb : Framebuffer UInt32) :
    Painted fb (framebufferRenderTestPattern fb).2 := by
  unfold framebufferRenderTestPattern
  split
  · exact .refl fb
  · unfold drawTestPattern
    dsimp only
    apply Painted.trans _ (painted_blit _ _ _ _ _ _ _)
    apply Painted.trans _ (painted_drawWhite _ _ _)
    apply Painted.trans _ (painted_drawWhite _ _ _)
    apply Painted.trans _ (painted_drawWhite _ _ _)
    exact painted_drawFields fb

end Painted

/-! ## Painting over everything -/

section Ground

theorem putPoint_keeps {color : Color} {index : UInt32} (fb : Framebuffer Color) (col row : ℕ)
    (has : fb.pixels index = color) : (putPoint fb col row color).pixels index = color := by
  have put : putPoint fb col row color = _ := @putPoint_eq _ fb fb.pixels col row color
  rw [put]
  unfold putAt
  by_cases shown : ShownPoint fb col row
  · rw [if_pos shown]
    change Function.update fb.pixels _ color index = color
    rw [Function.update_apply]
    split
    · rfl
    · exact has
  · rw [if_neg shown]
    exact has

/-- A word has the colour that its point is set to, if all points are set to the same. -/
theorem foldl_putPoint_word (color : Color) {points : List (ℕ × ℕ)} {index : UInt32}
    (hit : ∃ point ∈ points, ShownPoint fb point.1 point.2 ∧
      UInt32.ofNat point.2 * fb.stride + UInt32.ofNat point.1 = index) :
    (points.foldl (fun fb point => putPoint fb point.1 point.2 color) fb).pixels index = color := by
  induction points generalizing fb with
  | nil =>
      obtain ⟨point, member, _⟩ := hit
      exact absurd member List.not_mem_nil
  | cons first points ih =>
      have put : putPoint fb first.1 first.2 color = _ :=
        @putPoint_eq _ fb fb.pixels first.1 first.2 color
      obtain ⟨point, member, shown, word⟩ := hit
      rcases List.mem_cons.mp member with rfl | later
      · rw [List.foldl_cons]
        have first : (putPoint fb point.1 point.2 color).pixels index = color := by
          rw [put]
          unfold putAt
          rw [if_pos shown, word]
          exact Function.update_self _ _ _
        exact @foldl_keeps _ _ _ (fun fb : Framebuffer Color => fb.pixels index = color) points
          (fun point _ fb has => putPoint_keeps fb point.1 point.2 has) _ first
      · rw [List.foldl_cons]
        apply ih
        rw [put]
        exact ⟨point, later, shown, word⟩

/-- Filling a framebuffer leaves nothing of what was drawn on it. -/
theorem fillRect_forgets (painted : Painted fb fb') (color : Color) :
    framebufferFillRect color fb' 0 0 fb'.width fb'.height =
      framebufferFillRect color fb 0 0 fb.width fb.height := by
  obtain ⟨pixels, rfl, hidden⟩ := painted
  obtain ⟨after, here, kept⟩ := painted_fillRect color fb 0 0 fb.width fb.height
  obtain ⟨after', there, kept'⟩ :=
    painted_fillRect color { fb with pixels := pixels } 0 0 fb.width fb.height
  have filled (before : UInt32 → Color) (index : UInt32) (shown : ShownWord fb index) :
      (framebufferFillRect color { fb with pixels := before } 0 0 fb.width fb.height).pixels
        index = color := by
    obtain ⟨col, row, point, word⟩ := shown
    rw [framebufferFillRect_eq, putRect_eq_foldl]
    apply foldl_putPoint_word
    refine ⟨(col, row), mem_rectPoints.mpr ⟨⟨Nat.zero_le _, ?_⟩, Nat.zero_le _, ?_⟩, point, word⟩
    · exact point.2.1.trans_eq (Nat.zero_add _).symm
    · exact point.2.2.trans_eq (Nat.zero_add _).symm
  change framebufferFillRect color { fb with pixels := pixels } 0 0 fb.width fb.height = _
  rw [here, there]
  have same : after' = after := by
    funext index
    by_cases shown : ShownWord fb index
    · have first := filled fb.pixels index shown
      have second := filled pixels index shown
      rw [there] at second
      rw [show ({ fb with pixels := fb.pixels } : Framebuffer Color) = fb from rfl, here] at first
      exact second.trans first.symm
    · exact (kept' index shown).trans ((hidden index shown).trans (kept index shown).symm)
  rw [same]

/-- Where nothing is shown, nothing can be drawn. -/
theorem eq_of_hidden (painted : Painted fb fb') (none_ : ∀ index, ¬ ShownWord fb index) :
    fb' = fb := by
  obtain ⟨pixels, rfl, hidden⟩ := painted
  rw [funext fun index => hidden index (none_ index)]

theorem renderScene_forgets (painted : Painted fb fb') (windows : Window → WmWindow)
    (scene : WmScene Window) (brush : Option Window → UInt32 → Color) :
    renderScene windows scene brush fb' = renderScene windows scene brush fb := by
  unfold renderScene
  rw [fillRect_forgets painted]

theorem drawTestPattern_forgets {fb fb' : Framebuffer UInt32} (painted : Painted fb fb') :
    drawTestPattern fb' = drawTestPattern fb := by
  have ground := fillRect_forgets painted 0x00101010
  have fields : drawFields fb' = drawFields fb := by
    unfold drawFields
    dsimp only
    rw [ground]
    obtain ⟨pixels, rfl, _⟩ := painted
    rfl
  unfold drawTestPattern
  rw [fields]

end Ground

/-! ## The machine of drawings -/

/-- The calls that draw. -/
inductive DrawOp (Window : Type) where
  | fillRect (x y width height color : UInt32)
  | putPixel (x y color : UInt32)
  | blit (src : Option (ℕ → UInt32)) (srcStride x y width height : UInt32)
  | testPattern
  | render (windows : Window → WmWindow) (scene : WmScene Window)

/-- The markers are the answers of the calls that have one. -/
def drawStep (fb : Framebuffer UInt32) : DrawOp Window → Option UInt32 × Framebuffer UInt32
  | .fillRect x y width height color => (none, framebufferFillRect color fb x y width height)
  | .putPixel x y color => (none, framebufferPutPixel fb x y color)
  | .blit src srcStride x y width height =>
      (none, framebufferBlit fb src srcStride x y width height)
  | .testPattern => (framebufferRenderTestPattern fb).map some id
  | .render windows scene => (wmCompositorRender windows scene fb).map some id

/-- Drawing as a machine answering calls. -/
def drawings : Machine (Framebuffer UInt32) (DrawOp Window) (Option UInt32) := ⟨drawStep⟩

section Drawings

variable {fb fb' : Framebuffer UInt32}

theorem painted_step (fb : Framebuffer UInt32) (op : DrawOp Window) :
    Painted fb (drawings.step fb op).2 := by
  cases op with
  | fillRect x y width height color => exact painted_fillRect color fb x y width height
  | putPixel x y color => exact painted_putPixel fb x y color
  | blit src srcStride x y width height => exact painted_blit fb src srcStride x y width height
  | testPattern => exact painted_testPattern fb
  | render windows scene => exact painted_render windows scene fb

theorem painted_run (fb : Framebuffer UInt32) (drawn : List (DrawOp Window)) :
    Painted fb (drawings.state fb drawn) :=
  Machine.state_invariant (fun _ op painted => painted.trans (painted_step _ op)) (.refl fb) drawn

/-- Without a framebuffer, columns or rows nothing is shown. -/
theorem hidden_of_empty (empty : fb.mapped = false ∨ fb.width = 0 ∨ fb.height = 0)
    (index : UInt32) : ¬ ShownWord fb index := by
  rintro ⟨col, row, ⟨mapped, across, down⟩, _⟩
  have zero : (0 : UInt32).toNat = 0 := rfl
  rcases empty with unmapped | narrow | low
  · exact Bool.false_ne_true (unmapped.symm.trans mapped)
  · rw [narrow, zero] at across
    exact Nat.not_lt_zero _ across
  · rw [low, zero] at down
    exact Nat.not_lt_zero _ down

/-- **The screen forgets.** A rendered scene, the test pattern and their markers are the same
whatever was drawn before. -/
theorem screen_forgets (fb : Framebuffer UInt32) (rows : fb.width ≤ fb.stride)
    (drawn : List (DrawOp Window)) :
    (∀ (windows : Window → WmWindow) (scene : WmScene Window),
      wmCompositorRender windows scene (drawings.state fb drawn) =
        wmCompositorRender windows scene fb) ∧
      framebufferRenderTestPattern (drawings.state fb drawn) = framebufferRenderTestPattern fb := by
  have painted := painted_run fb drawn
  generalize drawings.state fb drawn = fb' at painted
  by_cases empty : fb.mapped = false ∨ fb.width = 0 ∨ fb.height = 0
  · rw [eq_of_hidden painted (hidden_of_empty empty)]
    exact ⟨fun _ _ => rfl, rfl⟩
  have shape := painted.shape
  have draws : ¬ (fb.mapped = false ∨ fb.width = 0 ∨ fb.height = 0 ∨ fb.stride < fb.width) := by
    rintro (unmapped | narrow | low | short)
    · exact empty (.inl unmapped)
    · exact empty (.inr (.inl narrow))
    · exact empty (.inr (.inr low))
    · exact UInt32.not_lt.mpr rows short
  refine ⟨fun windows scene => ?_, ?_⟩
  · unfold wmCompositorRender
    rw [shape.1, shape.2.1, shape.2.2.1, shape.2.2.2, renderScene_forgets painted, if_neg draws,
      if_neg draws]
  · unfold framebufferRenderTestPattern
    rw [shape.1, drawTestPattern_forgets painted, if_neg fun unmapped => empty (.inl unmapped),
      if_neg fun unmapped => empty (.inl unmapped)]

/-- The scene of boot after the test pattern, another scene, and a rectangle, a pixel and a picture
over both, and the test pattern after them. -/
theorem screen_forgets_boot :
    let back : Unit → WmWindow := fun _ => wmWindowInit none 48 40 220 160
    let windows : Unit → WmWindow := fun _ => wmWindowInit none 32 20 220 140
    let scene : WmScene Unit := ⟨0x00161c26, [()], some ()⟩
    let drawn : List (DrawOp Unit) :=
      [.testPattern, .render back ⟨0x0012181f, [()], some ()⟩, .fillRect 10 10 300 5 0x00e53935,
        .putPixel 319 199 0x00ffffff, .blit (some fun _ => 7) 16 312 192 16 16]
    framebufferInit.width ≤ framebufferInit.stride ∧
      wmCompositorRender windows scene (drawings.state framebufferInit drawn) =
        wmCompositorRender windows scene framebufferInit ∧
      framebufferRenderTestPattern (drawings.state framebufferInit drawn) =
        framebufferRenderTestPattern framebufferInit := by
  intro back windows scene drawn
  have forgets := screen_forgets framebufferInit (by decide) drawn
  exact ⟨by decide, forgets.1 windows scene, forgets.2⟩

end Drawings

end TigerOS.Wm
