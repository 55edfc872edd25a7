import TigerOS.Gfx.Painting
import TigerOS.Wm.Geometry
import TigerOS.Wm.Stack

/-! # What is painted is what is clicked

Drawing a window gives each shown pixel the last of its colours there
(`TigerOS.Wm.draw_pixel`), and rendering leaves each pixel to the front-most window
that paints it (`TigerOS.Wm.render_pixel`). That is the window a click finds as long
as windows paint inside their frames, which they do but for accents whose corner
starts again at the other end of the framebuffer (`TigerOS.Wm.shows_hits_iff`).
-/

namespace TigerOS.Wm

open Foundation TigerOS.Gfx

variable {Color Window : Type} {fb fb' : Framebuffer Color}
  {window : WmWindow} {x y : UInt32} {brush : UInt32 → Color}

/-! ## Drawing a window -/

/-- The colour a window gives to a pixel, if any: of its rectangles there the one drawn
last. -/
def windowColour (window : WmWindow) (x y : UInt32) : Option UInt32 :=
  if ¬ window.IsValid then none
  else if window.HasAccent ∧ wmPointInRect window.accentRect x y then some window.accentColor
  else if wmPointInRect window.contentRect x y then some window.style.contentColor
  else if wmPointInRect window.titleBarRect x y then some window.style.titleBarColor
  else if wmPointInRect window.frame x y then some window.style.borderColor
  else none

section Draw

theorem painted_rect (color : Color) (fb : Framebuffer Color) (rect : WmRect) :
    Painted fb (fillRect color fb rect) := painted_fillRect color fb _ _ _ _

/-- A rectangle filled where a condition on it holds, which it does where it is not
empty. -/
theorem painted_ite {condition : Prop} [Decidable condition] (color : Color)
    (fb : Framebuffer Color) (rect : WmRect) :
    Painted fb (if condition then fillRect color fb rect else fb) := by
  split
  · exact painted_rect color fb rect
  · exact .refl fb

theorem pixel_fillRect (fits : fb.Fits) (shown : fb.Shown x y) (color : Color) (rect : WmRect) :
    (fillRect color fb rect).pixel x y =
      if wmPointInRect rect x y then color else fb.pixel x y :=
  fits.pixel_fillRect rect.x rect.y rect.width rect.height shown

theorem pixel_solid (fits : fb.Fits) (shown : fb.Shown x y) (color : Color) (rect : WmRect) :
    (if rect.width ≠ 0 ∧ rect.height ≠ 0 then fillRect color fb rect else fb).pixel x y =
      if wmPointInRect rect x y then color else fb.pixel x y := by
  by_cases solid : rect.width ≠ 0 ∧ rect.height ≠ 0
  · rw [if_pos solid]
    exact pixel_fillRect fits shown color rect
  · rw [if_neg solid, if_neg]
    exact fun inside => solid ⟨inside.1, inside.2.1⟩

theorem painted_draw (brush : UInt32 → Color) (fb : Framebuffer Color) (window : WmWindow) :
    Painted fb (wmDrawWindow brush fb window) := by
  unfold wmDrawWindow
  split
  · exact .refl fb
  · exact (((painted_rect _ _ _).trans (painted_ite _ _ _)).trans
      (painted_ite _ _ _)).trans (painted_ite _ _ _)

/-- **A drawn window** gives a shown pixel its colour there, or leaves it. -/
theorem draw_pixel (fits : fb.Fits) (shown : fb.Shown x y) (brush : UInt32 → Color)
    (window : WmWindow) : (wmDrawWindow brush fb window).pixel x y =
      ((windowColour window x y).map brush).getD (fb.pixel x y) := by
  unfold wmDrawWindow windowColour
  by_cases valid : window.IsValid
  · rw [if_neg (not_not.mpr valid), if_neg (not_not.mpr valid)]
    have first := painted_rect (brush window.style.borderColor) fb window.frame
    have second := first.trans (@painted_ite _ (window.titleBarRect.width ≠ 0 ∧
      window.titleBarRect.height ≠ 0) _ (brush window.style.titleBarColor) _ window.titleBarRect)
    have third := second.trans (@painted_ite _ (window.contentRect.width ≠ 0 ∧
      window.contentRect.height ≠ 0) _ (brush window.style.contentColor) _ window.contentRect)
    have inner := (pixel_solid (second.fits fits) (second.shown shown)
      (brush window.style.contentColor) window.contentRect).trans (if_congr Iff.rfl rfl
        ((pixel_solid (first.fits fits) (first.shown shown) (brush window.style.titleBarColor)
          window.titleBarRect).trans (if_congr Iff.rfl rfl
            (pixel_fillRect fits shown (brush window.style.borderColor) window.frame))))
    by_cases accent : window.HasAccent
    · have outer := (pixel_fillRect (third.fits fits) (third.shown shown)
        (brush window.accentColor) window.accentRect).trans (if_congr Iff.rfl rfl inner)
      simp only [accent, true_and, ↓reduceIte]
      rw [outer]
      split
      · rfl
      split
      · rfl
      split
      · rfl
      split <;> rfl
    · simp only [accent, false_and, ↓reduceIte]
      rw [inner]
      split
      · rfl
      split
      · rfl
      split <;> rfl
  · rw [if_pos valid, if_pos valid]
    rfl

end Draw

/-! ## Rendering -/

section Render

variable {windows : Window → WmWindow} {scene : WmScene Window}

theorem draws_pixel (fits : fb.Fits) (shown : fb.Shown x y) (windows : Window → WmWindow)
    (brush : Option Window → UInt32 → Color) (layers : List Window) :
    (layers.foldl (fun fb window => wmDrawWindow (brush (some window)) fb (windows window))
        fb).pixel x y =
      (layers.reverse.findSome? fun window =>
        (windowColour (windows window) x y).map (brush (some window))).getD (fb.pixel x y) := by
  induction layers generalizing fb with
  | nil => rfl
  | cons window layers ih =>
      have drawn := painted_draw (brush (some window)) fb (windows window)
      rw [List.foldl_cons, ih (drawn.fits fits) (drawn.shown shown), draw_pixel fits shown,
        List.reverse_cons, List.findSome?_append, List.findSome?_singleton]
      cases layers.reverse.findSome? fun window =>
        (windowColour (windows window) x y).map (brush (some window)) <;> rfl

/-- **A rendered pixel** is left by the front-most window that paints it, or is
background. -/
theorem render_pixel (fits : fb.Fits) (shown : fb.Shown x y) (windows : Window → WmWindow)
    (scene : WmScene Window) (brush : Option Window → UInt32 → Color) :
    (renderScene windows scene brush fb).pixel x y =
      (scene.layers.reverse.findSome? fun window =>
        (windowColour (windows window) x y).map (brush (some window))).getD
          (brush none scene.backgroundColor) := by
  have cleared := painted_rect (brush none scene.backgroundColor) fb ⟨0, 0, fb.width, fb.height⟩
  have everywhere : wmPointInRect ⟨0, 0, fb.width, fb.height⟩ x y := by
    obtain ⟨across, down⟩ := shown
    rw [UInt32.lt_iff_toNat_lt] at across down
    rw [pointInRect_iff]
    exact ⟨⟨Nat.zero_le _, across.trans_eq (Nat.zero_add _).symm⟩, Nat.zero_le _,
      down.trans_eq (Nat.zero_add _).symm⟩
  have ground := pixel_fillRect fits shown (brush none scene.backgroundColor)
    ⟨0, 0, fb.width, fb.height⟩
  rw [if_pos everywhere] at ground
  unfold renderScene
  refine (draws_pixel (cleared.fits fits) (cleared.shown shown) windows brush scene.layers).trans ?_
  rw [ground]

/-- Searching for the first answer is searching for the first entry that has one. -/
theorem findSome?_eq_find? {Entry Answer : Type} {entries : List Entry}
    {answer : Entry → Option Answer}
    {hit : Entry → Bool} (same : ∀ entry ∈ entries, (answer entry).isSome = hit entry) :
    entries.findSome? answer = (entries.find? hit).bind answer := by
  induction entries with
  | nil => rfl
  | cons entry entries ih =>
      have here := same entry List.mem_cons_self
      rw [List.findSome?_cons, List.find?_cons, ← here,
        ih fun other member => same other (List.mem_cons_of_mem _ member)]
      cases answered : answer entry with
      | none => rfl
      | some found => exact answered.symm

end Render

/-! ## Painting and clicking -/

/-- Drawing a window puts something into a pixel. -/
def Paints (fb : Framebuffer Color) (window : WmWindow) (x y : UInt32) : Prop :=
  (wmDrawWindow (fun _ => true) { fb with pixels := fun _ => false } window).pixel x y = true

/-- What is painted is what is clicked: a shown pixel has the colour of the background
exactly where a click finds nothing, and was otherwise last painted for the window
that a click finds; and no window paints outside its own frame. -/
structure ShowsHits (windows : Window → WmWindow) (scene : WmScene Window)
    (fb : Framebuffer UInt32) : Prop where
  background : ∀ x y, fb.Shown x y →
    ((wmCompositorRender windows scene fb).2.pixel x y = scene.backgroundColor ↔
      wmCompositorHitTest windows scene x y = none)
  painter : ∀ x y, fb.Shown x y → ∀ window, wmCompositorHitTest windows scene x y = some window →
    painter windows scene fb x y = some window
  inside : ∀ window ∈ scene.layers, ∀ x y, fb.Shown x y → Paints fb (windows window) x y →
    wmPointInRect (windows window).frame x y

/-- No accent whose corner does not fit a word starts inside the framebuffer. -/
def AccentsFit (windows : Window → WmWindow) (scene : WmScene Window) (fb : Framebuffer UInt32) :
    Prop :=
  ∀ window ∈ scene.layers, (windows window).HasAccent → (windows window).AccentWraps →
    ¬ fb.Shown (windows window).accentRect.x (windows window).accentRect.y

/-- No accent starts again inside the framebuffer, and no window has the colour of the
background where no window in front covers it. -/
structure Paintable (windows : Window → WmWindow) (scene : WmScene Window)
    (fb : Framebuffer UInt32) : Prop where
  accents : AccentsFit windows scene fb
  colours : ∀ back window front, scene.layers = back ++ window :: front → ∀ x y, fb.Shown x y →
    wmPointInRect (windows window).frame x y →
    (∀ other ∈ front, ¬ wmPointInRect (windows other).frame x y) →
    windowColour (windows window) x y ≠ some scene.backgroundColor

section Shows

variable {windows : Window → WmWindow} {scene : WmScene Window} {fb : Framebuffer UInt32}

theorem paints_iff (fits : fb.Fits) (shown : fb.Shown x y) :
    Paints fb window x y ↔ (windowColour window x y).isSome := by
  have blank : ({ fb with pixels := fun _ => false } : Framebuffer Bool).Fits :=
    ⟨fits.mapped, fits.rows, fits.words⟩
  unfold Paints
  rw [@draw_pixel _ _ x y blank shown (fun _ => true) window]
  cases windowColour window x y with
  | none => exact iff_of_false Bool.false_ne_true Bool.false_ne_true
  | some colour => exact iff_of_true rfl rfl

/-- A valid window paints all of its frame. -/
theorem windowColour_frame (valid : window.IsValid) (inside : wmPointInRect window.frame x y) :
    (windowColour window x y).isSome := by
  unfold windowColour
  rw [if_neg (not_not.mpr valid)]
  split
  · rfl
  split
  · rfl
  split <;> rfl

/-- A window paints outside its frame only where its accent starts again. -/
theorem windowColour_inside (colours : (windowColour window x y).isSome)
    (fits : window.HasAccent → window.AccentWraps → ¬ wmPointInRect window.accentRect x y) :
    wmPointInRect window.frame x y := by
  unfold windowColour at colours
  split at colours
  · cases colours
  split at colours
  · rename_i accent
    by_cases wraps : window.AccentWraps
    · exact absurd accent.2 (fits accent.1 wraps)
    · exact WmWindow.accent_inside accent.1 wraps accent.2
  split at colours
  · exact WmWindow.content_inside ‹_›
  split at colours
  · exact WmWindow.titleBar_inside ‹_›
  split at colours
  · assumption
  · cases colours

/-- Where no accent starts again inside the framebuffer, the windows that paint a shown
pixel are those whose frames it lies in. -/
theorem AccentsFit.colours_iff (accents : AccentsFit windows scene fb)
    (valid : AllValid windows scene) (shown : fb.Shown x y) {pointer : Window}
    (member : pointer ∈ scene.layers) :
    (windowColour (windows pointer) x y).isSome ↔ wmPointInRect (windows pointer).frame x y := by
  constructor
  · intro colours
    apply windowColour_inside colours
    rintro accent wraps ⟨_, _, left, top, _⟩
    exact accents pointer member accent wraps
      ⟨UInt32.lt_of_le_of_lt left shown.1, UInt32.lt_of_le_of_lt top shown.2⟩
  · exact windowColour_frame (valid pointer member)

/-- A shown pixel then is background where a click finds nothing, and otherwise has a
colour of the window that a click finds. -/
theorem AccentsFit.pixel_eq (accents : AccentsFit windows scene fb)
    (valid : AllValid windows scene) (fits : fb.Fits) (shown : fb.Shown x y) {Color : Type}
    (brush : Option Window → UInt32 → Color) (pixels : UInt32 → Color) :
    (renderScene windows scene brush { fb with pixels := pixels }).pixel x y =
      ((wmCompositorHitTest windows scene x y).bind fun window =>
        (windowColour (windows window) x y).map (brush (some window))).getD
          (brush none scene.backgroundColor) := by
  have repainted : ({ fb with pixels := pixels } : Framebuffer Color).Fits :=
    ⟨fits.mapped, fits.rows, fits.words⟩
  rw [@render_pixel _ _ _ x y repainted shown, findSome?_eq_find?]
  · rfl
  · intro pointer member
    have agree := accents.colours_iff valid shown (List.mem_reverse.mp member)
    rw [Option.isSome_map]
    exact Bool.eq_iff_iff.mpr (agree.trans decide_eq_true_iff.symm)

/-- What the framebuffer holds after `wm_compositor_render`, where a pixel is shown. -/
theorem compositorRender_pixel (fits : fb.Fits) (shown : fb.Shown x y) :
    (wmCompositorRender windows scene fb).2.pixel x y =
      (renderScene windows scene (fun _ colour => colour) fb).pixel x y := by
  have drawn : ¬ (fb.mapped = false ∨ fb.width = 0 ∨ fb.height = 0 ∨ fb.stride < fb.width) := by
    obtain ⟨across, down⟩ := shown
    rintro (unmapped | narrow | low | short)
    · rw [fits.mapped] at unmapped
      cases unmapped
    · rw [narrow] at across
      exact UInt32.not_lt_zero across
    · rw [low] at down
      exact UInt32.not_lt_zero down
    · exact UInt32.not_le.mpr short fits.rows
  unfold wmCompositorRender
  rw [if_neg drawn]
  simp only
  cases mulU32Overflow _ _ <;> rfl

/-- The window that a click finds has the point in its frame, and no window in front
of it has. -/
theorem hitTest_eq_some {pointer : Window} :
    wmCompositorHitTest windows scene x y = some pointer ↔
      ∃ back front, scene.layers = back ++ pointer :: front ∧
        wmPointInRect (windows pointer).frame x y ∧
        ∀ other ∈ front, ¬ wmPointInRect (windows other).frame x y := by
  unfold wmCompositorHitTest
  rw [List.find?_eq_some_iff_append]
  constructor
  · rintro ⟨hit, first, second, split_, missed⟩
    refine ⟨second.reverse, first.reverse, ?_, of_decide_eq_true hit, fun other member inside => ?_⟩
    · rw [← List.reverse_reverse scene.layers, split_, List.reverse_append, List.reverse_cons,
        List.append_assoc]
      rfl
    · have outside := missed other (List.mem_reverse.mp member)
      rw [decide_eq_true inside] at outside
      cases outside
  · rintro ⟨back, front, layers, inside, missed⟩
    refine ⟨decide_eq_true inside, front.reverse, back.reverse, ?_, fun other member => ?_⟩
    · rw [layers, List.reverse_append, List.reverse_cons, List.append_assoc]
      rfl
    · rw [decide_eq_false (missed other (List.mem_reverse.mp member))]
      rfl

/-- **Painting and clicking agree**, exactly where accents fit and the colours of
windows are not those of the background. -/
theorem shows_iff (valid : AllValid windows scene) (fits : fb.Fits) :
    ShowsHits windows scene fb ↔ Paintable windows scene fb := by
  have pixel (accents : AccentsFit windows scene fb) {x y : UInt32} (shown : fb.Shown x y) :
      (wmCompositorRender windows scene fb).2.pixel x y =
        ((wmCompositorHitTest windows scene x y).bind fun window =>
          windowColour (windows window) x y).getD scene.backgroundColor := by
    rw [compositorRender_pixel fits shown]
    refine (accents.pixel_eq valid fits shown (fun _ colour => colour) fb.pixels).trans ?_
    simp only [Option.map_id_fun', id_eq]
  constructor
  · intro shows
    have accents : AccentsFit windows scene fb := by
      intro pointer member accent wraps shown
      have long := (WmWindow.accentRect_width accent).1
      have corner : wmPointInRect (windows pointer).accentRect (windows pointer).accentRect.x
          (windows pointer).accentRect.y := by
        rw [pointInRect_iff]
        exact ⟨⟨le_rfl, by omega⟩, le_rfl, Nat.lt_succ_self _⟩
      have painted : (windowColour (windows pointer) (windows pointer).accentRect.x
          (windows pointer).accentRect.y).isSome := by
        unfold windowColour
        rw [if_neg (not_not.mpr (valid pointer member)), if_pos ⟨accent, corner⟩]
        rfl
      exact WmWindow.accent_outside (valid pointer member) wraps
        (shows.inside pointer member _ _ shown ((paints_iff fits shown).mpr painted))
    refine ⟨accents, ?_⟩
    intro back pointer front layers x y shown inside missed same
    have hit : wmCompositorHitTest windows scene x y = some pointer :=
      hitTest_eq_some.mpr ⟨back, front, layers, inside, missed⟩
    have ground : (wmCompositorRender windows scene fb).2.pixel x y = scene.backgroundColor := by
      rw [pixel accents shown, hit, Option.bind_some, same]
      rfl
    have nothing := (shows.background x y shown).mp ground
    rw [hit] at nothing
    cases nothing
  · rintro ⟨accents, colours⟩
    have coloured {x y : UInt32} (shown : fb.Shown x y) {pointer : Window}
        (hit : wmCompositorHitTest windows scene x y = some pointer) :
        ∃ colour, windowColour (windows pointer) x y = some colour ∧
          colour ≠ scene.backgroundColor := by
      obtain ⟨back, front, layers, inside, missed⟩ := hitTest_eq_some.mp hit
      have member : pointer ∈ scene.layers := layers ▸ List.mem_append_right _ List.mem_cons_self
      obtain ⟨colour, here⟩ := Option.isSome_iff_exists.mp
        ((accents.colours_iff valid shown member).mpr inside)
      refine ⟨colour, here, ?_⟩
      rintro rfl
      exact colours back pointer front layers x y shown inside missed here
    refine ⟨fun x y shown => ?_, fun x y shown pointer hit => ?_,
      fun pointer member x y shown paints => ?_⟩
    · rw [pixel accents shown]
      cases hit : wmCompositorHitTest windows scene x y with
      | none => exact iff_of_true rfl rfl
      | some pointer =>
          obtain ⟨colour, here, differs⟩ := coloured shown hit
          rw [Option.bind_some, here]
          exact iff_of_false differs (Option.some_ne_none _)
    · obtain ⟨colour, here, _⟩ := coloured shown hit
      refine (accents.pixel_eq valid fits shown (fun window _ => window) fun _ => none).trans ?_
      rw [hit, Option.bind_some, here]
      rfl
    · exact (accents.colours_iff valid shown member).mp ((paints_iff fits shown).mp paints)

variable [DecidableEq Window]

/-- **What is painted is what is clicked**, for a stack built by any calls and any
frames, exactly while no accent starts again inside the framebuffer and no window has
the colour of the background where it is seen. -/
theorem shows_hits_iff (windows : Window → WmWindow) (fb : Framebuffer UInt32) (fits : fb.Fits)
    (backgroundColor : UInt32) (ops : List (SceneOp Window)) :
    ShowsHits windows ((scenes windows).state (wmCompositorReset backgroundColor) ops) fb ↔
      Paintable windows ((scenes windows).state (wmCompositorReset backgroundColor) ops) fb :=
  shows_iff (valid_run windows backgroundColor ops) fits

end Shows

/-! ## The screen at boot -/

theorem framebufferInit_fits : framebufferInit.Fits := ⟨rfl, UInt32.le_refl _, by decide⟩

/-- The screen at boot, with one window on it. -/
theorem shows_hits_iff_boot :
    framebufferInit.Fits ∧
      (ShowsHits (fun _ : Unit => wmWindowInit none 28 28 236 156)
          ((scenes fun _ : Unit => wmWindowInit none 28 28 236 156).state
            (wmCompositorReset 0x00161c26) [.add (some ())]) framebufferInit ↔
        Paintable (fun _ : Unit => wmWindowInit none 28 28 236 156)
          ((scenes fun _ : Unit => wmWindowInit none 28 28 236 156).state
            (wmCompositorReset 0x00161c26) [.add (some ())]) framebufferInit) :=
  ⟨framebufferInit_fits, shows_hits_iff _ _ framebufferInit_fits _ _⟩

/-- A window whose frame starts four words before the end of the coordinates. -/
def lastWindow : WmWindow := wmWindowInit none 0xfffffffc 0 300 100

theorem lastWindow_colour : (windowColour lastWindow 1 5).isSome := by decide +kernel

theorem lastWindow_outside : ¬ wmPointInRect lastWindow.frame 1 5 := by decide

/-- Such a window is painted at the left edge of the screen, where no click finds it. -/
theorem lastWindow_shows :
    ¬ ∀ (windows : Unit → WmWindow) (fb : Framebuffer UInt32), fb.Fits →
      ∀ (backgroundColor : UInt32) (ops : List (SceneOp Unit)),
        ShowsHits windows ((scenes windows).state (wmCompositorReset backgroundColor) ops) fb := by
  intro agree
  have shows := agree (fun _ => lastWindow) framebufferInit framebufferInit_fits 0x00161c26
    [.add (some ())]
  have shown : framebufferInit.Shown 1 5 := ⟨by decide, by decide⟩
  have stacked : () ∈ ((scenes fun _ => lastWindow).state (wmCompositorReset 0x00161c26)
      [.add (some ())]).layers := by decide +kernel
  apply lastWindow_outside
  exact shows.inside () stacked 1 5 shown
    ((paints_iff framebufferInit_fits shown).mpr lastWindow_colour)

end TigerOS.Wm
