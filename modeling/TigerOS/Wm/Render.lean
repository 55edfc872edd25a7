import TigerOS.Foundation.Machine
import TigerOS.Wm.Scene
import TigerOS.Gfx.Framebuffer

/-! # Rendering the scene

The compositor fills the background and draws the windows from the back to the front,
each as four rectangles. A brush says what is put into memory for a colour: the colour
itself, or whom it is painted for.
-/

namespace TigerOS.Wm

open Foundation TigerOS.Gfx

/-- `hash_title`. -/
def hashTitle (title : Option CString) : UInt32 :=
  ((title.map CString.bytes).getD []).foldl
    (fun hash byte => (hash ^^^ byte.toUInt32) * 16777619) 2166136261

/-- `mul_u32_overflow`, answering the product unless it overflows. -/
def mulU32Overflow (a b : UInt32) : Option UInt32 :=
  if a = 0 ∨ b = 0 then some 0
  else if a * b / a ≠ b then none
  else some (a * b)

/-- `fnv1a32_pixels`. -/
def fnv1a32Pixels (pixels : UInt32 → UInt32) (pixelCount : UInt32) : UInt32 :=
  (List.range pixelCount.toNat).foldl
    (fun hash i => ([0, 8, 16, 24] : List UInt32).foldl
      (fun hash shift => (hash ^^^ ((pixels (UInt32.ofNat i) >>> shift) &&& 0xff)) * 16777619) hash)
    2166136261

namespace WmWindow

variable (window : WmWindow)

/-- The condition under which a window has an accent. -/
def HasAccent : Prop := 8 < window.titleBarRect.width ∧ 4 < window.titleBarRect.height

instance : Decidable window.HasAccent := inferInstanceAs (Decidable (_ ∧ _))

/-- The rectangle of the accent in `wm_draw_window`. -/
def accentRect : WmRect :=
  let titleBar := window.titleBarRect
  let accentWidth := 8 + hashTitle window.title % (titleBar.width - 8)
  ⟨titleBar.x + 4, titleBar.y + 4, accentWidth - 4, 1⟩

/-- The colour of the accent in `wm_draw_window`. -/
def accentColor : UInt32 := 0x00202020 ||| (hashTitle window.title &&& 0x000f0f0f)

end WmWindow

section Render

variable {Color : Type}

/-- A rectangle filled. -/
def fillRect (color : Color) (fb : Framebuffer Color) (rect : WmRect) : Framebuffer Color :=
  framebufferFillRect color fb rect.x rect.y rect.width rect.height

/-- `wm_draw_window`. -/
def wmDrawWindow (brush : UInt32 → Color) (fb : Framebuffer Color) (window : WmWindow) :
    Framebuffer Color :=
  if ¬ window.IsValid then fb
  else
    let titleBar := window.titleBarRect
    let content := window.contentRect
    let fb := fillRect (brush window.style.borderColor) fb window.frame
    let fb :=
      if titleBar.width ≠ 0 ∧ titleBar.height ≠ 0 then
        fillRect (brush window.style.titleBarColor) fb titleBar
      else fb
    let fb :=
      if content.width ≠ 0 ∧ content.height ≠ 0 then
        fillRect (brush window.style.contentColor) fb content
      else fb
    if window.HasAccent then fillRect (brush window.accentColor) fb window.accentRect else fb

variable {Window : Type} (windows : Window → WmWindow) (scene : WmScene Window)

/-- The painting of `wm_compositor_render`: the background for nobody, then every
window of the stack for itself. -/
def renderScene (brush : Option Window → UInt32 → Color) (fb : Framebuffer Color) :
    Framebuffer Color :=
  scene.layers.foldl (fun fb window => wmDrawWindow (brush (some window)) fb (windows window))
    (framebufferFillRect (brush none scene.backgroundColor) fb 0 0 fb.width fb.height)

/-- `wm_compositor_render`. -/
def wmCompositorRender (fb : Framebuffer UInt32) : UInt32 × Framebuffer UInt32 :=
  if fb.mapped = false ∨ fb.width = 0 ∨ fb.height = 0 ∨ fb.stride < fb.width then (0, fb)
  else
    let fb := renderScene windows scene (fun _ color => color) fb
    match mulU32Overflow fb.height fb.stride with
    | none => (0, fb)
    | some pixelCount => (fnv1a32Pixels fb.pixels pixelCount, fb)

/-- The window that a pixel was last painted for. -/
def painter (fb : Framebuffer UInt32) (x y : UInt32) : Option Window :=
  (renderScene windows scene (fun window _ => window) { fb with pixels := fun _ => none }).pixel x y

end Render

/-! ## The machine of the stack -/

/-- The calls that change the stack. -/
inductive SceneOp (Window : Type) where
  | reset (backgroundColor : UInt32)
  | add (window : Option Window)
  | activate (window : Option Window)
  | activateAt (x y : UInt32)

section Machine

variable {Window : Type} [DecidableEq Window] (windows : Window → WmWindow)

def sceneStep (scene : WmScene Window) : SceneOp Window → Bool × WmScene Window
  | .reset backgroundColor => (true, wmCompositorReset backgroundColor)
  | .add window => wmCompositorAddWindow windows scene window
  | .activate window => wmCompositorActivateWindow scene window
  | .activateAt x y => wmCompositorActivateAt windows scene x y

/-- The stack as a machine answering calls. -/
def scenes : Machine (WmScene Window) (SceneOp Window) Bool := ⟨sceneStep windows⟩

end Machine

end TigerOS.Wm
