import TileGrammar.Picture.Region

/-!
# Canvases

A picture as pixels row by row. A canvas is well formed when it has as many
pixels as its sides say; canvases read from text need not be. Drawing outside
of a canvas does nothing, while reading behind its last pixel is an error.
-/

set_option autoImplicit false

namespace TileGrammar

structure Canvas where
  width : Nat
  height : Nat
  pixels : Array Rgba
  deriving DecidableEq

namespace Canvas

def WellFormed (c : Canvas) : Prop := c.pixels.size = c.width * c.height

def uniform (width height : Nat) (color : Rgba) : Canvas :=
  ⟨width, height, Array.replicate (width * height) color⟩

/-- Pixels of four bytes each, after those already there. -/
def pixelsFrom : List UInt8 → Array Rgba → Array Rgba
  | r :: g :: b :: a :: rest, pixels => pixelsFrom rest (pixels.push ⟨r, g, b, a⟩)
  | _, pixels => pixels

def ofBytes (width height : Nat) (bytes : List UInt8) : Except Error Canvas :=
  if bytes.length = width * height * 4 then .ok ⟨width, height, pixelsFrom bytes #[]⟩
  else .error (.byteCount width height bytes.length)

def bytes (c : Canvas) : List UInt8 := c.pixels.toList.flatMap Rgba.channels

/-- The pixel at a place, counted row by row. The column is not checked by itself. -/
def pixelAt? (c : Canvas) (x y : Nat) : Option Rgba := c.pixels[y * c.width + x]?

def read (c : Canvas) (place : Place) : Except Error Rgba :=
  orFail .outOfRange (c.pixelAt? place.1 place.2)

def paint (c : Canvas) (x y : Nat) (color : Rgba) : Canvas :=
  if x < c.width ∧ y < c.height then
    { c with pixels := c.pixels.setIfInBounds (y * c.width + x) color }
  else c

def paintRow (c : Canvas) (y : Nat) (xs : List Nat) (color : Rgba) : Canvas :=
  xs.foldl (fun c x => c.paint x y color) c

def paintRect (c : Canvas) (x y w h : Nat) (color : Rgba) : Canvas :=
  let xs := Region.span x (min (x + w) c.width)
  (Region.span y (min (y + h) c.height)).foldl (fun c y => c.paintRow y xs color) c

inductive Stroke where
  | point (x y : Nat) (color : Rgba)
  | rect (x y w h : Nat) (color : Rgba)
  deriving DecidableEq

def draw (c : Canvas) : Stroke → Canvas
  | .point x y color => c.paint x y color
  | .rect x y w h color => c.paintRect x y w h color

def drawAll (c : Canvas) (strokes : List Stroke) : Canvas := strokes.foldl draw c

theorem uniform_wellFormed (width height : Nat) (color : Rgba) :
    (uniform width height color).WellFormed := by
  simp [WellFormed, uniform]

theorem paint_wellFormed {c : Canvas} (h : c.WellFormed) (x y : Nat) (color : Rgba) :
    (c.paint x y color).WellFormed := by
  unfold paint
  split
  · simpa [WellFormed] using h
  · exact h

theorem paintRow_wellFormed {c : Canvas} (h : c.WellFormed) (y : Nat) (xs : List Nat)
    (color : Rgba) : (c.paintRow y xs color).WellFormed := by
  induction xs generalizing c with
  | nil => exact h
  | cons x xs ih => exact ih (paint_wellFormed h x y color)

theorem paintRect_wellFormed {c : Canvas} (h : c.WellFormed) (x y w k : Nat) (color : Rgba) :
    (c.paintRect x y w k color).WellFormed := by
  unfold paintRect
  generalize Region.span y _ = ys
  generalize Region.span x _ = xs
  induction ys generalizing c with
  | nil => exact h
  | cons y ys ih => exact ih (paintRow_wellFormed h y xs color)

theorem draw_wellFormed {c : Canvas} (h : c.WellFormed) (s : Stroke) : (c.draw s).WellFormed := by
  cases s with
  | point x y color => exact paint_wellFormed h x y color
  | rect x y w k color => exact paintRect_wellFormed h x y w k color

theorem drawAll_wellFormed {c : Canvas} (h : c.WellFormed) (ss : List Stroke) :
    (c.drawAll ss).WellFormed := by
  induction ss generalizing c with
  | nil => exact h
  | cons s ss ih => exact ih (draw_wellFormed h s)

def view (c : Canvas) : View := ⟨c.width, c.height, c.read⟩

def distinctColors (c : Canvas) : Except Error (List Rgba) := c.view.distinctColors

def schema : Schema Canvas where
  blank := ⟨0, 0, #[]⟩
  fields := [
    .of "width" .required (.natBelow UInt32.size) Canvas.width fun c v => { c with width := v },
    .of "height" .required (.natBelow UInt32.size) Canvas.height fun c v => { c with height := v },
    .of "pixels" .required (.listOf Rgba.codec) (fun c => c.pixels.toList)
      fun c v => { c with pixels := v.toArray }]

def codec : Codec Canvas := schema.codec

end Canvas

end TileGrammar
