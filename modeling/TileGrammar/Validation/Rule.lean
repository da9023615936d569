import TileGrammar.Grammar.Grammar
import TileGrammar.Palette.Palette
import TileGrammar.Picture.Region
import TileGrammar.Settings
import TileGrammar.Validation.Violation

/-!
# Rules for drawn tiles

Seven rules in a fixed order. A rule sees the picture, the grammar it was drawn
for, perhaps a palette, and the policy, and lists what it finds wrong. A rule
fails only if it asks for a place that the picture does not have.
-/

set_option autoImplicit false

namespace TileGrammar

structure Scene where
  view : View
  grammar : Grammar
  palette : Option Palette
  policy : Policy

namespace Scene

def width (s : Scene) : Nat := s.view.width

def height (s : Scene) : Nat := s.view.height

end Scene

def sizeText (width height : Nat) : String := decimal width ++ "×" ++ decimal height

def checkSize (s : Scene) : List Violation :=
  let (w, h) := s.grammar.size.extent
  if s.width = w ∧ s.height = h then []
  else [⟨.size, .error, "Expected " ++ sizeText w h ++ ", got " ++ sizeText s.width s.height, none,
    ["Re-render at the grammar's tile size"]⟩]

namespace Rgba

def distance (a b : UInt8) : Nat := (a.toNat - b.toNat) + (b.toNat - a.toNat)

/-- No channel is further off than the tolerance. -/
def near (tolerance : UInt8) (p q : Rgba) : Bool :=
  (p.channels.zip q.channels).all fun c => distance c.1 c.2 ≤ tolerance.toNat

end Rgba

namespace Palette

/-- May a tile of this palette have the pixel? -/
def admits (p : Palette) (tolerance : UInt8) (pixel : Rgba) : Bool :=
  if pixel.isClear && p.allowTransparency then true
  else if tolerance = 0 then p.allowed.contains pixel
  else p.allowed.any fun q => pixel.near tolerance q

def foreignColors (p : Palette) (tolerance : UInt8) (view : View) : Except Error (List Rgba) :=
  view.distinctColors.map fun colors => colors.filter fun c => !p.admits tolerance c

end Palette

def reportedColors : Nat := 5

def foreignColor (p : Palette) (color : Rgba) : Violation :=
  ⟨.color, .error, "Color " ++ color.text ++ " not in palette " ++ p.id, none,
    ["Quantize to the palette colors"]⟩

def checkPalette (s : Scene) : Except Error (List Violation) :=
  match s.palette with
  | none => .ok []
  | some p => do
    let colors ← p.foreignColors s.policy.tolerance s.view
    .ok ((colors.take reportedColors).map (foreignColor p))

/-- The places whose pixels have a property, in the order given. -/
def View.placesWhere (v : View) (ps : List Place) (good : Rgba → Bool) :
    Except Error (List Place) := do
  let pixels ← v.readAll ps
  .ok (((ps.zip pixels).filter fun e => good e.2).map Prod.fst)

namespace Rgba

def isPartial (p : Rgba) : Bool := 0 < p.a && p.a < 255

def isOpaque (p : Rgba) : Bool := p.a = 255

end Rgba

def semiTransparent : List Place → List Violation
  | [] => []
  | p :: ps => [⟨.transparency, .error, decimal (ps.length + 1) ++ " semi-transparent pixels",
      some p, ["Use fully opaque or fully transparent pixels only"]⟩]

def forbiddenTransparency : Violation :=
  ⟨.transparency, .error, "Palette does not allow transparency", none, []⟩

def forbidsTransparency : Option Palette → Bool
  | none => false
  | some p => !p.allowTransparency

def checkTransparency (s : Scene) : Except Error (List Violation) := do
  let places ← s.view.placesWhere (Region.all s.width s.height) Rgba.isPartial
  let pixels ← s.view.pixels
  let forbidden := forbidsTransparency s.palette && pixels.any fun p => !p.isOpaque
  .ok (semiTransparent places ++ if forbidden then [forbiddenTransparency] else [])

def Scene.colorBudget (s : Scene) : Nat :=
  match s.palette with
  | none => s.policy.maxColors.toNat
  | some p => p.maxColors.toNat

def tooManyColors (strict : Bool) (used budget : Nat) : Violation :=
  ⟨.antiAliasing, if strict then .error else .warning,
    "Too many colors (" ++ decimal used ++ "), possible anti-aliasing. Max: " ++ decimal budget,
    none, ["Disable smoothing in the rasterizer"]⟩

def checkColorCount (s : Scene) : Except Error (List Violation) := do
  let colors ← s.view.distinctColors
  let used := (colors.filter fun c => !c.isClear).length
  .ok (if used ≤ s.colorBudget then [] else [tooManyColors s.policy.strict used s.colorBudget])

def Rgba.isBluish (p : Rgba) : Bool := p.r < p.b && p.g ≤ p.b

/-- The pixel in the middle of a row, the later of two. -/
def middle (row : List Rgba) : Except Error Rgba := orFail .outOfRange row[row.length / 2]?

/-- What is wrong with a row of pixels along a side of some edge code: how bad
it is, and what was expected instead. -/
def edgeFault (code : EdgeCode) (row : List Rgba) : Except Error (Option (Severity × String)) :=
  let drawn := row.filter fun p => !p.isClear
  let filled := drawn.length
  let when (bad : Bool) (severity : Severity) (expected : String) :=
    if bad then some (severity, expected) else none
  match code with
  | .empty => .ok (when (row.length < filled * 2) .error "majority transparent")
  | .solid => .ok (when (filled < row.length) .error "continuous solid fill")
  | .water =>
    let blue := (drawn.filter Rgba.isBluish).length
    .ok (when (0 < filled && blue * 2 < filled) .warning "blue water tones")
  | .doorFrame => do
    let opening ← middle row
    let framed := 0 < filled && filled < row.length && opening.isClear
    .ok (when (!framed) .warning "partial fill with a centred opening")
  | _ => .ok (when (filled * 2 < row.length) .warning "majority filled")

def edgeViolation (d : Direction) (code : EdgeCode) (row : List Rgba)
    (fault : Severity × String) : Violation :=
  let filled := (row.filter fun p => !p.isClear).length
  ⟨.edge, fault.1, d.name ++ " edge declared " ++ code.title ++ ": expected " ++ fault.2 ++ ", " ++
    decimal filled ++ "/" ++ decimal row.length ++ " pixels filled", none,
    ["Redraw the edge to match its declared edge code"]⟩

def checkSide (s : Scene) (d : Direction) : Except Error (List Violation) := do
  let row ← s.view.readAll (Region.side s.width s.height d)
  let code := Sides.get s.grammar.edges d
  let fault ← edgeFault code row
  .ok (fault.toList.map (edgeViolation d code row))

def checkEdges (s : Scene) : Except Error (List Violation) :=
  if s.width = 0 ∨ s.height = 0 then .ok []
  else (Direction.all.mapM (checkSide s)).map List.flatten

/-- A pixel that is seen, with places next to it, at all of which nothing is seen. -/
def View.isStray (v : View) (p : Place) : Except Error Bool := do
  let pixel ← v.read p
  let around ← v.readAll (Region.neighbors v.width v.height p)
  .ok (!pixel.isClear && !around.isEmpty && around.all Rgba.isClear)

def strayPixels : List Place → List Violation
  | [] => []
  | p :: ps => [⟨.stray, .warning, decimal (ps.length + 1) ++ " isolated pixels", some p,
      ["Remove isolated pixels or connect them to a shape"]⟩]

def checkStray (s : Scene) : Except Error (List Violation) :=
  ((Region.all s.width s.height).filterM s.view.isStray).map strayPixels

def centerViolation (s : Scene) (expected : String) (filled total : Nat) : Violation :=
  ⟨.center, .error, "Center '" ++ s.grammar.center ++ "' should be " ++ expected ++ ", " ++
    decimal filled ++ "/" ++ decimal total ++ " pixels filled", some (s.width / 4, s.height / 4),
    ["Redraw the center region to match the center content"]⟩

def checkCenter (s : Scene) : Except Error (List Violation) := do
  let pixels ← s.view.readAll (Region.center s.width s.height)
  let total := pixels.length
  let filled := (pixels.filter fun p => !p.isClear).length
  .ok (if total = 0 then []
    else if s.grammar.center = "empty" then
      if filled * 2 ≤ total then [] else [centerViolation s "mostly transparent" filled total]
    else if total ≤ filled * 2 then [] else [centerViolation s "mostly filled" filled total])

structure Rule where
  name : String
  check : Scene → Except Error (List Violation)

namespace Rule

def all : List Rule := [
  ⟨"size", fun s => .ok (checkSize s)⟩,
  ⟨"palette", checkPalette⟩,
  ⟨"transparency", checkTransparency⟩,
  ⟨"anti_aliasing", checkColorCount⟩,
  ⟨"edge_pattern", checkEdges⟩,
  ⟨"stray_pixels", checkStray⟩,
  ⟨"center", checkCenter⟩]

end Rule

end TileGrammar
