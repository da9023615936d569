import TileGrammar.Palette.Set
import TileGrammar.Picture.Canvas
import TileGrammar.Validation.Rule
import TileGrammar.Validation.Verdict

/-!
# Validation

All rules applied to one drawn tile, with a few counts beside what they find.
The palette is given, or looked up for the grammar as it is lit. Bytes that
make no picture are a finding of their own.
-/

set_option autoImplicit false

namespace TileGrammar

namespace Scene

def ofCanvas (policy : Policy) (canvas : Canvas) (grammar : Grammar) (palette : Option Palette) :
    Scene := ⟨canvas.view, grammar, palette, policy⟩

def foreignColors? (s : Scene) : Except Error (Option (List Rgba)) :=
  s.palette.mapM fun p => p.foreignColors s.policy.tolerance s.view

def findings (s : Scene) : Except Error (List Violation) :=
  (Rule.all.mapM fun (r : Rule) => r.check s).map List.flatten

def stats (s : Scene) : Except Error (Dict Json) := do
  let colors ← s.view.distinctColors
  let invalid ← s.foreignColors?
  .ok (Dict.ofList ([
    ("width", .int s.width),
    ("height", .int s.height),
    ("colors_used", .int colors.length),
    ("center_type", .str s.grammar.center),
    ("edges_validated", .bool true)] ++
    invalid.toList.map fun colors => ("invalid_colors", .int colors.length)))

def verdict (s : Scene) : Except Error Verdict := do
  let found ← s.findings
  let stats ← s.stats
  .ok { (Verdict.clean s.grammar.tileId).noteAll found with stats := stats }

end Scene

def badFormat (e : Error) : Violation :=
  ⟨.format, .error, "Failed to parse image: " ++ e.message, none, []⟩

namespace Policy

def judge (policy : Policy) (canvas : Canvas) (grammar : Grammar) (palette : Option Palette) :
    Except Error Verdict := (Scene.ofCanvas policy canvas grammar palette).verdict

def judgeBytes (policy : Policy) (width height : Nat) (bytes : List UInt8) (grammar : Grammar)
    (palette : Option Palette) : Except Error Verdict :=
  match Canvas.ofBytes width height bytes with
  | .ok canvas => policy.judge canvas grammar palette
  | .error e => .ok ((Verdict.clean grammar.tileId).note (badFormat e))

end Policy

/-- The palette that a grammar names, as its lighting dial shows it. -/
def PaletteSet.paletteOf? (r : PaletteSet) (grammar : Grammar) : Option Palette :=
  r.lit? grammar.palette grammar.lighting

end TileGrammar
