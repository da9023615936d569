import TileGrammar.Grammar.Grammar
import TileGrammar.Palette.Set

/-!
# Prompts

A grammar restated in words for a generator of pictures, line by line. The
word of a dial is looked up in a grammar that nobody has checked, so a dial
that stands beyond its words is an error.
-/

set_option autoImplicit false

namespace TileGrammar

structure Prompt where
  tileId : String
  palette : String
  text : String
  deriving DecidableEq

namespace Prompt

def standingRules : List String := [
  "Exact pixel resolution, no anti-aliasing",
  "Only use specified palette colors",
  "No gradients or smooth shading",
  "No perspective - flat orthographic view",
  "Edge pixels must match declared edge codes",
  "Center texture must be consistent"]

def listed (items : List String) : String := ", ".intercalate items

/-- Name and size of a palette, and its first four colors. -/
def paletteText : Option Palette → String
  | none => "grayscale 4-color"
  | some p =>
    p.name ++ " (" ++ decimal p.colors.length ++ " colors: " ++ listed (p.hexList.take 4) ++ ")"

def edgesText (edges : Signature) : String :=
  listed (Direction.all.map fun d => d.title ++ "=" ++ (Sides.get edges d).phrase)

def word (d : Dial) (n : UInt8) : Except Error String :=
  orFail .outOfRange d.words[n.toNat]?

/-- What is said of a dial: nothing where it stands at its usual position. -/
def dialText (g : Grammar) : Dial → Except Error (List String)
  | .damage => if g.damage = 0 then .ok [] else
    (word .damage g.damage).map fun w => ["damage=" ++ w]
  | .lighting => if g.lighting = 1 then .ok [] else
    (word .lighting g.lighting).map fun w => ["lighting=" ++ w]
  | .moisture => .ok (if g.moisture = 0 then [] else ["wet/damp"])
  | .age => if g.age = 0 then .ok [] else
    (word .age g.age).map fun w => ["age=" ++ w]

def states (g : Grammar) : Except Error (List String) :=
  (Dial.all.mapM (dialText g)).map List.flatten

def lines (g : Grammar) (palette : Option Palette) (states : List String) : List String :=
  ["Generate a " ++ decimal g.size.side ++ "×" ++ decimal g.size.side ++ " pixel tile.",
   "Category: " ++ g.category ++ " (" ++ g.subcategoryText ++ ").",
   "Center content: " ++ g.center ++ ".",
   "Palette: " ++ paletteText palette ++ ".",
   "Edge requirements: " ++ edgesText g.edges ++ ".",
   "Style: " ++ listed (g.styles.map Style.phrase) ++ "."] ++
  (if states.isEmpty then [] else ["State modifiers: " ++ listed states ++ "."]) ++
  "CONSTRAINTS:" :: standingRules.map ("- " ++ ·) ++
  (if g.tags.isEmpty then [] else ["Tags for reference: " ++ listed g.tags])

def ofGrammar (g : Grammar) (palette : Option Palette) : Except Error Prompt := do
  let states ← states g
  .ok ⟨g.tileId, g.palette, "\n".intercalate (lines g palette states)⟩

/-- With the palette of the grammar as lit for its lighting dial. -/
def asLit (g : Grammar) (palettes : PaletteSet) : Except Error Prompt :=
  ofGrammar g (palettes.lit? g.palette g.lighting)

def schema : Schema Prompt where
  blank := ⟨"", "", ""⟩
  fields := [
    .of "generation_id" .required .text Prompt.tileId
      fun p v => { p with tileId := v },
    .of "palette" .required .text Prompt.palette fun p v => { p with palette := v },
    .of "text" .required .text Prompt.text fun p v => { p with text := v }]

end Prompt

end TileGrammar
