import TileGrammar.Compiler.Category
import TileGrammar.Grammar.Grammar
import TileGrammar.Order.Dict
import TileGrammar.Text.Basic

/-!
# What a glyph takes from its grammar

Id, name, tags and facets of the glyph of a grammar. The words of the dials
are looked up by position; a position without a word is an error, which does
not arise for a grammar that passes its checks.
-/

set_option autoImplicit false

namespace TileGrammar.Derivation

def luminousCenters : List String := ["fire", "torch", "crystal", "lava", "magic"]

def notableKinds : List String := ["chest", "altar", "crystal"]

/-- The words that the dials of a grammar call for, where they are turned up. -/
structure Words where
  damage : Option String
  wet : Bool
  age : Option String
  deriving DecidableEq

def wordAt (d : Dial) (n : UInt8) : Except Error (Option String) :=
  if n = 0 then .ok none else (orFail .outOfRange d.words[n.toNat]?).map some

def words (g : Grammar) : Except Error Words := do
  let damage ← wordAt .damage g.damage
  let age ← wordAt .age g.age
  .ok ⟨damage, g.moisture ≠ 0, age⟩

def cornerName (edges : Signature) : Option String :=
  if edges = ⟨.solid, .solid, .empty, .empty⟩ then some "corner.ne"
  else if edges = ⟨.empty, .solid, .solid, .empty⟩ then some "corner.se"
  else if edges = ⟨.empty, .empty, .solid, .solid⟩ then some "corner.sw"
  else if edges = ⟨.solid, .empty, .empty, .solid⟩ then some "corner.nw"
  else none

def dottedId (g : Grammar) (c : Category) (w : Words) : String :=
  ".".intercalate (
    g.category :: g.subcategory.toList ++
    (if c = .wall then (cornerName g.edges).toList else []) ++
    w.damage.toList ++ (if w.wet then ["wet"] else []) ++ w.age.toList)

/-- The words of a category that is written with underscores. -/
def categoryWords (category : String) : List String :=
  ((splitAtChar '_' category.toList).filter fun part => !part.isEmpty).map String.ofList

def title (g : Grammar) (w : Words) : String :=
  " ".intercalate (
    w.damage.toList.map capitalize ++ (if w.wet then ["Wet"] else []) ++
    w.age.toList.map capitalize ++ (categoryWords g.category).map capitalize ++
    g.subcategory.toList.map fun s => "(" ++ s ++ ")")

/-- Tags that follow from what the four edges have in common. -/
def edgeTags (edges : Signature) : List String :=
  if Signature.isAll edges .solid then ["solid", "opaque"]
  else if Signature.isAll edges .empty then ["passable", "transparent"]
  else []

def stateTags (g : Grammar) : List String :=
  (if g.damage = 0 then [] else ["damaged"]) ++ (if g.moisture = 0 then [] else ["wet"]) ++
    (if g.age = 0 then [] else ["aged"])

def tagList (g : Grammar) : List String :=
  sortedTexts (
    g.tags ++ g.category :: edgeTags g.edges ++ stateTags g ++ g.styles.map Style.name)

/-- The penalty is cut off at nothing and at the whole. -/
def clampUnit (x : Float) : Float := if x < 0.0 then 0.0 else if 1.0 < x then 1.0 else x

def penalty (g : Grammar) (c : Category) : Float :=
  let base := if c = .fluid then 0.3 else 0.0
  clampUnit (if g.moisture = 0 then base else base + 0.1)

def physics (g : Grammar) (c : Category) : Physics :=
  let solid := Signature.isAll g.edges .solid
  let body : Physics := match c with
    | .fluid | .water =>
      { Physics.plain with walkable := true, blocksMovement := false, blocksLight := solid }
    | .lava =>
      { Physics.plain with
        walkable := false, blocksMovement := true, blocksLight := solid
        damageOnEnter := 50, damageType := some "fire" }
    | _ =>
      { Physics.plain with walkable := !solid, blocksMovement := solid, blocksLight := solid }
  { body with movementPenalty := penalty g c }

def visual (g : Grammar) (c : Category) : Visual :=
  let glow := luminousCenters.contains g.center
  { Visual.plain with
    layer := c.layer
    connectivity := if c = .wall then "auto" else "none"
    palette := some g.palette
    glow := glow
    glowRadius := if glow then 2 else 0 }

def audio (g : Grammar) (c : Category) : Audio :=
  { Audio.plain with
    onStep := if g.moisture = 0 then c.footstep else some "movement.step.wet"
    ambient := c.ambience }

/-- The worst state decides, and what the tile is made of only after that. -/
def tone (g : Grammar) (c : Category) : String :=
  if 1 < g.damage then "decay"
  else if 1 < g.age then "ancient"
  else if c = .lava then "dangerous"
  else "neutral"

def narrative (g : Grammar) (c : Category) (w : Words) : Narrative :=
  let sentence := " ".intercalate (
    w.age.toList ++ w.damage.toList ++ (if w.wet then ["damp"] else []) ++ [c.subject g.category])
  { Narrative.plain with
    description := capitalize sentence ++ "."
    tone := tone g c
    keywords := g.category :: g.subcategory.toList }

def threat (g : Grammar) (c : Category) : Float :=
  if c = .lava then 1.0
  else if c = .fluid then 0.2
  else if 1 < g.damage then 0.1
  else 0.0

def interest (g : Grammar) (c : Category) : Float :=
  if g.subcategory.any notableKinds.contains then 0.8
  else if c = .door || c = .prop then 0.5
  else 0.1

def appraisal (g : Grammar) (c : Category) (w : Words) : Appraisal :=
  { Appraisal.plain with
    summary := " ".intercalate (
      w.damage.toList ++ (if w.wet then ["wet"] else []) ++
      g.category :: g.subcategory.toList)
    threat := threat g c
    interest := interest g c
    contexts := g.biomes }

def glyph (g : Grammar) (c : Category) (codepoint : Codepoint) (char : Option Char) :
    Except Error Glyph := do
  let w ← words g
  .ok {
    id := dottedId g c w
    codepoint := codepoint
    char := char.getD c.char
    name := title g w
    category := c.band
    tags := tagList g
    variant := g.subcategory
    physics := physics g c
    visual := visual g c
    audio := audio g c
    narrative := narrative g c w
    appraisal := appraisal g c w
    biomeVariants := ∅ }

end TileGrammar.Derivation
