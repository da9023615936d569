import TileGrammar.Glyph.Glyph
import TileGrammar.Text.Case

/-!
# Categories of tiles

The categories the compiler has facets for, whatever their letter case, and
what follows from a category alone: its band, its character for plain
displays, its layer, its sounds and its noun. Any other category is a prop.
-/

set_option autoImplicit false

namespace TileGrammar

inductive Category where
  | wall
  | floor
  | ground
  | grass
  | wood
  | door
  | window
  | fluid
  | water
  | lava
  | prop
  | object
  | item
  | entity
  | creature
  | effect
  | particle
  | ui
  | overlay
  | empty
  | other (name : String)
  deriving DecidableEq

namespace Category

def known : List Category :=
  [.wall, .floor, .ground, .grass, .wood, .door, .window, .fluid, .water, .lava, .prop, .object,
   .item, .entity, .creature, .effect, .particle, .ui, .overlay, .empty]

def name : Category → String
  | .wall => "wall"
  | .floor => "floor"
  | .ground => "ground"
  | .grass => "grass"
  | .wood => "wood"
  | .door => "door"
  | .window => "window"
  | .fluid => "fluid"
  | .water => "water"
  | .lava => "lava"
  | .prop => "prop"
  | .object => "object"
  | .item => "item"
  | .entity => "entity"
  | .creature => "creature"
  | .effect => "effect"
  | .particle => "particle"
  | .ui => "ui"
  | .overlay => "overlay"
  | .empty => "empty"
  | .other s => s

def ofText (s : String) : Category :=
  let lower := lowerText s
  (known.find? fun c => c.name = lower).getD (.other lower)

def isKnown : Category → Bool
  | .other _ => false
  | _ => true

def band : Category → Band
  | .wall => .wall
  | .floor | .ground => .ground
  | .door | .window => .door
  | .fluid | .water | .lava => .fluid
  | .item => .item
  | .entity | .creature => .entity
  | .effect | .particle => .effect
  | .ui => .ui
  | .overlay => .overlay
  | .empty => .empty
  | .prop | .object | .grass | .wood | .other _ => .prop

def char : Category → Char
  | .wall => '#'
  | .floor | .ground => '.'
  | .door => '+'
  | .fluid => '~'
  | .water => '≈'
  | .lava => '▓'
  | .prop => '■'
  | .item => '!'
  | .entity => '&'
  | .effect => '*'
  | .empty => ' '
  | _ => '?'

def layer : Category → Layer
  | .wall | .door | .prop => .structural
  | .entity | .item => .entity
  | .effect | .particle => .effect
  | .overlay => .lighting
  | _ => .background

def footstep : Category → Option String
  | .floor => some "movement.step.stone"
  | .ground => some "movement.step.dirt"
  | .grass => some "movement.step.grass"
  | .wood => some "movement.step.wood"
  | .water | .fluid => some "movement.splash.light"
  | _ => none

def ambience : Category → Option String
  | .water | .fluid => some "ambient.water"
  | .lava => some "ambient.lava.bubble"
  | _ => none

/-- The noun of a description; `raw` is the category as the grammar writes it. -/
def subject (raw : String) : Category → String
  | .wall => "stone wall"
  | .floor => "stone floor"
  | .ground => "ground"
  | .door => "door"
  | .fluid => "water"
  | .prop => "object"
  | _ => raw

end Category

end TileGrammar
