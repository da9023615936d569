/-!
# State dials

The four dials of a tile and how far each turns. Three of them have a word for
each position.
-/

set_option autoImplicit false

namespace TileGrammar

inductive Dial where
  | damage
  | lighting
  | moisture
  | age
  deriving DecidableEq, Repr

namespace Dial

def all : List Dial := [.damage, .lighting, .moisture, .age]

def name : Dial → String
  | .damage => "damage"
  | .lighting => "lighting"
  | .moisture => "moisture"
  | .age => "age"

/-- The last position, counted from zero. -/
def limit : Dial → Nat
  | .damage => 3
  | .lighting => 2
  | .moisture => 1
  | .age => 2

/-- A word for each position. Moisture has none. -/
def words : Dial → List String
  | .damage => ["pristine", "scratched", "cracked", "broken"]
  | .lighting => ["shadowed", "normal", "highlighted"]
  | .moisture => []
  | .age => ["new", "worn", "ancient"]

end Dial

end TileGrammar
