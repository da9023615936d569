import TileGrammar.Edge.Catalog

/-!
# Maps

A map is a list of rows of tile ids, of any lengths. Every cell is checked
against the cells to its north and to its west, so that an edge shared by two
cells is looked at once.
-/

set_option autoImplicit false

namespace TileGrammar

abbrev TileMap := List (List String)

structure Clash where
  x : Nat
  y : Nat
  direction : Direction
  tile : String
  neighbor : String
  deriving DecidableEq

def Clash.message (v : Clash) : String :=
  v.tile ++ " incompatible with " ++ v.neighbor

namespace TileMap

def cell? (m : TileMap) (x y : Nat) : Option String := (m[y]?).bind fun row => row[x]?

/-- The cell on a side of a place. Nothing lies north of the first row or west
of the first column. -/
def beside? (m : TileMap) (x y : Nat) : Direction → Option String
  | .north => if y = 0 then none else cell? m x (y - 1)
  | .south => cell? m x (y + 1)
  | .west => if x = 0 then none else cell? m (x - 1) y
  | .east => cell? m (x + 1) y

def around (m : TileMap) (x y : Nat) : Surroundings := Sides.ofFn (beside? m x y)

end TileMap

namespace Catalog

/-- The violation at one cell towards one side, if there is one. -/
def clashToward (c : Catalog) (m : TileMap) (x y : Nat) (id : String) (t : Tile)
    (d : Direction) : Option Clash :=
  match m.beside? x y d with
  | none => none
  | some neighbor => match c.get? neighbor with
    | none => none
    | some n => if t.fitsBeside n d then none else some ⟨x, y, d, id, neighbor⟩

def cellClashes (c : Catalog) (m : TileMap) (x y : Nat) (id : String) : List Clash :=
  match c.get? id with
  | none => []
  | some t => [Direction.north, Direction.west].filterMap (c.clashToward m x y id t)

def rowClashes (c : Catalog) (m : TileMap) (y : Nat) : Nat → List String → List Clash
  | _, [] => []
  | x, id :: row => c.cellClashes m x y id ++ c.rowClashes m y (x + 1) row

def clashesFrom (c : Catalog) (m : TileMap) : Nat → TileMap → List Clash
  | _, [] => []
  | y, row :: rows => c.rowClashes m y 0 row ++ c.clashesFrom m (y + 1) rows

/-- All violations, by rows, and in a row from west to east. -/
def clashes (c : Catalog) (m : TileMap) : List Clash := c.clashesFrom m 0 m

/-- Tiles that fit between whatever lies around a place. -/
def suggestions (c : Catalog) (m : TileMap) (x y : Nat) : List String :=
  c.placements (m.around x y)

end Catalog

end TileGrammar
