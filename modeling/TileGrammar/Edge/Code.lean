import TileGrammar.Json.Record

/-!
# Edge codes

What the boundary of a tile is made of. A table says which codes may lie on
the far side of a code. The table is read one way only: that a code takes
another says nothing about the other taking it.
-/

set_option autoImplicit false

namespace TileGrammar

inductive EdgeCode where
  | empty
  | solid
  | floor
  | water
  | cliff
  | doorFrame
  | window
  | fence
  | bridge
  | lava
  | pit
  | grass
  | sand
  | stone
  | wood
  | metal
  deriving DecidableEq, Repr, Inhabited

namespace EdgeCode

def all : List EdgeCode :=
  [.empty, .solid, .floor, .water, .cliff, .doorFrame, .window, .fence,
   .bridge, .lava, .pit, .grass, .sand, .stone, .wood, .metal]

def rank : EdgeCode → Nat
  | .empty => 0
  | .solid => 1
  | .floor => 2
  | .water => 3
  | .cliff => 4
  | .doorFrame => 5
  | .window => 6
  | .fence => 7
  | .bridge => 8
  | .lava => 9
  | .pit => 10
  | .grass => 11
  | .sand => 12
  | .stone => 13
  | .wood => 14
  | .metal => 15

def ofRank? (n : Nat) : Option EdgeCode := all[n]?

def name : EdgeCode → String
  | .empty => "empty"
  | .solid => "solid"
  | .floor => "floor"
  | .water => "water"
  | .cliff => "cliff"
  | .doorFrame => "door_frame"
  | .window => "window"
  | .fence => "fence"
  | .bridge => "bridge"
  | .lava => "lava"
  | .pit => "pit"
  | .grass => "grass"
  | .sand => "sand"
  | .stone => "stone"
  | .wood => "wood"
  | .metal => "metal"

/-- The name as one word with capitals, as messages show it. -/
def title : EdgeCode → String
  | .empty => "Empty"
  | .solid => "Solid"
  | .floor => "Floor"
  | .water => "Water"
  | .cliff => "Cliff"
  | .doorFrame => "DoorFrame"
  | .window => "Window"
  | .fence => "Fence"
  | .bridge => "Bridge"
  | .lava => "Lava"
  | .pit => "Pit"
  | .grass => "Grass"
  | .sand => "Sand"
  | .stone => "Stone"
  | .wood => "Wood"
  | .metal => "Metal"

/-- A few words for whoever draws the edge. -/
def phrase : EdgeCode → String
  | .empty => "open/empty"
  | .solid => "solid wall"
  | .floor => "floor level"
  | .water => "water edge"
  | .cliff => "cliff/drop"
  | .doorFrame => "door frame"
  | .window => "window opening"
  | .fence => "fence/railing"
  | .bridge => "bridge connection"
  | .lava => "lava edge"
  | .pit => "pit edge"
  | .grass => "grass edge"
  | .sand => "sand edge"
  | .stone => "stone texture"
  | .wood => "wood texture"
  | .metal => "metal texture"

/-- Codes that may lie on the far side. -/
def compatible : EdgeCode → List EdgeCode
  | .empty => [.empty, .floor, .grass, .sand]
  | .solid => [.solid, .stone, .wood, .metal]
  | .floor => [.floor, .empty, .doorFrame, .grass]
  | .water => [.water, .sand, .bridge]
  | .cliff => [.cliff, .stone, .empty]
  | .doorFrame => [.doorFrame, .floor, .solid]
  | .window => [.window, .solid]
  | .fence => [.fence, .floor, .grass]
  | .bridge => [.bridge, .water, .floor]
  | .lava => [.lava, .stone]
  | .pit => [.pit, .floor, .stone]
  | .grass => [.grass, .floor, .empty, .sand]
  | .sand => [.sand, .water, .grass, .empty]
  | .stone => [.stone, .solid, .cliff, .lava]
  | .wood => [.wood, .solid, .floor]
  | .metal => [.metal, .solid]

def takes (mine theirs : EdgeCode) : Bool := mine.compatible.contains theirs

def codec : Codec EdgeCode := Codec.named all name

theorem mem_all (c : EdgeCode) : c ∈ all := by cases c <;> decide

theorem ofRank?_rank (c : EdgeCode) : ofRank? c.rank = some c := by
  cases c <;> rfl

end EdgeCode

end TileGrammar
