import TileGrammar.Edge.Signature

/-!
# Catalog of tiles by their edges

Tiles registered with a signature, and an index from signatures to the tiles
that carry them. Registering a tile again moves it in the index. A tile that
is not registered blocks nothing, so a catalog may be filled in bit by bit.
-/

set_option autoImplicit false

namespace TileGrammar

/-- One side of a tile: its edge code and the codes it takes on the far side. -/
structure Face where
  direction : Direction
  code : EdgeCode
  compatible : List EdgeCode
  deriving DecidableEq

namespace Face

def ofCode (d : Direction) (c : EdgeCode) : Face := ⟨d, c, c.compatible⟩

def takes (s : Face) (c : EdgeCode) : Bool := s.compatible.contains c

end Face

structure Tile where
  id : String
  signature : Signature
  faces : Sides Face
  deriving DecidableEq

namespace Tile

def ofSignature (id : String) (s : Signature) : Tile :=
  ⟨id, s, Sides.ofFn fun d => .ofCode d (Sides.get s d)⟩

def fitsBeside (t other : Tile) (d : Direction) : Bool :=
  (t.faces.get d).takes (Sides.get other.signature d.opposite)

end Tile

/-- The tiles around a place, where there are any. -/
abbrev Surroundings := Sides (Option String)

structure Catalog where
  tiles : Dict Tile
  bySignature : Dict (List String)

namespace Catalog

def empty : Catalog := ⟨∅, ∅⟩

def size (c : Catalog) : Nat := c.tiles.size

def get? (c : Catalog) (id : String) : Option Tile := c.tiles.get? id

def ids (c : Catalog) : List String := c.tiles.keys

/-- Takes a tile out of the index entry of a signature; an empty entry goes. -/
def unlist (id : String) (s : Signature) (index : Dict (List String)) : Dict (List String) :=
  match index.get? s.text with
  | none => index
  | some listed =>
    let left := listed.filter (· ≠ id)
    if left.isEmpty then index.erase s.text else index.insert s.text left

def enlist (id : String) (s : Signature) (index : Dict (List String)) : Dict (List String) :=
  index.insert s.text ((index.get? s.text).getD [] ++ [id])

def register (c : Catalog) (id : String) (s : Signature) : Catalog :=
  let index := match c.tiles.get? id with
    | some previous => unlist id previous.signature c.bySignature
    | none => c.bySignature
  ⟨c.tiles.insert id (.ofSignature id s), enlist id s index⟩

def registerAll (c : Catalog) (tiles : List (String × Signature)) : Catalog :=
  tiles.foldl (fun c t => c.register t.1 t.2) c

theorem registerAll_append (c : Catalog) (ts us : List (String × Signature)) :
    c.registerAll (ts ++ us) = (c.registerAll ts).registerAll us := List.foldl_append

def withSignature (c : Catalog) (s : Signature) : List String :=
  (c.bySignature.get? s.text).getD []

/-- A registered neighbor fits this side; one that is not registered always does. -/
def fitsSide (c : Catalog) (t : Tile) (around : Surroundings) (d : Direction) : Bool :=
  match (around.get d).bind c.get? with
  | some neighbor => t.fitsBeside neighbor d
  | none => true

def fits (c : Catalog) (id : String) (around : Surroundings) : Bool :=
  match c.get? id with
  | none => true
  | some t => Direction.all.all (c.fitsSide t around)

def placements (c : Catalog) (around : Surroundings) : List String :=
  c.ids.filter fun id => c.fits id around

/-- Tiles that may lie on one side of a tile. One that is not registered takes them all. -/
def compatibleToward (c : Catalog) (id : String) (d : Direction) : List String :=
  match c.get? id with
  | none => c.ids
  | some t =>
    let face := t.faces.get d
    (c.tiles.values.filter fun other =>
      face.takes (Sides.get other.signature d.opposite)).map Tile.id

def adjacency (c : Catalog) : Dict (Sides (List String)) :=
  c.tiles.mapEntries fun id _ => Sides.ofFn (c.compatibleToward id)

end Catalog

end TileGrammar
