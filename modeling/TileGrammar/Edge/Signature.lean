import TileGrammar.Edge.Code
import TileGrammar.Error

/-!
# Sides and signatures

Something for each of the four sides of a tile, and in particular an edge code
for each. Signatures turn and reflect as the tile does. In writing, a signature
is four digits in base sixteen, from the north side clockwise.
-/

set_option autoImplicit false

namespace TileGrammar

inductive Direction where
  | north
  | east
  | south
  | west
  deriving DecidableEq, Repr

namespace Direction

def all : List Direction := [.north, .east, .south, .west]

def name : Direction → String
  | .north => "north"
  | .east => "east"
  | .south => "south"
  | .west => "west"

def title : Direction → String
  | .north => "North"
  | .east => "East"
  | .south => "South"
  | .west => "West"

def opposite : Direction → Direction
  | .north => .south
  | .east => .west
  | .south => .north
  | .west => .east

def codec : Codec Direction := Codec.named all name

theorem mem_all (d : Direction) : d ∈ all := by cases d <;> decide

end Direction

structure Sides (α : Type) where
  north : α
  east : α
  south : α
  west : α
  deriving DecidableEq, Repr

namespace Sides

variable {α : Type}

def onAllSides (a : α) : Sides α := ⟨a, a, a, a⟩

def get (s : Sides α) : Direction → α
  | .north => s.north
  | .east => s.east
  | .south => s.south
  | .west => s.west

def ofFn (f : Direction → α) : Sides α := ⟨f .north, f .east, f .south, f .west⟩

def toList (s : Sides α) : List α := [s.north, s.east, s.south, s.west]

/-- One quarter turn clockwise. -/
def turn (s : Sides α) : Sides α := ⟨s.west, s.north, s.east, s.south⟩

def reflect (s : Sides α) : Sides α := ⟨s.north, s.west, s.south, s.east⟩

def reflectVertical (s : Sides α) : Sides α := ⟨s.south, s.east, s.north, s.west⟩

def turnTimes : Nat → Sides α → Sides α
  | 0, s => s
  | n + 1, s => turnTimes n s.turn

/-- Quarter turns clockwise, counter-clockwise when negative. -/
def rotate (times : Int) (s : Sides α) : Sides α := turnTimes (times % 4).toNat s

theorem reflect_reflect (s : Sides α) : s.reflect.reflect = s := rfl

theorem reflectVertical_eq (s : Sides α) : s.reflectVertical = s.reflect.turn.turn := rfl

theorem turnTimes_add (m n : Nat) (s : Sides α) :
    turnTimes (m + n) s = turnTimes n (turnTimes m s) := by
  induction m generalizing s with
  | zero => simp [turnTimes]
  | succ m ih =>
    rw [Nat.succ_add]
    exact ih s.turn

@[simp] theorem get_ofFn (f : Direction → α) (d : Direction) : (ofFn f).get d = f d := by
  cases d <;> rfl

end Sides

abbrev Signature := Sides EdgeCode

namespace Signature

def ofEdges (north east south west : EdgeCode) : Signature := ⟨north, east, south, west⟩

def onAllSides (c : EdgeCode) : Signature := Sides.onAllSides c

def isAll (s : Signature) (c : EdgeCode) : Bool := s.toList.all (· == c)

/-- May the other tile lie on this side? Its facing edge is looked up in the
table of the edge here. -/
def fitsBeside (s other : Signature) (d : Direction) : Bool :=
  (Sides.get s d).takes (Sides.get other d.opposite)

def digit (c : EdgeCode) : Char := (Nat.digitChar c.rank).toUpper

def text (s : Signature) : String := String.ofList (s.toList.map digit)

def readDigit (text : String) (c : Char) : Except Error EdgeCode :=
  orFail (.edgeDigit c text) ((hexDigit? c).bind EdgeCode.ofRank?)

def parse (text : String) : Except Error Signature :=
  match text.toList with
  | [n, e, s, w] => do
    let north ← readDigit text n
    let east ← readDigit text e
    let south ← readDigit text s
    let west ← readDigit text w
    .ok ⟨north, east, south, west⟩
  | _ => .error (.edgeCodeLength text)

def blank : Signature := onAllSides .empty

def schema : Schema Signature where
  blank := blank
  fields := [
    .of "north" .defaulted EdgeCode.codec Sides.north fun s c => { s with north := c },
    .of "east" .defaulted EdgeCode.codec Sides.east fun s c => { s with east := c },
    .of "south" .defaulted EdgeCode.codec Sides.south fun s c => { s with south := c },
    .of "west" .defaulted EdgeCode.codec Sides.west fun s c => { s with west := c }]

def codec : Codec Signature := schema.codec

end Signature

end TileGrammar
