import TileGrammar.Json.Record
import TileGrammar.Text.Quoted

/-!
# Codepoints and their bands

A codepoint is a word of 32 bits, written `U+` and at least four digits in
base sixteen. The private use area from `U+E000` on is cut into bands of 256
codepoints, one for each category of glyphs, in the order of the categories.
-/

set_option autoImplicit false

namespace TileGrammar

structure Codepoint where
  value : UInt32
  deriving DecidableEq, Repr

namespace Codepoint

def text (c : Codepoint) : String := "U+" ++ hexUpper 4 c.value.toNat

/-- What keeps a text from being a codepoint. -/
inductive Fault where
  | mark
  | digits
  deriving DecidableEq

def parse (s : String) : Except Fault Codepoint :=
  match s.toList with
  | 'U' :: '+' :: cs => match readHexWord? 32 cs with
    | some n => .ok ⟨UInt32.ofNat n⟩
    | none => .error .digits
  | _ => .error .mark

def ofText? (s : String) : Option Codepoint := (parse s).toOption

/-- The character of a codepoint, where it is one. -/
def char? (c : Codepoint) : Option Char :=
  if h : c.value.toNat.isValidChar then some ⟨c.value, h⟩ else none

def codec : Codec Codepoint := Codec.text.via text ofText?

end Codepoint

/-- Categories of glyphs. Each owns a band of codepoints. -/
inductive Band where
  | empty
  | ground
  | wall
  | door
  | fluid
  | prop
  | item
  | entity
  | effect
  | ui
  | overlay
  | animation
  deriving DecidableEq, Repr

namespace Band

def all : List Band :=
  [.empty, .ground, .wall, .door, .fluid, .prop, .item, .entity, .effect, .ui, .overlay, .animation]

def rank : Band → Fin 12
  | .empty => 0
  | .ground => 1
  | .wall => 2
  | .door => 3
  | .fluid => 4
  | .prop => 5
  | .item => 6
  | .entity => 7
  | .effect => 8
  | .ui => 9
  | .overlay => 10
  | .animation => 11

def name : Band → String
  | .empty => "empty"
  | .ground => "ground"
  | .wall => "wall"
  | .door => "door"
  | .fluid => "fluid"
  | .prop => "prop"
  | .item => "item"
  | .entity => "entity"
  | .effect => "effect"
  | .ui => "ui"
  | .overlay => "overlay"
  | .animation => "animation"

def width : Nat := 256

def first (b : Band) : Nat := 0xE000 + width * b.rank

def last (b : Band) : Nat := b.first + width - 1

def contains (b : Band) (c : Codepoint) : Bool :=
  b.first ≤ c.value.toNat && c.value.toNat ≤ b.last

def ofCodepoint? (c : Codepoint) : Option Band := all.find? fun b => b.contains c

def codec : Codec Band := Codec.named all name

end Band

end TileGrammar
