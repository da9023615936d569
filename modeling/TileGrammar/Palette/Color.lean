import TileGrammar.Error
import TileGrammar.Order.Dict

/-!
# Colors

Four channels of eight bits, and colors of a palette, which may have a name.
In writing, a color is a hash mark and two digits in base sixteen for each
channel; the last channel is left out when it is opaque. A color can be shifted
towards white or towards black by a factor.
-/

set_option autoImplicit false

namespace TileGrammar

/-- A pixel: red, green, blue and alpha. -/
structure Rgba where
  r : UInt8
  g : UInt8
  b : UInt8
  a : UInt8
  deriving DecidableEq, Repr

namespace Rgba

def clear : Rgba := ⟨0, 0, 0, 0⟩

def isClear (p : Rgba) : Bool := p.a = 0

def channels (p : Rgba) : List UInt8 := [p.r, p.g, p.b, p.a]

/-- The channels as one number, red first. Pixels are ordered by it. -/
def rank (p : Rgba) : Nat :=
  ((p.r.toNat * 256 + p.g.toNat) * 256 + p.b.toNat) * 256 + p.a.toNat

def ofBytes? : List UInt8 → Option Rgba
  | [r, g, b, a] => some ⟨r, g, b, a⟩
  | _ => none

def codec : Codec Rgba := (Codec.listOf .word8).via channels ofBytes?

def text (p : Rgba) : String :=
  "[" ++ ", ".intercalate (p.channels.map fun c => decimal c.toNat) ++ "]"

def distinct (ps : List Rgba) : List Rgba := sortedSetBy rank ps

end Rgba

structure Color where
  r : UInt8
  g : UInt8
  b : UInt8
  a : UInt8
  name : Option String
  deriving DecidableEq, Repr

namespace Color

def rgba (c : Color) : Rgba := ⟨c.r, c.g, c.b, c.a⟩

def readChannel? (high low : Char) : Option UInt8 :=
  (readHexWord? 8 [high, low]).map UInt8.ofNat

/-- Any number of hash marks may stand in front of the digits. -/
def ofDigits? (name : Option String) : List Char → Option Color
  | [r, r', g, g', b, b'] => do
    some ⟨← readChannel? r r', ← readChannel? g g', ← readChannel? b b', 255, name⟩
  | [r, r', g, g', b, b', a, a'] => do
    some ⟨← readChannel? r r', ← readChannel? g g', ← readChannel? b b', ← readChannel? a a', name⟩
  | _ => none

def ofHex (hex : String) (name : Option String) : Except Error Color :=
  orFail (.hexColor hex) (ofDigits? name (hex.toList.dropWhile (· = '#')))

def hex (c : Color) : String :=
  let channels := if c.a = 255 then [c.r, c.g, c.b] else [c.r, c.g, c.b, c.a]
  "#" ++ String.join (channels.map fun v => hexLower 2 v.toNat)

/-- A channel moved towards full by a factor, cut off at both ends. -/
def lift (factor : Float) (c : UInt8) : UInt8 :=
  let x := c.toNat.toFloat
  let y := x + (255.0 - x) * factor
  (if y < 255.0 then y else 255.0).toUInt8

def sink (factor : Float) (c : UInt8) : UInt8 :=
  let y := c.toNat.toFloat * (1.0 - factor)
  (if 0.0 < y then y else 0.0).toUInt8

def towardWhite (factor : Float) (c : Color) : Color :=
  ⟨lift factor c.r, lift factor c.g, lift factor c.b, c.a, c.name.map (· ++ "_light")⟩

def towardBlack (factor : Float) (c : Color) : Color :=
  ⟨sink factor c.r, sink factor c.g, sink factor c.b, c.a, c.name.map (· ++ "_dark")⟩

def schema : Schema Color where
  blank := ⟨0, 0, 0, 255, none⟩
  fields := [
    .of "r" .required .word8 Color.r fun c v => { c with r := v },
    .of "g" .required .word8 Color.g fun c v => { c with g := v },
    .of "b" .required .word8 Color.b fun c v => { c with b := v },
    .of "a" .defaulted .word8 Color.a fun c v => { c with a := v },
    .of "name" .defaulted (.nullable .text) Color.name fun c v => { c with name := v }]

def codec : Codec Color := schema.codec

end Color

end TileGrammar
