import TileGrammar.Edge.Signature
import TileGrammar.Text.Basic

/-!
# Tile grammars

A grammar says what one tile is: its category and center, its size and edges,
its palette, and where its dials stand. How the tile looks is not part of it.
The generation id is made of the fields that tell tiles apart.
-/

set_option autoImplicit false

namespace TileGrammar

inductive GridSize where
  | tiny
  | small
  | medium
  | large
  | extraLarge
  deriving DecidableEq, Repr

namespace GridSize

def all : List GridSize := [.tiny, .small, .medium, .large, .extraLarge]

def side : GridSize → Nat
  | .tiny => 4
  | .small => 8
  | .medium => 16
  | .large => 24
  | .extraLarge => 32

def name (s : GridSize) : String := decimal s.side ++ "x" ++ decimal s.side

def extent (s : GridSize) : Nat × Nat := (s.side, s.side)

def codec : Codec GridSize := Codec.named all name

end GridSize

inductive Style where
  | pixel
  | comic
  | highContrast
  | dithered
  | flat
  | textured
  deriving DecidableEq, Repr

namespace Style

def all : List Style := [.pixel, .comic, .highContrast, .dithered, .flat, .textured]

def name : Style → String
  | .pixel => "pixel"
  | .comic => "comic"
  | .highContrast => "high_contrast"
  | .dithered => "dithered"
  | .flat => "flat"
  | .textured => "textured"

/-- A few words for whoever draws the tile. -/
def phrase : Style → String
  | .pixel => "hard pixel edges"
  | .comic => "outlined comic style"
  | .highContrast => "high contrast light/dark"
  | .dithered => "dithered shading"
  | .flat => "flat solid colors"
  | .textured => "subtle texture variation"

def codec : Codec Style := Codec.named all name

end Style

structure Grammar where
  category : String
  subcategory : Option String
  size : GridSize
  palette : String
  edges : Signature
  center : String
  styles : List Style
  damage : UInt8
  lighting : UInt8
  moisture : UInt8
  age : UInt8
  tags : List String
  biomes : List String
  deriving DecidableEq

namespace Grammar

/-- The grammar with nothing but a category and a palette filled in. -/
def ofCategory (category palette : String) : Grammar where
  category := category
  subcategory := none
  size := .small
  palette := palette
  edges := Signature.blank
  center := "empty"
  styles := [.pixel]
  damage := 0
  lighting := 1
  moisture := 0
  age := 0
  tags := []
  biomes := []

def dial (g : Grammar) : Dial → UInt8
  | .damage => g.damage
  | .lighting => g.lighting
  | .moisture => g.moisture
  | .age => g.age

def withDials (g : Grammar) (damage lighting moisture age : UInt8) : Grammar :=
  { g with damage := damage, lighting := lighting, moisture := moisture, age := age }

def checkDial (g : Grammar) (d : Dial) : Except Error Unit :=
  if d.limit < (g.dial d).toNat then .error (.dialRange d (g.dial d).toNat) else .ok ()

def check (g : Grammar) : Except Error Unit :=
  if blankText g.category then .error .blankCategory
  else if blankText g.palette then .error .blankPalette
  else Dial.all.forM g.checkDial

/-- Combinations of dial positions up to where the dials stand. -/
def dialCombinations (g : Grammar) : Nat :=
  (g.damage.toNat + 1) * (g.lighting.toNat + 1) * (g.moisture.toNat + 1) * (g.age.toNat + 1)

def subcategoryText (g : Grammar) : String := g.subcategory.getD "base"

def tileId (g : Grammar) : String :=
  g.category ++ "." ++ g.subcategoryText ++ "." ++ g.center ++ "." ++ Signature.text g.edges ++
    ".d" ++ decimal g.damage.toNat ++ ".l" ++ decimal g.lighting.toNat ++
    ".m" ++ decimal g.moisture.toNat ++ ".a" ++ decimal g.age.toNat

def schema : Schema Grammar where
  blank := ofCategory "" ""
  fields := [
    .of "category" .required .text Grammar.category fun g v => { g with category := v },
    .of "subcategory" .defaulted (.nullable .text) Grammar.subcategory
      fun g v => { g with subcategory := v },
    .of "size" .defaulted GridSize.codec Grammar.size fun g v => { g with size := v },
    .of "palette" .required .text Grammar.palette fun g v => { g with palette := v },
    .of "edges" .defaulted Signature.codec Grammar.edges fun g v => { g with edges := v },
    .of "center" .defaulted .text Grammar.center fun g v => { g with center := v },
    .of "styles" .defaulted (.listOf Style.codec) Grammar.styles fun g v => { g with styles := v },
    .of "damage_state" .defaulted .word8 Grammar.damage fun g v => { g with damage := v },
    .of "lighting_state" .defaulted .word8 Grammar.lighting fun g v => { g with lighting := v },
    .of "moisture_state" .defaulted .word8 Grammar.moisture fun g v => { g with moisture := v },
    .of "age_state" .defaulted .word8 Grammar.age fun g v => { g with age := v },
    .of "tags" .defaulted (.listOf .text) Grammar.tags fun g v => { g with tags := v },
    .of "biome_affinity" .defaulted (.listOf .text) Grammar.biomes fun g v => { g with biomes := v }]

def codec : Codec Grammar := schema.codec

end Grammar

/-- Grammars of common tiles by name, for use when no pack is at hand. -/
def commonGrammars : Dict Grammar := Dict.ofList [
  ("wall.solid", { Grammar.ofCategory "wall" "stone_gray" with
    subcategory := some "solid", edges := Signature.onAllSides .solid, center := "stone",
    styles := [.pixel, .textured] }),
  ("wall.corner.ne", { Grammar.ofCategory "wall" "stone_gray" with
    subcategory := some "corner", edges := ⟨.solid, .solid, .empty, .empty⟩, center := "stone" }),
  ("floor.stone", { Grammar.ofCategory "floor" "stone_gray" with
    subcategory := some "stone", edges := Signature.onAllSides .floor, center := "stone_floor",
    styles := [.pixel, .flat] }),
  ("floor.grass", { Grammar.ofCategory "floor" "nature_green" with
    subcategory := some "grass", edges := Signature.onAllSides .grass, center := "grass",
    styles := [.pixel, .textured], biomes := ["forest", "ruins"] }),
  ("water.shallow", { Grammar.ofCategory "fluid" "water_blue" with
    subcategory := some "water", edges := Signature.onAllSides .water, center := "water",
    styles := [.pixel, .dithered] }),
  ("door.wood", { Grammar.ofCategory "door" "wood_brown" with
    subcategory := some "wood", edges := ⟨.doorFrame, .solid, .doorFrame, .solid⟩,
    center := "door" })]

end TileGrammar
