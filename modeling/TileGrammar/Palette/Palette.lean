import TileGrammar.Palette.Color

/-!
# Palettes

The colors a tile may use, and what else its palette allows. A palette has a
dark and a bright companion for the lighting dial; the companions shift every
color and go back to the defaults in all that is not carried over.
-/

set_option autoImplicit false

namespace TileGrammar

structure Palette where
  id : String
  name : String
  colors : List Color
  backgroundIndex : UInt64
  outlineIndex : Option UInt64
  highlightIndex : Option UInt64
  shadowIndex : Option UInt64
  maxColors : UInt64
  allowDithering : Bool
  allowTransparency : Bool
  tags : List String
  biomes : List String
  deriving DecidableEq

namespace Palette

def ofColors (id name : String) (colors : List Color) : Palette where
  id := id
  name := name
  colors := colors
  backgroundIndex := 0
  outlineIndex := none
  highlightIndex := none
  shadowIndex := none
  maxColors := 4
  allowDithering := true
  allowTransparency := true
  tags := []
  biomes := []

def colorAt? (p : Palette) (index : Nat) : Option Color := p.colors[index]?

def colorNamed? (p : Palette) (name : String) : Option Color :=
  p.colors.find? fun c => c.name = some name

def hexList (p : Palette) : List String := p.colors.map Color.hex

/-- Pixels a tile may have, the clear one among them where that is allowed. -/
def allowed (p : Palette) : List Rgba :=
  p.colors.map Color.rgba ++ if p.allowTransparency then [Rgba.clear] else []

def companion (p : Palette) (suffix label : String) (shift : Color → Color) : Palette :=
  { ofColors (p.id ++ "_" ++ suffix) (p.name ++ " (" ++ label ++ ")") (p.colors.map shift) with
    backgroundIndex := p.backgroundIndex
    maxColors := p.maxColors
    tags := p.tags ++ [suffix] }

def dark (p : Palette) : Palette := p.companion "dark" "Dark" (Color.towardBlack 0.3)

def bright (p : Palette) : Palette := p.companion "bright" "Bright" (Color.towardWhite 0.2)

/-- The palette a tile is drawn with at a position of the lighting dial. -/
def litAt (p : Palette) (lighting : UInt8) : Palette :=
  if lighting = 0 then p.dark else if lighting = 1 then p else p.bright

def schema : Schema Palette where
  blank := ofColors "" "" []
  fields := [
    .of "id" .required .text Palette.id fun p v => { p with id := v },
    .of "name" .required .text Palette.name fun p v => { p with name := v },
    .of "colors" .required (.listOf Color.codec) Palette.colors fun p v => { p with colors := v },
    .of "background_index" .defaulted .word64 Palette.backgroundIndex
      fun p v => { p with backgroundIndex := v },
    .of "outline_index" .defaulted (.nullable .word64) Palette.outlineIndex
      fun p v => { p with outlineIndex := v },
    .of "highlight_index" .defaulted (.nullable .word64) Palette.highlightIndex
      fun p v => { p with highlightIndex := v },
    .of "shadow_index" .defaulted (.nullable .word64) Palette.shadowIndex
      fun p v => { p with shadowIndex := v },
    .of "max_colors" .defaulted .word64 Palette.maxColors fun p v => { p with maxColors := v },
    .of "allow_dithering" .defaulted .flag Palette.allowDithering
      fun p v => { p with allowDithering := v },
    .of "allow_transparency" .defaulted .flag Palette.allowTransparency
      fun p v => { p with allowTransparency := v },
    .of "tags" .defaulted (.listOf .text) Palette.tags fun p v => { p with tags := v },
    .of "biome_affinity" .defaulted (.listOf .text) Palette.biomes fun p v => { p with biomes := v }]

def codec : Codec Palette := schema.codec

end Palette

end TileGrammar
