import TileGrammar.FileTree
import TileGrammar.Palette.Palette

/-!
# Sets of palettes

Palettes by id, the ones that come with the library, and the palettes of a
file. A file writes colors in base sixteen and cannot restrict dithering or
transparency.
-/

set_option autoImplicit false

namespace TileGrammar

structure PaletteSet where
  palettes : Dict Palette

namespace PaletteSet

def empty : PaletteSet := ⟨∅⟩

def register (r : PaletteSet) (p : Palette) : PaletteSet := ⟨r.palettes.insert p.id p⟩

def registerAll (r : PaletteSet) (ps : List Palette) : PaletteSet :=
  ps.foldl register r

def get? (r : PaletteSet) (id : String) : Option Palette := r.palettes.get? id

def list (r : PaletteSet) : List Palette := r.palettes.values

def withTag (r : PaletteSet) (tag : String) : List Palette :=
  r.list.filter fun p => p.tags.contains tag

def inBiome (r : PaletteSet) (biome : String) : List Palette :=
  r.list.filter fun p => p.biomes.contains biome

/-- The palette of an id as lit at a position of the lighting dial. -/
def lit? (r : PaletteSet) (id : String) (lighting : UInt8) : Option Palette :=
  (r.get? id).map fun p => p.litAt lighting

def shadeNames : List String := ["darkest", "dark", "mid", "light"]

def supplied (id name : String) (hexes tags biomes : List String) : Palette :=
  let colors := (hexes.zip shadeNames).filterMap fun h => (Color.ofHex h.1 (some h.2)).toOption
  { Palette.ofColors id name colors with tags := tags, biomes := biomes }

def suppliedPalettes : List Palette := [
  { supplied "stone_gray" "Stone Gray" ["#1a1a2e", "#4a4a5e", "#8a8a9e", "#cacade"]
      ["stone", "neutral"] ["dungeon", "cave", "crypt"] with
    outlineIndex := some 0, highlightIndex := some 3, shadowIndex := some 1 },
  supplied "stone_gray_4" "Stone Gray (4 color)" ["#1a1a2e", "#5a5a6e", "#9a9aae", "#dadaee"]
    ["stone", "minimal"] [],
  supplied "wood_brown" "Wood Brown" ["#2d1b0e", "#5c3a1d", "#8b5a2b", "#d4a574"]
    ["wood", "warm"] [],
  supplied "nature_green" "Nature Green" ["#1a2e1a", "#2d5a2d", "#4a8a4a", "#8aca8a"]
    ["nature", "organic"] ["forest"],
  supplied "water_blue" "Water Blue" ["#0a1a2e", "#1a4a7e", "#3a7abe", "#7abaee"]
    ["water", "fluid"] [],
  supplied "lava_orange" "Lava Orange" ["#2e0a0a", "#8a1a1a", "#da4a1a", "#faba4a"]
    ["lava", "hot"] ["volcano"],
  supplied "bone_white" "Bone White" ["#2e2a1a", "#6e5a4a", "#beaa8a", "#eee8da"]
    ["bone", "macabre"] ["crypt"],
  supplied "void_purple" "Void Purple" ["#0a0a1e", "#2a1a4e", "#5a3a8e", "#aa7ace"]
    ["void", "magic"] ["void"],
  supplied "sand_yellow" "Sand Yellow" ["#3e2a1a", "#8e6a3a", "#ceaa6a", "#eee8ba"]
    ["sand", "desert"] [],
  supplied "metal_gray" "Metal Gray" ["#1a1a1a", "#4a4a5a", "#8a8a9a", "#dadaea"]
    ["metal", "industrial"] [],
  supplied "blood_red" "Blood Red" ["#1a0a0a", "#4a1a1a", "#8a2a2a", "#ca5a5a"]
    ["blood", "macabre"] [],
  supplied "ice_blue" "Ice Blue" ["#1a2a3e", "#4a6a8e", "#8abaee", "#daeeff"]
    ["ice", "cold"] []]

def standard : PaletteSet := empty.registerAll suppliedPalettes

structure FileColor where
  hex : String
  name : Option String

namespace FileColor

def schema : Schema FileColor where
  blank := ⟨"", none⟩
  fields := [
    .of "hex" .required .text FileColor.hex fun c v => { c with hex := v },
    .of "name" .defaulted (.nullable .text) FileColor.name fun c v => { c with name := v }]

def toColor (c : FileColor) : Except Error Color := Color.ofHex c.hex c.name

end FileColor

/-- A palette as a file writes it: the rest of the palette, and its colors in writing. -/
structure FilePalette where
  palette : Palette
  colors : List FileColor

namespace FilePalette

def lift (f : Field Palette) : Field FilePalette where
  name := f.name
  presence := f.presence
  write e := f.write e.palette
  read j e := (f.read j e.palette).map fun p => { e with palette := p }

def colorField : Field FilePalette :=
  .of "colors" .required (.listOf FileColor.schema.codec) FilePalette.colors
    fun e v => { e with colors := v }

/-- The fields of a palette in their order, without the two permissions. -/
def schema : Schema FilePalette where
  blank := ⟨Palette.schema.blank, []⟩
  fields := (Palette.schema.fields.filter fun f =>
      f.name ≠ "allow_dithering" && f.name ≠ "allow_transparency").map fun f =>
    if f.name = "colors" then colorField else lift f

def toPalette (e : FilePalette) : Except Error Palette := do
  let colors ← e.colors.mapM FileColor.toColor
  .ok { e.palette with colors := colors }

end FilePalette

/-- The document in a file: nothing but its list of palettes. -/
def fileSchema : Schema (List FilePalette) where
  blank := []
  fields := [
    .of "palettes" .required (.listOf FilePalette.schema.codec) id fun _ v => v]

def ofFile : FileContent → Except Error PaletteSet
  | .text s => do
    let entries ← orFail .malformed (fileSchema.codec.ofText? s)
    let palettes ← entries.mapM FilePalette.toPalette
    .ok (empty.registerAll palettes)
  | _ => .error .unreadableFile

def standardWith : Option FileContent → Except Error PaletteSet
  | none => .ok standard
  | some file => do
    let extra ← ofFile file
    .ok (standard.registerAll extra.list)

end PaletteSet

end TileGrammar
