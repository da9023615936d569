import TileGrammar.Error
import TileGrammar.FileTree
import TileGrammar.Version

/-!
# Settings

What a file may set for compiling and for validating. Every field has a
default, and a missing file sets nothing. The version of the registry has to
be a semantic version, and at least one color must be allowed. The policy that
drawn tiles are judged by is made of the settings for validating.
-/

set_option autoImplicit false

namespace TileGrammar

structure CompilerSettings where
  registryVersion : String
  registryDescription : String
  /-- Refuse categories without facets of their own. -/
  strictCategories : Bool
  deriving DecidableEq

namespace CompilerSettings

def standard : CompilerSettings :=
  ⟨"1.0.0", "Auto-generated glyph registry from tile compiler", false⟩

def schema : Schema CompilerSettings where
  blank := standard
  fields := [
    .of "registry_version" .defaulted .text CompilerSettings.registryVersion
      fun c v => { c with registryVersion := v },
    .of "registry_description" .defaulted .text CompilerSettings.registryDescription
      fun c v => { c with registryDescription := v },
    .of "strict_categories" .defaulted .flag CompilerSettings.strictCategories
      fun c v => { c with strictCategories := v }]

end CompilerSettings

structure ValidationSettings where
  strict : Bool
  colorTolerance : Option UInt8
  defaultMaxColors : UInt64
  deriving DecidableEq

namespace ValidationSettings

def standard : ValidationSettings := ⟨true, none, 4⟩

def schema : Schema ValidationSettings where
  blank := standard
  fields := [
    .of "strict" .defaulted .flag ValidationSettings.strict fun c v => { c with strict := v },
    .of "color_tolerance" .defaulted (.nullable .word8) ValidationSettings.colorTolerance
      fun c v => { c with colorTolerance := v },
    .of "default_max_colors" .defaulted .word64 ValidationSettings.defaultMaxColors
      fun c v => { c with defaultMaxColors := v }]

end ValidationSettings

structure Settings where
  compiler : CompilerSettings
  validator : ValidationSettings
  deriving DecidableEq

namespace Settings

def standard : Settings := ⟨.standard, .standard⟩

def schema : Schema Settings where
  blank := standard
  fields := [
    .of "compiler" .defaulted CompilerSettings.schema.codec Settings.compiler
      fun c v => { c with compiler := v },
    .of "validator" .defaulted ValidationSettings.schema.codec Settings.validator
      fun c v => { c with validator := v }]

def codec : Codec Settings := schema.codec

def check (c : Settings) : Except Error Unit :=
  if (Version.ofText? c.compiler.registryVersion).isNone then
    .error (.registryVersion c.compiler.registryVersion)
  else if c.validator.defaultMaxColors = 0 then .error .noColorBudget
  else .ok ()

def ofFile : FileContent → Except Error Settings
  | .missing => .ok standard
  | .unreadable => .error .unreadableFile
  | .text s => do
    let config ← orFail .malformed (codec.ofText? s)
    config.check
    .ok config

end Settings

/-- How strictly drawn tiles are judged. A tolerance of zero asks for the exact colors of the
palette. -/
structure Policy where
  /-- Too many colors are an error and no mere warning. -/
  strict : Bool
  /-- How far a channel may be from the palette. -/
  tolerance : UInt8
  /-- The number of colors for tiles without a palette. -/
  maxColors : UInt64
  deriving DecidableEq

namespace Policy

def strictest : Policy := ⟨true, 0, 4⟩

def lenient : Policy := ⟨false, 10, 4⟩

def ofStrictness (strict : Bool) : Policy := if strict then strictest else lenient

def ofSettings (c : ValidationSettings) : Policy :=
  let base := ofStrictness c.strict
  { base with
    tolerance := c.colorTolerance.getD base.tolerance
    maxColors := c.defaultMaxColors }

end Policy

end TileGrammar
