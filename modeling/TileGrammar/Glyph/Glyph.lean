import TileGrammar.Digest.Sha256
import TileGrammar.Error
import TileGrammar.Glyph.Facet

/-!
# Glyphs

A compiled tile: its id, its codepoint, a character for plain displays, and
its facets. A biome may override fields of a glyph. An override that is an
object changes the named parts of a field that is one; every other override
takes the place of the field. The result is read back as a glyph. Fonts are
built from a set of glyphs, whose digest is taken of its canonical text, so
that whoever reads the document can check it.
-/

set_option autoImplicit false

namespace TileGrammar

namespace Json

mutual

/-- Equality where doubles are compared as numbers. -/
def same : Json → Json → Bool
  | .null, .null => true
  | .bool a, .bool b => a == b
  | .int i, .int j => i == j
  | .float x, .float y => x == y
  | .str s, .str t => s == t
  | .arr xs, .arr ys => sameItems xs ys
  | .obj ms, .obj ns => sameMembers ms ns
  | _, _ => false

def sameItems : List Json → List Json → Bool
  | [], [] => true
  | x :: xs, y :: ys => same x y && sameItems xs ys
  | _, _ => false

def sameMembers : List (String × Json) → List (String × Json) → Bool
  | [], [] => true
  | (k, x) :: ms, (l, y) :: ns => k == l && same x y && sameMembers ms ns
  | _, _ => false

end

def patch (members changes : List (String × Json)) : List (String × Json) :=
  changes.foldl (fun ms c => putMember c.1 c.2 ms) members

/-- A patch that goes one level into members that are objects on both sides. -/
def overlay (members changes : List (String × Json)) : List (String × Json) :=
  changes.foldl (fun ms c => match Dict.lookupIn c.1 ms, c.2 with
    | some (.obj inner), .obj inside => putMember c.1 (.obj (patch inner inside)) ms
    | _, value => putMember c.1 value ms) members

end Json

structure Glyph where
  id : String
  codepoint : Codepoint
  char : Char
  name : String
  category : Band
  tags : List String
  variant : Option String
  physics : Physics
  visual : Visual
  audio : Audio
  narrative : Narrative
  appraisal : Appraisal
  biomeVariants : SettledDict

namespace Glyph

def blank : Glyph where
  id := ""
  codepoint := ⟨0⟩
  char := ' '
  name := ""
  category := .empty
  tags := []
  variant := none
  physics := .plain
  visual := .plain
  audio := .plain
  narrative := .plain
  appraisal := .plain
  biomeVariants := ∅

def schema : Schema Glyph where
  blank := blank
  fields := [
    .of "id" .required .text Glyph.id fun g v => { g with id := v },
    .of "codepoint" .required Codepoint.codec Glyph.codepoint
      fun g v => { g with codepoint := v },
    .of "char" .required .character Glyph.char fun g v => { g with char := v },
    .of "name" .required .text Glyph.name fun g v => { g with name := v },
    .of "category" .required Band.codec Glyph.category fun g v => { g with category := v },
    .of "tags" .defaulted (.listOf .text) Glyph.tags fun g v => { g with tags := v },
    .of "variant" .defaulted (.nullable .text) Glyph.variant fun g v => { g with variant := v },
    .of "physics" .defaulted Physics.schema.codec Glyph.physics
      fun g v => { g with physics := v },
    .of "visual" .defaulted Visual.schema.codec Glyph.visual fun g v => { g with visual := v },
    .of "audio" .defaulted Audio.schema.codec Glyph.audio fun g v => { g with audio := v },
    .of "narrative" .defaulted Narrative.schema.codec Glyph.narrative
      fun g v => { g with narrative := v },
    .of "llm" .defaulted Appraisal.schema.codec Glyph.appraisal
      fun g v => { g with appraisal := v },
    .of "biome_variants" .defaulted .settledDict Glyph.biomeVariants
      fun g v => { g with biomeVariants := v }]

def codec : Codec Glyph := schema.codec

def same (g h : Glyph) : Bool :=
  g.id = h.id && g.codepoint = h.codepoint && g.char = h.char && g.name = h.name &&
  g.category = h.category && g.tags = h.tags && g.variant = h.variant &&
  g.physics.same h.physics && g.visual = h.visual && g.audio.same h.audio &&
  g.narrative = h.narrative && g.appraisal.same h.appraisal &&
  Json.sameMembers g.biomeVariants.entries h.biomeVariants.entries

def members (g : Glyph) : List (String × Json) := schema.fields.map fun f => (f.name, f.write g)

/-- The glyph with the overrides of a biome. A biome without an entry changes nothing. -/
def inBiome (g : Glyph) (biome : String) : Except Error Glyph :=
  match g.biomeVariants.get? biome with
  | none => .ok g
  | some (.obj changes) => orFail .malformed (codec.decode (.obj (Json.overlay g.members changes)))
  | some _ => .error (.biomeOverride biome g.id)

end Glyph

/-- The digest of a value, whatever the order of its members. -/
def digestOf {α : Type} (c : Codec α) (a : α) : String :=
  Sha256.digestText (c.encode a).canonical

structure GlyphSet where
  version : String
  description : String
  glyphs : List Glyph

namespace GlyphSet

def schema : Schema GlyphSet where
  blank := ⟨"", "", []⟩
  fields := [
    .of "version" .required .text GlyphSet.version fun r v => { r with version := v },
    .of "description" .required .text GlyphSet.description
      fun r v => { r with description := v },
    .of "glyphs" .required (.listOf Glyph.codec) GlyphSet.glyphs
      fun r v => { r with glyphs := v }]

def codec : Codec GlyphSet := schema.codec

def ofText (s : String) : Except Error GlyphSet := orFail .malformed (codec.ofText? s)

def text (r : GlyphSet) : String := (codec.encode r).pretty

def digest (r : GlyphSet) : String := digestOf codec r

def get? (r : GlyphSet) (id : String) : Option Glyph := r.glyphs.find? fun g => g.id = id

def atCodepoint? (r : GlyphSet) (c : Codepoint) : Option Glyph :=
  r.glyphs.find? fun g => g.codepoint = c

end GlyphSet

end TileGrammar
