import TileGrammar.Glyph.Glyph
import TileGrammar.Proofs.Codepoint.Allocation
import TileGrammar.Proofs.Codepoint.Spelling
import TileGrammar.Proofs.Json.Records

/-!
# The document of a set of glyphs is read back

Facet by facet, then the glyph, then the set: what is written comes back, and
its text is legible at the depth where it stands. Only doubles stand in the
way. A glyph is portable when its six numbers are read back from their text
and no biome changes it.
-/

set_option autoImplicit false

namespace TileGrammar

open Json (Legible depthLimit faithful)

theorem Layer.codec_returns (l : Layer) : codec.Returns l := by cases l <;> rfl

theorem Layer.legible_codec {d : Nat} (l : Layer) : Legible d (codec.encode l) := by
  cases l <;> exact ⟨by decide, by decide⟩

theorem Codepoint.codec_returns (c : Codepoint) : codec.Returns c :=
  Codec.via_returns (Codec.text_returns _) (by rw [ofText?, parse_text]; rfl)

theorem Codepoint.legible_codec {d : Nat} (c : Codepoint) : Legible d (codec.encode c) :=
  Codec.legible_text c.text

theorem Band.codec_returns (b : Band) : codec.Returns b :=
  Codec.named_returns (by decide) b.mem_all

theorem Band.legible_codec {d : Nat} (b : Band) : Legible d (codec.encode b) :=
  Codec.legible_named all name b

section Facets

variable {d : Nat}

theorem Physics.codec_returns {p : Physics} (h : p.movementPenalty.isFinite = true) :
    schema.codec.Returns p := by
  refine Schema.codec_returns (by decide) ?_
  simp [schema, Field.read_encode, Codec.number_returns h]

theorem Physics.legible_codec {p : Physics} (hd : d < depthLimit)
    (h : faithful p.movementPenalty = true) : Legible d (schema.codec.encode p) := by
  refine Schema.legible_codec hd ?_
  simp [schema, Codec.legible_number h]

theorem Visual.codec_returns (v : Visual) : schema.codec.Returns v := by
  refine Schema.codec_returns (by decide) ?_
  simp [schema, Field.read_encode, Layer.codec_returns]

theorem Visual.legible_codec (v : Visual) (hd : d < depthLimit) :
    Legible d (schema.codec.encode v) := by
  refine Schema.legible_codec hd ?_
  simp [schema, Layer.legible_codec]

theorem Audio.codec_returns {a : Audio} (h : a.ambientVolume.isFinite = true) :
    schema.codec.Returns a := by
  refine Schema.codec_returns (by decide) ?_
  simp [schema, Field.read_encode, Codec.number_returns h]

theorem Audio.legible_codec {a : Audio} (hd : d < depthLimit)
    (h : faithful a.ambientVolume = true) : Legible d (schema.codec.encode a) := by
  refine Schema.legible_codec hd ?_
  simp [schema, Codec.legible_number h]

theorem Narrative.codec_returns (n : Narrative) : schema.codec.Returns n := by
  refine Schema.codec_returns (by decide) ?_
  simp [schema, Field.read_encode]

theorem Narrative.legible_codec (n : Narrative) (hd : d + 1 < depthLimit) :
    Legible d (schema.codec.encode n) := by
  refine Schema.legible_codec (Nat.lt_of_succ_lt hd) ?_
  simp [schema, Codec.legible_listOfText hd]

structure Appraisal.Finite (a : Appraisal) : Prop where
  threat : a.threat.isFinite = true
  interest : a.interest.isFinite = true
  utility : a.utility.isFinite = true
  rarity : a.rarity.isFinite = true

structure Appraisal.Faithful (a : Appraisal) : Prop where
  threat : faithful a.threat = true
  interest : faithful a.interest = true
  utility : faithful a.utility = true
  rarity : faithful a.rarity = true

theorem Appraisal.Faithful.finite {a : Appraisal} (h : a.Faithful) : a.Finite :=
  ⟨Codec.isFinite_of_faithful h.threat, Codec.isFinite_of_faithful h.interest,
    Codec.isFinite_of_faithful h.utility, Codec.isFinite_of_faithful h.rarity⟩

theorem Audio.plain_faithful : faithful plain.ambientVolume = true := by decide +kernel

theorem Appraisal.plain_faithful : plain.Faithful :=
  ⟨by decide +kernel, by decide +kernel, by decide +kernel, by decide +kernel⟩

theorem Appraisal.codec_returns {a : Appraisal} (h : a.Finite) : schema.codec.Returns a := by
  refine Schema.codec_returns (by decide) ?_
  simp [schema, Field.read_encode, Codec.number_returns, h.threat, h.interest, h.utility, h.rarity]

theorem Appraisal.legible_codec {a : Appraisal} (hd : d + 1 < depthLimit) (h : a.Faithful) :
    Legible d (schema.codec.encode a) := by
  refine Schema.legible_codec (Nat.lt_of_succ_lt hd) ?_
  simp [schema, Codec.legible_number, h.threat, h.interest, h.utility, h.rarity,
    Codec.legible_listOfText hd]

end Facets

namespace Glyph

/-- The six numbers of a glyph are finite. -/
structure Finite (g : Glyph) : Prop where
  penalty : g.physics.movementPenalty.isFinite = true
  volume : g.audio.ambientVolume.isFinite = true
  appraisal : g.appraisal.Finite

/-- A glyph that is read back from its text. -/
structure Portable (g : Glyph) : Prop where
  penalty : faithful g.physics.movementPenalty = true
  volume : faithful g.audio.ambientVolume = true
  appraisal : g.appraisal.Faithful
  plain : g.biomeVariants = ∅

theorem Portable.finite {g : Glyph} (h : g.Portable) : g.Finite :=
  ⟨Codec.isFinite_of_faithful h.penalty, Codec.isFinite_of_faithful h.volume, h.appraisal.finite⟩

theorem Portable.codec_returns {g : Glyph} (h : g.Portable) : codec.Returns g := by
  have hvariants : Codec.settledDict.Returns g.biomeVariants := by
    rw [h.plain]
    rfl
  refine Schema.codec_returns (by decide) ?_
  simp [schema, Field.read_encode, Codepoint.codec_returns, Band.codec_returns,
    Physics.codec_returns h.finite.penalty, Visual.codec_returns,
    Audio.codec_returns h.finite.volume, Narrative.codec_returns,
    Appraisal.codec_returns h.finite.appraisal, hvariants]

theorem Portable.legible_codec {g : Glyph} (h : g.Portable) {d : Nat} (hd : d + 2 < depthLimit) :
    Legible d (codec.encode g) := by
  have hfacet : d + 1 < depthLimit := Nat.lt_of_succ_lt hd
  have hvariants : Legible (d + 1) (Codec.settledDict.encode g.biomeVariants) := by
    rw [h.plain]
    exact Codec.legible_dict_empty hfacet _
  refine Schema.legible_codec (Nat.lt_of_succ_lt hfacet) ?_
  simp [schema, Codepoint.legible_codec, Band.legible_codec, hvariants,
    Physics.legible_codec hfacet h.penalty, Visual.legible_codec _ hfacet,
    Audio.legible_codec hfacet h.volume, Narrative.legible_codec _ hd,
    Appraisal.legible_codec hd h.appraisal, Codec.legible_listOfText hfacet]

end Glyph

namespace GlyphSet

theorem codec_returns {r : GlyphSet} (h : ∀ g ∈ r.glyphs, g.Portable) : codec.Returns r := by
  have hglyphs : (Codec.listOf Glyph.codec).Returns r.glyphs :=
    Codec.listOf_returns fun g hg => (h g hg).codec_returns
  refine Schema.codec_returns (by decide) ?_
  simp [schema, Field.read_encode, hglyphs]

theorem legible_codec {r : GlyphSet} (h : ∀ g ∈ r.glyphs, g.Portable) :
    Legible 0 (codec.encode r) := by
  have hglyphs : Legible 1 ((Codec.listOf Glyph.codec).encode r.glyphs) :=
    Codec.legible_listOf (by decide) fun g hg => (h g hg).legible_codec (by decide)
  refine Schema.legible_codec (by decide) ?_
  simp [schema, hglyphs]

theorem ofText_text {r : GlyphSet} (h : ∀ g ∈ r.glyphs, g.Portable) : ofText r.text = .ok r := by
  rw [ofText, text, Codec.ofText?_pretty (codec_returns h) (legible_codec h)]
  rfl

end GlyphSet

end TileGrammar
