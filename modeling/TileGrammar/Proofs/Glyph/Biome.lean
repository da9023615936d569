import TileGrammar.Proofs.Glyph.Document
import TileGrammar.Proofs.Json.Overriding

/-!
# Glyphs in a biome

Which parts a glyph and its facets have, and how each may be overridden. The
overrides of a biome are merged into the glyph as it is written, and what is
read then is the glyph with its parts overridden. A biome that leaves the
overrides alone may be applied a second time without effect.
-/

set_option autoImplicit false

namespace TileGrammar

open Overriding (whole facet entries)

def Physics.parts : List (Part Physics) := [
  .of "walkable" (whole .flag) Physics.walkable,
  .of "blocks_movement" (whole .flag) Physics.blocksMovement,
  .of "blocks_light" (whole .flag) Physics.blocksLight,
  .of "blocks_projectiles" (whole .flag) Physics.blocksProjectiles,
  .of "climbable" (whole .flag) Physics.climbable,
  .of "swimmable" (whole .flag) Physics.swimmable,
  .of "movement_penalty" (whole .number) Physics.movementPenalty,
  .of "damage_on_enter" (whole .word32) Physics.damageOnEnter,
  .of "damage_type" (whole (.nullable .text)) Physics.damageType]

def Visual.parts : List (Part Visual) := [
  .of "layer" (whole Layer.codec) Visual.layer,
  .of "connectivity" (whole .text) Visual.connectivity,
  .of "palette" (whole (.nullable .text)) Visual.palette,
  .of "glow" (whole .flag) Visual.glow,
  .of "glow_radius" (whole .word32) Visual.glowRadius,
  .of "glow_color" (whole (.nullable .text)) Visual.glowColor,
  .of "animated" (whole .flag) Visual.animated,
  .of "animation_id" (whole (.nullable .text)) Visual.animationId,
  .of "z_index" (whole .int32) Visual.zIndex]

def Audio.parts : List (Part Audio) := [
  .of "on_step" (whole (.nullable .text)) Audio.onStep,
  .of "on_enter" (whole (.nullable .text)) Audio.onEnter,
  .of "on_exit" (whole (.nullable .text)) Audio.onExit,
  .of "on_interact" (whole (.nullable .text)) Audio.onInteract,
  .of "on_impact" (whole (.nullable .text)) Audio.onImpact,
  .of "ambient" (whole (.nullable .text)) Audio.ambient,
  .of "ambient_volume" (whole .number) Audio.ambientVolume]

def Narrative.parts : List (Part Narrative) := [
  .of "description" (whole .text) Narrative.description,
  .of "examine_text" (whole (.nullable .text)) Narrative.examineText,
  .of "tone" (whole .text) Narrative.tone,
  .of "keywords" (whole (.listOf .text)) Narrative.keywords,
  .of "lore_category" (whole (.nullable .text)) Narrative.loreCategory]

def Appraisal.parts : List (Part Appraisal) := [
  .of "summary" (whole .text) Appraisal.summary,
  .of "threat" (whole .number) Appraisal.threat,
  .of "interest" (whole .number) Appraisal.interest,
  .of "utility" (whole .number) Appraisal.utility,
  .of "rarity" (whole .number) Appraisal.rarity,
  .of "synonyms" (whole (.listOf .text)) Appraisal.synonyms,
  .of "contexts" (whole (.listOf .text)) Appraisal.contexts]

def Glyph.parts : List (Part Glyph) := [
  .of "id" (whole .text) Glyph.id,
  .of "codepoint" (whole Codepoint.codec) Glyph.codepoint,
  .of "char" (whole .character) Glyph.char,
  .of "name" (whole .text) Glyph.name,
  .of "category" (whole Band.codec) Glyph.category,
  .of "tags" (whole (.listOf .text)) Glyph.tags,
  .of "variant" (whole (.nullable .text)) Glyph.variant,
  .of "physics" (facet Physics.schema.codec Physics.parts) Glyph.physics,
  .of "visual" (facet Visual.schema.codec Visual.parts) Glyph.visual,
  .of "audio" (facet Audio.schema.codec Audio.parts) Glyph.audio,
  .of "narrative" (facet Narrative.schema.codec Narrative.parts) Glyph.narrative,
  .of "llm" (facet Appraisal.schema.codec Appraisal.parts) Glyph.appraisal,
  .of "biome_variants" entries Glyph.biomeVariants]

section Facets

variable {cs : List (String × Json)}

theorem Physics.lawful : schema.Lawful where
  nodup := by decide
  separable js p := by
    cases p
    -- Existentials over flags stay whole, as those over all other values do.
    simp [-Bool.exists_bool, schema, Field.of, Option.map_eq_some_iff, Option.bind_eq_some_iff]

theorem Physics.realizes {p : Physics} (h : p.movementPenalty.isFinite = true) :
    schema.Realizes Json.displace parts cs p := by
  simp [Schema.Realizes, schema, parts, Field.of_realizes, Codec.Returns.realizes_displaced,
    Codec.number_returns h]

theorem Visual.lawful : schema.Lawful where
  nodup := by decide
  separable js v := by
    cases v
    simp [-Bool.exists_bool, schema, Field.of, Option.map_eq_some_iff, Option.bind_eq_some_iff]

theorem Visual.realizes (v : Visual) : schema.Realizes Json.displace parts cs v := by
  simp [Schema.Realizes, schema, parts, Field.of_realizes, Codec.Returns.realizes_displaced,
    Layer.codec_returns]

theorem Audio.lawful : schema.Lawful where
  nodup := by decide
  separable js a := by
    cases a
    simp [schema, Field.of, Option.map_eq_some_iff, Option.bind_eq_some_iff]

theorem Audio.realizes {a : Audio} (h : a.ambientVolume.isFinite = true) :
    schema.Realizes Json.displace parts cs a := by
  simp [Schema.Realizes, schema, parts, Field.of_realizes, Codec.Returns.realizes_displaced,
    Codec.number_returns h]

theorem Narrative.lawful : schema.Lawful where
  nodup := by decide
  separable js n := by
    cases n
    simp [schema, Field.of, Option.map_eq_some_iff, Option.bind_eq_some_iff]

theorem Narrative.realizes (n : Narrative) : schema.Realizes Json.displace parts cs n := by
  simp [Schema.Realizes, schema, parts, Field.of_realizes, Codec.Returns.realizes_displaced]

theorem Appraisal.lawful : schema.Lawful where
  nodup := by decide
  separable js a := by
    cases a
    simp [schema, Field.of, Option.map_eq_some_iff, Option.bind_eq_some_iff]

theorem Appraisal.realizes {a : Appraisal} (h : a.Finite) :
    schema.Realizes Json.displace parts cs a := by
  have hthreat := Codec.number_returns h.threat
  have hinterest := Codec.number_returns h.interest
  have hutility := Codec.number_returns h.utility
  have hrarity := Codec.number_returns h.rarity
  simp [Schema.Realizes, schema, parts, Field.of_realizes, Codec.Returns.realizes_displaced,
    hthreat, hinterest, hutility, hrarity]

end Facets

theorem Codepoint.codec_undivided : codec.Undivided := fun _ _ => rfl

theorem Band.codec_undivided : codec.Undivided := fun _ _ => rfl

namespace Glyph

theorem lawful : schema.Lawful where
  nodup := by decide
  separable js g := by
    cases g
    simp [schema, Field.of, Option.map_eq_some_iff, Option.bind_eq_some_iff]

theorem realizes {g : Glyph} {o : List (String × Json)} (hf : g.Finite)
    (ho : (Json.obj o).Settled) : schema.Realizes Json.descend parts o g := by
  have hat : ∀ name j, Dict.lookupIn name o = some j → j.Settled := fun _ _ h => ho.lookupIn h
  have hphysics := Physics.lawful.realizes_facet (hat "physics")
    (Physics.codec_returns hf.penalty) fun _ => Physics.realizes hf.penalty
  have hvisual := Visual.lawful.realizes_facet (hat "visual") g.visual.codec_returns
    fun _ => g.visual.realizes
  have haudio := Audio.lawful.realizes_facet (hat "audio") (Audio.codec_returns hf.volume)
    fun _ => Audio.realizes hf.volume
  have hnarrative := Narrative.lawful.realizes_facet (hat "narrative") g.narrative.codec_returns
    fun _ => g.narrative.realizes
  have happraisal := Appraisal.lawful.realizes_facet (hat "llm")
    (Appraisal.codec_returns hf.appraisal) fun _ => Appraisal.realizes hf.appraisal
  have hvariants := Codec.realizes_entries (d := g.biomeVariants) (hat "biome_variants")
  simp [Schema.Realizes, schema, parts, Field.of_realizes, Codec.Returns.realizes_undivided,
    Codec.text_undivided, Codec.character_undivided, Codec.listOf_undivided,
    Codec.text_undivided.nullable, Codepoint.codec_undivided, Codepoint.codec_returns,
    Band.codec_undivided, Band.codec_returns, hphysics, hvisual, haudio, hnarrative, happraisal,
    hvariants]

section

variable {g g' : Glyph} {biome : String} {o : List (String × Json)}

theorem inBiome_of_obj (h : g.biomeVariants.get? biome = some (.obj o)) :
    g.inBiome biome = orFail .malformed
      (schema.codec.decode (.obj (Json.mergeWith Json.descend (schema.members g) o))) := by
  rw [inBiome, h, ← Json.overlay_eq]
  rfl

theorem inBiome_eq_ok_iff (hf : g.Finite)
    (ho : g.biomeVariants.get? biome = some (.obj o)) :
    g.inBiome biome = .ok g' ↔ Overridden parts o g g' := by
  have hsettled : (Json.obj o).Settled := g.biomeVariants.settled biome _ ho
  rw [inBiome_of_obj ho, orFail_eq_ok_iff]
  exact (realizes hf hsettled).decode_mergeWith_iff lawful hsettled.nodup_names

theorem exists_inBiome_iff (hf : g.Finite)
    (ho : g.biomeVariants.get? biome = some (.obj o)) :
    (∃ g', g.inBiome biome = .ok g') ↔ Fit parts o := by
  have hsettled : (Json.obj o).Settled := g.biomeVariants.settled biome _ ho
  rw [inBiome_of_obj ho]
  simp only [orFail_eq_ok_iff]
  exact (realizes hf hsettled).exists_decode_mergeWith_iff lawful hsettled.nodup_names

theorem inBiome_of_not_fit (hf : g.Finite)
    (ho : g.biomeVariants.get? biome = some (.obj o)) (h : ¬ Fit parts o) :
    g.inBiome biome = .error .malformed := by
  have hnone : ¬ ∃ g', g.inBiome biome = .ok g' := fun hrun => h ((exists_inBiome_iff hf ho).mp hrun)
  rw [inBiome_of_obj ho] at hnone ⊢
  simp only [orFail_eq_ok_iff] at hnone
  rw [orFail_eq_error_iff, Option.eq_none_iff_forall_ne_some]
  exact not_exists.mp hnone

end

/-- A biome without an entry gives the glyph itself, and one whose entry is no object gives none. The
members of an object override the parts of the glyph, each the one of its name: there is a glyph
when all that is given for a part can be read, and then the parts that are not named are as they
were. Names of no part are not looked at. -/
theorem inBiome_overrides_parts {g : Glyph} (hf : g.Finite) (biome : String) :
    (g.biomeVariants.get? biome = none → g.inBiome biome = .ok g) ∧
    (∀ v, g.biomeVariants.get? biome = some v → (∀ o, v ≠ .obj o) →
      ∃ e, g.inBiome biome = .error e ∧ e.kind = .format) ∧
    ∀ o, g.biomeVariants.get? biome = some (.obj o) →
      (∀ g', g.inBiome biome = .ok g' ↔ Overridden parts o g g') ∧
      ((∃ g', g.inBiome biome = .ok g') ↔ Fit parts o) ∧
      (¬ Fit parts o → ∃ e, g.inBiome biome = .error e ∧ e.kind = .serialization) := by
  refine ⟨fun hnone => ?_, fun v hv hobj => ?_, fun o ho => ?_⟩
  · rw [inBiome, hnone]
  · refine ⟨.biomeOverride biome g.id, ?_, rfl⟩
    rw [inBiome, hv]
    cases v with
    | obj o => exact absurd rfl (hobj o)
    | _ => rfl
  · refine ⟨fun g' => inBiome_eq_ok_iff hf ho, exists_inBiome_iff hf ho, fun hfit => ?_⟩
    exact ⟨.malformed, inBiome_of_not_fit hf ho hfit, rfl⟩

def swamp : List (String × Json) :=
  [("mood", .str "damp"), ("name", .str "Reed"), ("physics", .obj [("damage_on_enter", .int 2)])]

def marsh : Glyph where
  __ := blank
  biomeVariants := {
    (∅ : Dict Json).insert "swamp" (.obj swamp) with
    settled := by
      intro biome v hv
      rw [Dict.get?_insert] at hv
      split at hv <;> cases hv
      rfl }

def reed : Glyph :=
  { marsh with name := "Reed", physics := { marsh.physics with damageOnEnter := 2 } }

theorem marsh_finite : marsh.Finite where
  penalty := by decide +kernel
  volume := Codec.isFinite_of_faithful Audio.plain_faithful
  appraisal := Appraisal.plain_faithful.finite

theorem marsh_overridden : Overridden parts swamp marsh reed := by
  simp [Overridden, parts, Part.of, whole, facet, entries, swamp, reed, Dict.lookupIn,
    Physics.parts, Codec.text, Codec.word32, Codec.via, Codec.natBelow]

theorem inBiome_overrides_parts_marsh :
    marsh.Finite ∧ marsh.inBiome "swamp" = .ok reed :=
  ⟨marsh_finite,
    (((inBiome_overrides_parts marsh_finite "swamp").2.2 swamp rfl).1 reed).mpr marsh_overridden⟩

/-- A biome that leaves the overrides alone makes nothing more of what it has made. -/
theorem inBiome_again {g g' : Glyph} (hf : g.Finite) {biome : String}
    {o : List (String × Json)} (ho : g.biomeVariants.get? biome = some (.obj o))
    (hkey : Dict.lookupIn "biome_variants" o = none) (h : g.inBiome biome = .ok g') :
    g'.inBiome biome = .ok g' := by
  have hsettled : (Json.obj o).Settled := g.biomeVariants.settled biome _ ho
  have hparts : Overridden parts o g g' := (inBiome_eq_ok_iff hf ho).mp h
  have hvariants : g'.biomeVariants = g.biomeVariants := by
    have hpart := hparts (.of "biome_variants" entries Glyph.biomeVariants) (by simp [parts])
    rw [Part.of_name, hkey] at hpart
    exact hpart
  have hsame := (realizes hf hsettled).decode_mergeWith_again lawful hsettled.nodup_names hparts
  rw [inBiome_of_obj (hvariants ▸ ho), hsame, ← inBiome_of_obj ho]
  exact h

theorem inBiome_again_reed : marsh.Finite ∧ marsh.inBiome "swamp" = .ok reed ∧
    reed.inBiome "swamp" = .ok reed := by
  have hreed : marsh.inBiome "swamp" = .ok reed :=
    (inBiome_eq_ok_iff marsh_finite rfl).mpr marsh_overridden
  exact ⟨marsh_finite, hreed, inBiome_again marsh_finite (o := swamp) rfl rfl hreed⟩

end Glyph

end TileGrammar
