import TileGrammar.Grammar.Spec
import TileGrammar.Proofs.Json.Abridged

/-!
# Abridged grammars and specs

The slots of signatures, grammars and specs, with their defaults. A slot that
holds a record takes any abridged form of it, so that fields may be left out
at every level. Whatever is left out, the record is read back.
-/

set_option autoImplicit false

namespace TileGrammar

open Codec (Accepts Verbatim accepts_verbatim)

theorem EdgeCode.codec_returns (c : EdgeCode) : codec.Returns c := by cases c <;> rfl

theorem GridSize.codec_returns (s : GridSize) : codec.Returns s := by cases s <;> rfl

theorem Style.codec_returns (s : Style) : codec.Returns s := by cases s <;> rfl

namespace Signature

def slots : List (Slot Signature) := [
  .optional "north" EdgeCode.codec.Verbatim Sides.north .empty,
  .optional "east" EdgeCode.codec.Verbatim Sides.east .empty,
  .optional "south" EdgeCode.codec.Verbatim Sides.south .empty,
  .optional "west" EdgeCode.codec.Verbatim Sides.west .empty]

def Abridged : Form Signature := TileGrammar.Abridged slots

theorem codec_accepts : codec.Accepts Abridged := by
  rintro s _ ⟨ms, rfl, h⟩
  refine Schema.decode_filled rfl h ?_
  have hedge : EdgeCode.codec.Accepts EdgeCode.codec.Verbatim :=
    accepts_verbatim EdgeCode.codec_returns
  simp only [slots, List.forall_mem_cons] at h
  obtain ⟨hnorth, heast, hsouth, hwest, -⟩ := h
  refine hnorth.optional_then hedge rfl rfl ?_
  refine heast.optional_then hedge rfl rfl ?_
  refine hsouth.optional_then hedge rfl rfl ?_
  exact hwest.optional_then hedge rfl rfl rfl

theorem abridged_encode (s : Signature) : Abridged s (codec.encode s) :=
  Schema.abridged_encode (by decide) (by simp [slots, schema, Slot.optional, Verbatim])

end Signature

namespace Grammar

def slots : List (Slot Grammar) := [
  .required "category" Codec.text.Verbatim Grammar.category,
  .optional "subcategory" (Codec.nullable .text).Verbatim Grammar.subcategory none,
  .optional "size" GridSize.codec.Verbatim Grammar.size .small,
  .required "palette" Codec.text.Verbatim Grammar.palette,
  .optional "edges" Signature.Abridged Grammar.edges (.onAllSides .empty),
  .optional "center" Codec.text.Verbatim Grammar.center "empty",
  .optional "styles" (Codec.listOf Style.codec).Verbatim Grammar.styles [.pixel],
  .optional "damage_state" Codec.word8.Verbatim Grammar.damage 0,
  .optional "lighting_state" Codec.word8.Verbatim Grammar.lighting 1,
  .optional "moisture_state" Codec.word8.Verbatim Grammar.moisture 0,
  .optional "age_state" Codec.word8.Verbatim Grammar.age 0,
  .optional "tags" (Codec.listOf .text).Verbatim Grammar.tags [],
  .optional "biome_affinity" (Codec.listOf .text).Verbatim Grammar.biomes []]

def Abridged : Form Grammar := TileGrammar.Abridged slots

theorem codec_accepts : codec.Accepts Abridged := by
  rintro g _ ⟨ms, rfl, h⟩
  refine Schema.decode_filled rfl h ?_
  have htext := Codec.text_accepts
  have hdial := Codec.word8_accepts
  have hsize : GridSize.codec.Accepts GridSize.codec.Verbatim :=
    accepts_verbatim GridSize.codec_returns
  have hstyles : (Codec.listOf Style.codec).Accepts (Codec.listOf Style.codec).Verbatim :=
    accepts_verbatim fun _ => Codec.listOf_returns fun s _ => s.codec_returns
  have hwords : (Codec.listOf .text).Accepts (Codec.listOf .text).Verbatim :=
    accepts_verbatim fun _ => Codec.listOf_returns fun s _ => Codec.text_returns s
  simp only [slots, List.forall_mem_cons] at h
  obtain ⟨hcategory, hsubcategory, hsizeSlot, hpalette, hedges, hcenter, hstylesSlot, hdamage,
    hlighting, hmoisture, hage, htags, hbiomes, -⟩ := h
  refine hcategory.required_then htext ?_
  refine hsubcategory.optional_then (accepts_verbatim Codec.nullableText_returns) rfl rfl ?_
  refine hsizeSlot.optional_then hsize rfl rfl ?_
  refine hpalette.required_then htext ?_
  refine hedges.optional_then Signature.codec_accepts rfl rfl ?_
  refine hcenter.optional_then htext rfl rfl ?_
  refine hstylesSlot.optional_then hstyles rfl rfl ?_
  refine hdamage.optional_then hdial rfl rfl ?_
  refine hlighting.optional_then hdial rfl rfl ?_
  refine hmoisture.optional_then hdial rfl rfl ?_
  refine hage.optional_then hdial rfl rfl ?_
  refine htags.optional_then hwords rfl rfl ?_
  exact hbiomes.optional_then hwords rfl rfl rfl

theorem abridged_encode (g : Grammar) : Abridged g (codec.encode g) :=
  Schema.abridged_encode (by decide)
    (by simp [slots, schema, Slot.required, Slot.optional, Verbatim, Signature.abridged_encode])

theorem abridged_ofCategory (category palette : String) :
    Abridged (ofCategory category palette)
      (.obj [("category", .str category), ("palette", .str palette)]) := by
  refine ⟨_, rfl, ?_⟩
  simp [slots, Slot.Filled, Slot.required, Slot.optional, Verbatim, Codec.text, ofCategory,
    Signature.blank]

end Grammar

namespace Spec

def slots : List (Slot Spec) := [
  .required "id" Codec.text.Verbatim Spec.id,
  .required "grammar" Grammar.Abridged Spec.grammar,
  .optional "damage_variants" Codec.word8.Verbatim Spec.damageVariants 1,
  .optional "lighting_variants" Codec.word8.Verbatim Spec.lightingVariants 1,
  .optional "moisture_variants" Codec.word8.Verbatim Spec.moistureVariants 1,
  .optional "age_variants" Codec.word8.Verbatim Spec.ageVariants 1,
  .optional "generate_rotations" Codec.flag.Verbatim Spec.rotations false,
  .optional "generate_flips" Codec.flag.Verbatim Spec.flips false]

def Abridged : Form Spec := TileGrammar.Abridged slots

theorem codec_accepts : codec.Accepts Abridged := by
  rintro s _ ⟨ms, rfl, h⟩
  refine Schema.decode_filled rfl h ?_
  have hcount := Codec.word8_accepts
  have hflag := Codec.flag_accepts
  simp only [slots, List.forall_mem_cons] at h
  obtain ⟨hid, hgrammar, hdamage, hlighting, hmoisture, hage, hrotations, hflips, -⟩ := h
  refine hid.required_then Codec.text_accepts ?_
  refine hgrammar.required_then Grammar.codec_accepts ?_
  refine hdamage.optional_then hcount rfl rfl ?_
  refine hlighting.optional_then hcount rfl rfl ?_
  refine hmoisture.optional_then hcount rfl rfl ?_
  refine hage.optional_then hcount rfl rfl ?_
  refine hrotations.optional_then hflag rfl rfl ?_
  exact hflips.optional_then hflag rfl rfl rfl

theorem abridged_encode (s : Spec) : Abridged s (codec.encode s) :=
  Schema.abridged_encode (by decide)
    (by simp [slots, schema, Slot.required, Slot.optional, Verbatim, Grammar.abridged_encode])

theorem abridged_ofGrammar (id : String) {g : Grammar} {j : Json} (h : g.Abridged j) :
    Abridged (ofGrammar id g) (.obj [("id", .str id), ("grammar", j)]) := by
  refine ⟨_, rfl, ?_⟩
  simp [slots, Slot.Filled, Slot.required, Slot.optional, Verbatim, Codec.text, ofGrammar, h]

end Spec

end TileGrammar
