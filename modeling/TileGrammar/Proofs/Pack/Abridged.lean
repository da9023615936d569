import TileGrammar.Pack.Pack
import TileGrammar.Proofs.Grammar.Document

/-!
# Packs are read back from any abridged form

At every level fields that stand at their defaults may be left out, and
members that nobody knows may be added: in the pack, in each of its specs, in
the grammar of a spec and in the edges of a grammar. With nothing left out and
nothing added, this is the way of a pack through its own text.
-/

set_option autoImplicit false

namespace TileGrammar.Pack

open Json (Legible)

def slots : List (Slot Pack) := [
  .required "id" Codec.text.Verbatim Pack.id,
  .required "name" Codec.text.Verbatim Pack.name,
  .optional "description" Codec.text.Verbatim Pack.description "",
  .optional "pack_version" Codec.text.Verbatim Pack.packVersion "1.0.0",
  .optional "engine_min_version" Codec.text.Verbatim Pack.engineMinVersion "1.0.0",
  .optional "deprecated" Codec.flag.Verbatim Pack.deprecated false,
  .optional "specs" (Form.each Spec.Abridged) Pack.specs []]

def Abridged : Form Pack := TileGrammar.Abridged slots

theorem codec_accepts : codec.Accepts Abridged := by
  rintro p _ ⟨ms, rfl, h⟩
  refine Schema.decode_filled rfl h ?_
  have htext := Codec.text_accepts
  simp only [slots, List.forall_mem_cons] at h
  obtain ⟨hid, hname, hdescription, hversion, hengine, hdeprecated, hspecs, -⟩ := h
  refine hid.required_then htext ?_
  refine hname.required_then htext ?_
  refine hdescription.optional_then htext rfl rfl ?_
  refine hversion.optional_then htext rfl rfl ?_
  refine hengine.optional_then htext rfl rfl ?_
  refine hdeprecated.optional_then Codec.flag_accepts rfl rfl ?_
  exact hspecs.optional_then Spec.codec_accepts.each rfl rfl rfl

theorem abridged_encode (p : Pack) : Abridged p (codec.encode p) := by
  have hspecs : Form.each Spec.Abridged p.specs ((Codec.listOf Spec.codec).encode p.specs) :=
    Form.each_encode fun s _ => s.abridged_encode
  refine Schema.abridged_encode (by decide) ?_
  simp [slots, schema, Slot.required, Slot.optional, Codec.Verbatim, hspecs]

theorem legible_codec (p : Pack) : Legible 0 (codec.encode p) := by
  have hspecs : Legible 1 ((Codec.listOf Spec.codec).encode p.specs) :=
    Codec.legible_listOf (by decide) fun s _ => s.legible_codec (by decide)
  refine Schema.legible_codec (by decide) ?_
  simp [schema, hspecs]

/-- Every abridged form of a pack is read as the pack, as a value or as a text that holds it.
The pack as it is written is one of them, and its text holds it. -/
theorem abridged_reads_back (p : Pack) :
    (∀ j, Abridged p j → codec.decode j = some p) ∧
      (∀ s j, Json.ofText? s = some j → Abridged p j → codec.ofText? s = some p) ∧
      Abridged p (codec.encode p) ∧ codec.ofText? (codec.encode p).pretty = some p := by
  have hread : ∀ s j, Json.ofText? s = some j → Abridged p j → codec.ofText? s = some p := by
    intro s j hs hj
    rw [Codec.ofText?, hs]
    exact codec_accepts p j hj
  have hp := p.abridged_encode
  exact ⟨codec_accepts p, hread, hp, hread _ _ (Json.ofText?_pretty p.legible_codec) hp⟩

theorem abridged_reads_back_named :
    codec.decode (.obj [("remark", .unreadable), ("id", .str "core"), ("name", .str "Core"),
      ("specs", .arr [.obj [("id", .str "walls"),
        ("grammar", .obj [("category", .str "wall"), ("palette", .str "stone_gray")])]])]) =
      some ⟨"core", "Core", "", "1.0.0", "1.0.0", false,
        [.ofGrammar "walls" (.ofCategory "wall" "stone_gray")]⟩ := by
  refine (abridged_reads_back _).1 _ ⟨_, rfl, ?_⟩
  have hspec := Spec.abridged_ofGrammar "walls"
    (Grammar.abridged_ofCategory "wall" "stone_gray")
  simp [slots, Slot.Filled, Slot.required, Slot.optional, Codec.Verbatim, Codec.text, Form.each,
    hspec]

end TileGrammar.Pack
