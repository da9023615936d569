import TileGrammar.Proofs.Grammar.Abridged
import TileGrammar.Proofs.Json.Canonical

/-!
# The documents of grammars and specs

Their text is legible at whatever depth they stand, they hold no doubles, and
their readers do not see the order of members. So the canonical text of a
grammar or a spec stands for it, and its digest does as far as a digest can.
-/

set_option autoImplicit false

namespace TileGrammar

open Json (Alike AlikeMembers Exact Legible depthLimit)

section Legible

variable {d : Nat}

theorem Signature.legible_codec (s : Signature) (hd : d < depthLimit) :
    Legible d (codec.encode s) := by
  refine Schema.legible_codec hd ?_
  simp [schema, EdgeCode.codec]

theorem Grammar.legible_codec (g : Grammar) (hd : d + 1 < depthLimit) :
    Legible d (codec.encode g) := by
  refine Schema.legible_codec (Nat.lt_of_succ_lt hd) ?_
  have hstyles : Legible (d + 1) ((Codec.listOf Style.codec).encode g.styles) :=
    Codec.legible_listOf hd fun s _ => Codec.legible_named Style.all Style.name s
  simp [schema, GridSize.codec, Signature.legible_codec _ hd, hstyles,
    Codec.legible_listOfText hd]

theorem Spec.legible_codec (s : Spec) (hd : d + 2 < depthLimit) :
    Legible d (codec.encode s) := by
  refine Schema.legible_codec (Nat.lt_of_succ_lt (Nat.lt_of_succ_lt hd)) ?_
  simp [schema, Grammar.legible_codec _ hd]

end Legible

theorem Signature.exact_codec (s : Signature) : Exact (codec.encode s) :=
  Schema.exact_codec (by decide) (by simp [schema, EdgeCode.codec])

theorem Grammar.exact_codec (g : Grammar) : Exact (codec.encode g) :=
  Schema.exact_codec (by decide)
    (by simp [schema, GridSize.codec, Style.codec, Signature.exact_codec])

theorem Spec.exact_codec (s : Spec) : Exact (codec.encode s) :=
  Schema.exact_codec (by decide) (by simp [schema, Grammar.exact_codec])

theorem Signature.codec_orderFree : codec.OrderFree := by
  have hedge : EdgeCode.codec.OrderFree := Codec.named_orderFree _ _
  refine Schema.codec_orderFree ?_
  simp [schema, Field.of_orderFree hedge]

theorem Grammar.codec_orderFree : codec.OrderFree := by
  have hsize : GridSize.codec.OrderFree := Codec.named_orderFree _ _
  have hstyle : Style.codec.OrderFree := Codec.named_orderFree _ _
  refine Schema.codec_orderFree ?_
  simp [schema, Field.of_orderFree Codec.text_orderFree,
    Field.of_orderFree Codec.text_orderFree.nullable,
    Field.of_orderFree Codec.text_orderFree.listOf, Field.of_orderFree Codec.word8_orderFree,
    Field.of_orderFree hsize, Field.of_orderFree hstyle.listOf,
    Field.of_orderFree Signature.codec_orderFree]

theorem Spec.codec_orderFree : codec.OrderFree := by
  refine Schema.codec_orderFree ?_
  simp [schema, Field.of_orderFree Codec.text_orderFree,
    Field.of_orderFree Codec.word8_orderFree, Field.of_orderFree Codec.flag_orderFree,
    Field.of_orderFree Grammar.codec_orderFree]

theorem Grammar.codec_identifies : codec.Identifies :=
  Codec.identifies (fun g => codec_accepts.returns g.abridged_encode) exact_codec codec_orderFree

theorem Spec.codec_identifies : codec.Identifies :=
  Codec.identifies (fun s => codec_accepts.returns s.abridged_encode) exact_codec codec_orderFree

/-- The canonical text is one for values without doubles that differ in the order of members
alone, and tells all others apart. So it tells grammars apart, and specs, field by field, and
the digests of different ones are different unless the chain collides. -/
theorem canonical_text_identifies :
    (∀ x y : Json, Exact x → Exact y → (x.canonical = y.canonical ↔ Alike x y)) ∧
      Grammar.codec.Identifies ∧ Spec.codec.Identifies :=
  ⟨fun _ _ hx hy => Json.canonical_eq_iff_alike hx hy, Grammar.codec_identifies,
    Spec.codec_identifies⟩

theorem canonical_text_identifies_reordered :
    (Json.obj [("z", .int 1), ("m", .arr [.obj [("d", .null), ("c", .str "1")]])]).canonical =
        (Json.obj [("m", .arr [.obj [("c", .str "1"), ("d", .null)]]), ("z", .int 1)]).canonical ∧
      (Json.arr [.int 1, .str "1"]).canonical ≠ (Json.arr [.str "1", .int 1]).canonical := by
  constructor
  · refine (canonical_text_identifies.1 _ _ ?_ ?_).mpr ?_
    · simp [Exact, Json.ExactItems, Json.ExactMembers]
    · simp [Exact, Json.ExactItems, Json.ExactMembers]
    · have hinner : AlikeMembers [("d", .null), ("c", .str "1")]
          [("c", .str "1"), ("d", .null)] := .exchange .null (.str "1")
      exact .obj (.exchange (.int 1) (.arr (.cons (.obj hinner) .nil)))
  · intro h
    have halike := (canonical_text_identifies.1 (.arr [.int 1, .str "1"])
      (.arr [.str "1", .int 1]) (by simp [Exact, Json.ExactItems])
      (by simp [Exact, Json.ExactItems])).mp h
    cases halike with
    | arr hitems => cases hitems with
      | cons hfirst _ => cases hfirst

end TileGrammar
