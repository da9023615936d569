import TileGrammar.Glyph.Glyph
import TileGrammar.Proofs.Digest.Collision
import TileGrammar.Proofs.Json.Compact
import TileGrammar.Proofs.Json.OrderFree

/-!
# Canonical texts and digests of values that are written

What a codec without doubles writes is exact, so the canonical text tells its
values apart, as far as they come back from what is written. The digest tells
them apart as far as its chain does.
-/

set_option autoImplicit false

namespace TileGrammar

open Json (Alike Exact)

namespace Codec

variable {α β : Type}

@[simp] theorem exact_text (s : String) : Exact (text.encode s) := trivial

@[simp] theorem exact_flag (b : Bool) : Exact (flag.encode b) := trivial

@[simp] theorem exact_word8 (n : UInt8) : Exact (word8.encode n) := trivial

@[simp] theorem exact_named [BEq α] (all : List α) (name : α → String) (a : α) :
    Exact ((named all name).encode a) := trivial

@[simp] theorem exact_nullable {c : Codec α} (h : ∀ a, Exact (c.encode a)) (o : Option α) :
    Exact ((nullable c).encode o) := by
  cases o with
  | none => trivial
  | some a => exact h a

@[simp] theorem exact_listOf {c : Codec α} (h : ∀ a, Exact (c.encode a)) (xs : List α) :
    Exact ((listOf c).encode xs) := by
  refine (Json.exactItems_iff _).mpr fun j hj => ?_
  obtain ⟨a, -, rfl⟩ := List.mem_map.mp hj
  exact h a

end Codec

theorem Schema.exact_codec {ρ : Type} {s : Schema ρ} {r : ρ}
    (hn : (s.fields.map Field.name).Nodup) (h : ∀ f ∈ s.fields, Exact (f.write r)) :
    Exact (s.codec.encode r) := by
  have hnames : ((s.members r).map Prod.fst).Nodup := by rwa [map_fst_members]
  refine ⟨hnames, (Json.exactMembers_iff _).mpr fun m hm => ?_⟩
  obtain ⟨f, hf, rfl⟩ := List.mem_map.mp hm
  exact h f hf

namespace Codec

variable {α : Type}

/-- The canonical text stands for a value as its fields do, the digest for the text as far as
the chain tells messages apart, and neither sees the order of members in what was read. -/
structure Identifies (c : Codec α) : Prop where
  source : ∀ (s t : String) (j k : Json), Json.ofText? s = some j → Json.ofText? t = some k →
    Alike j k → c.ofText? s = c.ofText? t
  text : ∀ a b, (c.encode a).canonical = (c.encode b).canonical ↔ a = b
  digest : ∀ a b, digestOf c a = digestOf c b ↔ a = b ∨
    Sha256.Collision (Sha256.messageOf (c.encode a).canonical)
      (Sha256.messageOf (c.encode b).canonical)

theorem OrderFree.ofText? {c : Codec α} (h : c.OrderFree) {s t : String} {j k : Json}
    (hs : Json.ofText? s = some j) (ht : Json.ofText? t = some k) (hjk : Alike j k) :
    c.ofText? s = c.ofText? t := by
  rw [Codec.ofText?, Codec.ofText?, hs, ht]
  exact h j k hjk

theorem canonical_encode_inj {c : Codec α} (hr : ∀ a, c.Returns a) (he : ∀ a, Exact (c.encode a))
    (hf : c.OrderFree) (a b : α) : (c.encode a).canonical = (c.encode b).canonical ↔ a = b := by
  refine ⟨fun h => ?_, fun h => by rw [h]⟩
  have halike : Alike (c.encode a) (c.encode b) :=
    (Json.canonical_eq_iff_alike (he a) (he b)).mp h
  have hdecode : some a = some b := (hr a).symm.trans ((hf _ _ halike).trans (hr b))
  exact Option.some.inj hdecode

theorem identifies {c : Codec α} (hr : ∀ a, c.Returns a) (he : ∀ a, Exact (c.encode a))
    (hf : c.OrderFree) : c.Identifies where
  source _ _ _ _ hs ht hjk := hf.ofText? hs ht hjk
  text := canonical_encode_inj hr he hf
  digest a b := by
    rw [digestOf, digestOf, Sha256.digestText_eq_iff, canonical_encode_inj hr he hf]

end Codec

end TileGrammar
