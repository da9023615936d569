import Mathlib.Data.String.Basic
import TileGrammar.Proofs.Compiler.InPlace
import TileGrammar.Proofs.Order.Distinct

/-!
# The tags of a glyph

A glyph has the tags of its grammar, its category, the names of its styles, and
words that follow from edges and dials. Tags are free texts, so a tag may well
be a style name or one of these words. They are put in order by insertion that
passes over what is there, so a tag counts once, wherever it comes from.
-/

set_option autoImplicit false

namespace TileGrammar

theorem Signature.isAll_iff (s : Signature) (c : EdgeCode) :
    s.isAll c = true ↔ ∀ d, Sides.get s d = c := by
  simp only [isAll, Sides.toList, List.all_eq_true, List.forall_mem_cons, beq_iff_eq]
  constructor
  · rintro ⟨hnorth, heast, hsouth, hwest, -⟩ d
    cases d <;> assumption
  · intro h
    exact ⟨h .north, h .east, h .south, h .west, nofun⟩

/-- What a tag of the glyph of a grammar can be. -/
def Grammar.CallsFor (g : Grammar) (tag : String) : Prop :=
  tag ∈ g.tags ∨ tag = g.category ∨
  ((∀ d, Sides.get g.edges d = .solid) ∧ (tag = "solid" ∨ tag = "opaque")) ∨
  ((∀ d, Sides.get g.edges d = .empty) ∧ (tag = "passable" ∨ tag = "transparent")) ∨
  (0 < g.damage ∧ tag = "damaged") ∨ (0 < g.moisture ∧ tag = "wet") ∨ (0 < g.age ∧ tag = "aged") ∨
  ∃ s ∈ g.styles, tag = s.name

namespace Derivation

theorem mem_edgeTags_iff (edges : Signature) (tag : String) : tag ∈ edgeTags edges ↔
    ((∀ d, Sides.get edges d = .solid) ∧ (tag = "solid" ∨ tag = "opaque")) ∨
    ((∀ d, Sides.get edges d = .empty) ∧ (tag = "passable" ∨ tag = "transparent")) := by
  rw [← Signature.isAll_iff, ← Signature.isAll_iff, edgeTags]
  cases hsolid : Signature.isAll edges .solid with
  | true =>
    -- Edges that are all solid are not all empty.
    have hempty : ¬ Signature.isAll edges .empty = true := by
      intro h
      cases ((Signature.isAll_iff _ _).mp hsolid .north).symm.trans
        ((Signature.isAll_iff _ _).mp h .north)
    simp [hempty]
  | false => cases Signature.isAll edges .empty <;> simp

theorem mem_stateTags_iff (g : Grammar) (tag : String) : tag ∈ stateTags g ↔
    (0 < g.damage ∧ tag = "damaged") ∨ (0 < g.moisture ∧ tag = "wet") ∨
      (0 < g.age ∧ tag = "aged") := by
  have hpart : ∀ (n : UInt8) (word : String),
      tag ∈ (if n = 0 then [] else [word]) ↔ 0 < n ∧ tag = word := by
    intro n word
    have hpos : 0 < n ↔ n ≠ 0 := by
      rw [UInt8.lt_iff_toNat_lt, ne_eq, ← UInt8.toNat_inj]
      exact Nat.pos_iff_ne_zero
    rw [hpos]
    by_cases hn : n = 0 <;> simp [hn]
  simp only [stateTags, List.mem_append, hpart, or_assoc]

def tagSource (g : Grammar) : List String :=
  g.tags ++ g.category :: edgeTags g.edges ++ stateTags g ++ g.styles.map Style.name

theorem mem_tagSource_iff (g : Grammar) (tag : String) : tag ∈ tagSource g ↔ g.CallsFor tag := by
  have hstyle : tag ∈ g.styles.map Style.name ↔ ∃ s ∈ g.styles, tag = s.name := by
    simp only [List.mem_map, eq_comm]
  simp only [tagSource, List.mem_append, List.mem_cons, hstyle, mem_edgeTags_iff, mem_stateTags_iff,
    or_assoc, Grammar.CallsFor]

theorem mem_tagList_iff (g : Grammar) (tag : String) : tag ∈ tagList g ↔ g.CallsFor tag :=
  (mem_sortedSetBy Function.injective_id tag (tagSource g)).trans (mem_tagSource_iff g tag)

theorem tagList_ordered (g : Grammar) : (tagList g).Pairwise (· < ·) :=
  sortedSetBy_ordered Function.injective_id (tagSource g)

theorem tagList_congr {g h : Grammar} (hc : ∀ tag, g.CallsFor tag ↔ h.CallsFor tag) :
    tagList g = tagList h := by
  refine sortedSetBy_congr Function.injective_id fun tag => ?_
  change tag ∈ tagSource g ↔ tag ∈ tagSource h
  rw [mem_tagSource_iff, mem_tagSource_iff, hc]

theorem tags_of_glyph {g : Grammar} {k : Category} {p : Codepoint} {char : Option Char} {y : Glyph}
    (h : glyph g k p char = .ok y) : y.tags = tagList g := by
  obtain ⟨w, -, hy⟩ := bind_eq_ok h
  cases hy
  rfl

end Derivation

end TileGrammar
