import TileGrammar.Grammar.Grammar
import TileGrammar.Proofs.Edge.SignatureIndex
import TileGrammar.Proofs.Text.Digits
import TileGrammar.Proofs.Text.Parts

/-!
# What a tile id tells

The id of a tile joins by dots three names of its grammar, then the signature
and the four dials. The names are free texts, and may have dots in them or look
like a signature or a dial. Signature and dials have no dot, so an id is read
from its right end: the last five parts are these, and all in front of them is
names. Where the names have no dots they are told apart as well.
-/

set_option autoImplicit false

namespace TileGrammar.Grammar

def nameText (g : Grammar) : String := g.category ++ "." ++ g.subcategoryText ++ "." ++ g.center

def dialPart (letter : String) (n : UInt8) : String := letter ++ decimal n.toNat

def stateParts (g : Grammar) : List String :=
  [Signature.text g.edges, dialPart "d" g.damage, dialPart "l" g.lighting,
    dialPart "m" g.moisture, dialPart "a" g.age]

theorem dialPart_inj (letter : String) (m n : UInt8) :
    dialPart letter m = dialPart letter n ↔ m = n := by
  constructor
  · intro h
    have hdigits : decimal m.toNat = decimal n.toNat := by
      apply String.toList_inj.mp
      have hlists := congrArg String.toList h
      rw [dialPart, dialPart, String.toList_append, String.toList_append] at hlists
      exact List.append_cancel_left hlists
    exact UInt8.toNat_inj.mp (decimal_injective hdigits)
  · intro h
    rw [h]

theorem dot_notMem_digit : ∀ c ∈ EdgeCode.all, Signature.digit c ≠ '.' := by decide

theorem dot_notMem_text (s : Signature) : '.' ∉ (Signature.text s).toList := by
  intro h
  rw [Signature.text, String.toList_ofList] at h
  obtain ⟨c, -, hc⟩ := List.mem_map.mp h
  exact dot_notMem_digit c c.mem_all hc

theorem dot_notMem_dialPart {letter : String} (h : '.' ∉ letter.toList) (n : UInt8) :
    '.' ∉ (dialPart letter n).toList := by
  rw [dialPart, String.toList_append, List.mem_append]
  exact not_or.mpr ⟨h, dot_notMem_decimal n.toNat⟩

theorem dotParts_stateParts (g : Grammar) : g.stateParts.flatMap dotParts = g.stateParts := by
  simp only [stateParts, List.flatMap_cons, List.flatMap_nil]
  rw [dotParts_of_notMem (dot_notMem_text g.edges)]
  repeat rw [dotParts_of_notMem (dot_notMem_dialPart (by decide) _)]
  rfl

theorem tileId_eq_intercalate (g : Grammar) :
    g.tileId = ".".intercalate (g.nameText :: g.stateParts) := by
  apply String.toList_inj.mp
  simp [tileId, nameText, stateParts, dialPart]

/-- An id comes apart into the parts of the names and the five parts behind them. -/
theorem dotParts_tileId (g : Grammar) : dotParts g.tileId = dotParts g.nameText ++ g.stateParts := by
  rw [tileId_eq_intercalate, dotParts_intercalate (List.cons_ne_nil _ _), List.flatMap_cons,
    dotParts_stateParts]

theorem stateParts_eq_iff (g h : Grammar) :
    g.stateParts = h.stateParts ↔ g.edges = h.edges ∧ ∀ d, g.dial d = h.dial d := by
  simp only [stateParts, List.cons.injEq, dialPart_inj, Signature.text_injective.eq_iff]
  constructor
  · rintro ⟨hedges, hdamage, hlighting, hmoisture, hage, -⟩
    exact ⟨hedges, fun d => by cases d <;> assumption⟩
  · rintro ⟨hedges, hdials⟩
    exact ⟨hedges, hdials .damage, hdials .lighting, hdials .moisture, hdials .age, trivial⟩

theorem tileId_eq_iff (g h : Grammar) : g.tileId = h.tileId ↔
    g.nameText = h.nameText ∧ g.edges = h.edges ∧ ∀ d, g.dial d = h.dial d := by
  rw [← stateParts_eq_iff]
  constructor
  · intro he
    have hparts := congrArg dotParts he
    rw [dotParts_tileId, dotParts_tileId] at hparts
    obtain ⟨hnames, hstate⟩ := List.append_inj' hparts rfl
    exact ⟨dotParts_injective hnames, hstate⟩
  · rintro ⟨hnames, hstate⟩
    rw [tileId_eq_intercalate, tileId_eq_intercalate, hnames, hstate]

structure Undotted (g : Grammar) : Prop where
  category : '.' ∉ g.category.toList
  subcategory : ∀ s, g.subcategory = some s → '.' ∉ s.toList
  center : '.' ∉ g.center.toList

theorem Undotted.subcategoryText {g : Grammar} (h : g.Undotted) :
    '.' ∉ g.subcategoryText.toList := by
  rw [Grammar.subcategoryText]
  cases hs : g.subcategory with
  | none => decide
  | some s => exact h.subcategory s hs

theorem Undotted.dotParts_nameText {g : Grammar} (h : g.Undotted) :
    dotParts g.nameText = [g.category, g.subcategoryText, g.center] := by
  have hjoined : g.nameText = ".".intercalate [g.category, g.subcategoryText, g.center] := by
    apply String.toList_inj.mp
    simp [nameText]
  rw [hjoined, dotParts_intercalate (List.cons_ne_nil _ _)]
  simp only [List.flatMap_cons, List.flatMap_nil, dotParts_of_notMem h.category,
    dotParts_of_notMem h.subcategoryText, dotParts_of_notMem h.center]
  rfl

theorem Undotted.nameText_eq_iff {g h : Grammar} (hg : g.Undotted) (hh : h.Undotted) :
    g.nameText = h.nameText ↔
      g.category = h.category ∧ g.subcategoryText = h.subcategoryText ∧ g.center = h.center := by
  rw [← dotParts_injective.eq_iff, hg.dotParts_nameText, hh.dotParts_nameText]
  simp

/-- Two grammars have one id exactly when their edges and dials are the same and their names read
alike when they are joined by dots. Names without dots that read alike are the same, and then no
subcategory counts as the subcategory `base`. -/
theorem tile_id_tells_names_and_state (g h : Grammar) :
    (g.tileId = h.tileId ↔ g.edges = h.edges ∧ (∀ d, g.dial d = h.dial d) ∧
      g.category ++ "." ++ g.subcategory.getD "base" ++ "." ++ g.center =
        h.category ++ "." ++ h.subcategory.getD "base" ++ "." ++ h.center) ∧
    (g.Undotted → h.Undotted → (g.tileId = h.tileId ↔
      g.category = h.category ∧ g.subcategory.getD "base" = h.subcategory.getD "base" ∧
        g.center = h.center ∧ g.edges = h.edges ∧ ∀ d, g.dial d = h.dial d)) := by
  constructor
  · rw [tileId_eq_iff]
    constructor
    · rintro ⟨hnames, hedges, hdials⟩
      exact ⟨hedges, hdials, hnames⟩
    · rintro ⟨hedges, hdials, hnames⟩
      exact ⟨hnames, hedges, hdials⟩
  · intro hg hh
    rw [tileId_eq_iff, hg.nameText_eq_iff hh, and_assoc, and_assoc]
    exact Iff.rfl

theorem tile_id_tells_names_and_state_unnamed :
    let door := ofCategory "door" "wood"
    let base := { ofCategory "door" "iron" with subcategory := some "base" }
    let worn := { base with damage := 1 }
    door.Undotted ∧ base.Undotted ∧ worn.Undotted ∧
      door.tileId = base.tileId ∧ door.tileId ≠ worn.tileId := by
  intro door base worn
  have hword : ∀ s, some "base" = some s → '.' ∉ s.toList := by
    rintro s ⟨⟩
    decide
  have hdoor : door.Undotted := ⟨by decide, nofun, by decide⟩
  have hbase : base.Undotted := ⟨by decide, hword, by decide⟩
  have hworn : worn.Undotted := ⟨by decide, hword, by decide⟩
  have hsame := (tile_id_tells_names_and_state door base).2 hdoor hbase
  have hother := (tile_id_tells_names_and_state door worn).2 hdoor hworn
  refine ⟨hdoor, hbase, hworn, ?_, ?_⟩
  · exact hsame.mpr ⟨rfl, rfl, rfl, rfl, fun d => by cases d <;> rfl⟩
  · intro h
    obtain ⟨-, -, -, -, hdials⟩ := hother.mp h
    exact absurd (hdials .damage) (by decide)

/-- Names with dots may read alike and yet be different. -/
example : { ofCategory "wall" "stone" with center := "base.empty" }.tileId =
    (ofCategory "wall.base" "stone").tileId := by
  decide +kernel

end TileGrammar.Grammar
