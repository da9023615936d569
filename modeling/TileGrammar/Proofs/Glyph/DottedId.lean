import TileGrammar.Compiler.Derivation
import TileGrammar.Proofs.Grammar.Checked
import TileGrammar.Proofs.Text.Parts

/-!
# What a glyph id tells

The id of a glyph joins by dots the category, the subcategory, the corner that
a wall makes, and the words of the dials that are turned up. The center, the
lighting and all other edges are no part of it, so tiles may share an id.
Where a category has no dot, and a subcategory neither a dot nor the look of a
state word, all that went into an id is read back from it.
-/

set_option autoImplicit false

namespace TileGrammar

def Dial.wordUp (d : Dial) (n : Nat) : Option String := if n = 0 then none else d.words[n]?

namespace Derivation

theorem wordAt_eq_ok {d : Dial} {n : UInt8} {w : Option String} (h : wordAt d n = .ok w) :
    w = d.wordUp n.toNat := by
  unfold wordAt at h
  unfold Dial.wordUp
  by_cases hn : n = 0
  · subst hn
    cases h
    rfl
  · rw [if_neg hn] at h
    have hne : n.toNat ≠ 0 := fun he => hn (UInt8.toNat_inj.mp he)
    rw [if_neg hne]
    cases hw : d.words[n.toNat]? with
    | none =>
      rw [hw] at h
      cases h
    | some v =>
      rw [hw] at h
      cases h
      rfl

def idEnding (corner : Option String) (damage moisture age : Nat) : List String :=
  corner.toList ++ (Dial.damage.wordUp damage).toList ++ (if moisture = 0 then [] else ["wet"]) ++
    (Dial.age.wordUp age).toList

end Derivation

namespace Grammar

def corner (g : Grammar) : Option String :=
  if Category.ofText g.category = .wall then Derivation.cornerName g.edges else none

def ending (g : Grammar) : List String :=
  Derivation.idEnding g.corner g.damage.toNat g.moisture.toNat g.age.toNat

def glyphId (g : Grammar) : String :=
  ".".intercalate (g.category :: (g.subcategory.toList ++ g.ending))

end Grammar

namespace Derivation

theorem id_of_glyph {g : Grammar} {p : Codepoint} {char : Option Char} {y : Glyph}
    (h : glyph g (Category.ofText g.category) p char = .ok y) : y.id = g.glyphId := by
  obtain ⟨w, hw, hy⟩ := bind_eq_ok h
  obtain ⟨damage, hd, hw⟩ := bind_eq_ok hw
  obtain ⟨age, ha, hw⟩ := bind_eq_ok hw
  cases hw
  cases hy
  have hwet : (g.moisture = 0) ↔ g.moisture.toNat = 0 := UInt8.toNat_inj.symm
  simp only [dottedId, Grammar.glyphId, Grammar.ending, idEnding, Grammar.corner,
    ← wordAt_eq_ok hd, ← wordAt_eq_ok ha, ← hwet, apply_ite Option.toList]
  simp

def endingParts (corner : Option String) (damage moisture age : Nat) : List String :=
  (idEnding corner damage moisture age).flatMap dotParts

def stateWords : List String := Dial.damage.words.tail ++ "wet" :: Dial.age.words.tail

def cornerSides : List String := ["ne", "se", "sw", "nw"]

def startsWithSide (parts : List String) : Bool := parts.head?.any cornerSides.contains

def readSubcategory? : List String → Option String
  | part :: parts =>
    if part ∈ stateWords ∨ (part = "corner" ∧ startsWithSide parts) then none else some part
  | [] => none

def readCorner? (parts : List String) : Option String :=
  (cornerSides.find? parts.contains).map ("corner." ++ ·)

def readDial (d : Dial) (parts : List String) : Nat := (d.words.findIdx? parts.contains).getD 0

def readEnding (parts : List String) : Option String × Nat × Nat × Nat :=
  (readCorner? parts, readDial .damage parts, if parts.contains "wet" then 1 else 0,
    readDial .age parts)

def corners : List (Option String) := none :: cornerSides.map fun side => some ("corner." ++ side)

theorem readEnding_endingParts : ∀ corner ∈ corners,
    ∀ (damage : Fin 4) (moisture : Fin 2) (age : Fin 3),
      readEnding (endingParts corner damage moisture age) =
        (corner, damage.val, moisture.val, age.val) := by decide +kernel

/-- An ending has no subcategory in front, and does not begin like the rest of a corner. -/
theorem endingParts_start : ∀ corner ∈ corners,
    ∀ (damage : Fin 4) (moisture : Fin 2) (age : Fin 3),
      readSubcategory? (endingParts corner damage moisture age) = none ∧
        startsWithSide (endingParts corner damage moisture age) = false := by decide +kernel

theorem cornerName_mem (edges : Signature) : cornerName edges ∈ corners := by
  unfold cornerName
  repeat' split
  all_goals decide

end Derivation

namespace Grammar

open TileGrammar.Derivation

theorem corner_mem (g : Grammar) : g.corner ∈ corners := by
  unfold corner
  split
  · exact cornerName_mem g.edges
  · decide

/-- Names that stand for one part of a glyph id and for no other. -/
structure PlainNames (g : Grammar) : Prop where
  category : '.' ∉ g.category.toList
  subcategory : ∀ s, g.subcategory = some s → '.' ∉ s.toList ∧ s ∉ stateWords

/-- Grammars that agree in all that goes into a glyph id. -/
structure SameLook (g k : Grammar) : Prop where
  category : g.category = k.category
  subcategory : g.subcategory = k.subcategory
  corner : g.corner = k.corner
  damage : g.damage = k.damage
  moisture : g.moisture = k.moisture
  age : g.age = k.age

theorem SameLook.glyphId_eq {g k : Grammar} (h : g.SameLook k) : g.glyphId = k.glyphId := by
  rw [glyphId, glyphId, ending, ending, h.category, h.subcategory, h.corner, h.damage, h.moisture,
    h.age]

def lastParts (g : Grammar) : List String :=
  endingParts g.corner g.damage.toNat g.moisture.toNat g.age.toNat

theorem readEnding_lastParts {g : Grammar} (h : g.check = .ok ()) :
    readEnding g.lastParts = (g.corner, g.damage.toNat, g.moisture.toNat, g.age.toNat) := by
  obtain ⟨-, -, hdials⟩ := g.check_eq_ok_iff.mp h
  exact readEnding_endingParts _ g.corner_mem ⟨_, Nat.lt_succ_of_le (hdials .damage)⟩
    ⟨_, Nat.lt_succ_of_le (hdials .moisture)⟩ ⟨_, Nat.lt_succ_of_le (hdials .age)⟩

theorem lastParts_start {g : Grammar} (h : g.check = .ok ()) :
    readSubcategory? g.lastParts = none ∧ startsWithSide g.lastParts = false := by
  obtain ⟨-, -, hdials⟩ := g.check_eq_ok_iff.mp h
  exact endingParts_start _ g.corner_mem ⟨_, Nat.lt_succ_of_le (hdials .damage)⟩
    ⟨_, Nat.lt_succ_of_le (hdials .moisture)⟩ ⟨_, Nat.lt_succ_of_le (hdials .age)⟩

theorem dotParts_glyphId {g : Grammar} (h : g.PlainNames) :
    dotParts g.glyphId = g.category :: (g.subcategory.toList ++ g.lastParts) := by
  have hsub : g.subcategory.toList.flatMap dotParts = g.subcategory.toList := by
    cases hs : g.subcategory with
    | none => rfl
    | some s => simp [dotParts_of_notMem (h.subcategory s hs).1]
  rw [glyphId, dotParts_intercalate (List.cons_ne_nil _ _), List.flatMap_cons,
    dotParts_of_notMem h.category, List.flatMap_append, hsub]
  rfl

theorem readSubcategory?_parts {g : Grammar} (h : g.PlainNames) (hg : g.check = .ok ()) :
    readSubcategory? (g.subcategory.toList ++ g.lastParts) = g.subcategory := by
  obtain ⟨hnone, hside⟩ := lastParts_start hg
  rcases hs : g.subcategory with _ | s
  · rw [Option.toList_none, List.nil_append, hnone]
  · have hword : s ∉ stateWords := (h.subcategory s hs).2
    have hfirst : ¬ (s ∈ stateWords ∨ (s = "corner" ∧ startsWithSide g.lastParts = true)) := by
      rw [hside]
      simp [hword]
    rw [Option.toList_some, List.singleton_append, readSubcategory?, if_neg hfirst]

/-- With plain names, a glyph id tells all that goes into it, and nothing else. -/
theorem glyphId_eq_iff {g k : Grammar} (hg : g.check = .ok ()) (hk : k.check = .ok ())
    (pg : g.PlainNames) (pk : k.PlainNames) : g.glyphId = k.glyphId ↔ g.SameLook k := by
  refine ⟨fun h => ?_, SameLook.glyphId_eq⟩
  have hparts := congrArg dotParts h
  rw [dotParts_glyphId pg, dotParts_glyphId pk, List.cons.injEq] at hparts
  obtain ⟨hcategory, hrest⟩ := hparts
  have hsub : g.subcategory = k.subcategory := by
    rw [← readSubcategory?_parts pg hg, hrest, readSubcategory?_parts pk hk]
  rw [hsub, List.append_cancel_left_eq] at hrest
  have hread : (g.corner, g.damage.toNat, g.moisture.toNat, g.age.toNat) =
      (k.corner, k.damage.toNat, k.moisture.toNat, k.age.toNat) := by
    rw [← readEnding_lastParts hg, hrest, readEnding_lastParts hk]
  simp only [Prod.mk.injEq, UInt8.toNat_inj] at hread
  obtain ⟨hcorner, hdamage, hmoisture, hage⟩ := hread
  exact ⟨hcategory, hsub, hcorner, hdamage, hmoisture, hage⟩

end Grammar

end TileGrammar
