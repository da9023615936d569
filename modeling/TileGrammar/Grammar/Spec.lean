import TileGrammar.Grammar.Grammar

/-!
# Tile specs

A spec stands for a family of grammars: one base grammar at every combination
of dial positions, turned and reflected if asked for. A plan only counts such a
family, within the numbers of 64 bits.
-/

set_option autoImplicit false

namespace TileGrammar

structure Spec where
  id : String
  grammar : Grammar
  damageVariants : UInt8
  lightingVariants : UInt8
  moistureVariants : UInt8
  ageVariants : UInt8
  rotations : Bool
  flips : Bool
  deriving DecidableEq

namespace Spec

def ofGrammar (id : String) (g : Grammar) : Spec := ⟨id, g, 1, 1, 1, 1, false, false⟩

def variants (s : Spec) : Dial → UInt8
  | .damage => s.damageVariants
  | .lighting => s.lightingVariants
  | .moisture => s.moistureVariants
  | .age => s.ageVariants

def checkVariants (s : Spec) (d : Dial) : Except Error Unit :=
  let n := (s.variants d).toNat
  if n = 0 ∨ d.limit + 1 < n then .error (.variantRange s.id d n) else .ok ()

def check (s : Spec) : Except Error Unit := Dial.all.forM s.checkVariants

def rotationCount (s : Spec) : Nat := if s.rotations then 4 else 1

def flipCount (s : Spec) : Nat := if s.flips then 2 else 1

def familySize (s : Spec) : Nat :=
  s.damageVariants.toNat * s.lightingVariants.toNat * s.moistureVariants.toNat *
    s.ageVariants.toNat * s.rotationCount * s.flipCount

def positions (n : UInt8) : List UInt8 := (List.range n.toNat).map UInt8.ofNat

/-- The signatures of one combination: turned, each followed by its reflection. -/
def images (s : Spec) : List Signature :=
  (List.range s.rotationCount).flatMap fun r =>
    let turned := Sides.turnTimes r s.grammar.edges
    if s.flips then [turned, turned.reflect] else [turned]

/-- Every grammar of the family: damage outermost, then lighting, moisture, age,
turns, and reflections. -/
def family (s : Spec) : List Grammar :=
  (positions s.damageVariants).flatMap fun damage =>
  (positions s.lightingVariants).flatMap fun lighting =>
  (positions s.moistureVariants).flatMap fun moisture =>
  (positions s.ageVariants).flatMap fun age =>
  s.images.map fun edges =>
    { s.grammar.withDials damage lighting moisture age with edges := edges }

theorem length_positions (n : UInt8) : (positions n).length = n.toNat := by
  simp [positions]

theorem length_images (s : Spec) : s.images.length = s.rotationCount * s.flipCount := by
  have h : ∀ r : Nat, (if s.flips then [Sides.turnTimes r s.grammar.edges,
      (Sides.turnTimes r s.grammar.edges).reflect] else
      [Sides.turnTimes r s.grammar.edges]).length = s.flipCount := by
    intro r
    unfold flipCount
    split <;> rfl
  simp only [images, List.length_flatMap, h, List.map_const', List.sum_replicate_nat,
    List.length_range]

theorem length_family (s : Spec) : s.family.length = s.familySize := by
  simp only [family, familySize, List.length_flatMap, List.length_map, length_images,
    List.map_const', List.sum_replicate_nat, length_positions, Nat.mul_assoc]

def tileTotal (specs : List Spec) : Nat := specs.foldl (fun n s => n + s.familySize) 0

def schema : Schema Spec where
  blank := ofGrammar "" Grammar.schema.blank
  fields := [
    .of "id" .required .text Spec.id fun s v => { s with id := v },
    .of "grammar" .required Grammar.codec Spec.grammar fun s v => { s with grammar := v },
    .of "damage_variants" .defaulted .word8 Spec.damageVariants
      fun s v => { s with damageVariants := v },
    .of "lighting_variants" .defaulted .word8 Spec.lightingVariants
      fun s v => { s with lightingVariants := v },
    .of "moisture_variants" .defaulted .word8 Spec.moistureVariants
      fun s v => { s with moistureVariants := v },
    .of "age_variants" .defaulted .word8 Spec.ageVariants fun s v => { s with ageVariants := v },
    .of "generate_rotations" .defaulted .flag Spec.rotations fun s v => { s with rotations := v },
    .of "generate_flips" .defaulted .flag Spec.flips fun s v => { s with flips := v }]

def codec : Codec Spec := schema.codec

end Spec

/-- How many tiles a combination of counts gives. -/
structure Plan where
  bases : Nat
  edges : UInt64
  damage : UInt64
  lighting : UInt64
  moisture : UInt64
  deriving DecidableEq

namespace Plan

def ceiling : Nat := UInt64.size - 1

def times (a b : Nat) : Nat := min (a * b) ceiling

def factors (p : Plan) : List Nat :=
  [p.edges.toNat, p.damage.toNat, p.lighting.toNat, p.moisture.toNat]

/-- The product of all counts, cut off at 64 bits after each factor. -/
def total (p : Plan) : Nat := p.factors.foldl times p.bases

def formula (p : Plan) : String :=
  " × ".intercalate ((p.bases :: p.factors).map decimal)

end Plan

end TileGrammar
