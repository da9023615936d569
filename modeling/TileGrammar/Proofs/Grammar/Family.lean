import Mathlib.Tactic.Ring
import TileGrammar.Grammar.Spec
import TileGrammar.Proofs.Order.Traversal

/-!
# Where a grammar stands in its family

A family is five loops inside one another, four over the dials and the last one
over the images of the signature. Every pass of a loop gives as many grammars
as any other, so a place in the family is a number whose digits are the dials,
the turn and the reflection. Codepoints are handed out in the order of places.
-/

set_option autoImplicit false

namespace TileGrammar

namespace Spec

theorem getElem?_positions {n : UInt8} (i : Fin n.toNat) :
    (positions n)[(i : Nat)]? = some (UInt8.ofNat i) := by
  simp [positions]

theorem toNat_ofNat_fin {n : UInt8} (i : Fin n.toNat) : (UInt8.ofNat i).toNat = i := by
  have hi : (i : Nat) < 256 := i.isLt.trans n.toNat_lt
  simp [Nat.mod_eq_of_lt hi]

def withReflection (s : Spec) (turned : Signature) : List Signature :=
  if s.flips then [turned, turned.reflect] else [turned]

theorem length_withReflection (s : Spec) (turned : Signature) :
    (s.withReflection turned).length = s.flipCount := by
  unfold withReflection flipCount
  cases s.flips <;> rfl

theorem getElem?_withReflection (s : Spec) (turned : Signature) (f : Fin s.flipCount) :
    (s.withReflection turned)[(f : Nat)]? =
      some (if (f : Nat) = 1 then turned.reflect else turned) := by
  obtain ⟨f, hf⟩ := f
  unfold flipCount at hf
  unfold withReflection
  cases hflips : s.flips with
  | false =>
    obtain rfl : f = 0 := by simpa [hflips] using hf
    rfl
  | true =>
    rw [hflips, if_pos rfl] at hf
    match f, hf with
    | 0, _ => rfl
    | 1, _ => rfl

theorem rotate_ofNat (s : Spec) (r : Fin s.rotationCount) :
    Sides.rotate (r : Nat) s.grammar.edges = Sides.turnTimes r s.grammar.edges := by
  have hcount : s.rotationCount ≤ 4 := by
    unfold rotationCount
    split <;> decide
  have hr : ((r : Nat) : Int) % 4 = (r : Nat) := by omega
  rw [Sides.rotate, hr, Int.toNat_natCast]

theorem getElem?_images (s : Spec) (r : Fin s.rotationCount) (f : Fin s.flipCount) :
    s.images[(r : Nat) * s.flipCount + f]? =
      let turned := Sides.rotate (r : Nat) s.grammar.edges
      some (if (f : Nat) = 1 then turned.reflect else turned) := by
  have hrange : (List.range s.rotationCount)[(r : Nat)]? = some (r : Nat) := by simp
  have hpart := s.getElem?_withReflection (Sides.turnTimes r s.grammar.edges) f
  rw [← rotate_ofNat] at hpart
  exact getElem?_flatMap_of_length (fun r => s.length_withReflection (Sides.turnTimes r _))
    hrange (by rwa [← rotate_ofNat])

def member (s : Spec) (d l m a : UInt8) (edges : Signature) : Grammar :=
  { s.grammar.withDials d l m a with edges := edges }

theorem length_pass {k : Nat} {f : UInt8 → List Grammar} (hf : ∀ a, (f a).length = k)
    (n : UInt8) : ((positions n).flatMap f).length = n.toNat * k := by
  simp only [List.length_flatMap, hf, List.map_const', List.sum_replicate_nat, length_positions]

/-- The place of a grammar, digit by digit, from the loop over the damage to the one over the
images. -/
theorem getElem?_family (s : Spec) (d : Fin s.damageVariants.toNat)
    (l : Fin s.lightingVariants.toNat) (m : Fin s.moistureVariants.toNat)
    (a : Fin s.ageVariants.toNat) {i : Nat} {edges : Signature} (h : s.images[i]? = some edges) :
    s.family[(((d * s.lightingVariants.toNat + l) * s.moistureVariants.toNat + m) *
        s.ageVariants.toNat + a) * s.images.length + i]? =
      some (s.member (.ofNat d) (.ofNat l) (.ofNat m) (.ofNat a) edges) := by
  have hplace : (((d * s.lightingVariants.toNat + l) * s.moistureVariants.toNat + m) *
      s.ageVariants.toNat + a) * s.images.length + i =
      d * (s.lightingVariants.toNat * (s.moistureVariants.toNat *
        (s.ageVariants.toNat * s.images.length))) +
      (l * (s.moistureVariants.toNat * (s.ageVariants.toNat * s.images.length)) +
      (m * (s.ageVariants.toNat * s.images.length) + (a * s.images.length + i))) := by ring
  have himages : ∀ d l m a, (s.images.map (s.member d l m a)).length = s.images.length :=
    fun _ _ _ _ => List.length_map _
  have hages := fun d l m => length_pass (himages d l m) s.ageVariants
  have hmoistures := fun d l => length_pass (hages d l) s.moistureVariants
  have hlightings := fun d => length_pass (hmoistures d) s.lightingVariants
  rw [hplace]
  refine getElem?_flatMap_of_length hlightings (getElem?_positions d) ?_
  refine getElem?_flatMap_of_length (hmoistures _) (getElem?_positions l) ?_
  refine getElem?_flatMap_of_length (hages _ _) (getElem?_positions m) ?_
  refine getElem?_flatMap_of_length (himages _ _ _) (getElem?_positions a) ?_
  rw [List.getElem?_map, h]
  rfl

theorem tileTotal_eq_sum (specs : List Spec) :
    tileTotal specs = (specs.map fun s => s.family.length).sum := by
  simp only [tileTotal, length_family, List.sum_eq_foldl, List.foldl_map]

/-- A family has as many grammars as its counts multiply to. The grammar at the place with the
digits of four dials, a turn and a reflection has these dials, the signature of the base turned and
then reflected or not, and everything else from the base. What a list of specs is said to come to is
the length of its families. -/
theorem family_in_order :
    (∀ s : Spec, s.family.length = s.familySize ∧
      s.familySize = s.damageVariants.toNat * s.lightingVariants.toNat * s.moistureVariants.toNat *
        s.ageVariants.toNat * s.rotationCount * s.flipCount ∧
      s.rotationCount = (if s.rotations then 4 else 1) ∧
      s.flipCount = (if s.flips then 2 else 1) ∧
      ∀ (d : Fin s.damageVariants.toNat) (l : Fin s.lightingVariants.toNat)
        (m : Fin s.moistureVariants.toNat) (a : Fin s.ageVariants.toNat)
        (r : Fin s.rotationCount) (f : Fin s.flipCount),
        ∃ g, s.family[((((d * s.lightingVariants.toNat + l) * s.moistureVariants.toNat + m) *
            s.ageVariants.toNat + a) * s.rotationCount + r) * s.flipCount + f]? = some g ∧
          g.damage.toNat = d ∧ g.lighting.toNat = l ∧ g.moisture.toNat = m ∧ g.age.toNat = a ∧
          g.edges = (if (f : Nat) = 1 then (Sides.rotate (r : Nat) s.grammar.edges).reflect
            else Sides.rotate (r : Nat) s.grammar.edges) ∧
          g = { s.grammar.withDials g.damage g.lighting g.moisture g.age with edges := g.edges }) ∧
    ∀ specs : List Spec, tileTotal specs = (specs.map fun s => s.family.length).sum := by
  refine ⟨fun s => ⟨s.length_family, rfl, rfl, rfl, fun d l m a r f => ?_⟩, tileTotal_eq_sum⟩
  have hmember := s.getElem?_family d l m a (s.getElem?_images r f)
  have hplace : (((d * s.lightingVariants.toNat + l) * s.moistureVariants.toNat + m) *
      s.ageVariants.toNat + a) * s.images.length + (r * s.flipCount + f) =
      ((((d * s.lightingVariants.toNat + l) * s.moistureVariants.toNat + m) *
      s.ageVariants.toNat + a) * s.rotationCount + r) * s.flipCount + f := by
    rw [length_images]
    ring
  rw [hplace] at hmember
  exact ⟨_, hmember, toNat_ofNat_fin d, toNat_ofNat_fin l, toNat_ofNat_fin m, toNat_ofNat_fin a,
    rfl, rfl⟩

example :
    let s := { Spec.ofGrammar "doors" (.ofCategory "door" "wood") with
      damageVariants := 2, ageVariants := 2, rotations := true, flips := true }
    s.family.length = 32 ∧ s.family[(2 + 1) * 8 + 3 * 2 + 1]?.map Grammar.age = some 1 := by
  decide +kernel

end Spec

end TileGrammar
