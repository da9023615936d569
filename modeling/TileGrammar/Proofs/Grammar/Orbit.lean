import Mathlib.Data.Finset.Prod
import Mathlib.Data.Fintype.Prod
import TileGrammar.Proofs.Edge.Turning
import TileGrammar.Proofs.Grammar.Family
import TileGrammar.Proofs.Grammar.TileId

/-!
# How many tiles a family has

A family has its base signature turned, and each turned one reflected from left
to right. A reflection from top to bottom is the other reflection turned half
around, so a family with turns and reflections has every image of a square. Two
grammars of a family have one id only where they are the same grammar. So what
a family has less of tiles than of grammars is due to images of the signature
that coincide.
-/

set_option autoImplicit false

namespace TileGrammar

namespace Spec

open Sides

variable {s : Spec} {image : Signature}

theorem mem_images_iff : image ∈ s.images ↔ ∃ r < s.rotationCount,
    image = turnTimes r s.grammar.edges ∨
      s.flips = true ∧ image = (turnTimes r s.grammar.edges).reflect := by
  simp only [images, List.mem_flatMap, List.mem_range]
  apply exists_congr
  intro r
  cases s.flips <;> simp

theorem mem_images_iff_of_rotations (hr : s.rotations = true) : image ∈ s.images ↔ ∃ n,
    image = turnTimes n s.grammar.edges ∨
      s.flips = true ∧ image = (turnTimes n s.grammar.edges).reflect := by
  rw [mem_images_iff, rotationCount, if_pos hr]
  constructor
  · rintro ⟨r, -, h⟩
    exact ⟨r, h⟩
  · rintro ⟨n, h⟩
    rw [← turnTimes_mod n] at h
    exact ⟨n % 4, Nat.mod_lt n (by decide), h⟩

theorem turn_mem_images (hr : s.rotations = true) (h : image ∈ s.images) :
    image.turn ∈ s.images := by
  rw [mem_images_iff_of_rotations hr] at h ⊢
  obtain ⟨n, rfl | ⟨hf, rfl⟩⟩ := h
  · exact ⟨n + 1, Or.inl (turnTimes_succ n _).symm⟩
  · refine ⟨n + 3, Or.inr ⟨hf, ?_⟩⟩
    rw [turn_reflect, turnTimes_add]

theorem reflect_mem_images (hf : s.flips = true) (h : image ∈ s.images) :
    image.reflect ∈ s.images := by
  rw [mem_images_iff] at h ⊢
  obtain ⟨r, hr, rfl | ⟨-, rfl⟩⟩ := h
  · exact ⟨r, hr, Or.inr ⟨hf, rfl⟩⟩
  · exact ⟨r, hr, Or.inl (reflect_reflect _)⟩

theorem turnTimes_mem_images (hr : s.rotations = true) (n : Nat) (h : image ∈ s.images) :
    turnTimes n image ∈ s.images := by
  induction n generalizing image with
  | zero => exact h
  | succ n ih => exact ih (turn_mem_images hr h)

theorem rotate_mem_images (hr : s.rotations = true) (k : Int) (h : image ∈ s.images) :
    rotate k image ∈ s.images := turnTimes_mem_images hr _ h

theorem reflectVertical_mem_images (hr : s.rotations = true) (hf : s.flips = true)
    (h : image ∈ s.images) : image.reflectVertical ∈ s.images := by
  rw [reflectVertical_eq]
  exact turn_mem_images hr (turn_mem_images hr (reflect_mem_images hf h))

theorem mem_positions (n a : UInt8) : a ∈ positions n ↔ a.toNat < n.toNat := by
  simp only [positions, List.mem_map, List.mem_range]
  constructor
  · rintro ⟨i, hi, rfl⟩
    rwa [toNat_ofNat_fin ⟨i, hi⟩]
  · intro h
    exact ⟨a.toNat, h, UInt8.ofNat_toNat⟩

theorem mem_family_iff (s : Spec) (g : Grammar) : g ∈ s.family ↔
    (∀ d, (g.dial d).toNat < (s.variants d).toNat) ∧ g.edges ∈ s.images ∧
      g = s.member g.damage g.lighting g.moisture g.age g.edges := by
  simp only [family, List.mem_flatMap, List.mem_map, mem_positions]
  constructor
  · rintro ⟨d, hd, l, hl, m, hm, a, ha, image, himage, rfl⟩
    refine ⟨fun dial => ?_, himage, rfl⟩
    cases dial <;> assumption
  · rintro ⟨hdials, himage, hg⟩
    exact ⟨g.damage, hdials .damage, g.lighting, hdials .lighting, g.moisture, hdials .moisture,
      g.age, hdials .age, g.edges, himage, hg.symm⟩

theorem withEdges_mem_family {g : Grammar} (hg : g ∈ s.family) (h : image ∈ s.images) :
    { g with edges := image } ∈ s.family := by
  rw [mem_family_iff] at hg ⊢
  obtain ⟨hdials, -, hbase⟩ := hg
  refine ⟨fun d => ?_, h, ?_⟩
  · have hd := hdials d
    cases d <;> exact hd
  · rw [hbase]
    rfl

theorem tileId_member_inj {d l m a d' l' m' a' : UInt8} {image other : Signature}
    (h : (s.member d l m a image).tileId = (s.member d' l' m' a' other).tileId) :
    d = d' ∧ l = l' ∧ m = m' ∧ a = a' ∧ image = other := by
  obtain ⟨-, hedges, hdials⟩ := (Grammar.tileId_eq_iff _ _).mp h
  exact ⟨hdials .damage, hdials .lighting, hdials .moisture, hdials .age, hedges⟩

theorem eq_of_tileId_eq {g h : Grammar} (hg : g ∈ s.family) (hh : h ∈ s.family)
    (he : g.tileId = h.tileId) : g = h := by
  obtain ⟨-, -, hgbase⟩ := (s.mem_family_iff g).mp hg
  obtain ⟨-, -, hhbase⟩ := (s.mem_family_iff h).mp hh
  rw [hgbase, hhbase] at he ⊢
  obtain ⟨hd, hl, hm, ha, hedges⟩ := tileId_member_inj he
  rw [hd, hl, hm, ha, hedges]

def imageAt (s : Spec) (p : Fin s.rotationCount × Fin s.flipCount) : Signature :=
  if (p.2 : Nat) = 1 then (rotate (p.1 : Nat) s.grammar.edges).reflect
  else rotate (p.1 : Nat) s.grammar.edges

theorem toFinset_images (s : Spec) : s.images.toFinset = Finset.univ.image s.imageAt := by
  ext image
  rw [List.mem_toFinset, Finset.mem_image]
  constructor
  · intro h
    obtain ⟨r, hr, hat⟩ := mem_images_iff.mp h
    have hturned : rotate r s.grammar.edges = turnTimes r s.grammar.edges :=
      s.rotate_ofNat ⟨r, hr⟩
    rcases hat with rfl | ⟨hf, rfl⟩
    · have hzero : 0 < s.flipCount := by
        unfold flipCount
        split <;> decide
      exact ⟨(⟨r, hr⟩, ⟨0, hzero⟩), Finset.mem_univ _, hturned⟩
    · have hone : 1 < s.flipCount := by
        rw [flipCount, if_pos hf]
        decide
      exact ⟨(⟨r, hr⟩, ⟨1, hone⟩), Finset.mem_univ _, congrArg reflect hturned⟩
  · rintro ⟨⟨r, f⟩, -, rfl⟩
    exact List.mem_of_getElem? (s.getElem?_images r f)

def choices (s : Spec) : Finset (UInt8 × UInt8 × UInt8 × UInt8 × Signature) :=
  (positions s.damageVariants).toFinset ×ˢ (positions s.lightingVariants).toFinset ×ˢ
    (positions s.moistureVariants).toFinset ×ˢ (positions s.ageVariants).toFinset ×ˢ
    s.images.toFinset

def idOf (s : Spec) : UInt8 × UInt8 × UInt8 × UInt8 × Signature → String :=
  fun (d, l, m, a, image) => (s.member d l m a image).tileId

theorem idOf_injective (s : Spec) : Function.Injective s.idOf := by
  rintro ⟨d, l, m, a, image⟩ ⟨d', l', m', a', other⟩ h
  obtain ⟨rfl, rfl, rfl, rfl, rfl⟩ := tileId_member_inj h
  rfl

theorem ids_eq_image (s : Spec) :
    (s.family.map Grammar.tileId).toFinset = s.choices.image s.idOf := by
  ext id
  simp only [List.mem_toFinset, List.mem_map, Finset.mem_image, choices, Finset.mem_product,
    mem_positions, Prod.exists]
  constructor
  · rintro ⟨g, hg, rfl⟩
    obtain ⟨hdials, himage, hbase⟩ := (s.mem_family_iff g).mp hg
    exact ⟨g.damage, g.lighting, g.moisture, g.age, g.edges, ⟨hdials .damage, hdials .lighting,
      hdials .moisture, hdials .age, himage⟩, congrArg Grammar.tileId hbase.symm⟩
  · rintro ⟨d, l, m, a, image, ⟨hd, hl, hm, ha, himage⟩, rfl⟩
    refine ⟨s.member d l m a image, ?_, rfl⟩
    refine (s.mem_family_iff _).mpr ⟨fun dial => ?_, himage, rfl⟩
    cases dial <;> assumption

theorem card_positions (n : UInt8) : (positions n).toFinset.card = n.toNat := by
  have hnodup : (positions n).Nodup := by
    apply List.Nodup.map_on _ List.nodup_range
    intro i hi j hj h
    rw [List.mem_range] at hi hj
    calc i = (UInt8.ofNat i).toNat := (toNat_ofNat_fin ⟨i, hi⟩).symm
      _ = (UInt8.ofNat j).toNat := by rw [h]
      _ = j := toNat_ofNat_fin ⟨j, hj⟩
  rw [List.toFinset_card_of_nodup hnodup, length_positions]

def dialCount (s : Spec) : Nat := s.damageVariants.toNat * s.lightingVariants.toNat *
  s.moistureVariants.toNat * s.ageVariants.toNat

theorem card_ids (s : Spec) : (s.family.map Grammar.tileId).toFinset.card =
    s.dialCount * (Finset.univ.image s.imageAt).card := by
  rw [ids_eq_image, Finset.card_image_of_injective _ s.idOf_injective, choices]
  simp only [Finset.card_product, card_positions, toFinset_images, dialCount, Nat.mul_assoc]

/-- No two grammars of a family have one id exactly where it is empty or all images differ. -/
theorem nodup_ids_iff (s : Spec) : (s.family.map Grammar.tileId).Nodup ↔
    s.dialCount = 0 ∨ Function.Injective s.imageAt := by
  have hall : (Finset.univ : Finset (Fin s.rotationCount × Fin s.flipCount)).card =
      s.rotationCount * s.flipCount := by simp
  have hlength : (s.family.map Grammar.tileId).length =
      s.dialCount * (s.rotationCount * s.flipCount) := by
    rw [List.length_map, length_family, familySize, dialCount, Nat.mul_assoc]
  rw [← Multiset.coe_nodup, ← Multiset.toFinset_card_eq_card_iff_nodup, List.toFinset_coe,
    Multiset.coe_card, card_ids, hlength, ← hall, mul_eq_mul_left_iff, or_comm,
    Finset.card_image_iff, Finset.coe_univ, Set.injOn_univ]

/-- A family with turns and reflections has with a grammar also those of its dials whose edges are
turned any number of times, reflected from left to right or from top to bottom. A family of any kind
has as many tile ids as it has combinations of dials, times the different images of the base
signature. Grammars of one id are the same, so no id stands twice unless two images coincide. -/
theorem family_covers_reflections (s : Spec) :
    (s.rotations = true → s.flips = true → ∀ g ∈ s.family,
      (∀ k : Int, { g with edges := rotate k g.edges } ∈ s.family) ∧
      { g with edges := g.edges.reflect } ∈ s.family ∧
      { g with edges := g.edges.reflectVertical } ∈ s.family) ∧
    (s.family.map Grammar.tileId).toFinset.card =
      s.damageVariants.toNat * s.lightingVariants.toNat * s.moistureVariants.toNat *
        s.ageVariants.toNat * (Finset.univ.image s.imageAt).card ∧
    (∀ g ∈ s.family, ∀ h ∈ s.family, g.tileId = h.tileId → g = h) ∧
    ((s.family.map Grammar.tileId).Nodup ↔ s.dialCount = 0 ∨ Function.Injective s.imageAt) := by
  refine ⟨fun hr hf g hg => ?_, s.card_ids, fun g hg h hh => eq_of_tileId_eq hg hh,
    s.nodup_ids_iff⟩
  obtain ⟨-, himage, -⟩ := (s.mem_family_iff g).mp hg
  refine ⟨fun k => ?_, ?_, ?_⟩
  · exact withEdges_mem_family hg (rotate_mem_images hr k himage)
  · exact withEdges_mem_family hg (reflect_mem_images hf himage)
  · exact withEdges_mem_family hg (reflectVertical_mem_images hr hf himage)

theorem family_covers_reflections_passage :
    let passage := { Grammar.ofCategory "door" "wood" with
      edges := ⟨.doorFrame, .solid, .doorFrame, .solid⟩ }
    let s := { ofGrammar "passages" passage with
      damageVariants := 2, rotations := true, flips := true }
    let g := passage.withDials 1 0 0 0
    g ∈ s.family ∧ { g with edges := rotate (-1) g.edges } ∈ s.family ∧
      { g with edges := g.edges.reflectVertical } ∈ s.family ∧
      s.family.length = 16 ∧ (s.family.map Grammar.tileId).toFinset.card = 4 := by
  intro passage s g
  have hg : g ∈ s.family := by decide +kernel
  obtain ⟨hcovers, hcard, -, -⟩ := family_covers_reflections s
  obtain ⟨hturned, -, hvertical⟩ := hcovers rfl rfl g hg
  refine ⟨hg, hturned (-1), hvertical, by decide +kernel, ?_⟩
  rw [hcard]
  decide +kernel

end Spec

end TileGrammar
