import Mathlib.Data.Finset.Prod
import Mathlib.Order.Interval.Finset.Nat
import TileGrammar.Picture.Canvas
import TileGrammar.Proofs.Order.Traversal

/-!
# Reading a well formed canvas

A well formed canvas has a pixel at each of its places, so reading any list of
its places succeeds. The regions that are read list their places once each;
as sets they are the whole canvas, its sides and its middle half. So what is
counted in a region does not depend on the order in which it is read. A canvas
may also be given by its pixels, one for each place.
-/

set_option autoImplicit false

namespace TileGrammar

namespace Region

theorem nodup_rect (x₀ x₁ y₀ y₁ : Nat) : (rect x₀ x₁ y₀ y₁).Nodup := by
  have hspan : ∀ start stop, (span start stop).Nodup := fun _ _ => List.nodup_range' 1
  refine List.nodup_flatMap.mpr ⟨fun y _ => ?_, ?_⟩
  · exact (hspan x₀ x₁).map fun a b h => (Prod.mk.inj h).1
  · refine (hspan y₀ y₁).imp fun {y z} hyz p hp hq => hyz ?_
    obtain ⟨x, -, rfl⟩ := List.mem_map.mp hp
    obtain ⟨x', -, h⟩ := List.mem_map.mp hq
    exact (Prod.mk.inj h).2.symm

theorem nodup_side (width height : Nat) (d : Direction) : (side width height d).Nodup := by
  cases d <;> exact nodup_rect _ _ _ _

theorem nodup_center (width height : Nat) : (center width height).Nodup := nodup_rect _ _ _ _

theorem side_ne_nil {width height : Nat} (hw : width ≠ 0) (hh : height ≠ 0) (d : Direction) :
    side width height d ≠ [] := by
  have hcorner : (if d = .east then width - 1 else 0, if d = .south then height - 1 else 0) ∈
      side width height d := by
    cases d <;> simp [side, mem_rect] <;> omega
  exact List.ne_nil_of_mem hcorner

theorem mem_neighbors {width height : Nat} {p q : Place} (hp : p.1 < width ∧ p.2 < height) :
    q ∈ neighbors width height p ↔ (q.1 < width ∧ q.2 < height) ∧
      ((q.2 = p.2 ∧ (q.1 + 1 = p.1 ∨ q.1 = p.1 + 1)) ∨
        q.1 = p.1 ∧ (q.2 + 1 = p.2 ∨ q.2 = p.2 + 1)) := by
  obtain ⟨x, y⟩ := p
  obtain ⟨x', y'⟩ := q
  simp only at hp
  simp only [neighbors, List.mem_append, List.mem_ite_nil_right, List.mem_singleton,
    Prod.mk.injEq]
  omega

theorem nodup_neighbors (width height : Nat) (p : Place) : (neighbors width height p).Nodup := by
  unfold neighbors
  split_ifs <;> simp <;> omega

theorem mem_neighbors_lt {width height : Nat} {p q : Place} (hp : p.1 < width ∧ p.2 < height)
    (hq : q ∈ neighbors width height p) : q.1 < width ∧ q.2 < height := ((mem_neighbors hp).mp hq).1

theorem index_lt {width height : Nat} {p : Place} (hp : p.1 < width ∧ p.2 < height) :
    p.2 * width + p.1 < width * height :=
  calc p.2 * width + p.1 < p.2 * width + width := by omega
    _ = (p.2 + 1) * width := (Nat.succ_mul _ _).symm
    _ ≤ height * width := Nat.mul_le_mul_right _ hp.2
    _ = width * height := Nat.mul_comm _ _

theorem index_inj {width : Nat} {p q : Place} (hp : p.1 < width) (hq : q.1 < width)
    (h : p.2 * width + p.1 = q.2 * width + q.1) : p = q := by
  have hcolumn : p.1 = q.1 := by
    have hmod := congrArg (· % width) h
    simpa [Nat.mul_add_mod', Nat.mod_eq_of_lt hp, Nat.mod_eq_of_lt hq] using hmod
  have hrow : p.2 = q.2 := by
    rw [hcolumn, Nat.add_right_cancel_iff] at h
    exact Nat.eq_of_mul_eq_mul_right (Nat.zero_lt_of_lt hp) h
  exact Prod.ext hcolumn hrow

end Region

namespace Canvas

def places (c : Canvas) : Finset Place := Finset.range c.width ×ˢ Finset.range c.height

def sidePlaces (c : Canvas) : Direction → Finset Place
  | .north => c.places.filter fun p => p.2 = 0
  | .east => c.places.filter fun p => p.1 + 1 = c.width
  | .south => c.places.filter fun p => p.2 + 1 = c.height
  | .west => c.places.filter fun p => p.1 = 0

def centerPlaces (c : Canvas) : Finset Place :=
  Finset.Ico (c.width / 4) (c.width - c.width / 4) ×ˢ
    Finset.Ico (c.height / 4) (c.height - c.height / 4)

/-- The pixel at a place; clear where the canvas has none. -/
def pixel (c : Canvas) (p : Place) : Rgba := (c.pixelAt? p.1 p.2).getD .clear

@[simp] theorem width_view (c : Canvas) : c.view.width = c.width := rfl

@[simp] theorem height_view (c : Canvas) : c.view.height = c.height := rfl

def drawn (c : Canvas) (ps : Finset Place) : Finset Place := ps.filter fun p => (c.pixel p).a ≠ 0

theorem mem_places {c : Canvas} {p : Place} : p ∈ c.places ↔ p.1 < c.width ∧ p.2 < c.height := by
  simp [places]

theorem mem_all_iff_mem_places {c : Canvas} {p : Place} :
    p ∈ Region.all c.width c.height ↔ p ∈ c.places := by
  rw [Region.mem_all, mem_places]

theorem mem_side_iff {c : Canvas} (hw : c.width ≠ 0) (hh : c.height ≠ 0) (d : Direction)
    {p : Place} : p ∈ Region.side c.width c.height d ↔ p ∈ c.sidePlaces d := by
  cases d <;>
    simp only [Region.side, Region.mem_rect, sidePlaces, Finset.mem_filter, mem_places] <;>
    omega

theorem mem_center_iff {c : Canvas} {p : Place} :
    p ∈ Region.center c.width c.height ↔ p ∈ c.centerPlaces := by
  simp [Region.center, Region.mem_rect, centerPlaces]

theorem centerPlaces_subset (c : Canvas) : c.centerPlaces ⊆ c.places := by
  intro p hp
  simp only [centerPlaces, Finset.mem_product, Finset.mem_Ico] at hp
  rw [mem_places]
  omega

theorem sidePlaces_subset (c : Canvas) (d : Direction) : c.sidePlaces d ⊆ c.places := by
  cases d <;> exact Finset.filter_subset _ _

section

variable {c : Canvas} {ps : List Place} {s : Finset Place}

theorem length_eq_card (hn : ps.Nodup) (hs : ∀ p, p ∈ ps ↔ p ∈ s) : ps.length = s.card := by
  rw [← List.toFinset_card_of_nodup hn]
  congr 1
  ext p
  rw [List.mem_toFinset, hs]

theorem length_seen_eq_card (hn : ps.Nodup) (hs : ∀ p, p ∈ ps ↔ p ∈ s) :
    ((ps.map c.pixel).filter fun q => !q.isClear).length = (c.drawn s).card := by
  rw [List.filter_map, List.length_map]
  refine length_eq_card (hn.filter _) fun p => ?_
  simp [drawn, Rgba.isClear, hs]

theorem WellFormed.read_eq (h : c.WellFormed) {p : Place} (hp : p ∈ c.places) :
    c.read p = .ok (c.pixel p) := by
  have hindex : p.2 * c.width + p.1 < c.pixels.size := by
    rw [h]
    exact Region.index_lt (mem_places.mp hp)
  simp [read, pixel, pixelAt?, hindex, orFail]

theorem WellFormed.readAll_eq (h : c.WellFormed) (hps : ∀ p ∈ ps, p ∈ c.places) :
    c.view.readAll ps = .ok (ps.map c.pixel) :=
  mapM_eq_ok fun p hp => h.read_eq (hps p hp)

theorem WellFormed.pixels_eq (h : c.WellFormed) :
    c.view.pixels = .ok ((Region.all c.width c.height).map c.pixel) :=
  h.readAll_eq fun _ => mem_all_iff_mem_places.mp

end

def ofFn (width height : Nat) (f : Place → Rgba) : Canvas :=
  ⟨width, height, Array.ofFn fun i : Fin (width * height) => f (i % width, i / width)⟩

theorem ofFn_wellFormed (width height : Nat) (f : Place → Rgba) :
    (ofFn width height f).WellFormed := by
  simp [WellFormed, ofFn]

theorem pixel_ofFn {width height : Nat} (f : Place → Rgba) {p : Place}
    (hp : p.1 < width ∧ p.2 < height) : (ofFn width height f).pixel p = f p := by
  have hindex := Region.index_lt hp
  have hmod : (p.2 * width + p.1) % width = p.1 := by
    rw [Nat.mul_comm, Nat.mul_add_mod, Nat.mod_eq_of_lt hp.1]
  have hdiv : (p.2 * width + p.1) / width = p.2 := by
    rw [Nat.mul_comm, Nat.mul_add_div (Nat.zero_lt_of_lt hp.1), Nat.div_eq_of_lt hp.1, Nat.add_zero]
  simp [pixel, pixelAt?, ofFn, hindex, hmod, hdiv]

end Canvas

end TileGrammar
