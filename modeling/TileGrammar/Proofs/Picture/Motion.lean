import TileGrammar.Proofs.Picture.Pixels

/-!
# Turned and mirrored pictures

A picture is moved in the ways in which a tile is: turned by a quarter, with
left and right exchanged, or with top and bottom exchanged. A motion takes the
places of a picture one to one to those of the moved one, sides to sides, the
middle to the middle, and places next to one another to such places. So in
each region of the moved picture are the pixels of one region of the other,
in some order.
-/

set_option autoImplicit false

namespace TileGrammar

inductive Motion where
  | turn
  | mirror
  | flip

namespace Motion

def sides {α : Type} : Motion → Sides α → Sides α
  | .turn, s => s.rotate 1
  | .mirror, s => s.reflect
  | .flip, s => s.reflectVertical

def sideFrom : Motion → Direction → Direction
  | .turn, .north => .west
  | .turn, .east => .north
  | .turn, .south => .east
  | .turn, .west => .south
  | .mirror, .east => .west
  | .mirror, .west => .east
  | .flip, .north => .south
  | .flip, .south => .north
  | _, d => d

def extent : Motion → Nat → Nat → Nat × Nat
  | .turn, w, h => (h, w)
  | .mirror, w, h => (w, h)
  | .flip, w, h => (w, h)

/-- The place in a picture that comes to lie at a place of the moved one. -/
def placeFrom (w h : Nat) : Motion → Place → Place
  | .turn, p => (p.2, h - 1 - p.1)
  | .mirror, p => (w - 1 - p.1, p.2)
  | .flip, p => (p.1, h - 1 - p.2)

theorem get_sides {α : Type} (m : Motion) (s : Sides α) (d : Direction) :
    (m.sides s).get d = s.get (m.sideFrom d) := by
  cases m <;> cases d <;> rfl

theorem sideFrom_perm (m : Motion) : (Direction.all.map m.sideFrom).Perm Direction.all := by
  cases m <;> decide

def Within (m : Motion) (w h : Nat) (p : Place) : Prop :=
  p.1 < (m.extent w h).1 ∧ p.2 < (m.extent w h).2

section

variable (m : Motion) {w h : Nat} {p q : Place}

theorem placeFrom_lt (hp : m.Within w h p) :
    (m.placeFrom w h p).1 < w ∧ (m.placeFrom w h p).2 < h := by
  obtain ⟨hx, hy⟩ := hp
  cases m <;> simp only [extent, placeFrom] at hx hy ⊢ <;> omega

theorem placeFrom_injective (hp : m.Within w h p) (hq : m.Within w h q)
    (he : m.placeFrom w h p = m.placeFrom w h q) : p = q := by
  obtain ⟨hx, hy⟩ := hp
  obtain ⟨hx', hy'⟩ := hq
  apply Prod.ext <;> cases m <;>
    simp only [extent, placeFrom, Prod.mk.injEq] at hx hy hx' hy' he <;> omega

theorem exists_placeFrom (hp : p.1 < w ∧ p.2 < h) :
    ∃ q, m.Within w h q ∧ m.placeFrom w h q = p := by
  obtain ⟨x, y⟩ := p
  simp only at hp
  cases m
  case turn =>
    refine ⟨(h - 1 - y, x), ⟨?_, ?_⟩, Prod.ext ?_ ?_⟩ <;> simp only [extent, placeFrom] <;> omega
  case mirror =>
    refine ⟨(w - 1 - x, y), ⟨?_, ?_⟩, Prod.ext ?_ ?_⟩ <;> simp only [extent, placeFrom] <;> omega
  case flip =>
    refine ⟨(x, h - 1 - y), ⟨?_, ?_⟩, Prod.ext ?_ ?_⟩ <;> simp only [extent, placeFrom] <;> omega

theorem placeFrom_mem_side_iff (hp : m.Within w h p) (d : Direction) :
    m.placeFrom w h p ∈ Region.side w h (m.sideFrom d) ↔
      p ∈ Region.side (m.extent w h).1 (m.extent w h).2 d := by
  obtain ⟨hx, hy⟩ := hp
  cases m <;> cases d <;>
    simp only [extent, placeFrom, sideFrom, Region.side, Region.mem_rect] at hx hy ⊢ <;> omega

theorem placeFrom_mem_center_iff (hp : m.Within w h p) :
    m.placeFrom w h p ∈ Region.center w h ↔
      p ∈ Region.center (m.extent w h).1 (m.extent w h).2 := by
  obtain ⟨hx, hy⟩ := hp
  cases m <;> simp only [extent, placeFrom, Region.center, Region.mem_rect] at hx hy ⊢ <;> omega

theorem placeFrom_mem_neighbors_iff (hp : m.Within w h p) (hq : m.Within w h q) :
    m.placeFrom w h q ∈ Region.neighbors w h (m.placeFrom w h p) ↔
      q ∈ Region.neighbors (m.extent w h).1 (m.extent w h).2 p := by
  rw [Region.mem_neighbors (m.placeFrom_lt hp), Region.mem_neighbors hp]
  obtain ⟨hx, hy⟩ := hp
  obtain ⟨hx', hy'⟩ := hq
  cases m <;> simp only [extent, placeFrom] at hx hy hx' hy' ⊢ <;> omega

end

end Motion

namespace Canvas

def moved (m : Motion) (c : Canvas) : Canvas :=
  .ofFn (m.extent c.width c.height).1 (m.extent c.width c.height).2
    fun p => c.pixel (m.placeFrom c.width c.height p)

section

variable (m : Motion) (c : Canvas)

theorem moved_wellFormed : (c.moved m).WellFormed := ofFn_wellFormed _ _ _

theorem pixel_moved {p : Place} (hp : p ∈ (c.moved m).places) :
    (c.moved m).pixel p = c.pixel (m.placeFrom c.width c.height p) :=
  pixel_ofFn _ (mem_places.mp hp)

/-- Regions that a motion takes to one another have the same pixels, in some order. -/
theorem pixels_moved_perm {ps qs : List Place} (hps : ps.Nodup) (hqs : qs.Nodup)
    (hpc : ∀ p ∈ ps, p ∈ c.places) (hqc : ∀ q ∈ qs, q ∈ (c.moved m).places)
    (h : ∀ q ∈ (c.moved m).places, m.placeFrom c.width c.height q ∈ ps ↔ q ∈ qs) :
    (qs.map (c.moved m).pixel).Perm (ps.map c.pixel) := by
  have hinj : (qs.map (m.placeFrom c.width c.height)).Nodup :=
    hqs.map_on fun p hp q hq he => m.placeFrom_injective (mem_places.mp (hqc p hp))
      (mem_places.mp (hqc q hq)) he
  have hplaces : (qs.map (m.placeFrom c.width c.height)).Perm ps := by
    rw [List.perm_ext_iff_of_nodup hinj hps]
    intro p
    rw [List.mem_map]
    constructor
    · rintro ⟨q, hq, rfl⟩
      exact (h q (hqc q hq)).mpr hq
    · intro hp
      obtain ⟨q, hq, rfl⟩ := m.exists_placeFrom (mem_places.mp (hpc p hp))
      exact ⟨q, (h q (mem_places.mpr hq)).mp hp, rfl⟩
  have hpixels : qs.map (c.moved m).pixel =
      (qs.map (m.placeFrom c.width c.height)).map c.pixel := by
    rw [List.map_map]
    exact List.map_congr_left fun q hq => c.pixel_moved m (hqc q hq)
  rw [hpixels]
  exact hplaces.map c.pixel

theorem all_moved_perm :
    ((Region.all (c.moved m).width (c.moved m).height).map (c.moved m).pixel).Perm
      ((Region.all c.width c.height).map c.pixel) := by
  refine c.pixels_moved_perm m (Region.nodup_rect _ _ _ _) (Region.nodup_rect _ _ _ _)
    (fun _ => mem_all_iff_mem_places.mp) (fun _ => mem_all_iff_mem_places.mp) fun q hq => ?_
  have hto := m.placeFrom_lt (mem_places.mp hq)
  exact iff_of_true (mem_all_iff_mem_places.mpr (mem_places.mpr hto))
    (mem_all_iff_mem_places.mpr hq)

theorem width_moved_eq_zero_or_iff :
    (c.moved m).width = 0 ∨ (c.moved m).height = 0 ↔ c.width = 0 ∨ c.height = 0 := by
  cases m
  case turn => exact or_comm
  case mirror => exact Iff.rfl
  case flip => exact Iff.rfl

theorem moved_ne_zero (hw : c.width ≠ 0) (hh : c.height ≠ 0) :
    (c.moved m).width ≠ 0 ∧ (c.moved m).height ≠ 0 := by
  rw [← not_or, width_moved_eq_zero_or_iff]
  exact not_or.mpr ⟨hw, hh⟩

theorem side_moved_perm (hw : c.width ≠ 0) (hh : c.height ≠ 0) (d : Direction) :
    ((Region.side (c.moved m).width (c.moved m).height d).map (c.moved m).pixel).Perm
      ((Region.side c.width c.height (m.sideFrom d)).map c.pixel) := by
  obtain ⟨hw', hh'⟩ := c.moved_ne_zero m hw hh
  exact c.pixels_moved_perm m (Region.nodup_side _ _ _) (Region.nodup_side _ _ _)
    (fun p hp => c.sidePlaces_subset _ ((mem_side_iff hw hh _).mp hp))
    (fun q hq => (c.moved m).sidePlaces_subset d ((mem_side_iff hw' hh' d).mp hq))
    fun q hq => m.placeFrom_mem_side_iff (mem_places.mp hq) d

theorem center_moved_perm :
    ((Region.center (c.moved m).width (c.moved m).height).map (c.moved m).pixel).Perm
      ((Region.center c.width c.height).map c.pixel) :=
  c.pixels_moved_perm m (Region.nodup_center _ _) (Region.nodup_center _ _)
    (fun _ hp => c.centerPlaces_subset (mem_center_iff.mp hp))
    (fun _ hq => (c.moved m).centerPlaces_subset (mem_center_iff.mp hq))
    fun _ hq => m.placeFrom_mem_center_iff (mem_places.mp hq)

theorem neighbors_moved_perm {q : Place} (hq : q ∈ (c.moved m).places) :
    ((Region.neighbors (c.moved m).width (c.moved m).height q).map (c.moved m).pixel).Perm
      ((Region.neighbors c.width c.height (m.placeFrom c.width c.height q)).map c.pixel) := by
  have hwithin := mem_places.mp hq
  exact c.pixels_moved_perm m (Region.nodup_neighbors _ _ _) (Region.nodup_neighbors _ _ _)
    (fun _ hp => mem_places.mpr (Region.mem_neighbors_lt (m.placeFrom_lt hwithin) hp))
    (fun _ hp => mem_places.mpr (Region.mem_neighbors_lt hwithin hp))
    fun _ hp => m.placeFrom_mem_neighbors_iff hwithin (mem_places.mp hp)

end

end Canvas

end TileGrammar
