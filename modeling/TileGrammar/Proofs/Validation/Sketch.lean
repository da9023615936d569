import TileGrammar.Proofs.Validation.Verdicts

/-!
# Every grammar can be drawn

The sketch of a grammar is drawn in one opaque color of a palette. It has the
sides that must be solid and, unless the middle is to be empty, the middle half;
all else is clear. Sides that must be empty share with the drawn ones their two
ends at most, which is half of the shortest side, and no side reaches into the
middle. So the sketch meets the contract under every policy.
-/

set_option autoImplicit false

namespace TileGrammar

theorem GridSize.four_le_side (s : GridSize) : 4 ≤ s.side := by
  cases s <;> decide

namespace Region

def ends (n : Nat) : Direction → Finset Place
  | .north => {(0, 0), (n - 1, 0)}
  | .east => {(n - 1, 0), (n - 1, n - 1)}
  | .south => {(0, n - 1), (n - 1, n - 1)}
  | .west => {(0, 0), (0, n - 1)}

theorem card_ends_le (n : Nat) (d : Direction) : (ends n d).card ≤ 2 := by
  cases d <;> exact Finset.card_le_two

theorem length_side (n : Nat) (d : Direction) (hn : 1 ≤ n) : (side n n d).length = n := by
  have hlast : n - (n - 1) = 1 := by omega
  cases d <;> simp [side, rect, span, hlast]

theorem mem_ends {n : Nat} (hn : 2 ≤ n) {d e : Direction} (hne : e ≠ d) {p : Place}
    (hd : p ∈ side n n d) (he : p ∈ side n n e) : p ∈ ends n d := by
  obtain ⟨x, y⟩ := p
  cases d <;> cases e <;>
    simp only [side, mem_rect, ends, Finset.mem_insert, Finset.mem_singleton, Prod.mk.injEq,
      ne_eq, not_true_eq_false] at hd he hne ⊢ <;>
    omega

theorem notMem_center_of_mem_side {n : Nat} (hn : 4 ≤ n) {d : Direction} {p : Place}
    (hd : p ∈ side n n d) : p ∉ center n n := by
  cases d <;> simp only [side, center, mem_rect] at hd ⊢ <;> omega

end Region

namespace Grammar

/-- A place of a solid side, or of a middle that is not to be empty. -/
def Inked (g : Grammar) (p : Place) : Prop :=
  (∃ d ∈ Direction.all, g.edges.get d = .solid ∧ p ∈ Region.side g.size.side g.size.side d) ∨
    g.center ≠ "empty" ∧ p ∈ Region.center g.size.side g.size.side

instance (g : Grammar) : DecidablePred g.Inked := fun _ => inferInstanceAs (Decidable (_ ∨ _))

def sketch (g : Grammar) (ink : Rgba) : Canvas :=
  .ofFn g.size.side g.size.side fun p => if g.Inked p then ink else .clear

section

variable (g : Grammar) {ink : Rgba}

theorem pixel_sketch {p : Place} (hp : p ∈ (g.sketch ink).places) :
    (g.sketch ink).pixel p = if g.Inked p then ink else .clear :=
  Canvas.pixel_ofFn _ (Canvas.mem_places.mp hp)

theorem pixel_sketch_cases {p : Place} (hp : p ∈ (g.sketch ink).places) :
    (g.sketch ink).pixel p = ink ∨ (g.sketch ink).pixel p = .clear := by
  rw [g.pixel_sketch hp]
  by_cases h : g.Inked p
  · exact .inl (if_pos h)
  · exact .inr (if_neg h)

theorem seen_sketch_iff (hink : ink.a = 255) {p : Place} (hp : p ∈ (g.sketch ink).places) :
    ((g.sketch ink).pixel p).a ≠ 0 ↔ g.Inked p := by
  rw [g.pixel_sketch hp]
  by_cases h : g.Inked p <;> simp [h, hink, Rgba.clear]

theorem mem_side_sketch_iff {d : Direction} {p : Place} :
    p ∈ (g.sketch ink).sidePlaces d ↔ p ∈ Region.side g.size.side g.size.side d := by
  have hside := g.size.four_le_side
  have hne : g.size.side ≠ 0 := by omega
  exact (Canvas.mem_side_iff (c := g.sketch ink) hne hne d).symm

theorem card_side_sketch (d : Direction) :
    ((g.sketch ink).sidePlaces d).card = g.size.side := by
  have hside := g.size.four_le_side
  rw [← Canvas.length_eq_card (Region.nodup_side _ _ d) fun p => g.mem_side_sketch_iff.symm]
  exact Region.length_side _ d (by omega)

/-- What is drawn on a side that is not solid are ends of it. -/
theorem drawn_side_subset_ends (hink : ink.a = 255) {d : Direction} (hd : g.edges.get d ≠ .solid) :
    (g.sketch ink).drawn ((g.sketch ink).sidePlaces d) ⊆ Region.ends g.size.side d := by
  have hside := g.size.four_le_side
  intro p hp
  obtain ⟨hp, hseen⟩ := Finset.mem_filter.mp hp
  have hpd := g.mem_side_sketch_iff.mp hp
  rw [g.seen_sketch_iff hink (Canvas.sidePlaces_subset _ d hp)] at hseen
  rcases hseen with ⟨e, -, he, hpe⟩ | ⟨-, hcenter⟩
  · have hne : e ≠ d := fun h => hd (h ▸ he)
    exact Region.mem_ends (by omega) hne hpd hpe
  · exact absurd hcenter (Region.notMem_center_of_mem_side hside hpd)

theorem sketch_sideAgrees (hink : ink.a = 255) (d : Direction) :
    (g.sketch ink).SideAgrees (g.edges.get d) d := by
  have hside := g.size.four_le_side
  constructor
  · intro hsolid p hp
    rw [g.seen_sketch_iff hink (Canvas.sidePlaces_subset _ d hp)]
    exact .inl ⟨d, d.mem_all, hsolid, g.mem_side_sketch_iff.mp hp⟩
  · intro hempty
    have hne : g.edges.get d ≠ .solid := by
      rw [hempty]
      decide
    have hfew : ((g.sketch ink).drawn ((g.sketch ink).sidePlaces d)).card ≤ 2 :=
      (Finset.card_le_card (g.drawn_side_subset_ends hink hne)).trans (Region.card_ends_le _ d)
    rw [card_side_sketch]
    omega

theorem sketch_centerAgrees (hink : ink.a = 255) : (g.sketch ink).CenterAgrees g.center := by
  have hside := g.size.four_le_side
  have hseen : ∀ p ∈ (g.sketch ink).centerPlaces,
      (((g.sketch ink).pixel p).a ≠ 0 ↔ g.center ≠ "empty") := by
    intro p hp
    have hcenter : p ∈ Region.center g.size.side g.size.side := Canvas.mem_center_iff.mpr hp
    rw [g.seen_sketch_iff hink (Canvas.centerPlaces_subset _ hp)]
    constructor
    · rintro (⟨d, -, -, hpd⟩ | ⟨hne, -⟩)
      · exact absurd hcenter (Region.notMem_center_of_mem_side hside hpd)
      · exact hne
    · intro hne
      exact .inr ⟨hne, hcenter⟩
  unfold Canvas.CenterAgrees
  by_cases hempty : g.center = "empty"
  · have hnone : (g.sketch ink).drawn (g.sketch ink).centerPlaces = ∅ := by
      rw [Canvas.drawn, Finset.filter_eq_empty_iff]
      intro p hp hp'
      exact (hseen p hp).mp hp' hempty
    rw [if_pos hempty, hnone]
    exact Nat.zero_le _
  · have hall : (g.sketch ink).drawn (g.sketch ink).centerPlaces = (g.sketch ink).centerPlaces := by
      rw [Canvas.drawn, Finset.filter_eq_self]
      intro p hp
      exact (hseen p hp).mpr hempty
    rw [if_neg hempty, hall]
    omega

theorem card_colorsSeen_sketch : (g.sketch ink).colorsSeen.card ≤ 1 := by
  have hone : (g.sketch ink).colorsSeen ⊆ {ink} := by
    intro q hq
    obtain ⟨hq, hseen⟩ := Finset.mem_filter.mp hq
    obtain ⟨p, hp, rfl⟩ := Finset.mem_image.mp hq
    rcases g.pixel_sketch_cases hp with h | h
    · exact Finset.mem_singleton.mpr h
    · rw [h] at hseen
      exact absurd rfl hseen
  exact Finset.card_le_card hone

end

end Grammar

theorem Rgba.within_self (tolerance : UInt8) (p : Rgba) : p.Within tolerance p := by
  intro channel _
  simp

theorem Grammar.sketch_meets_contract (policy : Policy) (g : Grammar) {p : Palette} {color : Color}
    (hcolor : color ∈ p.colors) (hfull : color.a = 255) (hmax : 1 ≤ p.maxColors)
    (hclear : p.allowTransparency = true) :
    policy.Contract (g.sketch color.rgba) g (some p) where
  size := rfl
  colors := by
    rintro _ ⟨⟩ q hq
    rcases g.pixel_sketch_cases hq with h | h
    · rw [h]
      exact .inr (.inl ⟨color, hcolor, Rgba.within_self _ _⟩)
    · rw [h]
      exact .inl ⟨rfl, hclear⟩
  sharp := by
    rintro q hq ⟨hlow, hhigh⟩
    rcases g.pixel_sketch_cases hq with h | h
    · rw [h, show color.rgba.a = 255 from hfull] at hhigh
      exact absurd hhigh (by decide)
    · rw [h] at hlow
      exact absurd hlow (by decide)
  full := by
    rintro _ ⟨⟩ hban
    rw [hclear] at hban
    cases hban
  budget := by
    intro _
    have hone : 1 ≤ p.maxColors.toNat := UInt64.le_iff_toNat_le.mp hmax
    exact g.card_colorsSeen_sketch.trans hone
  sides := g.sketch_sideAgrees hfull
  center := g.sketch_centerAgrees hfull

/-- For every grammar, whether or not it passes its check, and every palette that has an opaque
color, budgets a color and allows transparency, there is a picture of the grammar's size that passes
under every policy. -/
theorem every_grammar_can_be_drawn (g : Grammar) {p : Palette}
    (hfull : ∃ color ∈ p.colors, color.a = 255) (hmax : 1 ≤ p.maxColors)
    (hclear : p.allowTransparency = true) :
    ∃ c : Canvas, c.WellFormed ∧ (c.width, c.height) = g.size.extent ∧
      ∀ policy : Policy, ∃ v, policy.judge c g (some p) = .ok v ∧ v.passed = true := by
  obtain ⟨color, hcolor, ha⟩ := hfull
  have hwell : (g.sketch color.rgba).WellFormed := Canvas.ofFn_wellFormed _ _ _
  refine ⟨g.sketch color.rgba, hwell, rfl, fun policy => ?_⟩
  obtain ⟨counts, hcounts⟩ := Scene.stats_ok policy g (some p) hwell
  obtain ⟨v, hv, hiff, -⟩ :=
    Scene.verdict_decides (Scene.findings_decide policy g (some p) hwell) hcounts
  exact ⟨v, hv, hiff.mpr (g.sketch_meets_contract policy hcolor ha hmax hclear)⟩

theorem every_grammar_can_be_drawn_between_walls :
    let g := { Grammar.ofCategory "wall" "ink" with
      size := .tiny, edges := ⟨.solid, .empty, .solid, .empty⟩, center := "torch" }
    let ink := { Palette.ofColors "ink" "Ink" [⟨9, 9, 9, 128, none⟩, ⟨20, 20, 20, 255, none⟩] with
      maxColors := 1 }
    (∃ color ∈ ink.colors, color.a = 255) ∧ 1 ≤ ink.maxColors ∧ ink.allowTransparency = true ∧
      ∃ c : Canvas, c.WellFormed ∧ (c.width, c.height) = (4, 4) ∧
        ∀ policy : Policy, ∃ v, policy.judge c g (some ink) = .ok v ∧ v.passed = true := by
  intro g ink
  have hfull : ∃ color ∈ ink.colors, color.a = 255 := by decide
  have hmax : 1 ≤ ink.maxColors := by decide
  exact ⟨hfull, hmax, rfl, every_grammar_can_be_drawn g hfull hmax rfl⟩

end TileGrammar
