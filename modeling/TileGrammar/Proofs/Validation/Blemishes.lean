import TileGrammar.Proofs.Validation.Rules

/-!
# Stray and half clear pixels

Two rules report places of a picture by one finding for all of them, which
gives their number and the first place, row by row. Here the places are said
as a set: those seen with nothing beside them, and those neither clear nor
opaque. The lists that the rules go through are in order and name each place
once, so the head of such a list is the first place of the set and its length
is the size of the set.
-/

set_option autoImplicit false

namespace TileGrammar

namespace Region

def Before (p q : Place) : Prop := p.2 < q.2 ∨ p.2 = q.2 ∧ p.1 < q.1

instance (p q : Place) : Decidable (Before p q) := inferInstanceAs (Decidable (_ ∨ _))

theorem Before.ne {p q : Place} (h : Before p q) : p ≠ q := by
  rintro rfl
  unfold Before at h
  omega

def IsFirst (s : Finset Place) (p : Place) : Prop := p ∈ s ∧ ∀ q ∈ s, q ≠ p → Before p q

def Beside (p q : Place) : Prop :=
  (q.2 = p.2 ∧ (q.1 + 1 = p.1 ∨ q.1 = p.1 + 1)) ∨ q.1 = p.1 ∧ (q.2 + 1 = p.2 ∨ q.2 = p.2 + 1)

instance (p q : Place) : Decidable (Beside p q) := inferInstanceAs (Decidable (_ ∨ _))

theorem span_ordered (start stop : Nat) : (span start stop).Pairwise (· < ·) :=
  List.pairwise_lt_range'

theorem rect_ordered (x₀ x₁ y₀ y₁ : Nat) : (rect x₀ x₁ y₀ y₁).Pairwise Before := by
  rw [rect, List.pairwise_flatMap]
  constructor
  · intro y _
    rw [List.pairwise_map]
    exact (span_ordered x₀ x₁).imp fun h => .inr ⟨rfl, h⟩
  · refine (span_ordered y₀ y₁).imp fun {y z} hyz p hp q hq => ?_
    obtain ⟨x, -, rfl⟩ := List.mem_map.mp hp
    obtain ⟨x', -, rfl⟩ := List.mem_map.mp hq
    exact .inl hyz

end Region

/-- One finding for all places of a set, made of their number and the first of them, and none where
there is no place. -/
def FoundAt (s : Finset Place) (finding : Nat → Place → Violation) (found : List Violation) :
    Prop :=
  (s = ∅ ∧ found = []) ∨ ∃ first, Region.IsFirst s first ∧ found = [finding s.card first]

/-- A report that is made of the head and the length of an ordered list. -/
theorem foundAt_of_ordered {s : Finset Place} {finding : Nat → Place → Violation}
    {report : List Place → List Violation} (hnil : report [] = [])
    (hcons : ∀ p ps, report (p :: ps) = [finding (ps.length + 1) p]) {ps : List Place}
    (hordered : ps.Pairwise Region.Before) (hs : ∀ p, p ∈ ps ↔ p ∈ s) :
    FoundAt s finding (report ps) := by
  have hnodup : ps.Nodup := hordered.imp Region.Before.ne
  have hcard : ps.length = s.card := Canvas.length_eq_card hnodup hs
  cases ps with
  | nil =>
    left
    exact ⟨Finset.card_eq_zero.mp hcard.symm, hnil⟩
  | cons p ps =>
    right
    refine ⟨p, ⟨(hs p).mp (List.mem_cons_self ..), fun q hq hne => ?_⟩, ?_⟩
    · rcases List.mem_cons.mp ((hs q).mpr hq) with he | hq
      · exact absurd he hne
      · exact (List.pairwise_cons.mp hordered).1 q hq
    · rw [hcons, ← hcard, List.length_cons]

namespace Canvas

/-- A pixel that is seen, with places beside it on the canvas, at all of which nothing is seen. -/
structure Stray (c : Canvas) (p : Place) : Prop where
  seen : (c.pixel p).a ≠ 0
  beside : ∃ q ∈ c.places, Region.Beside p q
  alone : ∀ q ∈ c.places, Region.Beside p q → (c.pixel q).a = 0

theorem stray_iff (c : Canvas) (p : Place) :
    c.Stray p ↔ (c.pixel p).a ≠ 0 ∧ (∃ q ∈ c.places, Region.Beside p q) ∧
      ∀ q ∈ c.places, Region.Beside p q → (c.pixel q).a = 0 :=
  ⟨fun h => ⟨h.seen, h.beside, h.alone⟩, fun ⟨hseen, hbeside, halone⟩ => ⟨hseen, hbeside, halone⟩⟩

instance (c : Canvas) : DecidablePred c.Stray := fun p => decidable_of_iff' _ (c.stray_iff p)

def strays (c : Canvas) : Finset Place := c.places.filter c.Stray

def blurred (c : Canvas) : Finset Place :=
  c.places.filter fun p => 0 < (c.pixel p).a ∧ (c.pixel p).a < 255

theorem standsAlone_iff {c : Canvas} {p : Place} (hp : p ∈ c.places) :
    c.standsAlone p = true ↔ c.Stray p := by
  have hnear : ∀ q, q ∈ Region.neighbors c.width c.height p ↔ q ∈ c.places ∧ Region.Beside p q := by
    intro q
    rw [Region.mem_neighbors (mem_places.mp hp), mem_places]
    rfl
  have hsome : (Region.neighbors c.width c.height p).map c.pixel ≠ [] ↔
      ∃ q ∈ c.places, Region.Beside p q := by
    rw [ne_eq, List.map_eq_nil_iff, List.eq_nil_iff_forall_not_mem]
    push Not
    simp only [hnear]
  rw [stray_iff, ← hsome]
  simp [standsAlone, Rgba.isClear, hnear, and_assoc]

end Canvas

def strayFinding (count : Nat) (first : Place) : Violation :=
  ⟨.stray, .warning, decimal count ++ " isolated pixels", some first,
    ["Remove isolated pixels or connect them to a shape"]⟩

def blurFinding (count : Nat) (first : Place) : Violation :=
  ⟨.transparency, .error, decimal count ++ " semi-transparent pixels", some first,
    ["Use fully opaque or fully transparent pixels only"]⟩

theorem foundAt_places {c : Canvas} {s : Finset Place} {finding : Nat → Place → Violation}
    {report : List Place → List Violation} (hnil : report [] = [])
    (hcons : ∀ p ps, report (p :: ps) = [finding (ps.length + 1) p]) {test : Place → Bool}
    (hs : ∀ p, p ∈ s ↔ p ∈ c.places ∧ test p = true) :
    FoundAt s finding (report ((Region.all c.width c.height).filter test)) := by
  have hordered : (Region.all c.width c.height).Pairwise Region.Before :=
    Region.rect_ordered 0 c.width 0 c.height
  refine foundAt_of_ordered hnil hcons (hordered.filter _) fun p => ?_
  rw [List.mem_filter, Canvas.mem_all_iff_mem_places, hs]

section

variable (policy : Policy) {c : Canvas} (g : Grammar) (palette : Option Palette)

theorem checkStray_foundAt (h : c.WellFormed) :
    ∃ found, checkStray (.ofCanvas policy c g palette) = .ok found ∧
      FoundAt c.strays strayFinding found := by
  refine ⟨_, checkStray_eq policy g palette h, foundAt_places rfl (fun _ _ => rfl) fun p => ?_⟩
  rw [Canvas.strays, Finset.mem_filter]
  exact and_congr_right fun hp => (Canvas.standsAlone_iff hp).symm

theorem semiTransparent_foundAt :
    FoundAt c.blurred blurFinding
      (semiTransparent ((Region.all c.width c.height).filter fun p => (c.pixel p).isPartial)) := by
  refine foundAt_places rfl (fun _ _ => rfl) fun p => ?_
  rw [Canvas.blurred, Finset.mem_filter]
  simp [Rgba.isPartial]

theorem bansTransparency_iff :
    (forbidsTransparency palette &&
      ((Region.all c.width c.height).map c.pixel).any fun q => !q.isOpaque) = true ↔
    (∃ p ∈ palette, p.allowTransparency = false) ∧ ∃ q ∈ c.places, (c.pixel q).a < 255 := by
  have hlow : ∀ a : UInt8, a ≠ 255 ↔ a < 255 := by
    intro a
    have ha := a.toNat_lt
    rw [UInt8.lt_iff_toNat_lt, ne_eq, ← UInt8.toNat_inj]
    simp
    omega
  rw [Bool.and_eq_true, forbidsTransparency_iff]
  simp [Canvas.mem_all_iff_mem_places, Rgba.isOpaque, hlow]

end

/-- On a well formed canvas of any size stray pixels are found by one warning, which gives their
number and the first of them, and by none where there is no stray pixel. In the same way pixels that
are neither clear nor opaque are found by one error; one more is found exactly where the palette
forbids transparency and some pixel is not opaque. -/
theorem blemishes_are_counted (policy : Policy) {c : Canvas} (h : c.WellFormed) (g : Grammar)
    (palette : Option Palette) :
    let scene := Scene.ofCanvas policy c g palette
    (∃ found, checkStray scene = .ok found ∧ FoundAt c.strays strayFinding found) ∧
    ∃ blurs bans, checkTransparency scene = .ok (blurs ++ bans) ∧
      FoundAt c.blurred blurFinding blurs ∧
      ((∃ p ∈ palette, p.allowTransparency = false) ∧ (∃ q ∈ c.places, (c.pixel q).a < 255) →
        bans = [forbiddenTransparency]) ∧
      (¬((∃ p ∈ palette, p.allowTransparency = false) ∧ ∃ q ∈ c.places, (c.pixel q).a < 255) →
        bans = []) := by
  intro scene
  refine ⟨checkStray_foundAt policy g palette h, _, _, checkTransparency_eq policy g palette h,
    semiTransparent_foundAt, fun hban => ?_, fun hban => ?_⟩
  · rw [← bansTransparency_iff] at hban
    exact if_pos hban
  · rw [← bansTransparency_iff] at hban
    exact if_neg hban

theorem blemishes_are_counted_row :
    let c := (Canvas.uniform 5 1 .clear).drawAll
      [.point 2 0 ⟨9, 9, 9, 128⟩, .point 0 0 ⟨9, 9, 9, 255⟩]
    let g := Grammar.ofCategory "wall" "ink"
    let ink := { Palette.ofColors "ink" "Ink" [⟨9, 9, 9, 255, none⟩] with allowTransparency := false }
    let scene := Scene.ofCanvas Policy.strictest c g (some ink)
    c.WellFormed ∧ checkStray scene = .ok [strayFinding 2 (0, 0)] ∧
      checkTransparency scene = .ok [blurFinding 1 (2, 0), forbiddenTransparency] := by
  intro c g ink scene
  have hc : c.WellFormed := Canvas.drawAll_wellFormed (Canvas.uniform_wellFormed _ _ _) _
  have hstrays : c.strays = {(0, 0), (2, 0)} := by decide +kernel
  have hblurred : c.blurred = {(2, 0)} := by decide +kernel
  have hban : (∃ p ∈ some ink, p.allowTransparency = false) ∧
      ∃ q ∈ c.places, (c.pixel q).a < 255 :=
    ⟨⟨ink, rfl, rfl⟩, (1, 0), by decide +kernel⟩
  obtain ⟨⟨found, hfound, hat⟩, blurs, bans, hchecked, hblurs, hbans, -⟩ :=
    blemishes_are_counted Policy.strictest hc g (some ink)
  refine ⟨hc, ?_, ?_⟩
  · rw [hstrays] at hat
    rcases hat with ⟨hnone, -⟩ | ⟨first, ⟨hmem, hfirst⟩, rfl⟩
    · exact absurd hnone (by decide)
    · rcases Finset.mem_insert.mp hmem with rfl | hmem
      · exact hfound
      · obtain rfl := Finset.mem_singleton.mp hmem
        exact absurd (hfirst (0, 0) (by decide) (by decide)) (by decide)
  · rw [hblurred] at hblurs
    rcases hblurs with ⟨hnone, -⟩ | ⟨first, ⟨hmem, -⟩, rfl⟩
    · exact absurd hnone (by decide)
    · obtain rfl := Finset.mem_singleton.mp hmem
      rw [hbans hban] at hchecked
      exact hchecked

end TileGrammar
