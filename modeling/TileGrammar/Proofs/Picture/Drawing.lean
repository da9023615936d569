import TileGrammar.Proofs.Picture.Pixels

/-!
# Drawing on a canvas

Painting gives one color to the places of an area, as far as they are on the
canvas, and leaves all other places as they were. A point has an area of one
place, and the areas of steps in one color add up, so a rectangle is painted
row by row without a row running over into the next one. After a list of
strokes each place has the color of the last stroke that covers it.
-/

set_option autoImplicit false

namespace TileGrammar.Canvas

theorem WellFormed.ext {c d : Canvas} (hc : c.WellFormed) (hd : d.WellFormed)
    (hwidth : d.width = c.width) (hheight : d.height = c.height)
    (hpixel : ∀ p ∈ c.places, d.pixel p = c.pixel p) : d = c := by
  obtain ⟨w, h, cs⟩ := c
  obtain ⟨w', h', ds⟩ := d
  cases hwidth
  cases hheight
  congr
  apply Array.ext (hd.trans hc.symm)
  -- Each index of the buffer belongs to a place, found by division by the width.
  intro i hi hi'
  have hsize : i < w * h := by
    rw [← hd]
    exact hi
  have hw : 0 < w := Nat.pos_of_ne_zero fun e => by simp [e] at hsize
  have hplace : (i % w, i / w) ∈ places ⟨w, h, cs⟩ :=
    mem_places.mpr ⟨Nat.mod_lt _ hw, Nat.div_lt_of_lt_mul hsize⟩
  have hindex : i / w * w + i % w = i := Nat.div_add_mod' i w
  have heq := hpixel _ hplace
  simpa [pixel, pixelAt?, hindex, hi, hi'] using heq

/-- One canvas is another one painted: a color at the places of an area, and elsewhere as before. -/
structure Painted (area : Place → Prop) (color : Rgba) (c d : Canvas) : Prop where
  wellFormed : d.WellFormed
  width : d.width = c.width
  height : d.height = c.height
  inside : ∀ p ∈ c.places, area p → d.pixel p = color
  outside : ∀ p ∈ c.places, ¬area p → d.pixel p = c.pixel p

namespace Painted

variable {A B : Place → Prop} {color : Rgba} {c d e : Canvas}

theorem places_eq (h : Painted A color c d) : d.places = c.places := by
  rw [places, places, h.width, h.height]

theorem refl (hc : c.WellFormed) : Painted (fun _ => False) color c c :=
  ⟨hc, rfl, rfl, fun _ _ => False.elim, fun _ _ _ => rfl⟩

theorem trans (h : Painted A color c d) (h' : Painted B color d e) :
    Painted (fun p => A p ∨ B p) color c e where
  wellFormed := h'.wellFormed
  width := h'.width.trans h.width
  height := h'.height.trans h.height
  inside := by
    intro p hp hAB
    have hpd : p ∈ d.places := by rwa [h.places_eq]
    by_cases hB : B p
    · exact h'.inside p hpd hB
    · rw [h'.outside p hpd hB]
      exact h.inside p hp (hAB.resolve_right hB)
  outside := by
    intro p hp hAB
    have hpd : p ∈ d.places := by rwa [h.places_eq]
    rw [not_or] at hAB
    rw [h'.outside p hpd hAB.2, h.outside p hp hAB.1]

theorem congr (h : Painted A color c d) (hAB : ∀ p ∈ c.places, A p ↔ B p) :
    Painted B color c d where
  wellFormed := h.wellFormed
  width := h.width
  height := h.height
  inside p hp hB := h.inside p hp ((hAB p hp).mpr hB)
  outside p hp hB := h.outside p hp fun hA => hB ((hAB p hp).mp hA)

/-- Steps that paint in one color paint the union of their areas. -/
theorem foldl {α : Type} {step : Canvas → α → Canvas} {area : α → Place → Prop}
    (hstep : ∀ {c : Canvas}, c.WellFormed → ∀ a, Painted (area a) color c (step c a))
    (hc : c.WellFormed) (as : List α) :
    Painted (fun p => ∃ a ∈ as, area a p) color c (as.foldl step c) := by
  induction as generalizing c with
  | nil => exact (refl hc).congr fun p _ => by simp
  | cons a as ih =>
    have hfirst := hstep hc a
    exact (hfirst.trans (ih hfirst.wellFormed)).congr fun p _ => by simp

theorem unique (h : Painted A color c d) (h' : Painted A color c e) : d = e := by
  refine h'.wellFormed.ext h.wellFormed (h.width.trans h'.width.symm)
    (h.height.trans h'.height.symm) fun p hp => ?_
  have hpc : p ∈ c.places := by rwa [← h'.places_eq]
  by_cases hA : A p
  · rw [h.inside p hpc hA, h'.inside p hpc hA]
  · rw [h.outside p hpc hA, h'.outside p hpc hA]

theorem read_eq [DecidablePred A] (h : Painted A color c d) (hc : c.WellFormed) {p : Place}
    (hp : p ∈ c.places) : d.read p = if A p then .ok color else c.read p := by
  have hpd : p ∈ d.places := by rwa [h.places_eq]
  rw [h.wellFormed.read_eq hpd, hc.read_eq hp]
  split
  next hA => rw [h.inside p hp hA]
  next hA => rw [h.outside p hp hA]

end Painted

section

variable {c : Canvas}

theorem paint_of_notMem {x y : Nat} (h : (x, y) ∉ c.places) (color : Rgba) :
    c.paint x y color = c := if_neg fun hxy => h (mem_places.mpr hxy)

theorem paint_painted (hc : c.WellFormed) (x y : Nat) (color : Rgba) :
    Painted (fun p => p = (x, y)) color c (c.paint x y color) := by
  by_cases hxy : (x, y) ∈ c.places
  · have hin := mem_places.mp hxy
    have hpaint : c.paint x y color =
        { c with pixels := c.pixels.setIfInBounds (y * c.width + x) color } := if_pos hin
    have hpixel : ∀ p ∈ c.places, (c.paint x y color).pixel p =
        if p = (x, y) then color else c.pixel p := by
      intro p hp
      have hp' := mem_places.mp hp
      have hindex : y * c.width + x < c.pixels.size := by
        rw [hc]
        exact Region.index_lt hin
      rw [hpaint]
      by_cases he : p = (x, y)
      · simp [pixel, pixelAt?, he, hindex]
      · have hne : y * c.width + x ≠ p.2 * c.width + p.1 :=
          fun h => he (Region.index_inj hp'.1 hin.1 h.symm)
        simp [pixel, pixelAt?, he, hne]
    refine ⟨paint_wellFormed hc x y color, by rw [hpaint], by rw [hpaint], ?_, ?_⟩
    · intro p hp he
      rw [hpixel p hp, if_pos he]
    · intro p hp he
      rw [hpixel p hp, if_neg he]
  · rw [paint_of_notMem hxy]
    refine (Painted.refl hc).congr fun p hp => ?_
    exact iff_of_false id fun he => hxy (he ▸ hp)

theorem paintRow_painted (hc : c.WellFormed) (y : Nat) (xs : List Nat) (color : Rgba) :
    Painted (fun p => p.1 ∈ xs ∧ p.2 = y) color c (c.paintRow y xs color) := by
  refine (Painted.foldl (fun hc x => paint_painted hc x y color) hc xs).congr fun p _ => ?_
  simp [Prod.ext_iff]

def paintRows (c : Canvas) (xs ys : List Nat) (color : Rgba) : Canvas :=
  ys.foldl (fun c y => c.paintRow y xs color) c

theorem paintRows_painted (hc : c.WellFormed) (xs ys : List Nat) (color : Rgba) :
    Painted (fun p => p.1 ∈ xs ∧ p.2 ∈ ys) color c (c.paintRows xs ys color) := by
  refine (Painted.foldl (fun hc y => paintRow_painted hc y xs color) hc ys).congr fun p _ => ?_
  constructor
  · rintro ⟨y, hy, hx, rfl⟩
    exact ⟨hx, hy⟩
  · rintro ⟨hx, hy⟩
    exact ⟨p.2, hy, hx, rfl⟩

end

def InRect (x y w h : Nat) (p : Place) : Prop := (x ≤ p.1 ∧ p.1 < x + w) ∧ y ≤ p.2 ∧ p.2 < y + h

instance (x y w h : Nat) : DecidablePred (InRect x y w h) := fun _ =>
  inferInstanceAs (Decidable (_ ∧ _))

theorem paintRect_painted {c : Canvas} (hc : c.WellFormed) (x y w h : Nat) (color : Rgba) :
    Painted (InRect x y w h) color c (c.paintRect x y w h color) := by
  refine (paintRows_painted hc (Region.span x (min (x + w) c.width))
    (Region.span y (min (y + h) c.height)) color).congr fun p hp => ?_
  have hin := mem_places.mp hp
  simp only [Region.mem_span, InRect]
  omega

/-- The numbers of a loop over words of 32 bits, from a start on for some length. Where the sum is
no word the loop stops at the greatest one. -/
def wordSpan (start length : UInt32) : List Nat :=
  Region.span start.toNat (min (start.toNat + length.toNat) (UInt32.size - 1))

/-- A rectangle painted place by place, whether or not a place is on the canvas. -/
def paintWords (c : Canvas) (x y w h : UInt32) (color : Rgba) : Canvas :=
  c.paintRows (wordSpan x w) (wordSpan y h) color

/-- On a canvas whose sides are words no place is lost where the loops stop short. -/
theorem paintWords_eq {c : Canvas} (hc : c.WellFormed) (hwidth : c.width < UInt32.size)
    (hheight : c.height < UInt32.size) (x y w h : UInt32) (color : Rgba) :
    c.paintWords x y w h color = c.paintRect x.toNat y.toNat w.toNat h.toNat color := by
  refine Painted.unique ((paintRows_painted hc (wordSpan x w) (wordSpan y h) color).congr ?_)
    (paintRect_painted hc _ _ _ _ color)
  intro p hp
  have hin := mem_places.mp hp
  simp only [wordSpan, Region.mem_span, InRect]
  omega

namespace Stroke

def color : Stroke → Rgba
  | .point _ _ color => color
  | .rect _ _ _ _ color => color

def Covers : Stroke → Place → Prop
  | .point x y _, p => p = (x, y)
  | .rect x y w h _, p => InRect x y w h p

instance (s : Stroke) : DecidablePred s.Covers := fun p =>
  match s with
  | .point x y _ => inferInstanceAs (Decidable (p = (x, y)))
  | .rect x y w h _ => inferInstanceAs (Decidable (InRect x y w h p))

def lastOver? (ss : List Stroke) (p : Place) : Option Stroke :=
  (ss.filter fun s => s.Covers p).getLast?

theorem lastOver?_cons (s : Stroke) (ss : List Stroke) (p : Place) :
    lastOver? (s :: ss) p = (lastOver? ss p).or (if s.Covers p then some s else none) := by
  rw [lastOver?, List.filter_cons]
  split
  next h =>
    rw [if_pos (of_decide_eq_true h), List.getLast?_cons, lastOver?]
    cases List.getLast? _ <;> rfl
  next h =>
    rw [if_neg fun hs => h (decide_eq_true hs), Option.or_none, lastOver?]

end Stroke

theorem draw_painted {c : Canvas} (hc : c.WellFormed) (s : Stroke) :
    Painted s.Covers s.color c (c.draw s) := by
  cases s with
  | point x y color => exact paint_painted hc x y color
  | rect x y w h color => exact paintRect_painted hc x y w h color

theorem drawAll_size (c : Canvas) (hc : c.WellFormed) (ss : List Stroke) :
    (c.drawAll ss).width = c.width ∧ (c.drawAll ss).height = c.height := by
  induction ss generalizing c with
  | nil => exact ⟨rfl, rfl⟩
  | cons s ss ih =>
    have hfirst := draw_painted hc s
    obtain ⟨hwidth, hheight⟩ := ih (c.draw s) hfirst.wellFormed
    exact ⟨hwidth.trans hfirst.width, hheight.trans hfirst.height⟩

/-- The last stroke that covers a place decides its pixel. -/
theorem read_drawAll {c : Canvas} (hc : c.WellFormed) (ss : List Stroke) {p : Place}
    (hp : p ∈ c.places) :
    (c.drawAll ss).read p = (Stroke.lastOver? ss p).elim (c.read p) fun s => .ok s.color := by
  -- A later stroke over the place wins, so the first one is asked only where no other covers it.
  induction ss generalizing c with
  | nil => rfl
  | cons s ss ih =>
    have hfirst := draw_painted hc s
    have hpd : p ∈ (c.draw s).places := by rwa [hfirst.places_eq]
    have hrest : (c.drawAll (s :: ss)).read p = ((c.draw s).drawAll ss).read p := rfl
    rw [hrest, ih hfirst.wellFormed hpd, hfirst.read_eq hc hp, Stroke.lastOver?_cons]
    cases Stroke.lastOver? ss p with
    | some t => rfl
    | none =>
      rw [Option.none_or]
      split <;> rfl

/-- Painting clips exactly. A rectangle gives its color to the places of the canvas inside of it and
changes nothing else, a point changes the one place or nothing, and after any strokes each place has
the color of the last one that covers it. Loops over words that stop at the greatest word paint the
same rectangle. -/
theorem drawing_clips_exactly {c : Canvas} (hc : c.WellFormed) :
    (∀ (x y w h : Nat) (color : Rgba),
      (c.paintRect x y w h color).width = c.width ∧ (c.paintRect x y w h color).height = c.height ∧
      ∀ p ∈ c.places, (c.paintRect x y w h color).read p =
        if (x ≤ p.1 ∧ p.1 < x + w) ∧ y ≤ p.2 ∧ p.2 < y + h then .ok color else c.read p) ∧
    (c.width < UInt32.size → c.height < UInt32.size →
      ∀ (x y w h : UInt32) (color : Rgba), c.paintWords x y w h color =
        c.paintRect x.toNat y.toNat w.toNat h.toNat color) ∧
    (∀ (x y : Nat) (color : Rgba),
      (c.paint x y color).width = c.width ∧ (c.paint x y color).height = c.height ∧
      (∀ p ∈ c.places, (c.paint x y color).read p = if p = (x, y) then .ok color else c.read p) ∧
      ((x, y) ∉ c.places → c.paint x y color = c)) ∧
    ∀ ss : List Stroke, (c.drawAll ss).width = c.width ∧ (c.drawAll ss).height = c.height ∧
      ∀ p ∈ c.places, (c.drawAll ss).read p =
        (Stroke.lastOver? ss p).elim (c.read p) fun s => .ok s.color := by
  refine ⟨fun x y w h color => ?_, fun hwidth hheight => paintWords_eq hc hwidth hheight,
    fun x y color => ?_, fun ss => ?_⟩
  · have hrect := paintRect_painted hc x y w h color
    exact ⟨hrect.width, hrect.height, fun p hp => hrect.read_eq hc hp⟩
  · have hpoint := paint_painted hc x y color
    exact ⟨hpoint.width, hpoint.height, fun p hp => hpoint.read_eq hc hp,
      fun hxy => paint_of_notMem hxy color⟩
  · obtain ⟨hwidth, hheight⟩ := drawAll_size c hc ss
    exact ⟨hwidth, hheight, fun p hp => read_drawAll hc ss hp⟩

theorem drawing_clips_exactly_at_limit :
    let c := uniform 3 2 .clear
    let ink : Rgba := ⟨9, 9, 9, 255⟩
    let red : Rgba := ⟨255, 0, 0, 255⟩
    let far : UInt32 := 4294967295
    let strokes : List Stroke := [.rect 1 0 5 5 ink, .point 2 1 red, .point 3 0 ink]
    c.WellFormed ∧ c.width < UInt32.size ∧ c.height < UInt32.size ∧
      (c.paintWords 1 1 far far ink).read (2, 1) = .ok ink ∧
      (c.paintWords 1 1 far far ink).read (0, 1) = .ok .clear ∧
      (c.drawAll strokes).read (2, 1) = .ok red := by
  intro c ink red far strokes
  have hc : c.WellFormed := uniform_wellFormed _ _ _
  have hwidth : c.width < UInt32.size := by decide
  have hheight : c.height < UInt32.size := by decide
  obtain ⟨hrect, hwords, -, hstrokes⟩ := drawing_clips_exactly hc
  have hcorner : (2, 1) ∈ c.places := by decide
  have hstart : (0, 1) ∈ c.places := by decide
  have hfar := hwords hwidth hheight 1 1 far far ink
  obtain ⟨-, -, hread⟩ := hrect 1 1 far.toNat far.toNat ink
  refine ⟨hc, hwidth, hheight, ?_, ?_, ?_⟩
  · rw [hfar]
    exact hread _ hcorner
  · rw [hfar]
    exact hread _ hstart
  · exact (hstrokes strokes).2.2 _ hcorner

end TileGrammar.Canvas
