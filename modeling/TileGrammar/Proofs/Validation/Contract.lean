import TileGrammar.Proofs.Order.Distinct
import TileGrammar.Proofs.Picture.Pixels
import TileGrammar.Validation.Judgement

/-!
# The contract of a drawn tile

What a picture has to be for its grammar, its palette and a policy, said of
its places and their pixels alone. A rule decides a condition when it answers
and finds no error exactly where the condition holds; rules that decide one
condition each decide all of them together.
-/

set_option autoImplicit false

namespace TileGrammar

def Rgba.Within (tolerance : UInt8) (p q : Rgba) : Prop :=
  ∀ channel ∈ [Rgba.r, Rgba.g, Rgba.b, Rgba.a],
    ((channel p).toNat - (channel q).toNat : Int).natAbs ≤ tolerance.toNat

/-- A pixel is clear where that is allowed, or is within the tolerance of a color of the palette or
of the clear color where that is allowed. -/
def Palette.Covers (p : Palette) (tolerance : UInt8) (pixel : Rgba) : Prop :=
  (pixel.a = 0 ∧ p.allowTransparency = true) ∨
    (∃ color ∈ p.colors, pixel.Within tolerance color.rgba) ∨
    (p.allowTransparency = true ∧ pixel.Within tolerance .clear)

namespace Canvas

def colorsSeen (c : Canvas) : Finset Rgba := (c.places.image c.pixel).filter fun q => q.a ≠ 0

/-- A side declared solid is drawn all along, one declared empty on half of its length at most. -/
def SideAgrees (c : Canvas) (code : EdgeCode) (d : Direction) : Prop :=
  (code = .solid → ∀ p ∈ c.sidePlaces d, (c.pixel p).a ≠ 0) ∧
    (code = .empty → (c.drawn (c.sidePlaces d)).card * 2 ≤ (c.sidePlaces d).card)

/-- The middle is half drawn at most where it is declared empty, and half drawn at least where
anything else is declared. -/
def CenterAgrees (c : Canvas) (center : String) : Prop :=
  if center = "empty" then (c.drawn c.centerPlaces).card * 2 ≤ c.centerPlaces.card
  else c.centerPlaces.card ≤ (c.drawn c.centerPlaces).card * 2

end Canvas

def Policy.budget (policy : Policy) (palette : Option Palette) : Nat :=
  (palette.elim policy.maxColors Palette.maxColors).toNat

structure Policy.Contract (policy : Policy) (c : Canvas) (g : Grammar) (palette : Option Palette) :
    Prop where
  size : (c.width, c.height) = g.size.extent
  colors : ∀ p ∈ palette, ∀ q ∈ c.places, p.Covers policy.tolerance (c.pixel q)
  sharp : ∀ q ∈ c.places, ¬(0 < (c.pixel q).a ∧ (c.pixel q).a < 255)
  full : ∀ p ∈ palette, p.allowTransparency = false → ∀ q ∈ c.places, (c.pixel q).a = 255
  budget : policy.strict = true → c.colorsSeen.card ≤ policy.budget palette
  sides : ∀ d, c.SideAgrees (g.edges.get d) d
  center : c.CenterAgrees g.center

/-- A rule answers, and finds no error exactly when a condition holds. -/
def Decides (answer : Except Error (List Violation)) (condition : Prop) : Prop :=
  ∃ found, answer = .ok found ∧ ((∀ v ∈ found, v.severity ≠ .error) ↔ condition)

namespace Decides

variable {α : Type} {answer : Except Error (List Violation)} {P Q : Prop}

theorem congr (h : Decides answer P) (hPQ : P ↔ Q) : Decides answer Q := by
  obtain ⟨found, hanswer, hP⟩ := h
  exact ⟨found, hanswer, hP.trans hPQ⟩

theorem nil (f : α → Except Error (List Violation)) :
    Decides (([].mapM f).map List.flatten) True := ⟨[], rfl, by simp⟩

theorem cons {f : α → Except Error (List Violation)} {x : α} {xs : List α}
    (hx : Decides (f x) P) (hxs : Decides ((xs.mapM f).map List.flatten) Q) :
    Decides (((x :: xs).mapM f).map List.flatten) (P ∧ Q) := by
  obtain ⟨found, hanswer, hP⟩ := hx
  obtain ⟨others, hothers, hQ⟩ := hxs
  exact ⟨found ++ others, flatten_mapM_cons hanswer hothers, by
    rw [List.forall_mem_append, hP, hQ]⟩

theorem ofTest [Decidable P] {v : Violation} (hv : v.severity = .error) :
    Decides (.ok (if P then [] else [v])) P := by
  refine ⟨_, rfl, ?_⟩
  by_cases h : P <;> simp [h, hv]

end Decides

theorem Rgba.distance_eq (a b : UInt8) :
    distance a b = (a.toNat - b.toNat : Int).natAbs := by
  unfold distance
  omega

theorem Rgba.near_iff (tolerance : UInt8) (p q : Rgba) :
    p.near tolerance q = true ↔ p.Within tolerance q := by
  simp only [near, channels, Within, List.zip_cons_cons, List.zip_nil_left, List.all_cons,
    List.all_nil, List.forall_mem_cons, Bool.and_eq_true, decide_eq_true_eq, distance_eq]
  simp

theorem Rgba.within_zero_iff (p q : Rgba) : p.Within 0 q ↔ p = q := by
  obtain ⟨r, g, b, a⟩ := p
  obtain ⟨r', g', b', a'⟩ := q
  simp only [Within, List.forall_mem_cons, UInt8.toNat_zero, mk.injEq, ← UInt8.toNat_inj]
  simp only [List.not_mem_nil, false_implies, implies_true, and_true]
  omega

theorem Palette.admits_iff_allowed (p : Palette) (tolerance : UInt8) (pixel : Rgba) :
    p.admits tolerance pixel = true ↔
      (pixel.a = 0 ∧ p.allowTransparency = true) ∨ ∃ q ∈ p.allowed, pixel.Within tolerance q := by
  unfold admits
  by_cases hclear : pixel.a = 0 ∧ p.allowTransparency = true
  · simp [Rgba.isClear, hclear]
  · have htest : (pixel.isClear && p.allowTransparency) = false := by
      simpa [Rgba.isClear] using hclear
    rw [htest]
    by_cases ht : tolerance = 0
    · simp [ht, hclear, Rgba.within_zero_iff]
    · simp [ht, hclear, Rgba.near_iff]

theorem Palette.admits_iff (p : Palette) (tolerance : UInt8) (pixel : Rgba) :
    p.admits tolerance pixel = true ↔ p.Covers tolerance pixel := by
  have hany : (∃ q ∈ p.allowed, pixel.Within tolerance q) ↔
      (∃ color ∈ p.colors, pixel.Within tolerance color.rgba) ∨
        (p.allowTransparency = true ∧ pixel.Within tolerance .clear) := by
    unfold allowed
    cases p.allowTransparency <;> simp [or_and_right, exists_or]
  rw [admits_iff_allowed, hany, Covers]

end TileGrammar
