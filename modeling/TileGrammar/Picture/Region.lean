import TileGrammar.Edge.Signature
import TileGrammar.Palette.Color

/-!
# Places in a picture and views of it

Places are pairs of a column and a row. The regions here are given by the size
of the picture alone: all of it, the row or column along one side, its middle
half, and the places next to a place. A view is what a rule may know of a
picture: its size, and the pixel at a place it asks for. Asking may fail, so
that a rule which asks for places outside of the picture shows it.
-/

set_option autoImplicit false

namespace TileGrammar

abbrev Place := Nat × Nat

namespace Region

/-- `start, start + 1, …` up to but not including `stop`. -/
def span (start stop : Nat) : List Nat := List.range' start (stop - start)

/-- The places of a rectangle, row by row. -/
def rect (x₀ x₁ y₀ y₁ : Nat) : List Place :=
  (span y₀ y₁).flatMap fun y => (span x₀ x₁).map fun x => (x, y)

def all (width height : Nat) : List Place := rect 0 width 0 height

/-- The outermost places on one side. -/
def side (width height : Nat) : Direction → List Place
  | .north => rect 0 width 0 1
  | .east => rect (width - 1) width 0 height
  | .south => rect 0 width (height - 1) height
  | .west => rect 0 1 0 height

/-- What is left when a quarter is cut off on every side. -/
def center (width height : Nat) : List Place :=
  rect (width / 4) (width - width / 4) (height / 4) (height - height / 4)

def neighbors (width height : Nat) (p : Place) : List Place :=
  (if 0 < p.1 then [(p.1 - 1, p.2)] else []) ++
  (if p.1 + 1 < width then [(p.1 + 1, p.2)] else []) ++
  (if 0 < p.2 then [(p.1, p.2 - 1)] else []) ++
  (if p.2 + 1 < height then [(p.1, p.2 + 1)] else [])

@[simp] theorem mem_span {start stop n : Nat} :
    n ∈ span start stop ↔ start ≤ n ∧ n < stop := by
  simp only [span, List.mem_range'_1]
  omega

theorem mem_rect {x₀ x₁ y₀ y₁ : Nat} {p : Place} :
    p ∈ rect x₀ x₁ y₀ y₁ ↔ (x₀ ≤ p.1 ∧ p.1 < x₁) ∧ y₀ ≤ p.2 ∧ p.2 < y₁ := by
  obtain ⟨x, y⟩ := p
  simp only [rect, List.mem_flatMap, List.mem_map, mem_span, Prod.mk.injEq]
  constructor
  · rintro ⟨y', hy, x', hx, rfl, rfl⟩
    exact ⟨hx, hy⟩
  · rintro ⟨hx, hy⟩
    exact ⟨y, hy, x, hx, rfl, rfl⟩

theorem mem_all {width height : Nat} {p : Place} :
    p ∈ all width height ↔ p.1 < width ∧ p.2 < height := by
  simp [all, mem_rect]

end Region

structure View where
  width : Nat
  height : Nat
  read : Place → Except Error Rgba

namespace View

def readAll (v : View) (ps : List Place) : Except Error (List Rgba) := ps.mapM v.read

def pixels (v : View) : Except Error (List Rgba) := v.readAll (Region.all v.width v.height)

def distinctColors (v : View) : Except Error (List Rgba) := v.pixels.map Rgba.distinct

end View

end TileGrammar
