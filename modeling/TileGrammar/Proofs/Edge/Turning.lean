import Mathlib.Data.Int.ModEq
import TileGrammar.Edge.Signature

/-!
# Signatures turn as the square does

Four quarter turns are none, so turns add up like whole numbers modulo four,
also those counter-clockwise. A reflection makes a turn the turn the other way,
and the two reflections are half a turn apart. Directions turn and reflect with
the sides. A motion that keeps opposite sides opposite keeps what fits beside
what: the facing edges of two tiles go together to where they face again.
-/

set_option autoImplicit false

namespace TileGrammar

namespace Sides

variable {α : Type}

theorem turn_reflect (s : Sides α) : s.reflect.turn = (turnTimes 3 s).reflect := rfl

theorem turnTimes_succ (n : Nat) (s : Sides α) : turnTimes (n + 1) s = (turnTimes n s).turn := by
  rw [turnTimes_add]
  rfl

theorem turnTimes_mod (n : Nat) (s : Sides α) : turnTimes (n % 4) s = turnTimes n s := by
  induction n using Nat.strongRecOn with
  | ind n ih =>
    by_cases h : n < 4
    · rw [Nat.mod_eq_of_lt h]
    · have hmod : n % 4 = (n - 4) % 4 := by omega
      have hsum : n = 4 + (n - 4) := by omega
      calc turnTimes (n % 4) s = turnTimes (n - 4) s := by rw [hmod, ih (n - 4) (by omega)]
        _ = turnTimes (n - 4) (turnTimes 4 s) := rfl
        _ = turnTimes n s := by rw [← turnTimes_add, ← hsum]

theorem turnTimes_eq_rotate {n : Nat} {k : Int} (h : k ≡ n [ZMOD 4]) (s : Sides α) :
    turnTimes n s = rotate k s := by
  have hk : (k % 4).toNat = n % 4 := by
    have hmod : k % 4 = n % 4 := h
    omega
  rw [rotate, hk, turnTimes_mod]

theorem rotate_rotate {a b c : Int} (h : c ≡ a + b [ZMOD 4]) (s : Sides α) :
    rotate b (rotate a s) = rotate c s := by
  have hsum : c ≡ ((a % 4).toNat + (b % 4).toNat : Nat) [ZMOD 4] := by
    have hmod : c % 4 = (a + b) % 4 := h
    show c % 4 = ((a % 4).toNat + (b % 4).toNat : Nat) % 4
    omega
  calc rotate b (rotate a s) = turnTimes ((a % 4).toNat + (b % 4).toNat) s :=
        (turnTimes_add _ _ s).symm
    _ = rotate c s := turnTimes_eq_rotate hsum s

theorem reflect_turnTimes (n : Nat) (s : Sides α) :
    (turnTimes n s).reflect = turnTimes (3 * n) s.reflect := by
  induction n generalizing s with
  | zero => rfl
  | succ n ih =>
    calc (turnTimes (n + 1) s).reflect = turnTimes (3 * n) s.turn.reflect := ih s.turn
      _ = turnTimes (3 * n) (turnTimes 3 s.reflect) := rfl
      _ = turnTimes (3 * (n + 1)) s.reflect := by rw [← turnTimes_add, Nat.mul_succ, Nat.add_comm]

theorem reflect_rotate {k l : Int} (h : l ≡ -k [ZMOD 4]) (s : Sides α) :
    (rotate k s).reflect = rotate l s.reflect := by
  have hthrice : l ≡ (3 * (k % 4).toNat : Nat) [ZMOD 4] := by
    have hmod : l % 4 = -k % 4 := h
    show l % 4 = (3 * (k % 4).toNat : Nat) % 4
    omega
  calc (rotate k s).reflect = turnTimes (3 * (k % 4).toNat) s.reflect := reflect_turnTimes _ s
    _ = rotate l s.reflect := turnTimes_eq_rotate hthrice _

end Sides

namespace Direction

def turn : Direction → Direction
  | .north => .east
  | .east => .south
  | .south => .west
  | .west => .north

def reflect : Direction → Direction
  | .east => .west
  | .west => .east
  | d => d

def reflectVertical : Direction → Direction
  | .north => .south
  | .south => .north
  | d => d

def turnTimes : Nat → Direction → Direction
  | 0, d => d
  | n + 1, d => turnTimes n d.turn

def rotate (times : Int) (d : Direction) : Direction := turnTimes (times % 4).toNat d

theorem opposite_turn (d : Direction) : d.turn.opposite = d.opposite.turn := by cases d <;> rfl

theorem opposite_turnTimes (n : Nat) (d : Direction) :
    (turnTimes n d).opposite = turnTimes n d.opposite := by
  induction n generalizing d with
  | zero => rfl
  | succ n ih => exact (ih d.turn).trans (congrArg (turnTimes n) (opposite_turn d))

end Direction

namespace Sides

variable {α : Type}

theorem get_turn (s : Sides α) (d : Direction) : s.turn.get d.turn = s.get d := by cases d <;> rfl

theorem get_turnTimes (n : Nat) (s : Sides α) (d : Direction) :
    (turnTimes n s).get (d.turnTimes n) = s.get d := by
  induction n generalizing s d with
  | zero => rfl
  | succ n ih => exact (ih s.turn d.turn).trans (get_turn s d)

end Sides

namespace Signature

/-- A motion of tiles that takes each side along, and opposite sides to opposite sides. -/
structure Rigid (sides : Signature → Signature) (side : Direction → Direction) : Prop where
  get : ∀ s d, (sides s).get (side d) = Sides.get s d
  opposite : ∀ d, (side d).opposite = side d.opposite

theorem Rigid.fitsBeside {sides : Signature → Signature} {side : Direction → Direction}
    (h : Rigid sides side) (s t : Signature) (d : Direction) :
    fitsBeside (sides s) (sides t) (side d) = fitsBeside s t d := by
  rw [Signature.fitsBeside, h.opposite, h.get, h.get, ← Signature.fitsBeside]

theorem rotate_rigid (k : Int) : Rigid (Sides.rotate k) (Direction.rotate k) :=
  ⟨Sides.get_turnTimes _, Direction.opposite_turnTimes _⟩

theorem reflect_rigid : Rigid Sides.reflect Direction.reflect :=
  ⟨fun _ d => by cases d <;> rfl, fun d => by cases d <;> rfl⟩

theorem reflectVertical_rigid : Rigid Sides.reflectVertical Direction.reflectVertical :=
  ⟨fun _ d => by cases d <;> rfl, fun d => by cases d <;> rfl⟩

/-- Turns add up modulo four, a reflection reverses them, the reflections are half a turn apart,
and tiles that are turned or reflected together fit as they did, on the side turned or reflected
with them. -/
theorem turns_as_square :
    (∀ (s : Signature) (a b c : Int), c ≡ a + b [ZMOD 4] →
      Sides.rotate b (Sides.rotate a s) = Sides.rotate c s) ∧
    (∀ (s : Signature) (k l : Int), l ≡ -k [ZMOD 4] →
      (Sides.rotate k s).reflect = Sides.rotate l s.reflect) ∧
    (∀ s : Signature, s.reflectVertical = Sides.rotate 2 s.reflect) ∧
    (∀ (s t : Signature) (d : Direction) (k : Int),
      fitsBeside (Sides.rotate k s) (Sides.rotate k t) (d.rotate k) = fitsBeside s t d) ∧
    (∀ (s t : Signature) (d : Direction),
      fitsBeside s.reflect t.reflect d.reflect = fitsBeside s t d) ∧
    ∀ (s t : Signature) (d : Direction),
      fitsBeside s.reflectVertical t.reflectVertical d.reflectVertical = fitsBeside s t d := by
  refine ⟨fun s _ _ _ h => Sides.rotate_rotate h s, fun s _ _ h => Sides.reflect_rotate h s,
    Sides.reflectVertical_eq, ?_, ?_, ?_⟩
  · intro s t d k
    exact (rotate_rigid k).fitsBeside s t d
  · exact reflect_rigid.fitsBeside
  · exact reflectVertical_rigid.fitsBeside

theorem turns_as_square_least :
    (3 : Int) ≡ -0x80000000 + -1 [ZMOD 4] ∧ (1 : Int) ≡ - -1 [ZMOD 4] ∧
      Sides.rotate (-1) (Sides.rotate (-0x80000000) (ofEdges .solid .empty .floor .water)) =
        ofEdges .empty .floor .water .solid ∧
      (Sides.rotate (-1) (ofEdges .solid .empty .floor .water)).reflect =
        ofEdges .empty .solid .water .floor :=
  ⟨by decide, by decide, turns_as_square.1 _ _ _ 3 (by decide),
    turns_as_square.2.1 _ _ 1 (by decide)⟩

end Signature

end TileGrammar
