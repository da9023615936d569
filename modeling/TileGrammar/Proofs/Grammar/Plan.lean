import Mathlib.Algebra.BigOperators.Ring.List
import Mathlib.Algebra.Ring.Nat
import TileGrammar.Grammar.Spec

/-!
# What a plan counts

A plan multiplies its counts one after the other and cuts off behind each of
them. A product that is once cut off stays so, unless a count of zero follows,
and that makes it nothing in either case. So cutting off at the end would do,
and the order of the counts does not matter.
-/

set_option autoImplicit false

namespace TileGrammar.Plan

def counts (p : Plan) : List Nat := p.bases :: p.factors

/-- A product is cut off alike whether or not its first factor was cut off before. -/
theorem times_min_left (a n : Nat) : times (min a ceiling) n = times a n := by
  unfold times
  rcases Nat.le_total a ceiling with h | h
  · rw [Nat.min_eq_left h]
  · rw [Nat.min_eq_right h]
    rcases Nat.eq_zero_or_pos n with rfl | hn
    · rfl
    · have hcut : ceiling ≤ ceiling * n := Nat.le_mul_of_pos_right _ hn
      have hexact : ceiling * n ≤ a * n := Nat.mul_le_mul_right n h
      rw [Nat.min_eq_right hcut, Nat.min_eq_right (Nat.le_trans hcut hexact)]

theorem foldl_times_min (a : Nat) (ns : List Nat) :
    ns.foldl times (min a ceiling) = min (a * ns.prod) ceiling := by
  induction ns generalizing a with
  | nil => rw [List.foldl_nil, List.prod_nil, Nat.mul_one]
  | cons n ns ih =>
    rw [List.foldl_cons, times_min_left, List.prod_cons, ← Nat.mul_assoc]
    exact ih (a * n)

theorem total_eq_min_prod (p : Plan) : p.total = min p.counts.prod ceiling := by
  rw [counts, List.prod_cons, factors, List.prod_cons, ← Nat.mul_assoc]
  exact foldl_times_min (p.bases * p.edges.toNat) _

theorem total_eq_of_perm {p q : Plan} (h : q.counts.Perm p.counts) : q.total = p.total := by
  rw [total_eq_min_prod, total_eq_min_prod, h.prod_eq]

theorem total_eq_zero {p : Plan} (h : 0 ∈ p.counts) : p.total = 0 := by
  rw [total_eq_min_prod, List.prod_eq_zero h, Nat.zero_min]

/-- A product of words that stays at the last word where it does not fit. -/
def timesWords (a b : UInt64) : UInt64 :=
  if a.toNat * b.toNat < UInt64.size then a * b else .ofNat ceiling

def totalWords (bases : UInt64) (counts : List UInt64) : UInt64 := counts.foldl timesWords bases

theorem toNat_timesWords (a b : UInt64) : (timesWords a b).toNat = times a.toNat b.toNat := by
  unfold timesWords times
  split
  next h =>
    have hle : a.toNat * b.toNat ≤ ceiling := Nat.le_sub_one_of_lt h
    rw [UInt64.toNat_mul, Nat.min_eq_left hle]
    exact Nat.mod_eq_of_lt h
  next h =>
    have hge : ceiling ≤ a.toNat * b.toNat := Nat.le_trans (Nat.sub_le _ 1) (Nat.le_of_not_lt h)
    rw [Nat.min_eq_right hge]
    rfl

theorem toNat_totalWords (bases : UInt64) (counts : List UInt64) :
    (totalWords bases counts).toNat = (counts.map UInt64.toNat).foldl times bases.toNat := by
  induction counts generalizing bases with
  | nil => rfl
  | cons n counts ih =>
    rw [List.map_cons, List.foldl_cons, ← toNat_timesWords]
    exact ih (timesWords bases n)

/-- A plan comes to the product of its five counts, or to the last number of 64 bits where that is
smaller. So the counts may stand in any order, one of them that is zero makes the total zero however
large the others are, and words that stop at their last one come to the same. -/
theorem total_is_clamped_product (bases : List String) (edges damage lighting moisture : UInt64) :
    let p : Plan := ⟨bases.length, edges, damage, lighting, moisture⟩
    p.total = min (2 ^ 64 - 1) (bases.length * edges.toNat * damage.toNat * lighting.toNat *
      moisture.toNat) ∧
    (∀ q : Plan, q.counts.Perm p.counts → q.total = p.total) ∧
    (0 ∈ p.counts → p.total = 0) ∧
    ∀ n : UInt64, n.toNat = bases.length →
      (totalWords n [edges, damage, lighting, moisture]).toNat = p.total := by
  intro p
  refine ⟨?_, fun q => total_eq_of_perm, total_eq_zero, fun n hn => ?_⟩
  · have hprod : p.counts.prod = bases.length * edges.toNat * damage.toNat * lighting.toNat *
        moisture.toNat := by
      simp only [p, counts, factors, List.prod_cons, List.prod_nil, Nat.mul_one, Nat.mul_assoc]
    rw [total_eq_min_prod, hprod, Nat.min_comm]
    rfl
  · rw [toNat_totalWords, hn]
    rfl

theorem total_is_clamped_product_halves :
    let bases := ["wall", "floor"]
    let half : UInt64 := .ofNat (2 ^ 63)
    let p : Plan := ⟨bases.length, half, 4, 1, 0⟩
    let q : Plan := ⟨0, 2, 1, 4, half⟩
    q.counts.Perm p.counts ∧ 0 ∈ p.counts ∧ p.total = 0 ∧ q.total = 0 ∧
      (⟨bases.length, half, 4, 1, 1⟩ : Plan).total = 2 ^ 64 - 1 ∧
      (totalWords 2 [half, 4, 1, 0]).toNat = 0 := by
  intro bases half p q
  have hperm : q.counts.Perm p.counts := by decide
  have hzero : 0 ∈ p.counts := by decide
  obtain ⟨-, horder, hnothing, hwords⟩ := total_is_clamped_product bases half 4 1 0
  obtain ⟨hlarge, -, -, -⟩ := total_is_clamped_product bases half 4 1 1
  have hp : p.total = 0 := hnothing hzero
  refine ⟨hperm, hzero, hp, (horder q hperm).trans hp, ?_, (hwords 2 rfl).trans hp⟩
  rw [hlarge]
  decide

end TileGrammar.Plan
