import Mathlib.Data.Finset.Image
import Mathlib.Order.Basic
import TileGrammar.Palette.Color

/-!
# Sorted lists without repetition have each member once

Insertion by a key that tells the members apart keeps a list in order and adds
just the new member. The channels of a pixel can be read off its rank, so the
different colors of a picture are the members of the list of its pixels, each
once.
-/

set_option autoImplicit false

namespace TileGrammar

section

variable {α κ : Type} [LinearOrder κ] {key : α → κ}

theorem mem_insertBy (hk : Function.Injective key) (x y : α) (ys : List α) :
    y ∈ insertBy key x ys ↔ y = x ∨ y ∈ ys := by
  induction ys with
  | nil => simp [insertBy]
  | cons z ys ih =>
    simp only [insertBy]
    split
    · simp
    · split
      · rw [List.mem_cons, ih, List.mem_cons]
        exact or_left_comm
      next hxz hzx =>
        have hx : x = z := hk (le_antisymm (not_lt.mp hzx) (not_lt.mp hxz))
        simp [hx]

theorem insertBy_ordered (hk : Function.Injective key) (x : α) {ys : List α}
    (h : ys.Pairwise fun a b => key a < key b) :
    (insertBy key x ys).Pairwise fun a b => key a < key b := by
  induction ys with
  | nil => simp [insertBy]
  | cons z ys ih =>
    obtain ⟨hz, hys⟩ := List.pairwise_cons.mp h
    simp only [insertBy]
    split
    next hxz =>
      refine List.pairwise_cons.mpr ⟨fun a ha => ?_, h⟩
      rcases List.mem_cons.mp ha with rfl | ha
      · exact hxz
      · exact hxz.trans (hz a ha)
    next =>
      split
      next hzx =>
        refine List.pairwise_cons.mpr ⟨fun a ha => ?_, ih hys⟩
        rcases (mem_insertBy hk x a ys).mp ha with rfl | ha
        · exact hzx
        · exact hz a ha
      next => exact h

theorem mem_foldl_insertBy (hk : Function.Injective key) (y : α) (xs set : List α) :
    y ∈ xs.foldl (fun set x => insertBy key x set) set ↔ y ∈ xs ∨ y ∈ set := by
  induction xs generalizing set with
  | nil => simp
  | cons x xs ih =>
    rw [List.foldl_cons, ih, mem_insertBy hk, List.mem_cons]
    tauto

theorem mem_sortedSetBy (hk : Function.Injective key) (y : α) (xs : List α) :
    y ∈ sortedSetBy key xs ↔ y ∈ xs := by
  rw [sortedSetBy, mem_foldl_insertBy hk]
  simp

theorem sortedSetBy_ordered (hk : Function.Injective key) (xs : List α) :
    (sortedSetBy key xs).Pairwise fun a b => key a < key b := by
  have hfold : ∀ set : List α, set.Pairwise (fun a b => key a < key b) →
      (xs.foldl (fun set x => insertBy key x set) set).Pairwise fun a b => key a < key b := by
    induction xs with
    | nil => exact fun set h => h
    | cons x xs ih => exact fun set h => ih _ (insertBy_ordered hk x h)
  exact hfold [] .nil

theorem nodup_sortedSetBy (hk : Function.Injective key) (xs : List α) :
    (sortedSetBy key xs).Nodup :=
  (sortedSetBy_ordered hk xs).imp fun h e => h.ne (congrArg key e)

theorem sortedSetBy_congr (hk : Function.Injective key) {xs ys : List α}
    (h : ∀ x, x ∈ xs ↔ x ∈ ys) : sortedSetBy key xs = sortedSetBy key ys := by
  have hperm : (sortedSetBy key xs).Perm (sortedSetBy key ys) := by
    rw [List.perm_ext_iff_of_nodup (nodup_sortedSetBy hk xs) (nodup_sortedSetBy hk ys)]
    intro x
    rw [mem_sortedSetBy hk, mem_sortedSetBy hk, h]
  exact List.Perm.eq_of_pairwise (fun a b _ _ hab hba => absurd (hab.trans hba) (lt_irrefl _))
    (sortedSetBy_ordered hk xs) (sortedSetBy_ordered hk ys) hperm

end

namespace Rgba

theorem rank_injective : Function.Injective rank := by
  rintro ⟨r, g, b, a⟩ ⟨r', g', b', a'⟩ h
  have bounds : ∀ c : UInt8, c.toNat < 256 := UInt8.toNat_lt
  have hr := bounds r
  have hg := bounds g
  have hb := bounds b
  have ha := bounds a
  have hr' := bounds r'
  have hg' := bounds g'
  have hb' := bounds b'
  have ha' := bounds a'
  simp only [rank] at h
  simp only [mk.injEq, ← UInt8.toNat_inj]
  omega

theorem mem_distinct (p : Rgba) (ps : List Rgba) : p ∈ distinct ps ↔ p ∈ ps :=
  mem_sortedSetBy rank_injective p ps

theorem distinct_perm {ps qs : List Rgba} (h : ps.Perm qs) : distinct ps = distinct qs :=
  sortedSetBy_congr rank_injective fun _ => h.mem_iff

theorem nodup_distinct (ps : List Rgba) : (distinct ps).Nodup := nodup_sortedSetBy rank_injective ps

end Rgba

end TileGrammar
