import Mathlib.Tactic.Tauto
import TileGrammar.Json.Basic
import TileGrammar.Proofs.Order.Overlay

/-!
# Values that differ in the order of members alone

Objects are alike when their members match one to one, each with an alike
value of the same name, wherever it stands. Items of a list match place by
place, and a value without parts only matches itself. The normal form brings
alike values to the same value and no others, for values whose objects name
each member once.
-/

set_option autoImplicit false

namespace TileGrammar.Json

mutual

/-- The same value, up to the order of members at every depth. -/
inductive Alike : Json → Json → Prop
  | null : Alike .null .null
  | bool (b : Bool) : Alike (.bool b) (.bool b)
  | int (i : Int) : Alike (.int i) (.int i)
  | float (x : Float) : Alike (.float x) (.float x)
  | str (s : String) : Alike (.str s) (.str s)
  | unreadable : Alike .unreadable .unreadable
  | arr {xs ys : List Json} (h : AlikeItems xs ys) : Alike (.arr xs) (.arr ys)
  | obj {ms ns : List (String × Json)} (h : AlikeMembers ms ns) : Alike (.obj ms) (.obj ns)

inductive AlikeItems : List Json → List Json → Prop
  | nil : AlikeItems [] []
  | cons {x y : Json} {xs ys : List Json} (hx : Alike x y) (hxs : AlikeItems xs ys) :
      AlikeItems (x :: xs) (y :: ys)

inductive AlikeMembers : List (String × Json) → List (String × Json) → Prop
  | nil : AlikeMembers [] []
  | cons (k : String) {x y : Json} {ms ns os : List (String × Json)} (hx : Alike x y)
      (hms : AlikeMembers ms (ns ++ os)) : AlikeMembers ((k, x) :: ms) (ns ++ (k, y) :: os)

end

theorem AlikeMembers.exchange {k l : String} {x x' y y' : Json} (hx : Alike x x')
    (hy : Alike y y') : AlikeMembers [(k, x), (l, y)] [(l, y'), (k, x')] :=
  @AlikeMembers.cons k x x' [(l, y)] [(l, y')] [] hx (@AlikeMembers.cons l y y' [] [] [] hy .nil)

mutual

/-- A value without doubles, whose objects name each member once. -/
def Exact : Json → Prop
  | .null => True
  | .bool _ => True
  | .int _ => True
  | .float _ => False
  | .str _ => True
  | .arr xs => ExactItems xs
  | .obj ms => (ms.map Prod.fst).Nodup ∧ ExactMembers ms
  | .unreadable => False

def ExactItems : List Json → Prop
  | [] => True
  | x :: xs => Exact x ∧ ExactItems xs

def ExactMembers : List (String × Json) → Prop
  | [] => True
  | (_, x) :: ms => Exact x ∧ ExactMembers ms

end

theorem exactItems_iff (xs : List Json) : ExactItems xs ↔ ∀ x ∈ xs, Exact x := by
  induction xs with
  | nil => simp [ExactItems]
  | cons x xs ih => simp [ExactItems, ih]

theorem exactMembers_iff (ms : List (String × Json)) :
    ExactMembers ms ↔ ∀ m ∈ ms, Exact m.2 := by
  induction ms with
  | nil => simp [ExactMembers]
  | cons m ms ih => simp [ExactMembers, ih]

theorem map_fst_sortedMembers (ms : List (String × Json)) :
    (sortedMembers ms).map Prod.fst = ms.map Prod.fst := by
  simp [sortedMembers_eq]

theorem exactMembers_middle {k : String} {x : Json} {ms ns : List (String × Json)} :
    ExactMembers (ms ++ (k, x) :: ns) ↔ Exact x ∧ ExactMembers (ms ++ ns) := by
  simp only [exactMembers_iff, List.forall_mem_append, List.forall_mem_cons]
  tauto

theorem sortedMembers_middle (k : String) (x : Json) (ms ns : List (String × Json)) :
    (sortedMembers (ms ++ (k, x) :: ns)).Perm ((k, sorted x) :: sortedMembers (ms ++ ns)) := by
  simp only [sortedMembers_eq, List.map_append, List.map_cons]
  exact List.perm_middle

mutual

theorem Exact.sorted : ∀ {x : Json}, Exact x → Exact x.sorted
  | .null, _ => trivial
  | .bool _, _ => trivial
  | .int _, _ => trivial
  | .float _, h => h
  | .str _, _ => trivial
  | .arr xs, h => @ExactItems.sorted xs h
  | .obj ms, h => by
    have hms := ExactMembers.sorted h.2
    rw [exactMembers_iff] at hms
    refine ⟨Dict.nodup_keys _, (exactMembers_iff _).mpr fun m hm => ?_⟩
    exact hms m (Dict.mem_entries_ofList hm)
  | .unreadable, h => h

theorem ExactItems.sorted : ∀ {xs : List Json}, ExactItems xs → ExactItems (sortedItems xs)
  | [], _ => trivial
  | _ :: _, h => ⟨Exact.sorted h.1, ExactItems.sorted h.2⟩

theorem ExactMembers.sorted : ∀ {ms : List (String × Json)}, ExactMembers ms →
    ExactMembers (sortedMembers ms)
  | [], _ => trivial
  | (_, _) :: _, h => ⟨Exact.sorted h.1, ExactMembers.sorted h.2⟩

end

mutual

theorem sorted_eq_of_alike : ∀ {x y : Json}, Exact x → Exact y → Alike x y → x.sorted = y.sorted
  | .null, _, _, _, .null => rfl
  | .bool _, _, _, _, .bool _ => rfl
  | .int _, _, _, _, .int _ => rfl
  | .float _, _, _, _, .float _ => rfl
  | .str _, _, _, _, .str _ => rfl
  | .unreadable, _, _, _, .unreadable => rfl
  | .arr xs, .arr ys, hx, hy, .arr h => congrArg Json.arr (sortedItems_eq_of_alike hx hy h)
  | .obj ms, .obj ns, hx, hy, .obj h => by
    have hperm := sortedMembers_perm_of_alike hx.2 hy.2 h
    refine congrArg Json.obj ((Dict.entries_ofList_eq_iff ?_ ?_).mpr hperm)
    · rw [map_fst_sortedMembers]
      exact hx.1
    · rw [map_fst_sortedMembers]
      exact hy.1

theorem sortedItems_eq_of_alike : ∀ {xs ys : List Json}, ExactItems xs → ExactItems ys →
    AlikeItems xs ys → sortedItems xs = sortedItems ys
  | [], [], _, _, .nil => rfl
  | _ :: _, _ :: _, hx, hy, .cons h hs =>
    congrArg₂ List.cons (sorted_eq_of_alike hx.1 hy.1 h) (sortedItems_eq_of_alike hx.2 hy.2 hs)

theorem sortedMembers_perm_of_alike : ∀ {ms ns : List (String × Json)}, ExactMembers ms →
    ExactMembers ns → AlikeMembers ms ns → (sortedMembers ms).Perm (sortedMembers ns)
  | [], [], _, _, .nil => .nil
  | (k, x) :: ms, _, hx, hy, h => by
    cases h with
    | @cons _ _ y _ ns os h hs =>
      obtain ⟨hy, hrest⟩ := exactMembers_middle.mp hy
      have htail := sortedMembers_perm_of_alike hx.2 hrest hs
      rw [sortedMembers, sorted_eq_of_alike hx.1 hy h]
      exact (htail.cons _).trans (sortedMembers_middle k y ns os).symm

end

mutual

theorem alike_of_sorted_eq : ∀ {x y : Json}, Exact x → Exact y → x.sorted = y.sorted → Alike x y
  | .null, y, _, _, h => by
    cases y <;> simp only [Json.sorted, reduceCtorEq] at h
    exact .null
  | .bool b, y, _, _, h => by
    cases y <;> simp only [Json.sorted, reduceCtorEq, bool.injEq] at h
    rw [h]
    exact .bool _
  | .int i, y, _, _, h => by
    cases y <;> simp only [Json.sorted, reduceCtorEq, int.injEq] at h
    rw [h]
    exact .int _
  | .float _, _, hx, _, _ => hx.elim
  | .str s, y, _, _, h => by
    cases y <;> simp only [Json.sorted, reduceCtorEq, str.injEq] at h
    rw [h]
    exact .str _
  | .unreadable, _, hx, _, _ => hx.elim
  | .arr xs, y, hx, hy, h => by
    cases y <;> simp only [Json.sorted, reduceCtorEq, arr.injEq] at h
    exact .arr (alikeItems_of_sorted_eq hx hy h)
  | .obj ms, y, hx, hy, h => by
    cases y with
    | obj ns =>
      simp only [Json.sorted, obj.injEq] at h
      refine .obj (alikeMembers_of_perm hx.2 hy.2 ((Dict.entries_ofList_eq_iff ?_ ?_).mp h))
      · rw [map_fst_sortedMembers]
        exact hx.1
      · rw [map_fst_sortedMembers]
        exact hy.1
    | _ => simp only [Json.sorted, reduceCtorEq] at h

theorem alikeItems_of_sorted_eq : ∀ {xs ys : List Json}, ExactItems xs → ExactItems ys →
    sortedItems xs = sortedItems ys → AlikeItems xs ys
  | [], [], _, _, _ => .nil
  | [], _ :: _, _, _, h => nomatch h
  | _ :: _, [], _, _, h => nomatch h
  | _ :: _, _ :: _, hx, hy, h =>
    .cons (alike_of_sorted_eq hx.1 hy.1 (List.cons.inj h).1)
      (alikeItems_of_sorted_eq hx.2 hy.2 (List.cons.inj h).2)

theorem alikeMembers_of_perm : ∀ {ms ns : List (String × Json)}, ExactMembers ms →
    ExactMembers ns → (sortedMembers ms).Perm (sortedMembers ns) → AlikeMembers ms ns
  | [], ns, _, _, h => by
    have hnil : ns.map (fun m => (m.1, sorted m.2)) = [] := by
      rw [← sortedMembers_eq]
      exact h.symm.eq_nil
    rw [List.map_eq_nil_iff.mp hnil]
    exact .nil
  | (k, x) :: ms, ns, hx, hy, h => by
    -- The first member is found on the right and taken out of both sides.
    have hmem : (k, sorted x) ∈ sortedMembers ns := h.subset List.mem_cons_self
    rw [sortedMembers_eq] at hmem
    obtain ⟨⟨j, y⟩, hyn, he⟩ := List.mem_map.mp hmem
    obtain ⟨rfl, hsorted⟩ := Prod.mk.inj he
    obtain ⟨os, ps, rfl⟩ := List.append_of_mem hyn
    obtain ⟨hy, hrest⟩ := exactMembers_middle.mp hy
    have hperm := h.trans (sortedMembers_middle _ y os ps)
    rw [sortedMembers, hsorted] at hperm
    exact .cons _ (alike_of_sorted_eq hx.1 hy hsorted.symm)
      (alikeMembers_of_perm hx.2 hrest hperm.cons_inv)

end

/-- The normal form is one for alike values and tells all others apart. -/
theorem sorted_eq_iff_alike {x y : Json} (hx : Exact x) (hy : Exact y) :
    x.sorted = y.sorted ↔ Alike x y := ⟨alike_of_sorted_eq hx hy, sorted_eq_of_alike hx hy⟩

end TileGrammar.Json
