import Mathlib.Data.List.Forall2
import TileGrammar.Error

/-!
# Lists worked through until something fails

A list is worked through from its head, and the first failure ends the work. So
all goes well exactly where every member does, a failure is that of some
member, and members behind one that fails are not looked at. Two lists may also
be gone through side by side, and a list of equally long parts part by part.
-/

set_option autoImplicit false

namespace TileGrammar

section

variable {ε α : Type} {f : α → Except ε Unit} {xs : List α}

theorem forM_eq_ok_iff : xs.forM f = .ok () ↔ ∀ x ∈ xs, f x = .ok () := by
  induction xs with
  | nil => simp [pure, Except.pure]
  | cons x xs ih =>
    rw [List.forM_eq_forM, List.forM_cons, List.forall_mem_cons, ← List.forM_eq_forM]
    constructor
    · intro h
      obtain ⟨⟨⟩, hx, h⟩ := bind_eq_ok h
      exact ⟨hx, ih.mp h⟩
    · rintro ⟨hx, h⟩
      rw [hx]
      exact ih.mpr h

theorem mem_of_forM_eq_error {e : ε} (h : xs.forM f = .error e) : ∃ x ∈ xs, f x = .error e := by
  induction xs with
  | nil => cases h
  | cons x xs ih =>
    rw [List.forM_eq_forM, List.forM_cons, ← List.forM_eq_forM] at h
    rcases bind_eq_error h with hx | ⟨⟨⟩, -, h⟩
    · exact ⟨x, by simp, hx⟩
    · obtain ⟨y, hy, he⟩ := ih h
      exact ⟨y, List.mem_cons_of_mem x hy, he⟩

end

section

variable {ε α β : Type} {xs : List α}

theorem mapM_eq_ok {f : α → Except ε β} {g : α → β} (h : ∀ x ∈ xs, f x = .ok (g x)) :
    xs.mapM f = .ok (xs.map g) := by
  induction xs with
  | nil => rfl
  | cons x xs ih =>
    rw [List.mapM_cons, h x (by simp), ih fun y hy => h y (List.mem_cons_of_mem x hy)]
    rfl

theorem mapM_congr {f g : α → Except ε β} (h : ∀ x ∈ xs, f x = g x) : xs.mapM f = xs.mapM g := by
  induction xs with
  | nil => rfl
  | cons x xs ih =>
    rw [List.mapM_cons, List.mapM_cons, h x (by simp), ih fun y hy => h y (List.mem_cons_of_mem x hy)]

theorem length_of_mapM_eq_ok {f : α → Except ε β} {ys : List β} (h : xs.mapM f = .ok ys) :
    ys.length = xs.length := by
  induction xs generalizing ys with
  | nil =>
    cases h
    rfl
  | cons x xs ih =>
    rw [List.mapM_cons] at h
    obtain ⟨y, -, h⟩ := bind_eq_ok h
    obtain ⟨rest, hrest, h⟩ := bind_eq_ok h
    cases h
    rw [List.length_cons, List.length_cons, ih hrest]

theorem mapM_eq_ok_iff {f : α → Except ε β} {ys : List β} :
    xs.mapM f = .ok ys ↔ List.Forall₂ (fun x y => f x = .ok y) xs ys := by
  induction xs generalizing ys with
  | nil =>
    rw [List.forall₂_nil_left_iff]
    constructor
    · intro h
      cases h
      rfl
    · rintro rfl
      rfl
  | cons x xs ih =>
    rw [List.mapM_cons, List.forall₂_cons_left_iff]
    constructor
    · intro h
      obtain ⟨y, hy, h⟩ := bind_eq_ok h
      obtain ⟨rest, hrest, h⟩ := bind_eq_ok h
      cases h
      exact ⟨y, rest, hy, ih.mp hrest, rfl⟩
    · rintro ⟨y, rest, hy, hrest, rfl⟩
      rw [hy, ih.mpr hrest]
      rfl

theorem mem_of_mapM_eq_error {f : α → Except ε β} {e : ε}
    (h : xs.mapM f = .error e) : ∃ x ∈ xs, f x = .error e := by
  induction xs with
  | nil => cases h
  | cons x xs ih =>
    rw [List.mapM_cons] at h
    rcases bind_eq_error h with hx | ⟨y, -, h⟩
    · exact ⟨x, List.mem_cons_self, hx⟩
    · rcases bind_eq_error h with hxs | ⟨rest, -, h⟩
      · obtain ⟨z, hz, he⟩ := ih hxs
        exact ⟨z, List.mem_cons_of_mem x hz, he⟩
      · cases h

theorem mapM_eq_error {f : α → Except ε β} {g : α → β} {x : α} {ys : List α} {e : ε}
    (h : ∀ y ∈ xs, f y = .ok (g y)) (hx : f x = .error e) :
    (xs ++ x :: ys).mapM f = .error e := by
  rw [List.mapM_append, mapM_eq_ok h, List.mapM_cons, hx]
  rfl

def keepMarked (xs : List α) (marks : List Bool) : List α :=
  ((xs.zip marks).filter Prod.snd).map Prod.fst

theorem filterAuxM_eq_map_mapM (f : α → Except ε Bool) (kept : List α) :
    xs.filterAuxM f kept =
      (xs.mapM f).map fun marks => (keepMarked xs marks).reverse ++ kept := by
  induction xs generalizing kept with
  | nil => rfl
  | cons x xs ih =>
    have hx : (x :: xs).filterAuxM f kept =
        f x >>= fun b => xs.filterAuxM f (cond b (x :: kept) kept) := rfl
    rw [hx, List.mapM_cons]
    cases f x with
    | error e => rfl
    | ok b =>
      have hrest := ih (cond b (x :: kept) kept)
      rw [show (Except.ok b >>= fun b => xs.filterAuxM f (cond b (x :: kept) kept)) =
        xs.filterAuxM f (cond b (x :: kept) kept) from rfl, hrest]
      cases xs.mapM f with
      | error e => rfl
      | ok marks => cases b <;> simp [keepMarked, Except.map, bind, Except.bind, pure, Except.pure]

theorem filterM_eq_map_mapM (f : α → Except ε Bool) :
    xs.filterM f = (xs.mapM f).map (keepMarked xs) := by
  rw [List.filterM, filterAuxM_eq_map_mapM]
  cases xs.mapM f with
  | error e => rfl
  | ok marks => simp [Except.map, bind, Except.bind, pure, Except.pure]

theorem keepMarked_map (g : α → Bool) : keepMarked xs (xs.map g) = xs.filter g := by
  simp [keepMarked, ← List.map_prod_left_eq_zip, List.filter_map, Function.comp_def]

theorem filterM_eq_ok {f : α → Except ε Bool} {g : α → Bool} (h : ∀ x ∈ xs, f x = .ok (g x)) :
    xs.filterM f = .ok (xs.filter g) := by
  rw [filterM_eq_map_mapM, mapM_eq_ok h, ← keepMarked_map]
  rfl

theorem flatten_mapM_cons {f : α → Except ε (List β)} {a : α} {as : List α} {us vs : List β}
    (ha : f a = .ok us) (has : (as.mapM f).map List.flatten = .ok vs) :
    ((a :: as).mapM f).map List.flatten = .ok (us ++ vs) := by
  rw [List.mapM_cons, ha]
  cases hrest : as.mapM f with
  | error e =>
    rw [hrest] at has
    cases has
  | ok lists =>
    rw [hrest] at has
    cases has
    rfl

theorem flatten_mapM_eq_ok {f : α → Except ε (List β)} {found : α → List β}
    (h : ∀ x ∈ xs, f x = .ok (found x)) :
    (xs.mapM f).map List.flatten = .ok (xs.flatMap found) := by
  rw [mapM_eq_ok h, List.flatMap_def]
  rfl

end

theorem exists_of_forall₂ {α β : Type} {R : α → β → Prop} {xs : List α} {ys : List β}
    (h : List.Forall₂ R xs ys) {x : α} (hx : x ∈ xs) : ∃ y ∈ ys, R x y := by
  induction h with
  | nil => cases hx
  | @cons a b xs ys hab _ ih =>
    rcases List.mem_cons.mp hx with rfl | hx
    · exact ⟨b, List.mem_cons_self, hab⟩
    · obtain ⟨y, hy, hR⟩ := ih hx
      exact ⟨y, List.mem_cons_of_mem _ hy, hR⟩

theorem getElem?_flatMap_of_length {α β : Type} {f : α → List β} {k : Nat}
    (hf : ∀ a, (f a).length = k) {xs : List α} {i j : Nat} {a : α} {b : β}
    (ha : xs[i]? = some a) (hb : (f a)[j]? = some b) :
    (xs.flatMap f)[i * k + j]? = some b := by
  induction xs generalizing i with
  | nil => simp at ha
  | cons x xs ih =>
    rw [List.flatMap_cons]
    cases i with
    | zero =>
      obtain rfl : x = a := by simpa using ha
      obtain ⟨hj, -⟩ := List.getElem?_eq_some_iff.mp hb
      rwa [Nat.zero_mul, Nat.zero_add, List.getElem?_append_left hj]
    | succ i =>
      have hplace : (i + 1) * k + j = (f x).length + (i * k + j) := by
        rw [hf, Nat.succ_mul]
        omega
      rw [hplace, List.getElem?_append_right (Nat.le_add_right _ _), Nat.add_sub_cancel_left]
      exact ih (by simpa using ha)

end TileGrammar
