import TileGrammar.Edge.Map
import TileGrammar.Proofs.Edge.Adjacency

/-!
# What a clean map says

The check of a map looks from each cell to the north and to the west. So a map
is clean when each tile fits between those two neighbors, and a map in which
each tile fits between all of its neighbors is clean. The other sides are not
looked at, and since the table of codes is read one way only, a clean map says
something about them just where acceptance goes both ways.
-/

set_option autoImplicit false

namespace TileGrammar

namespace TileMap

def northWest (m : TileMap) (x y : Nat) : Surroundings :=
  ⟨m.beside? x y .north, none, none, m.beside? x y .west⟩

theorem get_northWest_eq_some_iff (m : TileMap) (x y : Nat) (d : Direction) (n : String) :
    (m.northWest x y).get d = some n ↔
      (d = .north ∨ d = .west) ∧ m.beside? x y d = some n := by
  cases d <;> simp [northWest, Sides.get]

theorem cell?_of_beside? {m : TileMap} {x y : Nat} {d : Direction} {id n : String}
    (hid : m.cell? x y = some id) (hn : m.beside? x y d = some n) :
    ∃ u v, m.cell? u v = some n ∧ m.beside? u v d.opposite = some id := by
  cases d with
  | north =>
    simp only [beside?] at hn
    split at hn
    · cases hn
    · refine ⟨x, y - 1, hn, ?_⟩
      rwa [Direction.opposite, beside?, Nat.sub_add_cancel (by omega)]
  | east => exact ⟨x + 1, y, hn, by simpa [Direction.opposite, beside?] using hid⟩
  | south => exact ⟨x, y + 1, hn, by simpa [Direction.opposite, beside?] using hid⟩
  | west =>
    simp only [beside?] at hn
    split at hn
    · cases hn
    · refine ⟨x - 1, y, hn, ?_⟩
      rwa [Direction.opposite, beside?, Nat.sub_add_cancel (by omega)]

end TileMap

namespace Catalog

theorem clashToward_eq_some_iff (c : Catalog) (m : TileMap) (x y : Nat) (id : String) (t : Tile)
    (d : Direction) (v : Clash) : c.clashToward m x y id t d = some v ↔
      ∃ n k, m.beside? x y d = some n ∧ c.get? n = some k ∧ t.fitsBeside k d = false ∧
        v = ⟨x, y, d, id, n⟩ := by
  unfold clashToward
  cases m.beside? x y d with
  | none => simp
  | some n =>
    cases hk : c.get? n with
    | none => simp [hk]
    | some k =>
      cases hfits : t.fitsBeside k d with
      | true => simp [hk, hfits]
      | false =>
        simp only [hk, hfits, Bool.false_eq_true, if_false, Option.some.injEq]
        constructor
        · rintro rfl
          exact ⟨n, k, rfl, hk, hfits, rfl⟩
        · rintro ⟨n', k', rfl, -, -, rfl⟩
          rfl

/-- A clash at a cell names a registered neighbor to the north or west that does not fit. -/
theorem mem_cellClashes_iff (c : Catalog) (m : TileMap) (x y : Nat) (id : String) (v : Clash) :
    v ∈ c.cellClashes m x y id ↔ ∃ t d n k, c.get? id = some t ∧
      (m.northWest x y).get d = some n ∧ c.get? n = some k ∧ t.fitsBeside k d = false ∧
      v = ⟨x, y, d, id, n⟩ := by
  unfold cellClashes
  cases c.get? id with
  | none => simp
  | some t =>
    simp only [List.mem_filterMap, clashToward_eq_some_iff, TileMap.get_northWest_eq_some_iff,
      List.mem_cons, List.not_mem_nil, or_false]
    constructor
    · rintro ⟨d, hd, n, k, hn, hk, hfits, hv⟩
      exact ⟨t, d, n, k, rfl, ⟨hd, hn⟩, hk, hfits, hv⟩
    · rintro ⟨u, d, n, k, hu, ⟨hd, hn⟩, hk, hfits, hv⟩
      cases hu
      exact ⟨d, hd, n, k, hn, hk, hfits, hv⟩

theorem rowClashes_eq (c : Catalog) (m : TileMap) (y x : Nat) (row : List String) :
    c.rowClashes m y x row = (row.zipIdx x).flatMap fun e => c.cellClashes m e.2 y e.1 := by
  induction row generalizing x with
  | nil => rfl
  | cons id row ih => rw [rowClashes, ih, List.zipIdx_cons, List.flatMap_cons]

theorem clashesFrom_eq (c : Catalog) (m : TileMap) (y : Nat) (rows : TileMap) :
    c.clashesFrom m y rows = (rows.zipIdx y).flatMap fun e => c.rowClashes m e.2 0 e.1 := by
  induction rows generalizing y with
  | nil => rfl
  | cons row rows ih => rw [clashesFrom, ih, List.zipIdx_cons, List.flatMap_cons]

theorem mem_clashes_iff (c : Catalog) (m : TileMap) (v : Clash) :
    v ∈ c.clashes m ↔ ∃ x y id, m.cell? x y = some id ∧ v ∈ c.cellClashes m x y id := by
  simp only [clashes, clashesFrom_eq, rowClashes_eq, List.mem_flatMap, Prod.exists,
    List.mk_mem_zipIdx_iff_getElem?, TileMap.cell?, Option.bind_eq_some_iff]
  constructor
  · rintro ⟨row, y, hrow, id, x, hid, h⟩
    exact ⟨x, y, id, ⟨row, hrow, hid⟩, h⟩
  · rintro ⟨x, y, id, ⟨row, hrow, hid⟩, h⟩
    exact ⟨row, y, hrow, id, x, hid, h⟩

theorem cellClashes_eq_nil_iff (c : Catalog) (m : TileMap) (x y : Nat) (id : String) :
    c.cellClashes m x y id = [] ↔ c.fits id (m.northWest x y) = true := by
  rw [List.eq_nil_iff_forall_not_mem, fits_iff]
  constructor
  · intro h t ht d n k hn hk
    by_contra hfits
    exact h _ ((c.mem_cellClashes_iff m x y id _).mpr
      ⟨t, d, n, k, ht, hn, hk, by simpa using hfits, rfl⟩)
  · intro h v hv
    obtain ⟨t, d, n, k, ht, hn, hk, hfits, -⟩ := (c.mem_cellClashes_iff m x y id v).mp hv
    cases hfits.symm.trans (h t ht d n k hn hk)

theorem clashes_eq_nil_iff (c : Catalog) (m : TileMap) : c.clashes m = [] ↔
    ∀ x y id, m.cell? x y = some id → c.fits id (m.northWest x y) = true := by
  simp only [← cellClashes_eq_nil_iff, List.eq_nil_iff_forall_not_mem, mem_clashes_iff]
  constructor
  · intro h x y id hid v hv
    exact h v ⟨x, y, id, hid, hv⟩
  · rintro h v ⟨x, y, id, hid, hv⟩
    exact h x y id hid v hv

/-- Each tile of a map fits between all the tiles that lie around it. -/
def Settled (c : Catalog) (m : TileMap) : Prop :=
  ∀ x y id, m.cell? x y = some id → c.fits id (m.around x y) = true

theorem clashes_eq_nil_of_settled {c : Catalog} {m : TileMap} (h : c.Settled m) :
    c.clashes m = [] := by
  rw [clashes_eq_nil_iff]
  intro x y id hid
  have hall := h x y id hid
  rw [fits_iff] at hall ⊢
  intro t ht d n k hn hk
  rw [TileMap.get_northWest_eq_some_iff] at hn
  refine hall t ht d n k ?_ hk
  rw [TileMap.around, Sides.get_ofFn]
  exact hn.2

/-- Where a tile takes another one to its north or west, that one takes it back. -/
def Mutual (c : Catalog) : Prop :=
  ∀ a b s t d, c.get? a = some s → c.get? b = some t → (d = .north ∨ d = .west) →
    s.fitsBeside t d = true → t.fitsBeside s d.opposite = true

/-- A clean map is settled where acceptance is mutual: an edge to the south or east is checked from
the cell on its far side. -/
theorem Mutual.settled {c : Catalog} (hc : c.Mutual) {m : TileMap} (h : c.clashes m = []) :
    c.Settled m := by
  rw [clashes_eq_nil_iff] at h
  have hchecked : ∀ x y id t d n k, m.cell? x y = some id → c.get? id = some t →
      (d = .north ∨ d = .west) → m.beside? x y d = some n → c.get? n = some k →
      t.fitsBeside k d = true := by
    intro x y id t d n k hid ht hd hn hk
    exact (c.fits_iff id _).mp (h x y id hid) t ht d n k
      ((m.get_northWest_eq_some_iff x y d n).mpr ⟨hd, hn⟩) hk
  intro x y id hid
  rw [fits_iff]
  intro t ht d n k hn hk
  rw [TileMap.around, Sides.get_ofFn] at hn
  obtain ⟨u, v, hcell, hback⟩ := TileMap.cell?_of_beside? hid hn
  -- Two sides are checked here, the other two from the cell (u, v) on the far side.
  cases d with
  | north => exact hchecked x y id t .north n k hid ht (.inl rfl) hn hk
  | west => exact hchecked x y id t .west n k hid ht (.inr rfl) hn hk
  | south =>
    have hfits := hchecked u v n k .north id t hcell hk (.inl rfl) hback ht
    exact hc n id k t .north hk ht (.inl rfl) hfits
  | east =>
    have hfits := hchecked u v n k .west id t hcell hk (.inr rfl) hback ht
    exact hc n id k t .west hk ht (.inr rfl) hfits

theorem mutual_of_settled {c : Catalog} (h : ∀ m, c.clashes m = [] → c.Settled m) : c.Mutual := by
  intro a b s t d ha hb hd hfits
  rcases hd with rfl | rfl
  · have hclean : c.clashes [[b], [a]] = [] := by
      simp [clashes, clashesFrom, rowClashes, cellClashes, clashToward, TileMap.beside?,
        TileMap.cell?, ha, hb, hfits]
    have hfirst := h _ hclean 0 0 b rfl
    exact (c.fits_iff b _).mp hfirst t hb .south a s rfl ha
  · have hclean : c.clashes [[b, a]] = [] := by
      simp [clashes, clashesFrom, rowClashes, cellClashes, clashToward, TileMap.beside?,
        TileMap.cell?, ha, hb, hfits]
    have hfirst := h _ hclean 0 0 b rfl
    exact (c.fits_iff b _).mp hfirst t hb .east a s rfl ha

/-- A map is clean exactly when each tile fits between its neighbors to the north and west. A map
whose tiles fit between all their neighbors is clean. That a clean map is always of this kind holds
of the catalogs in which a tile that is taken to the north or west takes back, and of no other. -/
theorem clean_iff_fits_northWest (c : Catalog) :
    (∀ m, c.clashes m = [] ↔
      ∀ x y id, m.cell? x y = some id → c.fits id (m.northWest x y) = true) ∧
    (∀ m, c.Settled m → c.clashes m = []) ∧
    ((∀ m, c.clashes m = [] ↔ c.Settled m) ↔ c.Mutual) := by
  refine ⟨c.clashes_eq_nil_iff, fun m h => clashes_eq_nil_of_settled h, fun h => ?_, fun h m => ?_⟩
  · exact mutual_of_settled fun m => (h m).mp
  · exact ⟨h.settled, clashes_eq_nil_of_settled⟩

/-- A fence takes the floor to its west, and the floor does not take the fence to its east. -/
theorem clean_beside_fence_unsettled :
    ¬ ((empty.registerAll [("fence", Signature.onAllSides .fence),
        ("floor", Signature.onAllSides .floor)]).clashes [["floor", "fence"]] = [] ↔
      (empty.registerAll [("fence", Signature.onAllSides .fence),
        ("floor", Signature.onAllSides .floor)]).Settled [["floor", "fence"]]) := by
  intro h
  have hfits := h.mp (by decide +kernel) 0 0 "floor" rfl
  exact absurd hfits (by decide +kernel)

end Catalog

end TileGrammar
