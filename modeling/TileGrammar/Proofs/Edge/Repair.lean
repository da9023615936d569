import TileGrammar.Proofs.Edge.Scan

/-!
# What a suggested tile changes

A suggestion for a place is a tile whose row of the table has all registered
tiles around the place. Put there, it changes one cell, and what is reported of
an edge depends on the two cells of the edge alone. So nothing is reported at
the place any more, and what is reported of an edge elsewhere stays as it was.
The tiles to the south and east are not asked whether they take the new one.
-/

set_option autoImplicit false

namespace TileGrammar

namespace TileMap

def put (m : TileMap) (x y : Nat) (t : String) : TileMap := m.modify y fun row => row.set x t

theorem cell?_put_self (m : TileMap) (x y : Nat) (t : String) :
    (m.put x y t).cell? x y = (m.cell? x y).map fun _ => t := by
  rw [cell?, cell?, put, List.getElem?_modify]
  cases m[y]? with
  | none => rfl
  | some row =>
    show (if y = y then row.set x t else row)[x]? = row[x]?.map fun _ => t
    rw [if_pos rfl, List.getElem?_set, if_pos rfl]
    by_cases hx : x < row.length
    · rw [if_pos hx, List.getElem?_eq_getElem hx, Option.map_some]
    · rw [if_neg hx, List.getElem?_eq_none (by omega), Option.map_none]

theorem cell?_put_of_ne {x y u v : Nat} (h : (x, y) ≠ (u, v)) (m : TileMap) (t : String) :
    (m.put x y t).cell? u v = m.cell? u v := by
  rw [cell?, cell?, put, List.getElem?_modify]
  cases m[v]? with
  | none => rfl
  | some row =>
    show (if y = v then row.set x t else row)[u]? = row[u]?
    by_cases hy : y = v
    · have hx : x ≠ u := fun hx => h (by rw [hx, hy])
      rw [if_pos hy, List.getElem?_set, if_neg hx]
    · rw [if_neg hy]

theorem cell?_put (m : TileMap) (x y : Nat) (t : String) (u v : Nat) :
    (m.put x y t).cell? u v =
      if (x, y) = (u, v) then (m.cell? x y).map fun _ => t else m.cell? u v := by
  by_cases h : (x, y) = (u, v)
  · obtain ⟨rfl, rfl⟩ := Prod.mk.inj h
    rw [if_pos rfl, cell?_put_self]
  · rw [if_neg h, cell?_put_of_ne h]

theorem beside?_put_of_ne {x y u v : Nat} {d : Direction} (h : (x, y) ≠ placeBeside u v d)
    (m : TileMap) (t : String) : (m.put x y t).beside? u v d = m.beside? u v d := by
  cases d with
  | north =>
    have hcell : (m.put x y t).cell? u (v - 1) = m.cell? u (v - 1) := cell?_put_of_ne h m t
    rw [beside?, beside?, hcell]
  | east => exact cell?_put_of_ne h m t
  | south => exact cell?_put_of_ne h m t
  | west =>
    have hcell : (m.put x y t).cell? (u - 1) v = m.cell? (u - 1) v := cell?_put_of_ne h m t
    rw [beside?, beside?, hcell]

theorem ne_placeBeside {x y : Nat} {d : Direction} (h : ¬ OnBorder x y d) :
    (x, y) ≠ placeBeside x y d := by
  cases d <;> simp only [OnBorder, placeBeside, ne_eq, Prod.mk.injEq] at * <;> omega

theorem beside?_put_self (m : TileMap) (x y : Nat) (t : String) (d : Direction) :
    (m.put x y t).beside? x y d = m.beside? x y d := by
  by_cases h : OnBorder x y d
  · rw [beside?_of_onBorder h, beside?_of_onBorder h]
  · exact beside?_put_of_ne (ne_placeBeside h) m t

end TileMap

namespace Catalog

variable {c : Catalog} {m : TileMap} {x y : Nat} {t : String}

theorem mem_suggestions_iff_row (hk : c.tiles.KeyedBy Tile.id) :
    t ∈ c.suggestions m x y ↔ t ∈ c.ids ∧ ∀ d n, m.beside? x y d = some n → n ∈ c.ids →
      ∃ row, c.adjacency.get? t = some row ∧ n ∈ row.get d := by
  have haround : ∀ d, (m.around x y).get d = m.beside? x y d := by
    intro d
    rw [TileMap.around, Sides.get_ofFn]
  simp only [suggestions, mem_placements_iff_row hk, haround, mem_ids_iff,
    get?_adjacency_eq_some_iff]
  constructor
  · rintro ⟨row, ⟨⟨tile, ht⟩, rfl⟩, hrow⟩
    exact ⟨⟨tile, ht⟩, fun d n hn hid => ⟨_, ⟨⟨tile, ht⟩, rfl⟩, hrow d n hn hid⟩⟩
  · rintro ⟨⟨tile, ht⟩, hall⟩
    refine ⟨_, ⟨⟨tile, ht⟩, rfl⟩, fun d n hn hid => ?_⟩
    obtain ⟨row, ⟨-, rfl⟩, hmem⟩ := hall d n hn hid
    exact hmem

theorem not_refuses_of_mem_suggestions (h : t ∈ c.suggestions m x y) {d : Direction} {n : String}
    (hn : m.beside? x y d = some n) : ¬ c.Refuses t d n := by
  rintro ⟨tile, k, ht, hk, hfits⟩
  have hplaced := ((c.mem_placements_iff t (m.around x y)).mp h).2
  have haround : (m.around x y).get d = some n := by rw [TileMap.around, Sides.get_ofFn, hn]
  cases hfits.symm.trans ((c.fits_iff t _).mp hplaced tile ht d n k haround hk)

theorem no_clash_at_suggested (h : t ∈ c.suggestions m x y) {v : Clash}
    (hv : v ∈ c.clashes (m.put x y t)) : (v.x, v.y) ≠ (x, y) := by
  obtain ⟨-, hcell, hbeside, hrefuses⟩ := (c.mem_clashes_iff_refuses _ v).mp hv
  intro hplace
  obtain ⟨rfl, rfl⟩ := Prod.mk.inj hplace
  rw [TileMap.cell?_put_self] at hcell
  obtain ⟨old, -, htile⟩ := Option.map_eq_some_iff.mp hcell
  rw [TileMap.beside?_put_self] at hbeside
  rw [← htile] at hrefuses
  exact not_refuses_of_mem_suggestions h hbeside hrefuses

/-- What is reported of an edge does not change with a cell away from it. -/
theorem mem_clashes_put_iff {v : Clash} (h : (x, y) ∉ v.edge) :
    v ∈ c.clashes (m.put x y t) ↔ v ∈ c.clashes m := by
  obtain ⟨hcell, hbeside⟩ := not_or.mp (h ∘ Sym2.mem_iff.mpr)
  rw [mem_clashes_iff_refuses, mem_clashes_iff_refuses, TileMap.cell?_put_of_ne hcell,
    TileMap.beside?_put_of_ne hbeside]

/-- After any registrations and for any map and place: what is suggested are, in increasing order,
the registered tiles whose rows of the table have the registered neighbors on each side where there
is one. With a suggested tile in its place nothing is reported at the place, and of every edge that
does not end there the same is reported as before. -/
theorem suggestions_clear_place (ts : List (String × Signature)) (m : TileMap) (x y : Nat) :
    let c := empty.registerAll ts
    (∀ t, t ∈ c.suggestions m x y ↔ t ∈ c.ids ∧ ∀ d n, m.beside? x y d = some n → n ∈ c.ids →
      ∃ row, c.adjacency.get? t = some row ∧ n ∈ row.get d) ∧
    (c.suggestions m x y).Pairwise (· < ·) ∧
    (∀ t u v, (m.put x y t).cell? u v =
      if (x, y) = (u, v) then (m.cell? x y).map fun _ => t else m.cell? u v) ∧
    ∀ t ∈ c.suggestions m x y,
      (∀ v ∈ c.clashes (m.put x y t), (v.x, v.y) ≠ (x, y)) ∧
      ∀ v : Clash, (x, y) ∉ v.edge → (v ∈ c.clashes (m.put x y t) ↔ v ∈ c.clashes m) := by
  intro c
  refine ⟨fun t => mem_suggestions_iff_row (registerAll_keyed ts), c.placements_ordered _,
    fun t => m.cell?_put x y t, fun t ht => ⟨fun v hv => ?_, fun v hv => ?_⟩⟩
  · exact no_clash_at_suggested ht hv
  · exact mem_clashes_put_iff hv

theorem suggestions_clear_place_middle :
    let c := empty.registerAll [("floor", Signature.onAllSides .floor),
      ("wall", Signature.onAllSides .solid)]
    let m := [["floor", "floor", "floor"], ["floor", "wall", "floor"], ["wall", "floor", "floor"]]
    "floor" ∈ c.suggestions m 1 1 ∧
      (∀ v ∈ c.clashes (TileMap.put m 1 1 "floor"), (v.x, v.y) ≠ (1, 1)) ∧
      ⟨1, 2, .west, "floor", "wall"⟩ ∈ c.clashes (TileMap.put m 1 1 "floor") := by
  intro c m
  have hfloor : "floor" ∈ c.suggestions m 1 1 := by decide +kernel
  obtain ⟨-, -, -, hclear⟩ := suggestions_clear_place [("floor", Signature.onAllSides .floor),
    ("wall", Signature.onAllSides .solid)] m 1 1
  obtain ⟨hnone, hsame⟩ := hclear "floor" hfloor
  refine ⟨hfloor, hnone, ?_⟩
  apply (hsame ⟨1, 2, .west, "floor", "wall"⟩ (by decide)).mpr
  decide +kernel

end Catalog

end TileGrammar
