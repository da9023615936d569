import Mathlib.Data.Sym.Sym2
import TileGrammar.Proofs.Edge.MapCheck
import TileGrammar.Proofs.Order.Traversal

/-!
# What the check of a map reports

The check goes through a map row by row and reports, at each cell, a registered
neighbor to the north or to the west that is not in the list of the table for
that side. The reports stand in the order of the check, so none stands twice,
and as each edge is looked at from one of its cells alone, no edge is reported
twice. Rows may be of any lengths: the row to the north is always there, and a
cell of it that is missing is no neighbor.
-/

set_option autoImplicit false

namespace TileGrammar

namespace TileMap

/-- The place next to a place. On the north and west border there is none, and what is given there
has no meaning. -/
def placeBeside (x y : Nat) : Direction → Nat × Nat
  | .north => (x, y - 1)
  | .east => (x + 1, y)
  | .south => (x, y + 1)
  | .west => (x - 1, y)

def OnBorder (x y : Nat) : Direction → Prop
  | .north => y = 0
  | .west => x = 0
  | .east | .south => False

theorem beside?_of_onBorder {x y : Nat} {d : Direction} (h : OnBorder x y d) (m : TileMap) :
    m.beside? x y d = none := by
  cases d with
  | north => exact if_pos h
  | west => exact if_pos h
  | east => exact absurd h id
  | south => exact absurd h id

theorem not_onBorder_of_beside? {m : TileMap} {x y : Nat} {d : Direction} {n : String}
    (h : m.beside? x y d = some n) : ¬ OnBorder x y d := by
  intro hborder
  rw [beside?_of_onBorder hborder] at h
  cases h

def fetchRow (m : TileMap) (y : Nat) : Except Error (List String) := orFail .outOfRange m[y]?

def fetchNorth (m : TileMap) (x y : Nat) : Except Error (Option String) :=
  if y = 0 then .ok none else (m.fetchRow (y - 1)).map fun above => above[x]?

theorem fetchNorth_eq {m : TileMap} {row : List String} {y : Nat} (h : m[y]? = some row)
    (x : Nat) : m.fetchNorth x y = .ok (m.beside? x y .north) := by
  rw [fetchNorth, beside?]
  by_cases hy : y = 0
  · rw [if_pos hy, if_pos hy]
  · obtain ⟨hlt, -⟩ := List.getElem?_eq_some_iff.mp h
    have habove : m[y - 1]? = some m[y - 1] := List.getElem?_eq_getElem (by omega)
    rw [if_neg hy, if_neg hy, fetchRow, cell?, habove]
    rfl

end TileMap

namespace Clash

/-- The order of the check: by rows, in a row by columns, and at a cell the north before the
west. -/
def Before (v w : Clash) : Prop :=
  v.y < w.y ∨ v.y = w.y ∧
    (v.x < w.x ∨ v.x = w.x ∧ v.direction = .north ∧ w.direction = .west)

def edge (v : Clash) : Sym2 (Nat × Nat) :=
  s((v.x, v.y), TileMap.placeBeside v.x v.y v.direction)

def LooksBack (v : Clash) : Prop :=
  (v.direction = .north ∨ v.direction = .west) ∧ ¬ TileMap.OnBorder v.x v.y v.direction

/-- An edge that is looked at from its southern or eastern cell is not looked at again. -/
theorem Before.edge_ne {v w : Clash} (h : v.Before w) (hv : v.LooksBack) (hw : w.LooksBack) :
    v.edge ≠ w.edge := by
  obtain ⟨x, y, d, a, b⟩ := v
  obtain ⟨x', y', d', a', b'⟩ := w
  obtain ⟨hd, hborder⟩ := hv
  obtain ⟨hd', hborder'⟩ := hw
  simp only [Before, edge] at *
  rcases hd with rfl | rfl <;> rcases hd' with rfl | rfl <;>
    simp only [TileMap.OnBorder, TileMap.placeBeside, ne_eq, Sym2.eq_iff, Prod.mk.injEq,
      reduceCtorEq, and_true, and_false, or_false] at * <;>
    omega

end Clash

namespace Catalog

theorem cellClashes_ordered (c : Catalog) (m : TileMap) (x y : Nat) (id : String) :
    (c.cellClashes m x y id).Pairwise Clash.Before := by
  unfold cellClashes
  cases c.get? id with
  | none => exact List.Pairwise.nil
  | some t =>
    have hsides : [Direction.north, Direction.west].Pairwise fun d e => d = .north ∧ e = .west := by
      decide
    apply hsides.filterMap
    rintro d e ⟨rfl, rfl⟩ v hv w hw
    obtain ⟨n, k, -, -, -, rfl⟩ := (c.clashToward_eq_some_iff m x y id t _ _).mp hv
    obtain ⟨n', k', -, -, -, rfl⟩ := (c.clashToward_eq_some_iff m x y id t _ _).mp hw
    exact Or.inr ⟨rfl, Or.inr ⟨rfl, rfl, rfl⟩⟩

theorem place_of_mem_cellClashes {c : Catalog} {m : TileMap} {x y : Nat} {id : String} {v : Clash}
    (h : v ∈ c.cellClashes m x y id) : v.x = x ∧ v.y = y := by
  obtain ⟨t, d, n, k, -, -, -, -, rfl⟩ := (c.mem_cellClashes_iff m x y id v).mp h
  exact ⟨rfl, rfl⟩

theorem place_of_mem_rowClashes {c : Catalog} {m : TileMap} {y x : Nat} {row : List String}
    {v : Clash} (h : v ∈ c.rowClashes m y x row) : x ≤ v.x ∧ v.y = y := by
  induction row generalizing x with
  | nil => cases h
  | cons id row ih =>
    rcases List.mem_append.mp h with h | h
    · obtain ⟨hx, hy⟩ := place_of_mem_cellClashes h
      exact ⟨by omega, hy⟩
    · obtain ⟨hx, hy⟩ := ih h
      exact ⟨by omega, hy⟩

theorem rowClashes_ordered (c : Catalog) (m : TileMap) (y x : Nat) (row : List String) :
    (c.rowClashes m y x row).Pairwise Clash.Before := by
  induction row generalizing x with
  | nil => exact List.Pairwise.nil
  | cons id row ih =>
    rw [rowClashes, List.pairwise_append]
    refine ⟨c.cellClashes_ordered m x y id, ih (x + 1), fun v hv w hw => ?_⟩
    obtain ⟨hvx, hvy⟩ := place_of_mem_cellClashes hv
    obtain ⟨hwx, hwy⟩ := place_of_mem_rowClashes hw
    exact Or.inr ⟨by omega, Or.inl (by omega)⟩

theorem row_of_mem_clashesFrom {c : Catalog} {m : TileMap} {y : Nat} {rows : TileMap} {v : Clash}
    (h : v ∈ c.clashesFrom m y rows) : y ≤ v.y := by
  induction rows generalizing y with
  | nil => cases h
  | cons row rows ih =>
    rcases List.mem_append.mp h with h | h
    · exact (place_of_mem_rowClashes h).2.ge
    · have hy := ih h
      omega

theorem clashesFrom_ordered (c : Catalog) (m : TileMap) (y : Nat) (rows : TileMap) :
    (c.clashesFrom m y rows).Pairwise Clash.Before := by
  induction rows generalizing y with
  | nil => exact List.Pairwise.nil
  | cons row rows ih =>
    rw [clashesFrom, List.pairwise_append]
    refine ⟨c.rowClashes_ordered m y 0 row, ih (y + 1), fun v hv w hw => ?_⟩
    have hvy := (place_of_mem_rowClashes hv).2
    have hwy := row_of_mem_clashesFrom hw
    exact Or.inl (by omega)

theorem clashes_ordered (c : Catalog) (m : TileMap) : (c.clashes m).Pairwise Clash.Before :=
  c.clashesFrom_ordered m 0 m

/-- Both tiles are registered, and the second one may not lie on that side of the first one. -/
def Refuses (c : Catalog) (a : String) (d : Direction) (b : String) : Prop :=
  ∃ t k, c.get? a = some t ∧ c.get? b = some k ∧ t.fitsBeside k d = false

theorem mem_clashes_iff_refuses (c : Catalog) (m : TileMap) (v : Clash) :
    v ∈ c.clashes m ↔ (v.direction = .north ∨ v.direction = .west) ∧
      m.cell? v.x v.y = some v.tile ∧ m.beside? v.x v.y v.direction = some v.neighbor ∧
      c.Refuses v.tile v.direction v.neighbor := by
  simp only [mem_clashes_iff, mem_cellClashes_iff, TileMap.get_northWest_eq_some_iff]
  constructor
  · rintro ⟨x, y, id, hid, t, d, n, k, ht, ⟨hd, hn⟩, hk, hfits, rfl⟩
    exact ⟨hd, hid, hn, t, k, ht, hk, hfits⟩
  · rintro ⟨hd, hid, hn, t, k, ht, hk, hfits⟩
    exact ⟨v.x, v.y, v.tile, hid, t, v.direction, v.neighbor, k, ht, ⟨hd, hn⟩, hk, hfits, rfl⟩

theorem looksBack_of_mem_clashes {c : Catalog} {m : TileMap} {v : Clash} (h : v ∈ c.clashes m) :
    v.LooksBack := by
  obtain ⟨hd, -, hn, -⟩ := (c.mem_clashes_iff_refuses m v).mp h
  exact ⟨hd, TileMap.not_onBorder_of_beside? hn⟩

theorem nodup_edges (c : Catalog) (m : TileMap) : ((c.clashes m).map Clash.edge).Nodup := by
  apply List.pairwise_map.mpr
  apply (c.clashes_ordered m).imp_of_mem
  intro v w hv hw h
  exact h.edge_ne (looksBack_of_mem_clashes hv) (looksBack_of_mem_clashes hw)

theorem refuses_iff_row {c : Catalog} (hk : c.tiles.KeyedBy Tile.id) (a b : String)
    (d : Direction) : c.Refuses a d b ↔
      a ∈ c.ids ∧ b ∈ c.ids ∧ ∃ row, c.adjacency.get? a = some row ∧ b ∉ row.get d := by
  simp only [mem_ids_iff, get?_adjacency_eq_some_iff]
  constructor
  · rintro ⟨t, n, ht, hn, hfits⟩
    refine ⟨⟨t, ht⟩, ⟨n, hn⟩, _, ⟨⟨t, ht⟩, rfl⟩, fun hmem => ?_⟩
    rw [Sides.get_ofFn, mem_compatibleToward_iff hk ht] at hmem
    obtain ⟨n', hn', hfits'⟩ := hmem
    cases hn.symm.trans hn'
    cases hfits.symm.trans hfits'
  · rintro ⟨⟨t, ht⟩, ⟨n, hn⟩, row, ⟨-, rfl⟩, hmem⟩
    rw [Sides.get_ofFn, mem_compatibleToward_iff hk ht] at hmem
    refine ⟨t, n, ht, hn, ?_⟩
    by_contra hfits
    exact hmem ⟨n, hn, by simpa using hfits⟩

theorem filterMap_pair {α β : Type} (f : α → Option β) (a b : α) :
    [a, b].filterMap f = (f a).toList ++ (f b).toList := by
  cases ha : f a <;> cases hb : f b <;> simp [ha, hb]

def clashWith (c : Catalog) (x y : Nat) (id : String) (t : Tile) (d : Direction)
    (neighbor : String) : Option Clash :=
  match c.get? neighbor with
  | none => none
  | some n => if t.fitsBeside n d then none else some ⟨x, y, d, id, neighbor⟩

theorem clashToward_eq (c : Catalog) (m : TileMap) (x y : Nat) (id : String) (t : Tile)
    (d : Direction) :
    c.clashToward m x y id t d = (m.beside? x y d).bind (c.clashWith x y id t d) := by
  unfold clashToward
  cases m.beside? x y d <;> rfl

def fetchCellClashes (c : Catalog) (m : TileMap) (row : List String) (y x : Nat) (id : String) :
    Except Error (List Clash) :=
  match c.get? id with
  | none => .ok []
  | some t =>
    let west := if x = 0 then none else row[x - 1]?
    (m.fetchNorth x y).map fun north =>
      (north.bind (c.clashWith x y id t .north)).toList ++
        (west.bind (c.clashWith x y id t .west)).toList

/-- The check of a map with all of its fetches, any of which might fail. -/
def fetchClashes (c : Catalog) (m : TileMap) : Except Error (List Clash) :=
  (m.zipIdx.mapM fun (r : List String × Nat) => (r.1.zipIdx.mapM fun e =>
    c.fetchCellClashes m r.1 r.2 e.2 e.1).map List.flatten).map List.flatten

theorem fetchCellClashes_eq {m : TileMap} {row : List String} {y : Nat} (h : m[y]? = some row)
    (c : Catalog) (x : Nat) (id : String) :
    c.fetchCellClashes m row y x id = .ok (c.cellClashes m x y id) := by
  have hwest : (if x = 0 then none else row[x - 1]?) = m.beside? x y .west := by
    rw [TileMap.beside?, TileMap.cell?, h]
    rfl
  unfold fetchCellClashes cellClashes
  cases c.get? id with
  | none => rfl
  | some t =>
    simp only [TileMap.fetchNorth_eq h, hwest, filterMap_pair, clashToward_eq]
    rfl

theorem fetchClashes_eq (c : Catalog) (m : TileMap) : c.fetchClashes m = .ok (c.clashes m) := by
  have hrows : ∀ r ∈ m.zipIdx, (r.1.zipIdx.mapM fun e =>
      c.fetchCellClashes m r.1 r.2 e.2 e.1).map List.flatten = .ok (c.rowClashes m r.2 0 r.1) := by
    intro r hr
    have hrow : m[r.2]? = some r.1 := List.mk_mem_zipIdx_iff_getElem?.mp hr
    rw [rowClashes_eq]
    exact flatten_mapM_eq_ok fun e _ => fetchCellClashes_eq hrow c e.2 e.1
  rw [fetchClashes, flatten_mapM_eq_ok hrows, clashes, clashesFrom_eq]

/-- The check of a map of any shape, after any registrations, reports a cell towards its north or
west exactly where a neighbor is there, both tiles are registered, and the neighbor is not in the
list of the table for that side of the tile. The reports stand by rows, in a row by columns, and
north before west. No edge is reported twice, and no row is fetched that is not there. -/
theorem clashes_report_refused_neighbors (ts : List (String × Signature)) (m : TileMap) :
    let c := empty.registerAll ts
    (∀ v : Clash, v ∈ c.clashes m ↔ (v.direction = .north ∨ v.direction = .west) ∧
      m.cell? v.x v.y = some v.tile ∧ m.beside? v.x v.y v.direction = some v.neighbor ∧
      v.tile ∈ c.ids ∧ v.neighbor ∈ c.ids ∧
      ∃ row, c.adjacency.get? v.tile = some row ∧ v.neighbor ∉ row.get v.direction) ∧
    (c.clashes m).Pairwise Clash.Before ∧
    ((c.clashes m).map Clash.edge).Nodup ∧
    c.fetchClashes m = .ok (c.clashes m) := by
  intro c
  have hk : c.tiles.KeyedBy Tile.id := registerAll_keyed ts
  refine ⟨fun v => ?_, c.clashes_ordered m, c.nodup_edges m, c.fetchClashes_eq m⟩
  rw [mem_clashes_iff_refuses, refuses_iff_row hk]

example : (empty.registerAll [("floor", Signature.onAllSides .floor),
    ("wall", Signature.onAllSides .solid)]).clashes [["wall", "wall", "wall"], ["ghost", "floor"]] =
      [⟨1, 1, .north, "floor", "wall"⟩] := by
  decide +kernel

end Catalog

end TileGrammar
