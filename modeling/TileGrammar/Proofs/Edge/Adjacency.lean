import Mathlib.Data.List.Basic
import TileGrammar.Proofs.Edge.SignatureIndex

/-!
# One table answers every question of placement

The table of neighborhoods, the search toward one side, the test of one place
and the scan for all placements read the same relation between signatures. A
face of a tile is the edge of its last signature with the codes of the table
of that edge, and the tile on the far side is read on the opposite side.
-/

set_option autoImplicit false

namespace TileGrammar

theorem Tile.ofSignature_fitsBeside (i j : String) (s t : Signature) (d : Direction) :
    (ofSignature i s).fitsBeside (ofSignature j t) d = Signature.fitsBeside s t d := by
  cases d <;> rfl

def Surroundings.only (d : Direction) (id : String) : Surroundings :=
  Sides.ofFn fun e => if e = d then some id else none

theorem Surroundings.get_only_eq_some_iff (d e : Direction) (id n : String) :
    (only d id).get e = some n ↔ e = d ∧ id = n := by
  rw [only, Sides.get_ofFn]
  by_cases h : e = d <;> simp [h]

namespace Catalog

theorem fitsSide_iff (c : Catalog) (t : Tile) (around : Surroundings) (d : Direction) :
    c.fitsSide t around d = true ↔
      ∀ n m, around.get d = some n → c.get? n = some m → t.fitsBeside m d = true := by
  unfold fitsSide
  cases around.get d with
  | none => simp
  | some n =>
    rw [Option.bind_some]
    constructor
    · rintro h n' m ⟨⟩ hm
      rwa [hm] at h
    · intro h
      cases hm : c.get? n with
      | none => rfl
      | some m => exact h n m rfl hm

theorem fits_iff (c : Catalog) (id : String) (around : Surroundings) :
    c.fits id around = true ↔ ∀ t, c.get? id = some t → ∀ d n m, around.get d = some n →
      c.get? n = some m → t.fitsBeside m d = true := by
  unfold fits
  cases c.get? id with
  | none => simp
  | some t => simp [Direction.mem_all, fitsSide_iff]

theorem fits_only_iff {c : Catalog} {a b : String} {t n : Tile} (ha : c.get? a = some t)
    (hb : c.get? b = some n) (d : Direction) :
    c.fits a (.only d b) = true ↔ t.fitsBeside n d = true := by
  rw [fits_iff]
  constructor
  · intro h
    exact h t ha d b n ((Surroundings.get_only_eq_some_iff d d b b).mpr ⟨rfl, rfl⟩) hb
  · intro h u hu e m k hm hk
    obtain ⟨rfl, rfl⟩ := (Surroundings.get_only_eq_some_iff d e b m).mp hm
    cases hu.symm.trans ha
    cases hk.symm.trans hb
    exact h

theorem mem_placements_iff (c : Catalog) (id : String) (around : Surroundings) :
    id ∈ c.placements around ↔ (∃ t, c.get? id = some t) ∧ c.fits id around = true := by
  rw [placements, List.mem_filter, mem_ids_iff]

theorem placements_ordered (c : Catalog) (around : Surroundings) :
    (c.placements around).Pairwise (· < ·) := c.tiles.keys_ordered.filter _

theorem placements_sublist (c : Catalog) {around wider : Surroundings}
    (h : ∀ d n, around.get d = some n → wider.get d = some n) :
    (c.placements wider).Sublist (c.placements around) := by
  refine List.monotone_filter_right _ fun id hfits => ?_
  rw [fits_iff] at hfits ⊢
  intro t ht d n m hn hm
  exact hfits t ht d n m (h d n hn) hm

theorem mem_compatibleToward_iff {c : Catalog} (hk : c.tiles.KeyedBy Tile.id) {a : String}
    {t : Tile} (ha : c.get? a = some t) (b : String) (d : Direction) :
    b ∈ c.compatibleToward a d ↔ ∃ n, c.get? b = some n ∧ t.fitsBeside n d = true := by
  simp only [compatibleToward, ha, List.mem_map, List.mem_filter, hk.mem_values_iff]
  constructor
  · rintro ⟨n, ⟨hn, hfits⟩, rfl⟩
    exact ⟨n, hn, hfits⟩
  · rintro ⟨n, hn, hfits⟩
    have hid := hk b n hn
    exact ⟨n, ⟨by rwa [hid], hfits⟩, hid⟩

theorem compatibleToward_ordered {c : Catalog} (hk : c.tiles.KeyedBy Tile.id) (a : String)
    (d : Direction) : (c.compatibleToward a d).Pairwise (· < ·) := by
  unfold compatibleToward
  cases c.get? a with
  | none => exact c.tiles.keys_ordered
  | some t => exact List.pairwise_map.mpr (hk.values_ordered.filter _)

theorem get?_adjacency (c : Catalog) (a : String) :
    c.adjacency.get? a = (c.get? a).map fun _ => Sides.ofFn (c.compatibleToward a) :=
  Dict.get?_mapEntries _ c.tiles a

theorem get?_adjacency_eq_some_iff (c : Catalog) (a : String) (row : Sides (List String)) :
    c.adjacency.get? a = some row ↔
      (∃ t, c.get? a = some t) ∧ Sides.ofFn (c.compatibleToward a) = row := by
  rw [get?_adjacency, Option.map_eq_some_iff]
  constructor
  · rintro ⟨t, ht, hrow⟩
    exact ⟨⟨t, ht⟩, hrow⟩
  · rintro ⟨⟨t, ht⟩, hrow⟩
    exact ⟨t, ht, hrow⟩

/-- A tile fits between some neighbors exactly when its row of the table has the registered ones. -/
theorem mem_placements_iff_row {c : Catalog} (hk : c.tiles.KeyedBy Tile.id) (id : String)
    (around : Surroundings) :
    id ∈ c.placements around ↔ ∃ row, c.adjacency.get? id = some row ∧
      ∀ d n, around.get d = some n → n ∈ c.ids → n ∈ row.get d := by
  simp only [mem_placements_iff, get?_adjacency_eq_some_iff, fits_iff]
  constructor
  · rintro ⟨⟨t, ht⟩, hfits⟩
    refine ⟨_, ⟨⟨t, ht⟩, rfl⟩, fun d n hn hid => ?_⟩
    obtain ⟨m, hm⟩ := (c.mem_ids_iff n).mp hid
    rw [Sides.get_ofFn, mem_compatibleToward_iff hk ht]
    exact ⟨m, hm, hfits t ht d n m hn hm⟩
  · rintro ⟨row, ⟨⟨t, ht⟩, rfl⟩, hrow⟩
    refine ⟨⟨t, ht⟩, fun u hu d n m hn hm => ?_⟩
    have hmem := hrow d n hn ((c.mem_ids_iff n).mpr ⟨m, hm⟩)
    rw [Sides.get_ofFn, mem_compatibleToward_iff hk hu] at hmem
    obtain ⟨k, hk, hfits⟩ := hmem
    cases hk.symm.trans hm
    exact hfits

/-- After any registrations: the table has a row for each registered tile and no other, with a list
in increasing order for each side. For two registered tiles the table, the search toward a side and
the test with one neighbor agree with what their last signatures say. The placements for given
neighbors are, in increasing order, the tiles whose rows have all of those that are registered, and
more neighbors leave fewer placements. -/
theorem adjacency_answers_placement (ts : List (String × Signature)) :
    let c := empty.registerAll ts
    (∀ a, a ∈ c.adjacency.keys ↔ a ∈ ts.map Prod.fst) ∧
    (∀ a, a ∈ c.ids ↔ a ∈ ts.map Prod.fst) ∧
    (∀ a row, c.adjacency.get? a = some row → ∀ d, (row.get d).Pairwise (· < ·)) ∧
    (∀ a b s t d, Dict.lastIn a ts = some s → Dict.lastIn b ts = some t →
      ∃ row, c.adjacency.get? a = some row ∧
        (b ∈ row.get d ↔ Signature.fitsBeside s t d = true) ∧
        (b ∈ c.compatibleToward a d ↔ Signature.fitsBeside s t d = true) ∧
        (c.fits a (.only d b) = true ↔ Signature.fitsBeside s t d = true)) ∧
    (∀ around, (c.placements around).Pairwise (· < ·) ∧
      ∀ a, a ∈ c.placements around ↔ ∃ row, c.adjacency.get? a = some row ∧
        ∀ d n, around.get d = some n → n ∈ c.ids → n ∈ row.get d) ∧
    ∀ around wider : Surroundings, (∀ d n, around.get d = some n → wider.get d = some n) →
      (c.placements wider).Sublist (c.placements around) := by
  intro c
  have hk : c.tiles.KeyedBy Tile.id := registerAll_keyed ts
  refine ⟨fun a => ?_, mem_ids_registerAll_iff ts, fun a row hrow d => ?_,
    fun a b s t d hs ht => ?_, fun around => ⟨c.placements_ordered around, fun a => ?_⟩,
    fun around wider h => c.placements_sublist h⟩
  · rw [adjacency, Dict.keys_mapEntries]
    exact mem_ids_registerAll_iff ts a
  · obtain ⟨-, rfl⟩ := (c.get?_adjacency_eq_some_iff a row).mp hrow
    rw [Sides.get_ofFn]
    exact compatibleToward_ordered hk a d
  · have ha : c.get? a = some (.ofSignature a s) := by rw [get?_registerAll, hs, Option.map_some]
    have hb : c.get? b = some (.ofSignature b t) := by rw [get?_registerAll, ht, Option.map_some]
    have htoward : b ∈ c.compatibleToward a d ↔ Signature.fitsBeside s t d = true := by
      rw [mem_compatibleToward_iff hk ha, hb]
      simp [Tile.ofSignature_fitsBeside]
    refine ⟨_, (c.get?_adjacency_eq_some_iff a _).mpr ⟨⟨_, ha⟩, rfl⟩, ?_, htoward, ?_⟩
    · rw [Sides.get_ofFn]
      exact htoward
    · rw [fits_only_iff ha hb, Tile.ofSignature_fitsBeside]
  · exact mem_placements_iff_row hk a around

end Catalog

end TileGrammar
