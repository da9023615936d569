import Mathlib.Data.List.Dedup
import Mathlib.Data.List.Induction
import TileGrammar.Edge.Catalog
import TileGrammar.Proofs.Order.Overlay

/-!
# A catalog follows the last registrations

A run of registrations lays its tiles over those of the catalog, so a tile is
found with the signature that it was registered with last, under its own id.
The tiles of a catalog and its index by signature say the same: under each
signature the index has the tiles that came to it last, in the order in which
they came, and it has no entry for a signature that no tile carries. A
registration takes a tile out of one entry and puts it at the end of another
or of the same one, so each step is followed entry by entry.
-/

set_option autoImplicit false

namespace TileGrammar

namespace Catalog

theorem tiles_registerAll (c : Catalog) (ts : List (String × Signature)) :
    (c.registerAll ts).tiles =
      c.tiles.insertAll (ts.map fun t => (t.1, Tile.ofSignature t.1 t.2)) := by
  induction ts generalizing c with
  | nil => rfl
  | cons t ts ih =>
    have hrun : c.registerAll (t :: ts) = (c.register t.1 t.2).registerAll ts := rfl
    rw [hrun, ih]
    rfl

theorem get?_registerAll (ts : List (String × Signature)) (id : String) :
    (empty.registerAll ts).get? id = (Dict.lastIn id ts).map (Tile.ofSignature id) := by
  rw [get?, tiles_registerAll, Dict.get?_insertAll, Dict.lastIn_map]
  exact Option.or_none

theorem get?_eq_some_iff_last (ts : List (String × Signature)) (id : String) (t : Tile) :
    (empty.registerAll ts).get? id = some t ↔
      ∃ s, Dict.lastIn id ts = some s ∧ Tile.ofSignature id s = t := by
  rw [get?_registerAll, Option.map_eq_some_iff]

theorem registerAll_keyed (ts : List (String × Signature)) :
    (empty.registerAll ts).tiles.KeyedBy Tile.id := by
  intro id t ht
  obtain ⟨s, -, rfl⟩ := (get?_eq_some_iff_last ts id t).mp ht
  rfl

theorem mem_ids_iff (c : Catalog) (id : String) : id ∈ c.ids ↔ ∃ t, c.get? id = some t :=
  c.tiles.mem_keys_iff id

theorem mem_ids_registerAll_iff (ts : List (String × Signature)) (id : String) :
    id ∈ (empty.registerAll ts).ids ↔ id ∈ ts.map Prod.fst := by
  simp only [mem_ids_iff, get?_registerAll, ← Dict.exists_lastIn_iff, Option.map_eq_some_iff]
  constructor
  · rintro ⟨-, s, hs, -⟩
    exact ⟨s, hs⟩
  · rintro ⟨s, hs⟩
    exact ⟨_, s, hs, rfl⟩

end Catalog

theorem dedup_concat {α : Type} [DecidableEq α] (xs : List α) (x : α) :
    (xs ++ [x]).dedup = xs.dedup.filter (· ≠ x) ++ [x] := by
  induction xs with
  | nil => rfl
  | cons y xs ih =>
    rw [List.cons_append, List.dedup_cons, List.dedup_cons, ih]
    by_cases hx : y = x
    · subst hx
      by_cases hy : y ∈ xs <;> simp [hy]
    · by_cases hy : y ∈ xs <;> simp [hy, hx]

theorem Signature.digit_injective : Function.Injective digit := by
  intro c d h
  revert h
  cases c <;> cases d <;> decide

theorem Signature.text_injective : Function.Injective text := by
  intro s t h
  have hdigits : s.toList.map digit = t.toList.map digit := String.ofList_injective h
  have hcodes : s.toList = t.toList := digit_injective.list_map hdigits
  obtain ⟨n, e, so, w⟩ := s
  obtain ⟨n', e', so', w'⟩ := t
  simpa [Sides.toList] using hcodes

namespace Catalog

/-- The tiles whose last signature is the given one, in the order of their last registrations. -/
def bearers (ts : List (String × Signature)) (s : Signature) : List String :=
  (ts.map Prod.fst).dedup.filter fun id => Dict.lastIn id ts = some s

theorem mem_bearers_iff (ts : List (String × Signature)) (s : Signature) (id : String) :
    id ∈ bearers ts s ↔ Dict.lastIn id ts = some s := by
  simp only [bearers, List.mem_filter, List.mem_dedup, decide_eq_true_eq, and_iff_right_iff_imp]
  intro h
  exact (Dict.exists_lastIn_iff id ts).mp ⟨s, h⟩

theorem lastIn_concat (ts : List (String × Signature)) (id j : String) (s : Signature) :
    Dict.lastIn j (ts ++ [(id, s)]) = if id = j then some s else Dict.lastIn j ts := by
  rw [Dict.lastIn_append]
  by_cases h : id = j <;> simp [Dict.lastIn, Dict.lookupIn, h]

theorem bearers_concat (ts : List (String × Signature)) (id : String) (s t : Signature) :
    bearers (ts ++ [(id, s)]) t =
      (bearers ts t).filter (· ≠ id) ++ if s = t then [id] else [] := by
  rw [bearers, List.map_append, List.map_singleton, dedup_concat, List.filter_append,
    List.filter_filter, bearers, List.filter_filter]
  congr 1
  · refine List.filter_congr fun j _ => ?_
    by_cases h : j = id
    · simp [h]
    · simp [lastIn_concat, h, Ne.symm h]
  · by_cases h : s = t <;> simp [lastIn_concat, h]

def entryOf (listed : List String) : Option (List String) :=
  if listed = [] then none else some listed

theorem getD_entryOf (listed : List String) : (entryOf listed).getD [] = listed := by
  by_cases h : listed = [] <;> simp [entryOf, h]

theorem entryOf_eq_some_iff (listed found : List String) :
    entryOf listed = some found ↔ listed = found ∧ found ≠ [] := by
  by_cases h : listed = []
  · simp [entryOf, h, eq_comm]
  · simp only [entryOf, h, if_false, Option.some.injEq]
    constructor
    · rintro rfl
      exact ⟨rfl, h⟩
    · rintro ⟨rfl, -⟩
      rfl

/-- The index has just the tiles that are listed for each signature, and nothing else. -/
structure Lists (index : Dict (List String)) (listed : Signature → List String) : Prop where
  entry : ∀ s, index.get? s.text = entryOf (listed s)
  no_other : ∀ k, (∀ s, Signature.text s ≠ k) → index.get? k = none

section

variable {index : Dict (List String)} {listed : Signature → List String}

theorem get?_unlist (id : String) (s : Signature) (k : String) :
    (unlist id s index).get? k =
      if s.text = k then (index.get? k).bind fun l => entryOf (l.filter (· ≠ id))
      else index.get? k := by
  unfold unlist
  cases h : index.get? s.text with
  | none =>
    by_cases hk : s.text = k
    · simp [← hk, h]
    · simp [hk]
  | some l =>
    simp only [List.isEmpty_iff]
    by_cases hl : l.filter (· ≠ id) = []
    · rw [if_pos hl, Dict.get?_erase]
      by_cases hk : s.text = k
      · rw [if_pos hk, if_pos hk, ← hk, h, Option.bind_some, entryOf, if_pos hl]
      · rw [if_neg hk, if_neg hk]
    · rw [if_neg hl, Dict.get?_insert]
      by_cases hk : s.text = k
      · rw [if_pos hk, if_pos hk, ← hk, h, Option.bind_some, entryOf, if_neg hl]
      · rw [if_neg hk, if_neg hk]

theorem Lists.unlist (h : Lists index listed) {id : String} {s : Signature}
    (honly : ∀ t, id ∈ listed t → t = s) :
    Lists (Catalog.unlist id s index) fun t => (listed t).filter (· ≠ id) where
  entry t := by
    rw [get?_unlist, h.entry]
    by_cases ht : s = t
    · subst ht
      by_cases hl : listed s = [] <;> simp [entryOf, hl]
    · have hne : s.text ≠ t.text := fun e => ht (Signature.text_injective e)
      have hout : id ∉ listed t := fun hid => ht (honly t hid).symm
      have hself : (listed t).filter (· ≠ id) = listed t := by
        rw [List.filter_eq_self]
        intro j hj
        have hji : j ≠ id := fun e => hout (e ▸ hj)
        simpa using hji
      rw [if_neg hne, hself]
  no_other k hk := by
    rw [get?_unlist, if_neg (hk s), h.no_other k hk]

theorem Lists.enlist (h : Lists index listed) (id : String) (s : Signature) :
    Lists (Catalog.enlist id s index) fun t => listed t ++ if s = t then [id] else [] where
  entry t := by
    rw [Catalog.enlist, Dict.get?_insert, h.entry, h.entry, getD_entryOf]
    by_cases ht : s = t
    · simp [ht, entryOf]
    · have hne : s.text ≠ t.text := fun e => ht (Signature.text_injective e)
      simp [ht, hne]
  no_other k hk := by
    rw [Catalog.enlist, Dict.get?_insert, if_neg (hk s), h.no_other k hk]

end

/-- The index after one more registration, where the catalog stands as the others left it. -/
theorem register_lists {c : Catalog} {ts : List (String × Signature)}
    (hc : ∀ id, c.get? id = (Dict.lastIn id ts).map (Tile.ofSignature id))
    (h : Lists c.bySignature (bearers ts)) (id : String) (s : Signature) :
    Lists (c.register id s).bySignature (bearers (ts ++ [(id, s)])) := by
  have hfree : Lists ((c.tiles.get? id).elim c.bySignature
      fun previous => unlist id previous.signature c.bySignature)
      fun t => (bearers ts t).filter (· ≠ id) := by
    have hid : c.tiles.get? id = (Dict.lastIn id ts).map (Tile.ofSignature id) := hc id
    cases hlast : Dict.lastIn id ts with
    | some p =>
      rw [hid, hlast]
      refine h.unlist fun t ht => ?_
      have htp : some p = some t := hlast ▸ (mem_bearers_iff ts t id).mp ht
      exact (Option.some.inj htp).symm
    | none =>
      -- A tile that was never registered stands under no signature.
      have hout : ∀ t, (bearers ts t).filter (· ≠ id) = bearers ts t := by
        intro t
        rw [List.filter_eq_self]
        intro j hj
        have hji : j ≠ id := by
          rintro rfl
          rw [mem_bearers_iff, hlast] at hj
          cases hj
        simpa using hji
      rw [hid, hlast]
      simp only [hout]
      exact h
  have hput := hfree.enlist id s
  simp only [← bearers_concat] at hput
  have hindex : (c.register id s).bySignature = enlist id s ((c.tiles.get? id).elim c.bySignature
      fun previous => unlist id previous.signature c.bySignature) := by
    unfold register
    cases c.tiles.get? id <;> rfl
  rw [hindex]
  exact hput

theorem registerAll_lists (ts : List (String × Signature)) :
    Lists (empty.registerAll ts).bySignature (bearers ts) := by
  induction ts using List.reverseRecOn with
  | nil => exact ⟨fun s => rfl, fun k _ => rfl⟩
  | append_singleton ts t ih =>
    rw [registerAll_append]
    exact register_lists (get?_registerAll ts) ih t.1 t.2

theorem withSignature_registerAll (ts : List (String × Signature)) (s : Signature) :
    (empty.registerAll ts).withSignature s = bearers ts s := by
  rw [withSignature, (registerAll_lists ts).entry, getD_entryOf]

theorem Lists.get?_eq_some_iff {index : Dict (List String)} {listed : Signature → List String}
    (h : Lists index listed) (k : String) (l : List String) :
    index.get? k = some l ↔ ∃ s, Signature.text s = k ∧ listed s = l ∧ l ≠ [] := by
  constructor
  · intro hl
    by_cases hk : ∃ s, Signature.text s = k
    · obtain ⟨s, rfl⟩ := hk
      rw [h.entry, entryOf_eq_some_iff] at hl
      exact ⟨s, rfl, hl⟩
    · rw [h.no_other k (by simpa using hk)] at hl
      cases hl
  · rintro ⟨s, rfl, hl⟩
    rw [h.entry, entryOf_eq_some_iff]
    exact hl

theorem size_registerAll (ts : List (String × Signature)) :
    (empty.registerAll ts).size = (ts.map Prod.fst).dedup.length := by
  have hkeys : (empty.registerAll ts).tiles.keys.Nodup :=
    (Dict.keys_ordered _).imp fun h => String.ne_of_lt h
  have hperm : (empty.registerAll ts).tiles.keys.Perm (ts.map Prod.fst).dedup := by
    rw [List.perm_ext_iff_of_nodup hkeys (List.nodup_dedup _)]
    intro id
    rw [List.mem_dedup]
    exact mem_ids_registerAll_iff ts id
  rw [← hperm.length_eq, Dict.keys, List.length_map]
  rfl

/-- After any registrations a tile is found with the signature that it was given last, and each of
its faces has the edge of that signature with the codes of the table. The size counts the different
tiles. Under a signature stand the tiles that it was given to last, each once and in that order, and
the entries of the index are those of the signatures that some tile carries. -/
theorem index_follows_last_registrations (ts : List (String × Signature)) :
    let c := empty.registerAll ts
    (∀ id, c.get? id = none ↔ id ∉ ts.map Prod.fst) ∧
    (∀ id s, Dict.lastIn id ts = some s → ∃ t, c.get? id = some t ∧ t.id = id ∧ t.signature = s ∧
      ∀ d, t.faces.get d = ⟨d, Sides.get s d, (Sides.get s d).compatible⟩) ∧
    c.size = (ts.map Prod.fst).dedup.length ∧
    (∀ s, c.withSignature s = (ts.map Prod.fst).dedup.filter fun id => Dict.lastIn id ts = some s) ∧
    (∀ s, (c.withSignature s).Nodup ∧ ∀ id, id ∈ c.withSignature s ↔ Dict.lastIn id ts = some s) ∧
    ∀ k l, c.bySignature.get? k = some l ↔
      ∃ s, Signature.text s = k ∧ c.withSignature s = l ∧ l ≠ [] := by
  intro c
  refine ⟨fun id => ?_, fun id s hs => ?_, size_registerAll ts, withSignature_registerAll ts,
    fun s => ?_, fun k l => ?_⟩
  · rw [← Dict.exists_lastIn_iff, get?_registerAll]
    cases Dict.lastIn id ts <;> simp
  · refine ⟨.ofSignature id s, by rw [get?_registerAll, hs, Option.map_some], rfl, rfl, fun d => ?_⟩
    rw [Tile.ofSignature, Sides.get_ofFn]
    rfl
  · rw [withSignature_registerAll]
    exact ⟨(List.nodup_dedup _).filter _, mem_bearers_iff ts s⟩
  · simp only [c, withSignature_registerAll]
    exact (registerAll_lists ts).get?_eq_some_iff k l

example : (empty.registerAll [("a", Signature.onAllSides .floor),
    ("b", Signature.onAllSides .floor), ("a", Signature.onAllSides .grass),
    ("a", Signature.onAllSides .floor)]).bySignature.entries = [("2222", ["b", "a"])] := by
  decide +kernel

end Catalog

end TileGrammar
