import Mathlib.Data.List.Nodup
import TileGrammar.Order.Dict

/-!
# Dictionaries laid over one another

Entries that are put in one after the other lie over what was there, and of
the entries of one key the last one shows. Keys and values of a dictionary
are then read off its look-up: the keys are those that are found, and where
each value carries its own key the values stand in the order of it. A key that
tells the members of a list apart finds each of them. A list that names each
key once and the dictionary made of it hold the same entries, and only the
order is lost.
-/

set_option autoImplicit false

namespace TileGrammar

theorem find?_eq_some_iff_of_nodup {α β : Type} [DecidableEq β] {f : α → β} {xs : List α}
    (hn : (xs.map f).Nodup) (k : β) (x : α) :
    xs.find? (fun y => f y = k) = some x ↔ x ∈ xs ∧ f x = k := by
  constructor
  · intro h
    exact ⟨List.mem_of_find?_eq_some h, by simpa using List.find?_some h⟩
  · rintro ⟨hx, rfl⟩
    obtain ⟨y, hy⟩ : ∃ y, xs.find? (fun y => f y = f x) = some y := by
      rw [← Option.isSome_iff_exists, List.find?_isSome]
      exact ⟨x, hx, by simp⟩
    have hk : f y = f x := by simpa using List.find?_some hy
    rw [hy, List.inj_on_of_nodup_map hn (List.mem_of_find?_eq_some hy) hx hk]

theorem filter_eq_singleton_of_nodup {α β : Type} [DecidableEq β] {f : α → β} {xs : List α}
    (hn : (xs.map f).Nodup) {x : α} (h : x ∈ xs) : xs.filter (fun y => f y = f x) = [x] := by
  induction xs with
  | nil => cases h
  | cons y ys ih =>
    obtain ⟨hy, hn⟩ := List.nodup_cons.mp hn
    rcases List.mem_cons.mp h with rfl | h
    · have hnone : ys.filter (fun y => f y = f x) = [] := by
        refine List.filter_eq_nil_iff.mpr fun z hz hf => hy ?_
        rw [← of_decide_eq_true hf]
        exact List.mem_map_of_mem hz
      simp [hnone]
    · have hne : f y ≠ f x := fun he => hy (he ▸ List.mem_map_of_mem h)
      simp [hne, ih hn h]

namespace Dict

variable {α β : Type}

theorem insert_comm (d : Dict α) {k j : String} (a b : α) (h : k ≠ j) :
    (d.insert k a).insert j b = (d.insert j b).insert k a := by
  refine ext_get? fun i => ?_
  by_cases hk : k = i
  · subst hk
    simp [h.symm]
  · simp [hk]

/-- What the last entry of a key holds. -/
def lastIn (k : String) (es : List (String × α)) : Option α := lookupIn k es.reverse

theorem lookupIn_of_nodup {k : String} {a : α} {es : List (String × α)}
    (hn : (es.map Prod.fst).Nodup) (h : (k, a) ∈ es) : lookupIn k es = some a := by
  induction es with
  | nil => cases h
  | cons e es ih =>
    obtain ⟨hne, hn⟩ := List.nodup_cons.mp hn
    rcases List.mem_cons.mp h with rfl | h
    · simp [lookupIn]
    · have hk : e.1 ≠ k := fun he => hne (he ▸ List.mem_map_of_mem h)
      rw [lookupIn, if_neg hk, ih hn h]

theorem lookupIn_eq_none {k : String} {es : List (String × α)} (h : k ∉ es.map Prod.fst) :
    lookupIn k es = none := by
  cases hk : lookupIn k es with
  | none => rfl
  | some a => exact absurd (List.mem_map_of_mem (lookupIn_eq_some hk)) h

theorem lookupIn_eq_some_iff {k : String} {a : α} {es : List (String × α)}
    (hn : (es.map Prod.fst).Nodup) : lookupIn k es = some a ↔ (k, a) ∈ es :=
  ⟨lookupIn_eq_some, lookupIn_of_nodup hn⟩

theorem lookupIn_append (k : String) (es fs : List (String × α)) :
    lookupIn k (es ++ fs) = (lookupIn k es).or (lookupIn k fs) := by
  induction es with
  | nil => simp [lookupIn]
  | cons e es ih =>
    obtain ⟨j, a⟩ := e
    by_cases h : j = k <;> simp [lookupIn, h, ih]

theorem lastIn_of_nodup {es : List (String × α)} (hn : (es.map Prod.fst).Nodup) (k : String) :
    lastIn k es = lookupIn k es := by
  have hreverse : (es.reverse.map Prod.fst).Nodup := by
    rwa [List.map_reverse, List.nodup_reverse]
  ext a
  rw [lastIn, lookupIn_eq_some_iff hreverse, lookupIn_eq_some_iff hn, List.mem_reverse]

theorem lastIn_append (k : String) (es fs : List (String × α)) :
    lastIn k (es ++ fs) = (lastIn k fs).or (lastIn k es) := by
  rw [lastIn, List.reverse_append, lookupIn_append]
  rfl

theorem lastIn_cons (k : String) (e : String × α) (es : List (String × α)) :
    lastIn k (e :: es) = (lastIn k es).or (if e.1 = k then some e.2 else none) :=
  lastIn_append k [e] es

/-- The last entry of a key shows, and where there is none, what was there before. -/
theorem get?_insertAll (d : Dict α) (es : List (String × α)) (k : String) :
    (d.insertAll es).get? k = (lastIn k es).or (d.get? k) := by
  induction es generalizing d with
  | nil => rfl
  | cons e es ih =>
    have hd : d.insertAll (e :: es) = (d.insert e.1 e.2).insertAll es := rfl
    rw [hd, ih, get?_insert, lastIn_cons, Option.or_assoc]
    by_cases h : e.1 = k <;> simp [h]

theorem insertAll_again (d : Dict α) (es : List (String × α)) :
    (d.insertAll es).insertAll es = d.insertAll es := by
  refine ext_get? fun k => ?_
  rw [get?_insertAll, get?_insertAll, ← Option.or_assoc, Option.or_self]

theorem get?_insertAll_of_nodup (d : Dict α) {es : List (String × α)}
    (hn : (es.map Prod.fst).Nodup) (k : String) :
    (d.insertAll es).get? k = (lookupIn k es).or (d.get? k) := by
  rw [get?_insertAll, lastIn_of_nodup hn]

theorem lastIn_map (f : String → α → β) (k : String) (es : List (String × α)) :
    lastIn k (es.map fun e => (e.1, f e.1 e.2)) = (lastIn k es).map (f k) := by
  induction es with
  | nil => rfl
  | cons e es ih =>
    rw [List.map_cons, lastIn_cons, lastIn_cons, ih, Option.map_or]
    by_cases h : e.1 = k <;> simp [h]

theorem mem_of_lastIn {k : String} {a : α} {es : List (String × α)} (h : lastIn k es = some a) :
    (k, a) ∈ es := List.mem_reverse.mp (lookupIn_eq_some h)

theorem exists_lastIn_iff (k : String) (es : List (String × α)) :
    (∃ a, lastIn k es = some a) ↔ k ∈ es.map Prod.fst := by
  induction es with
  | nil => simp [lastIn, lookupIn]
  | cons e es ih =>
    rw [List.map_cons, List.mem_cons, ← ih, lastIn_cons]
    by_cases h : e.1 = k
    · cases lastIn k es <;> simp [h]
    · simp [h, Ne.symm h]

theorem mem_keys_iff (d : Dict α) (k : String) : k ∈ d.keys ↔ ∃ a, d.get? k = some a := by
  simp only [keys, List.mem_map, get?_eq_some_iff]
  constructor
  · rintro ⟨⟨j, a⟩, he, rfl⟩
    exact ⟨a, he⟩
  · rintro ⟨a, he⟩
    exact ⟨(k, a), he, rfl⟩

theorem keys_ordered (d : Dict α) : d.keys.Pairwise (· < ·) := List.pairwise_map.mpr d.ordered

theorem nodup_keys (d : Dict α) : d.keys.Nodup := by
  refine d.keys_ordered.imp fun {j k} hlt => ?_
  rintro rfl
  exact String.lt_irrefl j hlt

theorem lastIn_entries (d : Dict α) (k : String) : lastIn k d.entries = d.get? k :=
  lastIn_of_nodup d.nodup_keys k

theorem keys_mapEntries (f : String → α → β) (d : Dict α) : (d.mapEntries f).keys = d.keys := by
  simp [keys, mapEntries]

theorem get?_mapEntries (f : String → α → β) (d : Dict α) (k : String) :
    (d.mapEntries f).get? k = (d.get? k).map (f k) := by
  obtain ⟨es, h⟩ := d
  simp only [get?, mapEntries]
  clear h
  induction es with
  | nil => rfl
  | cons e es ih =>
    obtain ⟨j, a⟩ := e
    by_cases h : j = k
    · subst h
      simp [lookupIn]
    · simp [lookupIn, h, ih]

theorem mapEntries_insert (f : String → α → β) (d : Dict α) (k : String) (a : α) :
    (d.insert k a).mapEntries f = (d.mapEntries f).insert k (f k a) := by
  refine ext_get? fun j => ?_
  rw [get?_mapEntries, get?_insert, get?_insert, get?_mapEntries]
  split
  next h => rw [h, Option.map_some]
  next => rfl

/-- Each entry stands under the key that its value carries. -/
def KeyedBy (key : α → String) (d : Dict α) : Prop := ∀ k a, d.get? k = some a → key a = k

section

variable {key : α → String} {d : Dict α}

theorem KeyedBy.mem_values_iff (h : d.KeyedBy key) (a : α) :
    a ∈ d.values ↔ d.get? (key a) = some a := by
  constructor
  · intro ha
    obtain ⟨⟨k, b⟩, he, rfl⟩ := List.mem_map.mp ha
    have hb := (d.get?_eq_some_iff k b).mpr he
    rwa [h k b hb]
  · intro ha
    exact List.mem_map.mpr ⟨(key a, a), (d.get?_eq_some_iff _ a).mp ha, rfl⟩

theorem KeyedBy.map_values (h : d.KeyedBy key) : d.values.map key = d.keys := by
  simp only [values, keys, List.map_map]
  refine List.map_congr_left fun e he => ?_
  exact h e.1 e.2 ((d.get?_eq_some_iff _ _).mpr he)

theorem KeyedBy.values_ordered (h : d.KeyedBy key) :
    d.values.Pairwise fun a b => key a < key b := by
  have hk := d.keys_ordered
  rw [← h.map_values] at hk
  exact List.pairwise_map.mp hk

end

section

variable {es fs : List (String × α)}

theorem get?_ofList (es : List (String × α)) (k : String) : (ofList es).get? k = lastIn k es := by
  have h := get?_insertAll (∅ : Dict α) es k
  rw [get?_empty, Option.or_none] at h
  exact h

theorem mem_entries_ofList_iff (hn : (es.map Prod.fst).Nodup) (p : String × α) :
    p ∈ (ofList es).entries ↔ p ∈ es := by
  rw [← get?_eq_some_iff, get?_ofList, lastIn_of_nodup hn, lookupIn_eq_some_iff hn]

theorem entries_ofList_perm (hn : (es.map Prod.fst).Nodup) : (ofList es).entries.Perm es :=
  (List.perm_ext_iff_of_nodup ((ofList es).nodup_keys.of_map _) (hn.of_map _)).mpr
    (mem_entries_ofList_iff hn)

theorem entries_ofList_eq_iff (hes : (es.map Prod.fst).Nodup) (hfs : (fs.map Prod.fst).Nodup) :
    (ofList es).entries = (ofList fs).entries ↔ es.Perm fs := by
  constructor
  · intro h
    have hfs' := entries_ofList_perm hfs
    rw [← h] at hfs'
    exact (entries_ofList_perm hes).symm.trans hfs'
  · intro h
    refine entries_ext (ofList es).ordered (ofList fs).ordered fun p => ?_
    rw [mem_entries_ofList_iff hes, mem_entries_ofList_iff hfs, h.mem_iff]

end

end Dict

end TileGrammar
