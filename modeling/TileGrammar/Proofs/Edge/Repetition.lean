import TileGrammar.Proofs.Edge.SignatureIndex

/-!
# Registering a run of tiles once more

A run of registrations puts its tiles behind those that it leaves where they
were, each under its last signature in the order of its last registration.
The same run right after moves every one of these tiles out and back in that
order, so a catalog does not change by it.
-/

set_option autoImplicit false

namespace TileGrammar.Catalog

theorem bearers_append (ts us : List (String × Signature)) (s : Signature) :
    bearers (ts ++ us) s = (bearers ts s).filter (· ∉ us.map Prod.fst) ++ bearers us s := by
  induction us using List.reverseRecOn with
  | nil => simp [bearers]
  | append_singleton us u ih =>
    obtain ⟨id, t⟩ := u
    rw [← List.append_assoc, bearers_concat, ih, List.filter_append, List.filter_filter,
      bearers_concat, List.append_assoc]
    congr 1
    refine List.filter_congr fun j _ => ?_
    by_cases hj : j = id <;> simp [hj]

theorem mem_of_mem_bearers {us : List (String × Signature)} {s : Signature} {id : String}
    (h : id ∈ bearers us s) : id ∈ us.map Prod.fst :=
  (Dict.exists_lastIn_iff id us).mp ⟨s, (mem_bearers_iff us s id).mp h⟩

theorem bearers_append_again (ts us : List (String × Signature)) (s : Signature) :
    bearers (ts ++ us ++ us) s = bearers (ts ++ us) s := by
  have hgone : (bearers us s).filter (· ∉ us.map Prod.fst) = [] := by
    rw [List.filter_eq_nil_iff]
    intro id hid
    simpa using mem_of_mem_bearers hid
  rw [bearers_append (ts ++ us), bearers_append, List.filter_append, hgone, List.append_nil,
    List.filter_filter]
  simp only [Bool.and_self]

theorem bearers_of_nodup {us : List (String × Signature)} (h : (us.map Prod.fst).Nodup)
    (s : Signature) :
    bearers us s = (us.map Prod.fst).filter fun id => Dict.lastIn id us = some s := by
  rw [bearers, h.dedup]

theorem Lists.unique {index other : Dict (List String)} {listed : Signature → List String}
    (h : Lists index listed) (k : Lists other listed) : index = other := by
  refine Dict.ext_get? fun key => ?_
  by_cases hkey : ∃ s, Signature.text s = key
  · obtain ⟨s, rfl⟩ := hkey
    rw [h.entry, k.entry]
  · have hno : ∀ s, Signature.text s ≠ key := fun s e => hkey ⟨s, e⟩
    rw [h.no_other key hno, k.no_other key hno]

theorem ext_parts {c d : Catalog} (htiles : c.tiles = d.tiles)
    (hindex : c.bySignature = d.bySignature) : c = d := by
  cases c
  cases d
  cases htiles
  cases hindex
  rfl

theorem registerAll_again (ts us : List (String × Signature)) :
    ((empty.registerAll ts).registerAll us).registerAll us =
      (empty.registerAll ts).registerAll us := by
  have htiles : (empty.registerAll (ts ++ us ++ us)).tiles =
      (empty.registerAll (ts ++ us)).tiles := by
    refine Dict.ext_get? fun id => ?_
    have hlast : Dict.lastIn id (ts ++ us ++ us) = Dict.lastIn id (ts ++ us) := by
      rw [Dict.lastIn_append, Dict.lastIn_append]
      cases Dict.lastIn id us <;> rfl
    have hget := get?_registerAll (ts ++ us ++ us) id
    rw [hlast, ← get?_registerAll] at hget
    exact hget
  have hindex : (empty.registerAll (ts ++ us ++ us)).bySignature =
      (empty.registerAll (ts ++ us)).bySignature := by
    have hagain := registerAll_lists (ts ++ us ++ us)
    rw [funext (bearers_append_again ts us)] at hagain
    exact hagain.unique (registerAll_lists (ts ++ us))
  calc ((empty.registerAll ts).registerAll us).registerAll us
      = empty.registerAll (ts ++ us ++ us) := by rw [registerAll_append, registerAll_append]
    _ = empty.registerAll (ts ++ us) := ext_parts htiles hindex
    _ = (empty.registerAll ts).registerAll us := registerAll_append empty ts us

end TileGrammar.Catalog
