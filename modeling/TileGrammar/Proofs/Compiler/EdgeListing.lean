import TileGrammar.Proofs.Compiler.BandLaw
import TileGrammar.Proofs.Edge.Adjacency
import TileGrammar.Proofs.Edge.Repetition

/-!
# From a compiler to a catalog

A compiler lists its tiles with the edges of the last grammar that was compiled
for each. Registered in a catalog, they lie over what the catalog had: compiled
tiles are moved to their edges, in order, and no other tile is touched.
-/

set_option autoImplicit false

namespace TileGrammar.Compiler

/-- Each tile has an output of the last grammar that was compiled for it, and there is no other
output. -/
structure Current (c : Compiler) (gs : List Grammar) : Prop where
  entry : ∀ id g, lastFor id gs = some g → ∃ o, c.get? id = some o ∧ o.Of g
  no_other : ∀ id, lastFor id gs = none → c.get? id = none

theorem ofAllocator_current (config : CompilerSettings) (a : Allocator) :
    (ofAllocator config a).Current [] where
  entry id g hg := by cases hg
  no_other id hn := rfl

theorem Current.put {c : Compiler} {gs : List Grammar} (h : c.Current gs) {g : Grammar}
    {o : Output} (ho : o.Of g) (a : Allocator) :
    Current ⟨c.config, a, c.compiled.insert g.tileId o⟩ (gs ++ [g]) where
  entry id k hk := by
    rw [lastFor_snoc] at hk
    rw [get?_put]
    by_cases e : g.tileId = id
    · rw [if_pos e] at hk ⊢
      cases hk
      exact ⟨o, rfl, ho⟩
    · rw [if_neg e] at hk ⊢
      exact h.entry id k hk
  no_other id hn := by
    rw [lastFor_snoc] at hn
    rw [get?_put]
    by_cases e : g.tileId = id
    · rw [if_pos e] at hn
      cases hn
    · rw [if_neg e] at hn ⊢
      exact h.no_other id hn

theorem Current.attemptAll {c : Compiler} {gs : List Grammar} (h : c.Current gs)
    (ts : List Attempt) : (c.attemptAll ts).Current (gs ++ c.accepted ts) := by
  refine attemptAll_along ?_ h ts
  intro c gs t o h ho hs
  rw [hs]
  exact h.put ho _

theorem run_current (config : CompilerSettings) (a : Allocator) (calls : List Call) :
    ((ofAllocator config a).run calls).Current ((ofAllocator config a).history calls) := by
  rw [run_eq_attemptAll]
  exact (ofAllocator_current config a).attemptAll (calls.flatMap Call.attempts)

/-- The tiles of a compiler with their edges, in the order in which they are registered. -/
def listing (c : Compiler) : List (String × Signature) :=
  c.compiled.values.map fun o => (o.tileId, o.edges)

section

variable {c : Compiler} {gs : List Grammar}

theorem Current.of_get? (h : c.Current gs) {id : String} {o : Output} (ho : c.get? id = some o) :
    ∃ g, lastFor id gs = some g ∧ o.Of g := by
  cases hg : lastFor id gs with
  | none => cases (h.no_other id hg).symm.trans ho
  | some g =>
    obtain ⟨p, hp, hof⟩ := h.entry id g hg
    cases hp.symm.trans ho
    exact ⟨g, rfl, hof⟩

theorem Current.exists_get?_iff (h : c.Current gs) (id : String) :
    (∃ o, c.get? id = some o) ↔ ∃ g, lastFor id gs = some g := by
  constructor
  · rintro ⟨o, ho⟩
    obtain ⟨g, hg, -⟩ := h.of_get? ho
    exact ⟨g, hg⟩
  · rintro ⟨g, hg⟩
    obtain ⟨o, ho, -⟩ := h.entry id g hg
    exact ⟨o, ho⟩

theorem Current.listing_eq (h : c.Current gs) :
    c.listing = c.compiled.entries.map fun e => (e.1, e.2.edges) := by
  simp only [listing, Dict.values, List.map_map]
  refine List.map_congr_left fun e he => ?_
  obtain ⟨g, hg, hof⟩ := h.of_get? ((c.mem_entries_iff e.1 e.2).mp he)
  show (e.2.tileId, e.2.edges) = (e.1, e.2.edges)
  rw [hof.tileId, (lastFor_some hg).2]

theorem Current.ids_listing (h : c.Current gs) : c.listing.map Prod.fst = c.compiled.keys := by
  rw [h.listing_eq, List.map_map]
  rfl

theorem Current.lastIn_listing (h : c.Current gs) (id : String) :
    Dict.lastIn id c.listing = (lastFor id gs).map Grammar.edges := by
  rw [h.listing_eq, Dict.lastIn_map fun _ o => Output.edges o, Dict.lastIn_entries]
  show (c.get? id).map Output.edges = _
  cases hg : lastFor id gs with
  | none =>
    rw [h.no_other id hg]
    rfl
  | some g =>
    obtain ⟨o, ho, hof⟩ := h.entry id g hg
    rw [ho, Option.map_some, Option.map_some, hof.edges]

theorem Current.mem_keys_iff (h : c.Current gs) (id : String) :
    id ∈ c.compiled.keys ↔ ∃ g, lastFor id gs = some g := by
  rw [Dict.mem_keys_iff]
  exact h.exists_get?_iff id

/-- What the compiler does not know stands first, as it stood, and compiled tiles follow by id. -/
theorem Current.bearers_append_listing (h : c.Current gs) (ts : List (String × Signature))
    (s : Signature) : Catalog.bearers (ts ++ c.listing) s =
      (Catalog.bearers ts s).filter (fun id => lastFor id gs = none) ++
        c.compiled.keys.filter fun id => (lastFor id gs).map Grammar.edges = some s := by
  have hnodup : (c.listing.map Prod.fst).Nodup := by
    rw [h.ids_listing]
    exact c.compiled.keys_ordered.imp fun hlt => String.ne_of_lt hlt
  rw [Catalog.bearers_append, Catalog.bearers_of_nodup hnodup, h.ids_listing]
  congr 1
  · refine List.filter_congr fun id _ => ?_
    rw [decide_eq_decide, h.mem_keys_iff, ← Option.ne_none_iff_exists', not_not]
  · refine List.filter_congr fun id _ => ?_
    rw [h.lastIn_listing]

theorem fillCatalog_registerAll (c : Compiler) (ts : List (String × Signature)) :
    c.fillCatalog (Catalog.empty.registerAll ts) = Catalog.empty.registerAll (ts ++ c.listing) :=
  (Catalog.registerAll_append Catalog.empty ts c.listing).symm

theorem Current.get?_fillCatalog (h : c.Current gs) (ts : List (String × Signature)) (id : String) :
    (c.fillCatalog (Catalog.empty.registerAll ts)).get? id =
      (((lastFor id gs).map Grammar.edges).or (Dict.lastIn id ts)).map (Tile.ofSignature id) := by
  rw [fillCatalog_registerAll, Catalog.get?_registerAll, Dict.lastIn_append, h.lastIn_listing]

theorem Current.get?_fillCatalog_of_last (h : c.Current gs) (ts : List (String × Signature))
    {id : String} {g : Grammar} (hg : lastFor id gs = some g) :
    (c.fillCatalog (Catalog.empty.registerAll ts)).get? id =
      some (.ofSignature id g.edges) := by
  rw [h.get?_fillCatalog, hg]
  rfl

theorem Current.get?_fillCatalog_of_none (h : c.Current gs) (ts : List (String × Signature))
    {id : String} (hn : c.get? id = none) :
    (c.fillCatalog (Catalog.empty.registerAll ts)).get? id =
      (Catalog.empty.registerAll ts).get? id := by
  have hnone : lastFor id gs = none := by
    cases hg : lastFor id gs with
    | none => rfl
    | some g =>
      obtain ⟨o, ho, -⟩ := h.entry id g hg
      cases hn.symm.trans ho
  rw [h.get?_fillCatalog, hnone, Catalog.get?_registerAll]
  rfl

theorem Current.adjacency_fillCatalog (h : c.Current gs) (ts : List (String × Signature))
    {i j : String} {g k : Grammar} (d : Direction) (hg : lastFor i gs = some g)
    (hk : lastFor j gs = some k) :
    ∃ row, (c.fillCatalog (Catalog.empty.registerAll ts)).adjacency.get? i = some row ∧
      (j ∈ row.get d ↔ Signature.fitsBeside g.edges k.edges d = true) := by
  have hi := h.get?_fillCatalog_of_last ts hg
  have hj := h.get?_fillCatalog_of_last ts hk
  have hkeyed : (c.fillCatalog (Catalog.empty.registerAll ts)).tiles.KeyedBy Tile.id := by
    rw [fillCatalog_registerAll]
    exact Catalog.registerAll_keyed _
  refine ⟨_, (Catalog.get?_adjacency_eq_some_iff _ i _).mpr ⟨⟨_, hi⟩, rfl⟩, ?_⟩
  rw [Sides.get_ofFn, Catalog.mem_compatibleToward_iff hkeyed hi, hj]
  simp [Tile.ofSignature_fitsBeside]

theorem Current.withSignature_fillCatalog (h : c.Current gs) (ts : List (String × Signature))
    (s : Signature) : (c.fillCatalog (Catalog.empty.registerAll ts)).withSignature s =
      ((Catalog.empty.registerAll ts).withSignature s).filter (fun id => lastFor id gs = none) ++
        c.compiled.keys.filter fun id => (lastFor id gs).map Grammar.edges = some s := by
  rw [fillCatalog_registerAll, Catalog.withSignature_registerAll, Catalog.withSignature_registerAll,
    h.bearers_append_listing]

end

/-- After any session and any registrations, a catalog that is filled from the compiler has each
compiled tile with the edges of the last grammar compiled for it, and every other tile as before.
The table of neighborhoods has a compiled tile beside another exactly where their edges fit. Under
a signature stand the tiles that the compiler does not know, as they stood, and then the compiled
ones with these edges by id. Filling the catalog once more changes nothing. -/
theorem filled_catalog_follows_session (config : CompilerSettings) (a : Allocator)
    (calls : List Call) (ts : List (String × Signature)) :
    let c := (ofAllocator config a).run calls
    let gs := (ofAllocator config a).history calls
    let e := Catalog.empty.registerAll ts
    let f := c.fillCatalog e
    (∀ id, (∃ o, c.get? id = some o) ↔ ∃ g, lastFor id gs = some g) ∧
    (∀ id g, lastFor id gs = some g → f.get? id = some (.ofSignature id g.edges)) ∧
    (∀ id, c.get? id = none → f.get? id = e.get? id) ∧
    (∀ i j g k d, lastFor i gs = some g → lastFor j gs = some k →
      ∃ row, f.adjacency.get? i = some row ∧
        (j ∈ row.get d ↔ Signature.fitsBeside g.edges k.edges d = true)) ∧
    (∀ s, f.withSignature s = (e.withSignature s).filter (fun id => lastFor id gs = none) ++
      c.compiled.keys.filter fun id => (lastFor id gs).map Grammar.edges = some s) ∧
    c.fillCatalog f = f := by
  intro c gs e f
  have h : c.Current gs := run_current config a calls
  exact ⟨h.exists_get?_iff, fun id g hg => h.get?_fillCatalog_of_last ts hg,
    fun id hn => h.get?_fillCatalog_of_none ts hn,
    fun i j g k d hg hk => h.adjacency_fillCatalog ts d hg hk, h.withSignature_fillCatalog ts,
    Catalog.registerAll_again ts c.listing⟩

end TileGrammar.Compiler
