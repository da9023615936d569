import TileGrammar.Pack.Pack
import TileGrammar.Proofs.Order.Overlay

/-!
# What is loaded from a directory

The packs of a directory are those of its files, and of the packs with one id
the last one listed stays. A file that makes no pack is as good as absent. The
system may list the files in any order, and the order shows exactly where two
files hold different packs under one id.
-/

set_option autoImplicit false

namespace TileGrammar

def Pack.entry (p : Pack) : String × Pack := (p.id, p)

namespace PackSet

def packsOf (files : List (String × FileContent)) : List Pack := files.filterMap packOf?

def lastPack (id : String) (files : List (String × FileContent)) : Option Pack :=
  Dict.lastIn id ((packsOf files).map Pack.entry)

theorem packOf?_eq_some_iff (file : String × FileContent) (p : Pack) :
    packOf? file = some p ↔ extension? file.1 = some "json" ∧
      ∃ s, file.2 = .text s ∧ Pack.codec.ofText? s = some p := by
  obtain ⟨name, content⟩ := file
  by_cases h : extension? name = some "json"
  · cases content <;> simp [packOf?, h]
  · simp [packOf?, h]

theorem foldl_registerFile (r : PackSet) (files : List (String × FileContent)) :
    files.foldl registerFile r = ⟨r.packs.insertAll ((packsOf files).map Pack.entry)⟩ := by
  induction files generalizing r with
  | nil => rfl
  | cons f files ih =>
    rw [List.foldl_cons, ih, registerFile]
    cases h : packOf? f with
    | none => rw [packsOf, packsOf, List.filterMap_cons_none h]
    | some p =>
      rw [packsOf, packsOf, List.filterMap_cons_some h]
      rfl

theorem ofDirectory_entries (files : List (String × FileContent)) :
    ofDirectory (.entries files) = .ok ⟨.ofList ((packsOf files).map Pack.entry)⟩ := by
  rw [ofDirectory, foldl_registerFile]
  rfl

theorem get?_ofList_packs (files : List (String × FileContent)) (id : String) :
    PackSet.get? ⟨.ofList ((packsOf files).map Pack.entry)⟩ id = lastPack id files :=
  Dict.get?_ofList _ id

theorem ofDirectory_eq_iff (files others : List (String × FileContent)) :
    ofDirectory (.entries files) = ofDirectory (.entries others) ↔
      ∀ id, lastPack id files = lastPack id others := by
  simp only [ofDirectory_entries, Except.ok.injEq, mk.injEq]
  constructor
  · intro h id
    rw [← get?_ofList_packs, ← get?_ofList_packs, h]
  · intro h
    exact Dict.ext_get? fun id => by
      rw [Dict.get?_ofList, Dict.get?_ofList]
      exact h id

theorem packsOf_filter (files : List (String × FileContent)) :
    packsOf (files.filter fun f => (packOf? f).isSome) = packsOf files := by
  rw [packsOf, List.filterMap_filter, packsOf]
  refine List.filterMap_congr fun f _ => ?_
  cases packOf? f <;> rfl

theorem mem_of_lastPack {files : List (String × FileContent)} {id : String} {p : Pack}
    (h : lastPack id files = some p) : p ∈ packsOf files ∧ p.id = id := by
  obtain ⟨q, hq, he⟩ := List.mem_map.mp (Dict.mem_of_lastIn h)
  cases he
  exact ⟨hq, rfl⟩

theorem ofDirectory_keyed {d : DirectoryContent} {r : PackSet} (h : ofDirectory d = .ok r) :
    r.packs.KeyedBy Pack.id := by
  intro id p hp
  cases d with
  | missing =>
    cases h
    cases hp
  | blocked => cases h
  | entries files =>
    rw [ofDirectory_entries] at h
    cases h
    exact (mem_of_lastPack ((get?_ofList_packs files id).symm.trans hp)).2

theorem exists_lastPack {files : List (String × FileContent)} {p : Pack}
    (hp : p ∈ packsOf files) : ∃ q, lastPack p.id files = some q := by
  refine (Dict.exists_lastIn_iff _ _).mpr ?_
  rw [List.map_map]
  exact List.mem_map.mpr ⟨p, hp, rfl⟩

/-- No id has two packs. -/
def OnePackEach (files : List (String × FileContent)) : Prop :=
  ∀ p ∈ packsOf files, ∀ q ∈ packsOf files, p.id = q.id → p = q

theorem OnePackEach.lastPack_eq_some_iff {files : List (String × FileContent)}
    (h : OnePackEach files) (id : String) (p : Pack) :
    lastPack id files = some p ↔ p ∈ packsOf files ∧ p.id = id := by
  refine ⟨mem_of_lastPack, ?_⟩
  rintro ⟨hp, rfl⟩
  obtain ⟨q, hq⟩ := exists_lastPack hp
  obtain ⟨hqm, hid⟩ := mem_of_lastPack hq
  rw [hq, h p hp q hqm hid.symm]

theorem OnePackEach.lastPack_perm {files others : List (String × FileContent)}
    (h : OnePackEach files) (hp : files.Perm others) (id : String) :
    lastPack id others = lastPack id files := by
  have hmem : ∀ p, p ∈ packsOf others ↔ p ∈ packsOf files :=
    fun p => (hp.symm.filterMap packOf?).mem_iff
  have hothers : OnePackEach others :=
    fun p hp q hq => h p ((hmem p).mp hp) q ((hmem q).mp hq)
  ext p
  rw [hothers.lastPack_eq_some_iff, h.lastPack_eq_some_iff, hmem]

/-- The file of any pack can be the last one listed. -/
theorem exists_perm_lastPack {files : List (String × FileContent)} {p : Pack}
    (hp : p ∈ packsOf files) : ∃ others, files.Perm others ∧ lastPack p.id others = some p := by
  obtain ⟨f, hf, hfp⟩ := List.mem_filterMap.mp hp
  obtain ⟨before, behind, rfl⟩ := List.append_of_mem hf
  refine ⟨before ++ behind ++ [f], List.perm_middle.trans (List.perm_append_singleton f _).symm, ?_⟩
  rw [lastPack, packsOf, List.filterMap_append, List.filterMap_cons_some hfp, List.map_append,
    Dict.lastIn_append]
  simp [Dict.lastIn, Dict.lookupIn, Pack.entry]

/-- Which registry a directory gives. A file gives a pack exactly when it has the extension
`json` and its text reads as one, and a directory that can be listed is loaded, whatever its files
are, with the packs of just these files, the last one listed for each id. So two listings give one
registry exactly when the last packs of each id agree, and all orders of the files give one registry
exactly when no two of them hold different packs under one id. -/
theorem directory_is_order_free_iff (files : List (String × FileContent)) :
    (∀ f p, packOf? f = some p ↔ extension? f.1 = some "json" ∧
      ∃ s, f.2 = .text s ∧ Pack.codec.ofText? s = some p) ∧
    (∃ r, ofDirectory (.entries files) = .ok r ∧
      ofDirectory (.entries (files.filter fun f => (packOf? f).isSome)) = .ok r ∧
      ∀ id, r.get? id = lastPack id files) ∧
    (∀ others, ofDirectory (.entries others) = ofDirectory (.entries files) ↔
      ∀ id, lastPack id others = lastPack id files) ∧
    ((∀ others, files.Perm others →
        ofDirectory (.entries others) = ofDirectory (.entries files)) ↔
      OnePackEach files) := by
  refine ⟨packOf?_eq_some_iff, ⟨_, ofDirectory_entries files, ?_, get?_ofList_packs files⟩,
    fun others => ofDirectory_eq_iff others files, fun h p hp q hq hid => ?_, fun h others ho => ?_⟩
  · rw [ofDirectory_entries, packsOf_filter]
  · -- Listed last, each of the two packs would be the one that stays.
    obtain ⟨others, ho, hlast⟩ := exists_perm_lastPack hp
    obtain ⟨others', ho', hlast'⟩ := exists_perm_lastPack hq
    have heq := (ofDirectory_eq_iff _ _).mp ((h others ho).trans (h others' ho').symm)
    have hsome : some p = some q := by
      rw [← hlast, ← hlast', hid, heq]
    exact Option.some.inj hsome
  · exact (ofDirectory_eq_iff _ _).mpr (OnePackEach.lastPack_perm h ho)

/-- Two files with different packs under one id, listed in either order. -/
theorem directory_order_shows :
    let cave : String × FileContent := ("a.json", .text "\x7b\"id\":\"p\",\"name\":\"Cave\"\x7d")
    let tomb : String × FileContent := ("b.json", .text "\x7b\"id\":\"p\",\"name\":\"Tomb\"\x7d")
    [cave, tomb].Perm [tomb, cave] ∧
      ofDirectory (.entries [cave, tomb]) ≠ ofDirectory (.entries [tomb, cave]) := by
  intro cave tomb
  refine ⟨.swap tomb cave [], fun h => ?_⟩
  have hlast := (ofDirectory_eq_iff _ _).mp h "p"
  revert hlast
  decide +kernel

end PackSet

end TileGrammar
