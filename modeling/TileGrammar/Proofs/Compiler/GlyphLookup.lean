import TileGrammar.Proofs.Compiler.BandLaw
import TileGrammar.Proofs.Compiler.InPlace
import TileGrammar.Proofs.Glyph.DottedId

/-!
# What is found under a glyph id

A compiler keeps glyphs by tile, and an exported set looks them up by glyph
id. The id of a glyph follows from the last grammar of its tile, and says less
than the id of the tile does. So a look-up gives the glyph of the first tile
with the id, and every glyph is found under its own id exactly when no two
tiles have come to share one.
-/

set_option autoImplicit false

namespace TileGrammar

section

variable {α : Type} {key : α → String} {xs : List α} {p : α → Bool}

theorem nodup_map_of_ordered (hx : xs.Pairwise fun a b => key a < key b) :
    (xs.map key).Nodup := by
  refine List.pairwise_map.mpr (hx.imp fun hlt he => ?_)
  rw [he] at hlt
  exact String.lt_irrefl _ hlt

theorem not_lt_of_find? (hx : xs.Pairwise fun a b => key a < key b) {x : α}
    (h : xs.find? p = some x) : ∀ y ∈ xs, p y → ¬ key y < key x := by
  obtain ⟨-, before, behind, rfl, hbefore⟩ := List.find?_eq_some_iff_append.mp h
  obtain ⟨-, hbehind, -⟩ := List.pairwise_append.mp hx
  intro y hy hpy
  rcases List.mem_append.mp hy with hy | hy
  · have hnot := hbefore y hy
    rw [hpy] at hnot
    cases hnot
  · rcases List.mem_cons.mp hy with rfl | hy
    · exact String.lt_irrefl _
    · exact String.lt_asymm ((List.pairwise_cons.mp hbehind).1 y hy)

theorem find?_eq_some_iff_least (hx : xs.Pairwise fun a b => key a < key b) (x : α) :
    xs.find? p = some x ↔ x ∈ xs ∧ p x ∧ ∀ y ∈ xs, p y → ¬ key y < key x := by
  constructor
  · intro h
    exact ⟨List.mem_of_find?_eq_some h, List.find?_some h, not_lt_of_find? hx h⟩
  · rintro ⟨hmem, hpx, hleast⟩
    obtain ⟨y, hy⟩ := Option.isSome_iff_exists.mp (List.find?_isSome.mpr ⟨x, hmem, hpx⟩)
    have hymem := List.mem_of_find?_eq_some hy
    -- Neither is before the other, so they are one member.
    rcases Std.lt_trichotomy (key x) (key y) with hlt | heq | hlt
    · exact absurd hlt (not_lt_of_find? hx hy x hmem hpx)
    · rw [hy, List.inj_on_of_nodup_map (nodup_map_of_ordered hx) hmem hymem heq]
    · exact absurd hlt (hleast y hymem (List.find?_some hy))

end

theorem find?_self_iff_nodup {α β : Type} [DecidableEq β] {f : α → β} {xs : List α}
    (hn : xs.Nodup) : (∀ x ∈ xs, xs.find? (fun y => f y = f x) = some x) ↔ (xs.map f).Nodup := by
  constructor
  · intro h
    refine hn.map_on fun x hx y hy hxy => ?_
    have hfind := h x hx
    rw [hxy, h y hy] at hfind
    exact (Option.some.inj hfind).symm
  · intro h x hx
    exact (find?_eq_some_iff_of_nodup h _ x).mpr ⟨hx, rfl⟩

namespace Compiler

theorem outcome_eq_ok {c d : Compiler} {t : Attempt} {o : Output}
    (h : c.outcome t = .ok (o, d)) : t.grammar.check = .ok () ∧
      o.glyph.id = t.grammar.glyphId ∧ d.compiled = c.compiled.insert t.grammar.tileId o := by
  have hcourse := c.course t
  rw [h] at hcourse
  cases hcourse with
  | done hg hc ha hy => exact ⟨hg, Derivation.id_of_glyph hy, rfl⟩

/-- All that is compiled was checked, and the glyph of a tile has the id of its last grammar. -/
structure Labelled (c : Compiler) (gs : List Grammar) : Prop where
  checked : ∀ g ∈ gs, g.check = .ok ()
  label : ∀ id, (c.get? id).map (fun o => o.glyph.id) = (lastFor id gs).map Grammar.glyphId

theorem fresh_labelled (config : CompilerSettings) : (fresh config).Labelled [] where
  checked g hg := by cases hg
  label id := rfl

theorem Labelled.put {c d : Compiler} {gs : List Grammar} (h : c.Labelled gs) {t : Attempt}
    {o : Output} (hok : c.outcome t = .ok (o, d)) : d.Labelled (gs ++ [t.grammar]) := by
  obtain ⟨hg, hid, hput⟩ := outcome_eq_ok hok
  refine ⟨fun g hmem => ?_, fun id => ?_⟩
  · rcases List.mem_append.mp hmem with hmem | hmem
    · exact h.checked g hmem
    · rwa [List.mem_singleton.mp hmem]
  · rw [Compiler.get?, hput, Dict.get?_insert, lastFor_snoc]
    by_cases e : t.grammar.tileId = id
    · rw [if_pos e, if_pos e, Option.map_some, Option.map_some, hid]
    · rw [if_neg e, if_neg e]
      exact h.label id

theorem run_labelled (config : CompilerSettings) (calls : List Call) :
    ((fresh config).run calls).Labelled ((fresh config).history calls) := by
  rw [run_eq_attemptAll]
  exact attemptAll_with_history (P := Labelled) (fun _ _ _ _ h hok => h.put hok)
    (fresh_labelled config) _

theorem Coherent.registry_get?_iff {c : Compiler} (h : c.Coherent) (id : String) (y : Glyph) :
    c.registry.get? id = some y ↔ ∃ t o, c.get? t = some o ∧ o.glyph = y ∧ y.id = id ∧
      ∀ u p, c.get? u = some p → p.glyph.id = id → ¬ u < t := by
  have hfind : c.registry.get? id =
      (c.compiled.values.find? fun o => o.glyph.id = id).map Output.glyph := List.find?_map
  rw [hfind, Option.map_eq_some_iff]
  simp only [find?_eq_some_iff_least h.values_ordered, h.mem_values_iff, decide_eq_true_eq]
  constructor
  · rintro ⟨o, ⟨ho, hid, hleast⟩, rfl⟩
    refine ⟨o.tileId, o, ho, rfl, hid, fun u p hp hpid => ?_⟩
    rw [← h.tileId u p hp]
    exact hleast p (by rwa [h.tileId u p hp]) hpid
  · rintro ⟨t, o, ho, rfl, hid, hleast⟩
    have ht := h.tileId t o ho
    rw [← ht] at ho hleast
    exact ⟨o, ⟨ho, hid, fun p hp hpid => hleast p.tileId p hp hpid⟩, rfl⟩

theorem Coherent.registry_get?_eq_none_iff {c : Compiler} (h : c.Coherent) (id : String) :
    c.registry.get? id = none ↔ ∀ t o, c.get? t = some o → o.glyph.id ≠ id := by
  have hfind : c.registry.get? id = none ↔ ∀ y ∈ c.compiled.values.map Output.glyph, y.id ≠ id := by
    simp [GlyphSet.get?, registry]
  rw [hfind, List.forall_mem_map]
  simp only [h.mem_values_iff]
  constructor
  · intro hall t o ho
    exact hall o (by rwa [h.tileId t o ho])
  · intro hall o ho
    exact hall o.tileId o ho

theorem Coherent.all_found_iff {c : Compiler} (h : c.Coherent) :
    (∀ y ∈ c.registry.glyphs, c.registry.get? y.id = some y) ↔
      (c.registry.glyphs.map Glyph.id).Nodup := find?_self_iff_nodup h.codepoints_nodup.of_map

theorem Labelled.exists_get?_iff {c : Compiler} {gs : List Grammar} (h : c.Labelled gs)
    (t id : String) : (∃ o, c.get? t = some o ∧ o.glyph.id = id) ↔
      ∃ g, lastFor t gs = some g ∧ g.glyphId = id := by
  have hlabel := h.label t
  rw [← Option.map_eq_some_iff, ← Option.map_eq_some_iff, hlabel]

theorem Coherent.nodup_ids_iff {c : Compiler} (h : c.Coherent) {gs : List Grammar}
    (hl : c.Labelled gs) : (c.registry.glyphs.map Glyph.id).Nodup ↔
      ∀ t u g k, lastFor t gs = some g → lastFor u gs = some k → g.glyphId = k.glyphId →
        t = u := by
  have hvalues : c.compiled.values.Nodup := (nodup_map_of_ordered h.values_ordered).of_map
  rw [registry, List.map_map, List.nodup_map_iff_inj_on hvalues]
  constructor
  · intro hinj t u g k hg hk hid
    obtain ⟨o, ho, hog⟩ := (hl.exists_get?_iff t _).mpr ⟨g, hg, rfl⟩
    obtain ⟨p, hp, hpk⟩ := (hl.exists_get?_iff u _).mpr ⟨k, hk, rfl⟩
    have hop : o = p := by
      refine hinj o ?_ p ?_ (hog.trans (hid.trans hpk.symm))
      · rw [h.mem_values_iff, h.tileId t o ho, ho]
      · rw [h.mem_values_iff, h.tileId u p hp, hp]
    rw [← h.tileId t o ho, ← h.tileId u p hp, hop]
  · intro htiles o ho p hp hid
    rw [h.mem_values_iff] at ho hp
    obtain ⟨g, hg, hog⟩ := (hl.exists_get?_iff _ _).mp ⟨o, ho, rfl⟩
    obtain ⟨k, hk, hpk⟩ := (hl.exists_get?_iff _ _).mp ⟨p, hp, rfl⟩
    have htile := htiles _ _ g k hg hk (hog.trans (hid.trans hpk.symm))
    rw [htile, hp] at ho
    exact (Option.some.inj ho).symm

/-- After any session of a fresh compiler the glyph of a tile has the id of the last grammar
compiled for the tile, and a look-up gives the glyph of the first tile with the id, and nothing only
where no tile has it. So every glyph is found under its own id exactly when the ids are different, that is, when the
last grammars of different tiles have different ids. With plain names these are different where
category, subcategory, corner, damage, moisture or age is. -/
theorem look_up_finds_first_tile (config : CompilerSettings) (calls : List Call) :
    let c := (fresh config).run calls
    let gs := (fresh config).history calls
    (∀ t, (c.get? t).map (fun o => o.glyph.id) = (lastFor t gs).map Grammar.glyphId) ∧
    (∀ id y, c.registry.get? id = some y ↔ ∃ t o, c.get? t = some o ∧ o.glyph = y ∧ y.id = id ∧
      ∀ u p, c.get? u = some p → p.glyph.id = id → ¬ u < t) ∧
    (∀ id, c.registry.get? id = none ↔ ∀ t o, c.get? t = some o → o.glyph.id ≠ id) ∧
    ((∀ y ∈ c.registry.glyphs, c.registry.get? y.id = some y) ↔
      (c.registry.glyphs.map Glyph.id).Nodup) ∧
    ((c.registry.glyphs.map Glyph.id).Nodup ↔ ∀ t u g k, lastFor t gs = some g →
      lastFor u gs = some k → g.glyphId = k.glyphId → t = u) ∧
    (∀ g ∈ gs, ∀ k ∈ gs, g.PlainNames → k.PlainNames →
      (g.glyphId = k.glyphId ↔ g.SameLook k)) := by
  intro c gs
  have h : c.Coherent := (ofAllocator_coherent config Allocator.fresh_sound).run calls
  have hl : c.Labelled gs := run_labelled config calls
  exact ⟨hl.label, h.registry_get?_iff, h.registry_get?_eq_none_iff, h.all_found_iff,
    h.nodup_ids_iff hl,
    fun g hg k hk => Grammar.glyphId_eq_iff (hl.checked g hg) (hl.checked k hk)⟩

/-- Two floors with different centers are two tiles with one glyph id, and only the first of them is
found. -/
theorem glyph_hidden_by_center :
    let floor := Grammar.ofCategory "floor" "stone"
    let c := (fresh .standard).run
      [.tile ⟨floor, none, none⟩, .tile ⟨{ floor with center := "torch" }, none, none⟩]
    ¬ (c.registry.glyphs.map Glyph.id).Nodup ∧
      ¬ ∀ y ∈ c.registry.glyphs, c.registry.get? y.id = some y := by
  intro floor c
  have h : c.Coherent := (ofAllocator_coherent _ Allocator.fresh_sound).run _
  have hids : ¬ (c.registry.glyphs.map Glyph.id).Nodup := by decide +kernel
  exact ⟨hids, fun hfound => hids (h.all_found_iff.mp hfound)⟩

end Compiler

end TileGrammar
