import TileGrammar.Proofs.Compiler.Batch
import TileGrammar.Proofs.Order.Overlay

/-!
# What a compiler exports agrees with its allocator

Each entry of a compiler stands under the id of its tile and carries the
codepoint that the tile owns. Two maps with different owners are kept in step:
the allocator is asked before the entry is made, and a failure in between
leaves both alone. Since no two tiles own one codepoint, the exported glyphs
have different codepoints and are found by them.
-/

set_option autoImplicit false

namespace TileGrammar

namespace Compiler

/-- The entries of a compiler agree with its allocator. -/
structure Coherent (c : Compiler) : Prop where
  sound : c.allocator.Sound
  tileId : ∀ id o, c.get? id = some o → o.tileId = id
  codepoint : ∀ id o, c.get? id = some o → o.codepoint = o.glyph.codepoint
  owned : ∀ id o, c.get? id = some o → c.allocator.get? id = some o.codepoint

theorem ofAllocator_coherent (config : CompilerSettings) {a : Allocator} (h : a.Sound) :
    (ofAllocator config a).Coherent where
  sound := h
  tileId id o ho := by cases ho
  codepoint id o ho := by cases ho
  owned id o ho := by cases ho

theorem get?_put (config : CompilerSettings) (a : Allocator) (d : Dict Output) (j id : String)
    (o : Output) : Compiler.get? ⟨config, a, d.insert j o⟩ id =
      if j = id then some o else d.get? id := by
  simp [get?]

theorem Coherent.put {c : Compiler} (h : c.Coherent) {g : Grammar} {o : Output} (ho : o.Of g)
    (hown : (c.allocator.step (g.tileId, g.band)).get? g.tileId = some o.codepoint) :
    Coherent ⟨c.config, c.allocator.step (g.tileId, g.band), c.compiled.insert g.tileId o⟩ where
  sound := h.sound.step _
  tileId id p hp := by
    rw [get?_put] at hp
    split at hp
    next e =>
      cases hp
      rw [ho.tileId, e]
    next => exact h.tileId id p hp
  codepoint id p hp := by
    rw [get?_put] at hp
    split at hp
    next =>
      cases hp
      exact ho.codepoint
    next => exact h.codepoint id p hp
  owned id p hp := by
    rw [get?_put] at hp
    split at hp
    next e =>
      cases hp
      rwa [← e]
    next => exact Allocator.get?_step (h.owned id p hp) _

theorem Coherent.attempt {c : Compiler} (h : c.Coherent) (t : Attempt) :
    (c.attempt t).Coherent := by
  rcases c.attempt_cases t with ⟨-, -, hs⟩ | ⟨o, -, ho, hown, hs⟩
  · rwa [hs]
  · rw [hs]
    exact h.put ho hown

theorem Coherent.run {c : Compiler} (h : c.Coherent) (calls : List Call) :
    (c.run calls).Coherent := run_invariant (fun _ t h => h.attempt t) h calls

/-- The tiles that the allocator knows are the compiled ones. -/
def Exact (c : Compiler) : Prop :=
  ∀ id, (∃ p, c.allocator.get? id = some p) ↔ ∃ o, c.get? id = some o

theorem fresh_exact (config : CompilerSettings) : (fresh config).Exact := by
  intro id
  constructor
  · rintro ⟨p, hp⟩
    cases hp
  · rintro ⟨o, ho⟩
    cases ho

theorem Exact.attempt {c : Compiler} (h : c.Exact) (t : Attempt) : (c.attempt t).Exact := by
  rcases c.attempt_cases t with ⟨-, -, hs⟩ | ⟨o, -, -, hown, hs⟩
  · rwa [hs]
  · rw [hs]
    intro id
    rw [get?_put]
    by_cases hid : t.grammar.tileId = id
    · subst hid
      simp [hown]
    · rw [Allocator.get?_step_of_ne _ hid, if_neg hid]
      exact h id

theorem Exact.run {c : Compiler} (h : c.Exact) (calls : List Call) : (c.run calls).Exact :=
  run_invariant (fun _ t h => h.attempt t) h calls

theorem mem_entries_iff (c : Compiler) (id : String) (o : Output) :
    (id, o) ∈ c.compiled.entries ↔ c.get? id = some o :=
  (c.compiled.get?_eq_some_iff id o).symm

theorem Coherent.mem_values_iff {c : Compiler} (h : c.Coherent) (o : Output) :
    o ∈ c.compiled.values ↔ c.get? o.tileId = some o := Dict.KeyedBy.mem_values_iff h.tileId o

theorem Coherent.values_ordered {c : Compiler} (h : c.Coherent) :
    c.compiled.values.Pairwise fun o p => o.tileId < p.tileId :=
  Dict.KeyedBy.values_ordered h.tileId

theorem mem_glyphs_iff (c : Compiler) (y : Glyph) :
    y ∈ c.registry.glyphs ↔ ∃ id o, c.get? id = some o ∧ o.glyph = y := by
  simp only [registry, Dict.values, List.map_map, List.mem_map]
  constructor
  · rintro ⟨⟨id, o⟩, he, rfl⟩
    exact ⟨id, o, (c.mem_entries_iff id o).mp he, rfl⟩
  · rintro ⟨id, o, ho, rfl⟩
    exact ⟨(id, o), (c.mem_entries_iff id o).mpr ho, rfl⟩

theorem Coherent.codepoints_nodup {c : Compiler} (h : c.Coherent) :
    (c.registry.glyphs.map Glyph.codepoint).Nodup := by
  simp only [registry, List.map_map]
  refine List.pairwise_map.mpr (h.values_ordered.imp_of_mem fun {o p} ho hp hlt he => ?_)
  have hgo := (h.mem_values_iff o).mp ho
  have hgp := (h.mem_values_iff p).mp hp
  have hcode : o.codepoint = p.codepoint := by
    rw [h.codepoint _ _ hgo, h.codepoint _ _ hgp]
    exact he
  have hown := h.owned _ _ hgo
  rw [hcode] at hown
  rw [h.sound.unique _ _ _ hown (h.owned _ _ hgp)] at hlt
  exact String.lt_irrefl _ hlt

theorem Coherent.atCodepoint?_eq_none_iff {c : Compiler} (h : c.Coherent) (p : Codepoint) :
    c.registry.atCodepoint? p = none ↔
      ∀ id o, c.get? id = some o → c.allocator.get? id ≠ some p := by
  rw [GlyphSet.atCodepoint?, List.find?_eq_none]
  constructor
  · intro hnone id o ho hp
    have hmem := (c.mem_glyphs_iff o.glyph).mpr ⟨id, o, ho, rfl⟩
    have hcode : o.codepoint = p := Option.some.inj ((h.owned id o ho).symm.trans hp)
    exact hnone _ hmem (by simp [← h.codepoint id o ho, hcode])
  · intro hown y hy hyp
    obtain ⟨id, o, ho, rfl⟩ := (c.mem_glyphs_iff y).mp hy
    have hcode : o.glyph.codepoint = p := by simpa using hyp
    refine hown id o ho ?_
    rw [h.owned id o ho, h.codepoint id o ho, hcode]

/-- After any session of a compiler with any reachable allocator: entries, glyphs and allocator
agree, the exported glyphs stand in the order of their tiles with one codepoint each, and a
codepoint finds the glyph of the tile that owns it. A compiler that starts with a fresh allocator
has compiled just the tiles that own a codepoint. -/
theorem session_exports_owners (config : CompilerSettings) (rs : List Allocator.Request)
    (calls : List Call) :
    let c := (ofAllocator config (Allocator.fresh.run rs)).run calls
    (∀ id o, (id, o) ∈ c.compiled.entries → o.tileId = id ∧ o.codepoint = o.glyph.codepoint ∧
      c.allocator.get? id = some o.codepoint) ∧
    (∃ os : List Output, c.registry.glyphs = os.map Output.glyph ∧
      os.Pairwise (fun o p => o.tileId < p.tileId) ∧ ∀ o, o ∈ os ↔ c.get? o.tileId = some o) ∧
    (c.registry.glyphs.map Glyph.codepoint).Nodup ∧
    (∀ p y, c.registry.atCodepoint? p = some y ↔ y ∈ c.registry.glyphs ∧ y.codepoint = p) ∧
    (∀ p, c.registry.atCodepoint? p = none ↔
      ∀ id o, c.get? id = some o → c.allocator.get? id ≠ some p) ∧
    ∀ id, (∃ p, ((fresh config).run calls).allocator.get? id = some p) ↔
      ∃ o, ((fresh config).run calls).get? id = some o := by
  intro c
  have h : c.Coherent := (ofAllocator_coherent config (Allocator.fresh_run_sound rs)).run calls
  refine ⟨fun id o he => ?_, ⟨c.compiled.values, rfl, h.values_ordered, h.mem_values_iff⟩,
    h.codepoints_nodup, find?_eq_some_iff_of_nodup h.codepoints_nodup,
    h.atCodepoint?_eq_none_iff, (fresh_exact config).run calls⟩
  have ho := (c.mem_entries_iff id o).mp he
  exact ⟨h.tileId id o ho, h.codepoint id o ho, h.owned id o ho⟩

end Compiler

end TileGrammar
