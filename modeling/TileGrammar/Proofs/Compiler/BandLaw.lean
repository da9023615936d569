import TileGrammar.Proofs.Compiler.Registry

/-!
# When a glyph has a codepoint of its own band

A tile keeps the codepoint of the first grammar that is compiled for it, while
its glyph follows the last one. So every exported glyph lies in its own band
exactly when no tile goes from a grammar of one band to a grammar of another.
The id of a tile joins its parts by dots, and a category with a dot in it can
bring two bands under one id. Without such categories, and in strict sessions,
the law holds.
-/

set_option autoImplicit false

namespace TileGrammar

def firstFor (id : String) (gs : List Grammar) : Option Grammar := gs.find? fun g => g.tileId = id

def lastFor (id : String) (gs : List Grammar) : Option Grammar := firstFor id gs.reverse

theorem firstFor_snoc (id : String) (gs : List Grammar) (g : Grammar) :
    firstFor id (gs ++ [g]) = (firstFor id gs).or (if g.tileId = id then some g else none) := by
  rw [firstFor, List.find?_append, ← firstFor, List.find?_singleton]
  by_cases h : g.tileId = id
  · rw [if_pos h, if_pos (decide_eq_true h)]
  · rw [if_neg h, if_neg (by rwa [decide_eq_true_iff])]

theorem lastFor_snoc (id : String) (gs : List Grammar) (g : Grammar) :
    lastFor id (gs ++ [g]) = if g.tileId = id then some g else lastFor id gs := by
  rw [lastFor, firstFor, List.reverse_concat, List.find?_cons]
  by_cases h : g.tileId = id <;> simp [h, lastFor, firstFor]

theorem firstFor_some {id : String} {gs : List Grammar} {g : Grammar}
    (h : firstFor id gs = some g) : g ∈ gs ∧ g.tileId = id :=
  ⟨List.mem_of_find?_eq_some h, by simpa using List.find?_some h⟩

theorem lastFor_some {id : String} {gs : List Grammar} {g : Grammar}
    (h : lastFor id gs = some g) : g ∈ gs ∧ g.tileId = id := by
  obtain ⟨hg, e⟩ := firstFor_some h
  exact ⟨List.mem_reverse.mp hg, e⟩

theorem firstFor_eq_none_iff (id : String) (gs : List Grammar) :
    firstFor id gs = none ↔ lastFor id gs = none := by
  simp [lastFor, firstFor, List.find?_eq_none]

namespace Compiler

def history (c : Compiler) (calls : List Call) : List Grammar :=
  c.accepted (calls.flatMap Call.attempts)

/-- Every exported glyph lies in the band of its own category. -/
def BandLaw (c : Compiler) : Prop := ∀ y ∈ c.registry.glyphs, y.category.contains y.codepoint

/-- A tile owns a codepoint of the band of its first grammar, and its glyph is of the band of its
last one. -/
structure Traced (c : Compiler) (gs : List Grammar) : Prop where
  owner : ∀ id p, c.allocator.get? id = some p →
    ∃ g, firstFor id gs = some g ∧ g.band.contains p
  entry : ∀ id, (c.get? id).map (fun o => o.glyph.category) = (lastFor id gs).map Grammar.band

theorem fresh_traced (config : CompilerSettings) : (fresh config).Traced [] where
  owner id p hp := by cases hp
  entry id := rfl

theorem Traced.firstFor_eq_none {c : Compiler} {gs : List Grammar} (h : c.Traced gs)
    (hc : c.Coherent) {id : String} (hn : c.allocator.get? id = none) :
    firstFor id gs = none := by
  have hentry : c.get? id = none := by
    cases ho : c.get? id with
    | none => rfl
    | some o => cases hn.symm.trans (hc.owned id o ho)
  have hlast := h.entry id
  rw [hentry] at hlast
  rw [firstFor_eq_none_iff]
  exact Option.map_eq_none_iff.mp hlast.symm

theorem Traced.put {c : Compiler} {gs : List Grammar} (h : c.Traced gs) (hc : c.Coherent)
    {g : Grammar} {o : Output} (ho : o.Of g) : Traced
      ⟨c.config, c.allocator.step (g.tileId, g.band), c.compiled.insert g.tileId o⟩
      (gs ++ [g]) where
  owner id p hp := by
    have hp' : (c.allocator.step (g.tileId, g.band)).get? id = some p := hp
    rw [firstFor_snoc]
    cases hid : c.allocator.get? id with
    | some q =>
      have hq : some q = some p := (Allocator.get?_step hid _).symm.trans hp'
      rw [hq] at hid
      obtain ⟨f, hf, hb⟩ := h.owner id p hid
      exact ⟨f, by rw [hf, Option.some_or], hb⟩
    | none =>
      -- Without a codepoint there is no entry either, so this grammar is the first of its tile.
      by_cases e : g.tileId = id
      · refine ⟨g, ?_, ?_⟩
        · rw [h.firstFor_eq_none hc hid, if_pos e, Option.none_or]
        · rw [← e] at hid hp'
          exact hc.sound.contains_of_given hid hp'
      · rw [Allocator.get?_step_of_ne _ e, hid] at hp'
        cases hp'
  entry id := by
    rw [get?_put, lastFor_snoc]
    by_cases e : g.tileId = id
    · rw [if_pos e, if_pos e, Option.map_some, Option.map_some, ho.category]
    · rw [if_neg e, if_neg e]
      exact h.entry id

theorem Traced.attemptAll {c : Compiler} {gs : List Grammar} (h : c.Traced gs) (hc : c.Coherent)
    (ts : List Attempt) : (c.attemptAll ts).Traced (gs ++ c.accepted ts) := by
  refine (attemptAll_along (P := fun c gs => c.Traced gs ∧ c.Coherent) ?_ ⟨h, hc⟩ ts).1
  rintro c gs t o ⟨h, hc⟩ ho hs
  have htraced : (c.attempt t).Traced (gs ++ [t.grammar]) := by
    rw [hs]
    exact h.put hc ho
  exact ⟨htraced, hc.attempt t⟩

theorem Traced.bandLaw_iff {c : Compiler} {gs : List Grammar} (h : c.Traced gs)
    (hc : c.Coherent) : c.BandLaw ↔
      ∀ id g k, firstFor id gs = some g → lastFor id gs = some k → g.band = k.band := by
  constructor
  · intro law id g k hg hk
    have hentry := h.entry id
    rw [hk] at hentry
    obtain ⟨o, ho, hcat⟩ := Option.map_eq_some_iff.mp hentry
    obtain ⟨f, hf, hb⟩ := h.owner id o.codepoint (hc.owned id o ho)
    obtain rfl : g = f := Option.some.inj (hg.symm.trans hf)
    have hlaw := law o.glyph ((c.mem_glyphs_iff _).mpr ⟨id, o, ho, rfl⟩)
    rw [hcat, ← hc.codepoint id o ho] at hlaw
    rw [Band.contains_iff] at hb hlaw
    exact Band.eq_of_mem hb.1 hb.2 hlaw.1 hlaw.2
  · intro hbands y hy
    obtain ⟨id, o, ho, rfl⟩ := (c.mem_glyphs_iff y).mp hy
    have hentry := h.entry id
    rw [ho] at hentry
    obtain ⟨k, hk, hcat⟩ := Option.map_eq_some_iff.mp hentry.symm
    have hband : k.band = o.glyph.category := hcat
    obtain ⟨g, hg, hb⟩ := h.owner id o.codepoint (hc.owned id o ho)
    rw [← hband, ← hbands id g k hg hk, ← hc.codepoint id o ho]
    exact hb

end Compiler

theorem Grammar.tileId_toList (g : Grammar) :
    ∃ rest, g.tileId.toList = g.category.toList ++ '.' :: rest := by
  unfold tileId
  simp only [String.toList_append, List.append_assoc]
  exact ⟨_, rfl⟩

/-- A category without a dot is what the id of the tile has in front of its first dot. -/
theorem Grammar.takeWhile_tileId {g : Grammar} (h : '.' ∉ g.category.toList) :
    g.tileId.toList.takeWhile (fun c => c ≠ '.') = g.category.toList := by
  obtain ⟨rest, hr⟩ := g.tileId_toList
  have hall : ∀ c ∈ g.category.toList, decide (c ≠ '.') = true := by
    intro c hc
    have hne : c ≠ '.' := fun e => h (e ▸ hc)
    exact decide_eq_true hne
  rw [hr, List.takeWhile_append_of_pos hall]
  simp

theorem Grammar.band_eq_of_tileId {g k : Grammar} (hg : '.' ∉ g.category.toList)
    (hk : '.' ∉ k.category.toList) (h : g.tileId = k.tileId) : g.band = k.band := by
  have hcat : g.category.toList = k.category.toList := by
    rw [← takeWhile_tileId hg, ← takeWhile_tileId hk, h]
  rw [band, band, String.toList_inj.mp hcat]

theorem Category.isKnown_ofText {s : String} (h : (ofText s).isKnown = true) :
    ∃ k ∈ known, k.name = lowerText s := by
  simp only [ofText] at h
  cases hk : known.find? fun c => c.name = lowerText s with
  | some k => exact ⟨k, List.mem_of_find?_eq_some hk, by simpa using List.find?_some hk⟩
  | none =>
    rw [hk] at h
    cases h

theorem Category.dot_notMem_name : ∀ k ∈ known, '.' ∉ k.name.toList := by decide

theorem Category.dot_notMem_of_isKnown {s : String} (h : (ofText s).isKnown = true) :
    '.' ∉ s.toList := by
  intro hdot
  obtain ⟨k, hk, hname⟩ := isKnown_ofText h
  apply dot_notMem_name k hk
  rw [hname]
  exact mem_lowerText (by decide) (by decide) hdot

namespace Compiler

theorem isKnown_of_checkCategory {c : Compiler} (hs : c.config.strictCategories = true)
    {g : Grammar} (h : c.checkCategory g = .ok ()) :
    (Category.ofText g.category).isKnown = true := by
  unfold checkCategory at h
  rw [hs] at h
  cases hk : (Category.ofText g.category).isKnown with
  | true => rfl
  | false =>
    rw [hk] at h
    cases h

theorem isKnown_of_accepted {c : Compiler} (hs : c.config.strictCategories = true)
    (ts : List Attempt) : ∀ g ∈ c.accepted ts, (Category.ofText g.category).isKnown = true := by
  induction ts generalizing c with
  | nil =>
    intro g hg
    cases hg
  | cons t ts ih =>
    intro g hg
    rw [accepted] at hg
    rcases c.attempt_cases t with ⟨e, he, -⟩ | ⟨o, hok, -, -, hd⟩
    · rw [he] at hg
      exact ih hs g hg
    · rw [hok] at hg
      rcases List.mem_cons.mp hg with rfl | hg
      · exact isKnown_of_checkCategory hs (compile_eq_ok hok).2.1
      · exact ih (by rw [hd]; exact hs) g hg

/-- The law holds after a session exactly when the first and the last grammar that is compiled for
a tile are of one band. It does where no compiled category has a dot, and in every strict
session. -/
theorem session_band_law (config : CompilerSettings) (calls : List Call) :
    let c := (fresh config).run calls
    let gs := (fresh config).history calls
    (c.BandLaw ↔
      ∀ id g k, firstFor id gs = some g → lastFor id gs = some k → g.band = k.band) ∧
    ((∀ g ∈ gs, '.' ∉ g.category.toList) → c.BandLaw) ∧
    (config.strictCategories = true → c.BandLaw) := by
  intro c gs
  have hcoherent : (fresh config).Coherent := ofAllocator_coherent config Allocator.fresh_sound
  have htraced : c.Traced gs := by
    have h := (fresh_traced config).attemptAll hcoherent (calls.flatMap Call.attempts)
    rwa [← run_eq_attemptAll] at h
  have hiff := htraced.bandLaw_iff (hcoherent.run calls)
  have hplain : (∀ g ∈ gs, '.' ∉ g.category.toList) → c.BandLaw := by
    intro hdots
    rw [hiff]
    intro id g k hg hk
    obtain ⟨hgm, hgid⟩ := firstFor_some hg
    obtain ⟨hkm, hkid⟩ := lastFor_some hk
    exact Grammar.band_eq_of_tileId (hdots g hgm) (hdots k hkm) (hgid.trans hkid.symm)
  refine ⟨hiff, hplain, fun hs => hplain fun g hg => ?_⟩
  have hknown := isKnown_of_accepted (c := fresh config) hs _ g hg
  exact Category.dot_notMem_of_isKnown hknown

/-- Two grammars of different bands under one id of a tile: the second one's glyph, a prop, stands
at the codepoint of a wall. -/
theorem band_law_fails_dotted : ¬ ((fresh .standard).run
    [.tile ⟨{ Grammar.ofCategory "wall" "stone" with center := "base.empty" }, none, none⟩,
      .tile ⟨Grammar.ofCategory "wall.base" "stone", none, none⟩]).BandLaw := by
  unfold BandLaw
  decide +kernel

end Compiler

end TileGrammar
