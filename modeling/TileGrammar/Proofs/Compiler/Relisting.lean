import TileGrammar.Proofs.Compiler.Footprint
import TileGrammar.Proofs.Glyph.Tags
import TileGrammar.Proofs.Grammar.Orbit

/-!
# Tags and styles in another order

Two grammars that differ in nothing but the order and the repetition of their
tags and styles are compiled alike. Only the digest of the grammar, which is
kept beside the glyph, may differ. So two sessions that go through such
grammars side by side hand out the same codepoints and export the same glyphs.
-/

set_option autoImplicit false

namespace TileGrammar

/-- A grammar with the same tags and styles in some order, each any number of times. -/
inductive Grammar.Relisted (g : Grammar) : Grammar → Prop
  | mk {tags : List String} {styles : List Style} (ht : ∀ tag, tag ∈ tags ↔ tag ∈ g.tags)
      (hs : ∀ s, s ∈ styles ↔ s ∈ g.styles) : Relisted g { g with tags := tags, styles := styles }

inductive Attempt.Relisted (t : Attempt) : Attempt → Prop
  | mk {h : Grammar} (hg : t.grammar.Relisted h) : Relisted t { t with grammar := h }

inductive Spec.Relisted (s : Spec) : Spec → Prop
  | mk {h : Grammar} (hg : s.grammar.Relisted h) : Relisted s { s with grammar := h }

inductive Call.Relisted : Call → Call → Prop
  | tile {t u : Attempt} (h : t.Relisted u) : Relisted (.tile t) (.tile u)
  | batch {ss rs : List Spec} (h : List.Forall₂ Spec.Relisted ss rs) :
      Relisted (.batch ss) (.batch rs)

namespace Grammar.Relisted

variable {g h : Grammar}

theorem callsFor_iff (hr : g.Relisted h) (tag : String) : g.CallsFor tag ↔ h.CallsFor tag := by
  cases hr with
  | mk ht hs => simp only [CallsFor, ht, hs]

theorem glyph_eq (hr : g.Relisted h) (k : Category) (p : Codepoint) (char : Option Char) :
    Derivation.glyph g k p char = Derivation.glyph h k p char := by
  have htags := Derivation.tagList_congr hr.callsFor_iff
  unfold Derivation.glyph
  rw [htags]
  cases hr
  rfl

end Grammar.Relisted

def Output.unhashed (o : Output) : Output := { o with grammarHash := "" }

theorem Attempt.unhashed_output (t : Attempt) (p : Codepoint) (y : Glyph) :
    (t.output p y).unhashed = ⟨y, p, t.grammar.tileId, t.imagePath, t.grammar.edges, ""⟩ := rfl

namespace Attempt.Relisted

variable {t u : Attempt}

theorem tileId_eq (hr : t.Relisted u) : t.grammar.tileId = u.grammar.tileId := by
  rcases hr with ⟨⟨-, -⟩⟩
  rfl

theorem band_eq (hr : t.Relisted u) : t.grammar.band = u.grammar.band := by
  rcases hr with ⟨⟨-, -⟩⟩
  rfl

theorem glyph_eq (hr : t.Relisted u) (p : Codepoint) :
    Derivation.glyph t.grammar (Category.ofText t.grammar.category) p t.char =
      Derivation.glyph u.grammar (Category.ofText u.grammar.category) p u.char := by
  obtain ⟨hg⟩ := hr
  rw [hg.glyph_eq]
  rcases hg with ⟨-, -⟩
  rfl

theorem output_eq (hr : t.Relisted u) (p : Codepoint) (y : Glyph) :
    (t.output p y).unhashed = (u.output p y).unhashed := by
  rw [unhashed_output, unhashed_output]
  rcases hr with ⟨⟨-, -⟩⟩
  rfl

end Attempt.Relisted

namespace Spec.Relisted

variable {s r : Spec}

theorem family (hr : s.Relisted r) : List.Forall₂ Grammar.Relisted s.family r.family := by
  obtain ⟨@⟨tags, styles, ht, hs⟩⟩ := hr
  let other : Grammar := { s.grammar with tags := tags, styles := styles }
  have hfamily : Spec.family { s with grammar := other } =
      s.family.map fun g => { g with tags := tags, styles := styles } := by
    simp only [Spec.family, List.map_flatMap, List.map_map]
    rfl
  rw [hfamily, List.forall₂_map_right_iff, List.forall₂_same]
  intro g hg
  obtain ⟨-, -, hbase⟩ := (s.mem_family_iff g).mp hg
  have htags : g.tags = s.grammar.tags := by rw [hbase]; rfl
  have hstyles : g.styles = s.grammar.styles := by rw [hbase]; rfl
  exact ⟨htags ▸ ht, hstyles ▸ hs⟩

theorem check_eq (hr : s.Relisted r) : s.check = r.check := by
  cases hr
  rfl

theorem attempts (hr : s.Relisted r) : List.Forall₂ Attempt.Relisted s.attempts r.attempts := by
  have hfamily := hr.family
  unfold Spec.attempts
  rw [← hr.check_eq]
  cases s.check with
  | error e => exact .nil
  | ok =>
    rw [List.forall₂_map_left_iff, List.forall₂_map_right_iff]
    exact hfamily.imp fun g h hg => ⟨hg⟩

end Spec.Relisted

theorem Call.Relisted.attempts {k l : Call} (h : k.Relisted l) :
    List.Forall₂ Attempt.Relisted k.attempts l.attempts := by
  cases h with
  | tile h => exact .cons h .nil
  | batch h => exact List.rel_flatMap h fun _ _ hr => hr.attempts

namespace Compiler

variable {c d : Compiler} {t u : Attempt}

/-- A compiler with the digests taken out of its entries. -/
def unhashed (c : Compiler) : Compiler :=
  { c with compiled := c.compiled.mapEntries fun _ o => o.unhashed }

def unhashedOutcome (c : Compiler) (t : Attempt) : Except Error (Output × Compiler) :=
  (c.outcome t).map fun r => (r.1.unhashed, r.2.unhashed)

theorem registry_unhashed (c : Compiler) : c.unhashed.registry = c.registry := by
  simp only [registry, unhashed, Dict.values, Dict.mapEntries, List.map_map]
  rfl

theorem screen_relisted (c : Compiler) (hr : t.Relisted u) : c.screen t = c.screen u := by
  rcases hr with ⟨⟨-, -⟩⟩
  rfl

theorem unhashed_insert (c : Compiler) (a : Allocator) (id : String) (o : Output) :
    unhashed ⟨c.config, a, c.compiled.insert id o⟩ =
      ⟨c.unhashed.config, a, c.unhashed.compiled.insert id o.unhashed⟩ := by
  rw [unhashed, Dict.mapEntries_insert]
  rfl

theorem unhashedOutcome_eq (c : Compiler) (t : Attempt) : c.unhashedOutcome t = (do
    c.screen t
    let (p, a) ← c.allocator.assign t.grammar.tileId t.grammar.band
    let y ← Derivation.glyph t.grammar (Category.ofText t.grammar.category) p t.char
    .ok ((t.output p y).unhashed, ⟨c.unhashed.config, a,
      c.unhashed.compiled.insert t.grammar.tileId (t.output p y).unhashed⟩)) := by
  rw [unhashedOutcome, outcome_eq]
  cases c.screen t with
  | error e => rfl
  | ok =>
    simp only [bind, Except.bind]
    cases c.allocator.assign t.grammar.tileId t.grammar.band with
    | error e => rfl
    | ok r =>
      dsimp only
      cases Derivation.glyph t.grammar (Category.ofText t.grammar.category) r.1 t.char with
      | error e => rfl
      | ok y => simp only [Except.map, unhashed_insert]

theorem unhashedOutcome_relisted (h : c.unhashed = d.unhashed) (hr : t.Relisted u) :
    c.unhashedOutcome t = d.unhashedOutcome u := by
  have hconfig : d.config = c.config := (congrArg Compiler.config h).symm
  have hallocator : d.allocator = c.allocator := (congrArg Compiler.allocator h).symm
  have hscreen : d.screen u = c.screen t :=
    (screen_congr hconfig u).trans (c.screen_relisted hr).symm
  rw [unhashedOutcome_eq, unhashedOutcome_eq, ← h, hscreen, hallocator]
  simp only [hr.tileId_eq, hr.band_eq, hr.glyph_eq, hr.output_eq]

/-- From compilers that differ in digests alone, relisted attempts lead to such compilers. -/
theorem attempt_relisted (h : c.unhashed = d.unhashed) (hr : t.Relisted u) :
    (c.attempt t).unhashed = (d.attempt u).unhashed := by
  have hboth := unhashedOutcome_relisted h hr
  unfold unhashedOutcome at hboth
  unfold attempt
  cases ht : c.outcome t with
  | error e =>
    cases hu : d.outcome u with
    | error f => exact h
    | ok r =>
      rw [ht, hu] at hboth
      cases hboth
  | ok q =>
    cases hu : d.outcome u with
    | error f =>
      rw [ht, hu] at hboth
      cases hboth
    | ok r =>
      rw [ht, hu] at hboth
      exact congrArg Prod.snd (Except.ok.inj hboth)

theorem attemptAll_relisted (h : c.unhashed = d.unhashed) {ts us : List Attempt}
    (hr : List.Forall₂ Attempt.Relisted ts us) :
    (c.attemptAll ts).unhashed = (d.attemptAll us).unhashed := by
  induction hr generalizing c d with
  | nil => exact h
  | cons hr _ ih => exact ih (attempt_relisted h hr)

theorem run_relisted (c : Compiler) {ks ls : List Call} (hr : List.Forall₂ Call.Relisted ks ls) :
    (c.run ks).unhashed = (c.run ls).unhashed := by
  rw [run_eq_attemptAll, run_eq_attemptAll]
  exact attemptAll_relisted rfl (List.rel_flatMap hr fun _ _ h => h.attempts)

theorem map_unhashedOutcome (c : Compiler) (t : Attempt) :
    (c.unhashedOutcome t).map (fun r => (r.1.glyph, r.2.registry)) =
      (c.outcome t).map fun r => (r.1.glyph, r.2.registry) := by
  unfold unhashedOutcome
  cases c.outcome t with
  | error e => rfl
  | ok r =>
    simp only [Except.map, registry_unhashed]
    rfl

theorem tags_of_outcome {o : Output} (h : c.outcome t = .ok (o, d)) :
    o.glyph.tags = Derivation.tagList t.grammar := by
  have hcourse := c.course t
  rw [h] at hcourse
  cases hcourse with
  | done hg hc ha hy => exact Derivation.tags_of_glyph hy

/-- The tags of a compiled glyph are in strictly increasing order, and they are those that its
grammar calls for. Where the tags and styles of a grammar stand in another order, or some of them
more often, it fails alike or has the same glyph, and the same glyphs are exported. So are they
after whole sessions that go through such grammars side by side. -/
theorem tags_are_a_sorted_set :
    (∀ (c d : Compiler) (t : Attempt) (o : Output), c.outcome t = .ok (o, d) →
      o.glyph.tags.Pairwise (· < ·) ∧ ∀ tag, tag ∈ o.glyph.tags ↔ t.grammar.CallsFor tag) ∧
    (∀ (c : Compiler) (t u : Attempt), t.Relisted u →
      (c.outcome t).map (fun r => (r.1.glyph, r.2.registry)) =
        (c.outcome u).map fun r => (r.1.glyph, r.2.registry)) ∧
    ∀ (c : Compiler) (ks ls : List Call), List.Forall₂ Call.Relisted ks ls →
      (c.run ks).registry = (c.run ls).registry := by
  refine ⟨fun c d t o h => ?_, fun c t u hr => ?_, fun c ks ls hr => ?_⟩
  · rw [tags_of_outcome h]
    exact ⟨Derivation.tagList_ordered t.grammar, Derivation.mem_tagList_iff t.grammar⟩
  · rw [← map_unhashedOutcome, unhashedOutcome_relisted rfl hr, map_unhashedOutcome]
  · rw [← registry_unhashed, run_relisted c hr, registry_unhashed]

theorem tags_are_a_sorted_set_gate :
    let c := fresh .standard
    let gate := { Grammar.ofCategory "wall" "stone" with
      edges := Signature.onAllSides .solid, tags := ["solid", "gate", "solid"],
      styles := [.flat, .pixel] }
    let again := { gate with tags := ["gate", "solid"], styles := [.pixel, .flat, .pixel] }
    let t : Attempt := ⟨gate, none, none⟩
    let u : Attempt := ⟨again, none, none⟩
    let ks := [Call.tile t, .batch [.ofGrammar "gates" gate]]
    let ls := [Call.tile u, .batch [.ofGrammar "gates" again]]
    t.Relisted u ∧ List.Forall₂ Call.Relisted ks ls ∧
      (∃ o d, c.outcome t = .ok (o, d) ∧ o.glyph.tags.Pairwise (· < ·) ∧ "solid" ∈ o.glyph.tags ∧
        "wet" ∉ o.glyph.tags) ∧
      (c.outcome t).map (fun r => (r.1.glyph, r.2.registry)) =
        (c.outcome u).map (fun r => (r.1.glyph, r.2.registry)) ∧
      (c.run ks).registry = (c.run ls).registry := by
  intro c gate again t u ks ls
  have htags : ∀ tag, tag ∈ ["gate", "solid"] ↔ tag ∈ ["solid", "gate", "solid"] := by
    simp [or_comm]
  have hstyles : ∀ s, s ∈ [Style.pixel, .flat, .pixel] ↔ s ∈ [Style.flat, .pixel] := by
    simp [or_comm]
  have hgate : gate.Relisted again := ⟨htags, hstyles⟩
  have ht : t.Relisted u := ⟨hgate⟩
  have hcalls : List.Forall₂ Call.Relisted ks ls :=
    .cons (.tile ht) (.cons (.batch (.cons ⟨hgate⟩ .nil)) .nil)
  obtain ⟨hset, hglyph, hregistry⟩ := tags_are_a_sorted_set
  have hdone : (c.outcome t).toOption.isSome = true := by decide +kernel
  refine ⟨ht, hcalls, ?_, hglyph c t u ht, hregistry c ks ls hcalls⟩
  cases ho : c.outcome t with
  | error e =>
    rw [ho] at hdone
    cases hdone
  | ok r =>
    obtain ⟨o, d⟩ := r
    obtain ⟨hordered, hmem⟩ := hset c d t o ho
    refine ⟨o, d, rfl, hordered, (hmem "solid").mpr (.inl (by decide)), fun hwet => ?_⟩
    have hcalled : gate.CallsFor "wet" := (hmem "wet").mp hwet
    simp [Grammar.CallsFor, gate, Grammar.ofCategory, Style.name] at hcalled

end Compiler

end TileGrammar
