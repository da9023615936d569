import TileGrammar.Proofs.Compiler.Batch
import TileGrammar.Proofs.Compiler.InPlace
import TileGrammar.Proofs.Compiler.Registry
import TileGrammar.Proofs.Glyph.Document

/-!
# An export can be checked by whoever reads it

The numbers of a compiled glyph come from a few fixed doubles, and each of
them is read back from its text. So every compiled glyph is portable, and the
document of a batch is read as the glyphs of the compiler, with their digest.
-/

set_option autoImplicit false

namespace TileGrammar

open Json (faithful)

namespace Derivation

theorem penalty_faithful (g : Grammar) (k : Category) : faithful (penalty g k) = true := by
  simp only [penalty]
  split <;> split <;> decide +kernel

theorem threat_faithful (g : Grammar) (k : Category) : faithful (threat g k) = true := by
  unfold threat
  repeat' split
  all_goals decide +kernel

theorem interest_faithful (g : Grammar) (k : Category) : faithful (interest g k) = true := by
  unfold interest
  repeat' split
  all_goals decide +kernel

theorem glyph_portable {g : Grammar} {k : Category} {p : Codepoint} {char : Option Char}
    {y : Glyph} (h : glyph g k p char = .ok y) : y.Portable := by
  obtain ⟨w, -, hy⟩ := bind_eq_ok h
  cases hy
  exact {
    penalty := penalty_faithful g k
    volume := Audio.plain_faithful
    appraisal := {
      threat := threat_faithful g k
      interest := interest_faithful g k
      utility := Appraisal.plain_faithful.utility
      rarity := Appraisal.plain_faithful.rarity }
    plain := rfl }

end Derivation

namespace Compiler

/-- Every compiled glyph is read back from its text. -/
def Exportable (c : Compiler) : Prop := ∀ id o, c.get? id = some o → o.glyph.Portable

theorem ofAllocator_exportable (config : CompilerSettings) (a : Allocator) :
    (ofAllocator config a).Exportable := by
  intro id o ho
  cases ho

theorem Exportable.attempt {c : Compiler} (h : c.Exportable) (t : Attempt) :
    (c.attempt t).Exportable := by
  have hcourse := c.course t
  unfold Compiler.attempt
  cases hout : c.outcome t with
  | error e => exact h
  | ok r =>
    rw [hout] at hcourse
    cases hcourse with
    | done hg hc ha hy =>
      intro id o ho
      have ho' := (get?_put _ _ _ _ _ _).symm.trans ho
      split at ho'
      · cases ho'
        exact Derivation.glyph_portable hy
      · exact h id o ho'

theorem Exportable.portable {c : Compiler} (h : c.Exportable) :
    ∀ y ∈ c.registry.glyphs, y.Portable := by
  intro y hy
  obtain ⟨id, o, ho, rfl⟩ := (c.mem_glyphs_iff y).mp hy
  exact h id o ho

/-- Whatever a compiler has been through, a batch with specs answers a document that is read as
the glyphs the compiler then exports, and its digest is theirs. -/
theorem batch_document_reads_back (config : CompilerSettings) (rs : List Allocator.Request)
    (calls : List Call) (s : Spec) (specs : List Spec) :
    let c := (ofAllocator config (Allocator.fresh.run rs)).run calls
    ∃ batch d, c.compileAll (s :: specs) = .ok (batch, d) ∧
      GlyphSet.ofText batch.registryText = .ok d.registry ∧
      d.registry.digest = batch.registryHash := by
  intro c
  have hc : c.Exportable :=
    run_invariant (fun _ t h => h.attempt t) (ofAllocator_exportable config _) calls
  have hd : (c.attemptAll ((s :: specs).flatMap Spec.attempts)).Exportable :=
    attemptAll_invariant (fun _ t h => h.attempt t) hc _
  refine ⟨_, _, c.compileAll_eq (List.cons_ne_nil s specs), ?_, rfl⟩
  exact GlyphSet.ofText_text hd.portable

end Compiler

end TileGrammar
