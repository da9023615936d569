import TileGrammar.Proofs.Compiler.Batch
import TileGrammar.Proofs.Compiler.InPlace

/-!
# Failures leave no trace

A failed compilation writes nothing. So a batch does for the grammars that
succeed what it would do without the others, and it may be cut in two at any
spec. The statements are about every compiler, with whatever allocator and
entries it has.
-/

set_option autoImplicit false

namespace TileGrammar

def Spec.grammars (s : Spec) : List Grammar :=
  match s.check with
  | .ok _ => s.family
  | .error _ => []

theorem Spec.attempts_eq (s : Spec) : s.attempts = s.grammars.map Grammar.attempt := by
  unfold attempts grammars
  cases s.check <;> rfl

theorem flatMap_attempts (specs : List Spec) :
    specs.flatMap Spec.attempts = (specs.flatMap Spec.grammars).map Grammar.attempt := by
  rw [List.map_flatMap, funext Spec.attempts_eq]

namespace Compiler

/-- Compiles grammars one after the other, none of which may fail. -/
def compileEach (c : Compiler) : List Grammar → Except Error (List Output × Compiler)
  | [] => .ok ([], c)
  | g :: gs => do
    let (o, c) ← c.compile g none none
    let (os, c) ← c.compileEach gs
    .ok (o :: os, c)

theorem compileEach_cons {c d e : Compiler} {g : Grammar} {gs : List Grammar} {o : Output}
    {os : List Output} (hg : c.outcome g.attempt = .ok (o, d))
    (hgs : d.compileEach gs = .ok (os, e)) : c.compileEach (g :: gs) = .ok (o :: os, e) := by
  have hc : c.compile g none none = .ok (o, d) := hg
  simp only [compileEach, hc, hgs, bind, Except.bind]

/-- The grammars that succeed in a run succeed alone, with the same outputs and the same end. -/
theorem compileEach_accepted (c : Compiler) (gs : List Grammar) :
    c.compileEach (c.accepted (gs.map Grammar.attempt)) =
      .ok (outputsOf (c.replies (gs.map Grammar.attempt)),
        c.attemptAll (gs.map Grammar.attempt)) := by
  induction gs generalizing c with
  | nil => rfl
  | cons g gs ih =>
    have hrun : c.attemptAll ((g :: gs).map Grammar.attempt) =
        (c.attempt g.attempt).attemptAll (gs.map Grammar.attempt) := rfl
    rw [hrun, List.map_cons, accepted, replies, reply]
    rcases c.attempt_cases g.attempt with ⟨e, he, hs⟩ | ⟨o, hok, -, -, -⟩
    · -- The failure left the compiler as it was, so the rest starts from the same one.
      rw [he, hs]
      exact ih c
    · rw [hok]
      exact compileEach_cons hok (ih _)

theorem compileAll_eq_compileEach (c : Compiler) {specs : List Spec} (hs : specs ≠ []) :
    ∃ x d, c.compileAll specs = .ok (x, d) ∧
      c.compileEach (c.accepted (specs.flatMap Spec.attempts)) = .ok (x.outputs, d) := by
  refine ⟨_, _, c.compileAll_eq hs, ?_⟩
  rw [outputsOf_batchReplies, flatMap_attempts]
  exact c.compileEach_accepted _

/-- Two batches, one after the other, are one batch. -/
theorem compileAll_append {c d e : Compiler} {a b : List Spec} {x y : Batch} (ha : a ≠ [])
    (hb : b ≠ []) (hx : c.compileAll a = .ok (x, d)) (hy : d.compileAll b = .ok (y, e)) :
    c.compileAll (a ++ b) = .ok (⟨x.outputs ++ y.outputs, x.errors ++ y.errors, y.registryText,
      y.registryHash⟩, e) := by
  have hab : a ++ b ≠ [] := List.append_ne_nil_of_left_ne_nil ha b
  rw [compileAll_eq c ha] at hx
  cases hx
  rw [compileAll_eq _ hb] at hy
  cases hy
  rw [compileAll_eq c hab]
  simp only [batchReplies_append, List.flatMap_append, attemptAll_append, outputsOf_append,
    messagesOf_append]

/-- From any compiler: compiling in place fails for three kinds of reasons, each time with nothing
written, and otherwise does what compiling does. A batch outputs and leaves what its successful
grammars do when they alone are compiled, in order. A batch of two lists of specs gives the outputs
and errors of both, one after the other, and the end, text and digest of the second. -/
theorem batch_isolates_faults (c : Compiler) {a b : List Spec} (ha : a ≠ []) (hb : b ≠ []) :
    (∀ t e d, (compileInPlace t).run c = .error e d → d = c ∧ c.outcome t = .error e ∧
      (e.kind = .invalidGrammar ∨ e.kind = .unknownCategory ∨ e.kind = .rangeExhausted)) ∧
    (∀ t o d, (compileInPlace t).run c = .ok o d ↔ c.outcome t = .ok (o, d)) ∧
    ∃ x d y e, c.compileAll a = .ok (x, d) ∧
      c.compileEach (c.accepted (a.flatMap Spec.attempts)) = .ok (x.outputs, d) ∧
      d.compileAll b = .ok (y, e) ∧
      c.compileAll (a ++ b) = .ok (⟨x.outputs ++ y.outputs, x.errors ++ y.errors, y.registryText,
        y.registryHash⟩, e) := by
  refine ⟨fun t e d h => ?_, fun t o d => ?_, ?_⟩
  · rw [compileInPlace_run] at h
    cases ho : c.outcome t with
    | ok r =>
      rw [ho] at h
      cases h
    | error f =>
      rw [ho] at h
      cases h
      exact ⟨rfl, rfl, kind_of_outcome_eq_error ho⟩
  · rw [compileInPlace_run]
    cases c.outcome t with
    | ok r => simp [Prod.ext_iff]
    | error f => simp
  · obtain ⟨x, d, hx, hsolo⟩ := c.compileAll_eq_compileEach ha
    obtain ⟨y, e, hy, -⟩ := d.compileAll_eq_compileEach hb
    exact ⟨x, d, y, e, hx, hsolo, hy, compileAll_append ha hb hx hy⟩

theorem batch_isolates_faults_statue :
    let c := fresh { CompilerSettings.standard with strictCategories := true }
    let wall := (Grammar.ofCategory "wall" "stone").withDials 0 0 0 0
    let statues := Spec.ofGrammar "statues" (Grammar.ofCategory "statue" "stone")
    let a := [statues, .ofGrammar "walls" wall]
    let b := [statues]
    a ≠ [] ∧ b ≠ [] ∧ c.accepted (a.flatMap Spec.attempts) = [wall] ∧
    ∃ x d y e, c.compileAll a = .ok (x, d) ∧ c.compileEach [wall] = .ok (x.outputs, d) ∧
      d.compileAll b = .ok (y, e) ∧
      c.compileAll (a ++ b) = .ok (⟨x.outputs ++ y.outputs, x.errors ++ y.errors, y.registryText,
        y.registryHash⟩, e) := by
  intro c wall statues a b
  have haccepted : c.accepted (a.flatMap Spec.attempts) = [wall] := by decide +kernel
  have ha : a ≠ [] := List.cons_ne_nil _ _
  have hb : b ≠ [] := List.cons_ne_nil _ _
  obtain ⟨-, -, h⟩ := batch_isolates_faults c ha hb
  rw [haccepted] at h
  exact ⟨ha, hb, haccepted, h⟩

end Compiler

end TileGrammar
