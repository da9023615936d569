import TileGrammar.Proofs.Compiler.FaultIsolation
import TileGrammar.Proofs.Compiler.Footprint

/-!
# Independent specs in either order

Attempts at different tiles of different bands do not see one another: each
gets the reply it would get without the other, and both orders end in the same
compiler. Runs of such attempts change places attempt by attempt, so two lists
of specs whose grammars share neither tile nor band may be compiled in either
order, failures included.
-/

set_option autoImplicit false

namespace TileGrammar

def Attempt.Apart (t u : Attempt) : Prop := Allocator.Apart t.request u.request

namespace Compiler

section Apart

variable {t u : Attempt} {ts us : List Attempt}

theorem reply_attempt_of_apart (c : Compiler) (h : t.Apart u) :
    (c.attempt u).reply t = c.reply t := by
  refine reply_congr (c.config_attempt u) ?_
  rcases c.reply_cases u with ⟨m, -, hs⟩ | ⟨o, -, -, -, hs⟩
  · rw [hs]
  · rw [hs]
    exact c.allocator.answer_step_of_apart h

theorem put_comm (c : Compiler) (h : t.Apart u) (o p : Output) :
    (c.put t o).put u p = (c.put u p).put t o := by
  have hallocator := c.allocator.step_comm h
  have hcompiled := c.compiled.insert_comm o p h.1
  exact congrArg₂ (Compiler.mk c.config) hallocator hcompiled

theorem attempt_comm (c : Compiler) (h : t.Apart u) :
    (c.attempt t).attempt u = (c.attempt u).attempt t := by
  have ht := c.reply_attempt_of_apart h
  have hu := c.reply_attempt_of_apart (Allocator.Apart.symm h)
  rw [attempt_eq (c.attempt t), attempt_eq (c.attempt u), ht, hu, c.attempt_eq t, c.attempt_eq u]
  cases c.reply t with
  | error m => cases c.reply u <;> rfl
  | ok o =>
    cases c.reply u with
    | error m => rfl
    | ok p => exact c.put_comm h o p

theorem reply_attemptAll_of_apart (c : Compiler) (h : ∀ u ∈ us, t.Apart u) :
    (c.attemptAll us).reply t = c.reply t := by
  induction us generalizing c with
  | nil => rfl
  | cons u us ih =>
    obtain ⟨hu, hus⟩ := List.forall_mem_cons.mp h
    exact (ih (c.attempt u) hus).trans (c.reply_attempt_of_apart hu)

theorem attempt_attemptAll_comm (c : Compiler) (h : ∀ u ∈ us, t.Apart u) :
    (c.attemptAll us).attempt t = (c.attempt t).attemptAll us := by
  induction us generalizing c with
  | nil => rfl
  | cons u us ih =>
    obtain ⟨hu, hus⟩ := List.forall_mem_cons.mp h
    have hswap : ((c.attempt u).attempt t).attemptAll us =
        ((c.attempt t).attempt u).attemptAll us := by rw [c.attempt_comm hu]
    exact (ih (c.attempt u) hus).trans hswap

/-- Runs of attempts that are apart change places. -/
theorem attemptAll_comm (c : Compiler) (h : ∀ t ∈ ts, ∀ u ∈ us, t.Apart u) :
    (c.attemptAll us).attemptAll ts = (c.attemptAll ts).attemptAll us := by
  induction ts generalizing c with
  | nil => rfl
  | cons t ts ih =>
    obtain ⟨ht, hts⟩ := List.forall_mem_cons.mp h
    calc (c.attemptAll us).attemptAll (t :: ts)
        = ((c.attemptAll us).attempt t).attemptAll ts := rfl
      _ = ((c.attempt t).attemptAll us).attemptAll ts := by rw [c.attempt_attemptAll_comm ht]
      _ = ((c.attempt t).attemptAll ts).attemptAll us := ih (c.attempt t) hts

theorem replies_attemptAll_of_apart (c : Compiler) (h : ∀ t ∈ ts, ∀ u ∈ us, t.Apart u) :
    (c.attemptAll us).replies ts = c.replies ts := by
  induction ts generalizing c with
  | nil => rfl
  | cons t ts ih =>
    obtain ⟨ht, hts⟩ := List.forall_mem_cons.mp h
    rw [replies, replies, c.reply_attemptAll_of_apart ht, c.attempt_attemptAll_comm ht,
      ih (c.attempt t) hts]

theorem specReplies_attemptAll_of_apart (c : Compiler) {s : Spec}
    (h : ∀ t ∈ s.attempts, ∀ u ∈ us, t.Apart u) :
    (c.attemptAll us).specReplies s = c.specReplies s := by
  unfold specReplies
  cases s.check with
  | ok => exact c.replies_attemptAll_of_apart h
  | error e => rfl

theorem batchReplies_attemptAll_of_apart (c : Compiler) {specs : List Spec}
    (h : ∀ t ∈ specs.flatMap Spec.attempts, ∀ u ∈ us, t.Apart u) :
    (c.attemptAll us).batchReplies specs = c.batchReplies specs := by
  induction specs generalizing c with
  | nil => rfl
  | cons s specs ih =>
    rw [List.flatMap_cons, List.forall_mem_append] at h
    obtain ⟨hs, hspecs⟩ := h
    rw [batchReplies, batchReplies, c.specReplies_attemptAll_of_apart hs, c.attemptAll_comm hs,
      ih (c.attemptAll s.attempts) hspecs]

end Apart

/-- No grammar that is attempted for the one list has the tile or the band of one for the other. -/
def Independent (a b : List Spec) : Prop :=
  ∀ g ∈ a.flatMap Spec.grammars, ∀ k ∈ b.flatMap Spec.grammars,
    g.tileId ≠ k.tileId ∧ g.band ≠ k.band

instance (a b : List Spec) : Decidable (Independent a b) :=
  inferInstanceAs (Decidable (∀ g ∈ a.flatMap Spec.grammars, ∀ k ∈ b.flatMap Spec.grammars,
    g.tileId ≠ k.tileId ∧ g.band ≠ k.band))

theorem Independent.apart {a b : List Spec} (h : Independent a b) :
    ∀ t ∈ a.flatMap Spec.attempts, ∀ u ∈ b.flatMap Spec.attempts, t.Apart u := by
  rw [flatMap_attempts, flatMap_attempts]
  intro t ht u hu
  obtain ⟨g, hg, rfl⟩ := List.mem_map.mp ht
  obtain ⟨k, hk, rfl⟩ := List.mem_map.mp hu
  exact h g hg k hk

theorem Independent.symm {a b : List Spec} (h : Independent a b) : Independent b a :=
  fun k hk g hg => ⟨(h g hg k hk).1.symm, (h g hg k hk).2.symm⟩

theorem batchReplies_append_of_independent (c : Compiler) {a b : List Spec}
    (h : Independent a b) : c.batchReplies (a ++ b) = c.batchReplies a ++ c.batchReplies b := by
  rw [batchReplies_append, c.batchReplies_attemptAll_of_apart h.symm.apart]

/-- From any compiler, two lists of specs whose grammars share neither tile nor band: both orders
end in one compiler, with one text and digest, and each list has the replies, outputs and messages
alike, that it has when it is compiled alone. -/
theorem independent_specs_commute (c : Compiler) {a b : List Spec} (hab : a ++ b ≠ [])
    (h : Independent a b) : ∃ x y d,
      c.compileAll (a ++ b) = .ok (x, d) ∧ c.compileAll (b ++ a) = .ok (y, d) ∧
      y.registryText = x.registryText ∧ y.registryHash = x.registryHash ∧
      c.batchReplies (a ++ b) = c.batchReplies a ++ c.batchReplies b ∧
      c.batchReplies (b ++ a) = c.batchReplies b ++ c.batchReplies a ∧
      x.outputs = outputsOf (c.batchReplies (a ++ b)) ∧
      x.errors = messagesOf (c.batchReplies (a ++ b)) ∧
      y.outputs = outputsOf (c.batchReplies (b ++ a)) ∧
      y.errors = messagesOf (c.batchReplies (b ++ a)) := by
  have hba : b ++ a ≠ [] := by
    rw [Ne, List.append_eq_nil_iff] at hab ⊢
    exact fun e => hab e.symm
  have hend : c.attemptAll ((b ++ a).flatMap Spec.attempts) =
      c.attemptAll ((a ++ b).flatMap Spec.attempts) := by
    rw [List.flatMap_append, List.flatMap_append, attemptAll_append, attemptAll_append,
      c.attemptAll_comm h.apart]
  have hy := c.compileAll_eq hba
  rw [hend] at hy
  exact ⟨_, _, _, c.compileAll_eq hab, hy, rfl, rfl, c.batchReplies_append_of_independent h,
    c.batchReplies_append_of_independent h.symm, rfl, rfl, rfl, rfl⟩

theorem independent_specs_commute_wall_water :
    let c := fresh .standard
    let wall := Grammar.ofCategory "wall" "stone"
    let a : List Spec := [{ Spec.ofGrammar "walls" wall with ageVariants := 3 },
      { Spec.ofGrammar "worn" wall with damageVariants := 9 }]
    let b : List Spec := [{ Spec.ofGrammar "water" (Grammar.ofCategory "water" "blue") with
      lightingVariants := 3 }]
    a ++ b ≠ [] ∧ Independent a b ∧ ∃ x y d,
      c.compileAll (a ++ b) = .ok (x, d) ∧ c.compileAll (b ++ a) = .ok (y, d) ∧
      y.registryText = x.registryText ∧ y.registryHash = x.registryHash := by
  intro c wall a b
  have hab : a ++ b ≠ [] := List.cons_ne_nil _ _
  have hindependent : Independent a b := by decide +kernel
  obtain ⟨x, y, d, hx, hy, htext, hhash, -⟩ := independent_specs_commute c hab hindependent
  exact ⟨hab, hindependent, x, y, d, hx, hy, htext, hhash⟩

end Compiler

end TileGrammar
