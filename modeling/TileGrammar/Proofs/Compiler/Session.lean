import TileGrammar.Compiler.Compiler
import TileGrammar.Proofs.Codepoint.Allocation

/-!
# Sessions of a compiler

A session is a list of calls, each for one grammar or for a batch of specs. A
spec stands for an attempt at each grammar of its family. What an attempt can
do is said once, by cases, and what an attempt preserves every run of attempts
preserves.
-/

set_option autoImplicit false

namespace TileGrammar

def Grammar.band (g : Grammar) : Band := (Category.ofText g.category).band

structure Attempt where
  grammar : Grammar
  imagePath : Option String
  char : Option Char

/-- The attempts that a spec stands for. A spec that is refused stands for none. -/
def Spec.attempts (s : Spec) : List Attempt :=
  match s.check with
  | .ok _ => s.family.map fun g => ⟨g, none, none⟩
  | .error _ => []

inductive Call where
  | tile (t : Attempt)
  | batch (specs : List Spec)

def Call.attempts : Call → List Attempt
  | .tile t => [t]
  | .batch specs => specs.flatMap Spec.attempts

structure Output.Of (o : Output) (g : Grammar) : Prop where
  tileId : o.tileId = g.tileId
  codepoint : o.codepoint = o.glyph.codepoint
  category : o.glyph.category = g.band
  edges : o.edges = g.edges

theorem Derivation.glyph_eq_ok {g : Grammar} {k : Category} {c : Codepoint} {char : Option Char}
    {y : Glyph} (h : glyph g k c char = .ok y) : y.codepoint = c ∧ y.category = k.band := by
  obtain ⟨w, -, hy⟩ := bind_eq_ok h
  cases hy
  exact ⟨rfl, rfl⟩

namespace Compiler

def outcome (c : Compiler) (t : Attempt) : Except Error (Output × Compiler) :=
  c.compile t.grammar t.imagePath t.char

def attempt (c : Compiler) (t : Attempt) : Compiler :=
  match c.outcome t with
  | .ok (_, c) => c
  | .error _ => c

def attemptAll (c : Compiler) (ts : List Attempt) : Compiler := ts.foldl attempt c

def accepted (c : Compiler) : List Attempt → List Grammar
  | [] => []
  | t :: ts => match c.outcome t with
    | .ok (_, d) => t.grammar :: d.accepted ts
    | .error _ => c.accepted ts

def step (c : Compiler) : Call → Compiler
  | .tile t => c.attempt t
  | .batch specs => match c.compileAll specs with
    | .ok (_, c) => c
    | .error _ => c

def run (c : Compiler) (calls : List Call) : Compiler := calls.foldl step c

theorem attemptAll_append (c : Compiler) (ts us : List Attempt) :
    c.attemptAll (ts ++ us) = (c.attemptAll ts).attemptAll us := List.foldl_append

theorem compile_eq_ok {c d : Compiler} {g : Grammar} {path : Option String} {char : Option Char}
    {o : Output} (h : c.compile g path char = .ok (o, d)) :
    g.check = .ok () ∧ c.checkCategory g = .ok () ∧ o.Of g ∧
    c.allocator.assign g.tileId g.band = .ok (o.codepoint, d.allocator) ∧
    d = ⟨c.config, d.allocator, c.compiled.insert g.tileId o⟩ := by
  obtain ⟨⟨⟩, hg, h⟩ := bind_eq_ok h
  obtain ⟨⟨⟩, hc, h⟩ := bind_eq_ok h
  obtain ⟨⟨codepoint, a⟩, ha, h⟩ := bind_eq_ok h
  obtain ⟨y, hy, h⟩ := bind_eq_ok h
  obtain ⟨hcode, hcat⟩ := Derivation.glyph_eq_ok hy
  cases h
  exact ⟨hg, hc, ⟨rfl, hcode.symm, hcat, rfl⟩, ha, rfl⟩

/-- What an attempt does: it fails and changes nothing, or its tile has asked for a codepoint and
has a new entry, an output of the grammar with that codepoint. -/
theorem attempt_cases (c : Compiler) (t : Attempt) :
    (∃ e, c.outcome t = .error e ∧ c.attempt t = c) ∨
    ∃ o, c.outcome t = .ok (o, c.attempt t) ∧ o.Of t.grammar ∧
      (c.allocator.step (t.grammar.tileId, t.grammar.band)).get? t.grammar.tileId =
        some o.codepoint ∧
      c.attempt t = ⟨c.config, c.allocator.step (t.grammar.tileId, t.grammar.band),
        c.compiled.insert t.grammar.tileId o⟩ := by
  unfold attempt
  cases h : c.outcome t with
  | error e => exact .inl ⟨e, rfl, rfl⟩
  | ok r =>
    obtain ⟨o, d⟩ := r
    obtain ⟨-, -, ho, ha, hd⟩ := compile_eq_ok h
    obtain ⟨hs, hown⟩ := Allocator.assign_eq_ok ha
    rw [hs] at hd hown
    exact .inr ⟨o, rfl, ho, hown, hd⟩

theorem attemptAll_invariant {P : Compiler → Prop} (hs : ∀ c t, P c → P (c.attempt t))
    {c : Compiler} (h : P c) (ts : List Attempt) : P (c.attemptAll ts) := by
  induction ts generalizing c with
  | nil => exact h
  | cons t ts ih => exact ih (hs c t h)

/-- What holds of a compiler and the grammars it has compiled, and is kept when one more is
compiled, holds after a run of attempts with the grammars of the run behind the earlier ones. -/
theorem attemptAll_with_history {P : Compiler → List Grammar → Prop}
    (hs : ∀ c gs t o, P c gs → c.outcome t = .ok (o, c.attempt t) →
      P (c.attempt t) (gs ++ [t.grammar]))
    {c : Compiler} {gs : List Grammar} (h : P c gs) (ts : List Attempt) :
    P (c.attemptAll ts) (gs ++ c.accepted ts) := by
  induction ts generalizing c gs with
  | nil =>
    rw [accepted, List.append_nil]
    exact h
  | cons t ts ih =>
    rw [show c.attemptAll (t :: ts) = (c.attempt t).attemptAll ts from rfl, accepted]
    rcases c.attempt_cases t with ⟨e, he, hc⟩ | ⟨o, hok, -, -, -⟩
    · rw [he, hc]
      exact ih h
    · rw [hok, List.append_cons]
      exact ih (hs c gs t o h hok)

theorem attemptAll_along {P : Compiler → List Grammar → Prop}
    (hs : ∀ c gs t o, P c gs → o.Of t.grammar →
      c.attempt t = ⟨c.config, c.allocator.step (t.grammar.tileId, t.grammar.band),
        c.compiled.insert t.grammar.tileId o⟩ →
      P (c.attempt t) (gs ++ [t.grammar]))
    {c : Compiler} {gs : List Grammar} (h : P c gs) (ts : List Attempt) :
    P (c.attemptAll ts) (gs ++ c.accepted ts) := by
  refine attemptAll_with_history (fun c gs t o h hok => ?_) h ts
  rcases c.attempt_cases t with ⟨e, he, -⟩ | ⟨o, -, ho, -, hc⟩
  · cases hok.symm.trans he
  · exact hs c gs t o h ho hc

end Compiler

end TileGrammar
