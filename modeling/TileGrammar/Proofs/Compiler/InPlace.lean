import TileGrammar.Proofs.Codepoint.Permanence
import TileGrammar.Proofs.Compiler.Session
import TileGrammar.Proofs.Grammar.Checked

/-!
# Compiling in place

The same steps on a compiler that is written to as they go, and where a write
stays when a later step fails. The allocator is written before the glyph is
made, so a failure of the glyph would use up a codepoint. A checked grammar
has its dials within the lists of words, so its glyph never fails, and what
does fail fails before anything is written.
-/

set_option autoImplicit false

namespace TileGrammar

namespace Derivation

theorem wordAt_ok {d : Dial} {n : UInt8} (h : n.toNat < d.words.length) :
    ∃ w, wordAt d n = .ok w := by
  unfold wordAt
  split
  · exact ⟨none, rfl⟩
  · rw [List.getElem?_eq_getElem h]
    exact ⟨some _, rfl⟩

theorem glyph_ok {g : Grammar} (h : g.check = .ok ()) (k : Category) (c : Codepoint)
    (char : Option Char) : ∃ y, glyph g k c char = .ok y := by
  obtain ⟨-, -, hdials⟩ := g.check_eq_ok_iff.mp h
  obtain ⟨v, hv⟩ := wordAt_ok (d := .damage) (Nat.lt_succ_of_le (hdials .damage))
  obtain ⟨w, hw⟩ := wordAt_ok (d := .age) (Nat.lt_succ_of_le (hdials .age))
  have hwords : words g = .ok ⟨v, g.moisture ≠ 0, w⟩ := by
    unfold words
    rw [show g.damage = g.dial .damage from rfl, show g.age = g.dial .age from rfl, hv, hw]
    rfl
  unfold glyph
  rw [hwords]
  exact ⟨_, rfl⟩

end Derivation

def Attempt.output (t : Attempt) (p : Codepoint) (y : Glyph) : Output :=
  ⟨y, p, t.grammar.tileId, t.imagePath, t.grammar.edges, digestOf Grammar.codec t.grammar⟩

namespace Compiler

/-- Where an attempt stops, and what it comes to: at the check of its grammar, at its category, at
a full band, or not at all. -/
inductive Course (c : Compiler) (t : Attempt) : Except Error (Output × Compiler) → Prop
  | refused {e : Error} (hg : t.grammar.check = .error e) : Course c t (.error e)
  | unknown {e : Error} (hg : t.grammar.check = .ok ())
      (hc : c.checkCategory t.grammar = .error e) : Course c t (.error e)
  | full {e : Error} (hg : t.grammar.check = .ok ()) (hc : c.checkCategory t.grammar = .ok ())
      (ha : c.allocator.assign t.grammar.tileId t.grammar.band = .error e) :
      Course c t (.error e)
  | done {p : Codepoint} {a : Allocator} {y : Glyph} (hg : t.grammar.check = .ok ())
      (hc : c.checkCategory t.grammar = .ok ())
      (ha : c.allocator.assign t.grammar.tileId t.grammar.band = .ok (p, a))
      (hy : Derivation.glyph t.grammar (Category.ofText t.grammar.category) p t.char = .ok y) :
      Course c t (.ok (t.output p y,
        ⟨c.config, a, c.compiled.insert t.grammar.tileId (t.output p y)⟩))

theorem course (c : Compiler) (t : Attempt) : c.Course t (c.outcome t) := by
  unfold outcome compile
  cases hg : t.grammar.check with
  | error e => exact .refused hg
  | ok =>
    cases hc : c.checkCategory t.grammar with
    | error e => exact .unknown hg hc
    | ok =>
      cases ha : c.allocator.assign t.grammar.tileId t.grammar.band with
      | error e =>
        rw [Grammar.band] at ha
        simp only [bind, Except.bind, ha]
        exact .full hg hc ha
      | ok r =>
        obtain ⟨p, a⟩ := r
        obtain ⟨y, hy⟩ := Derivation.glyph_ok hg (Category.ofText t.grammar.category) p t.char
        rw [Grammar.band] at ha
        simp only [bind, Except.bind, ha, hy]
        exact .done hg hc ha hy

theorem kind_of_checkCategory_eq_error {c : Compiler} {g : Grammar} {e : Error}
    (h : c.checkCategory g = .error e) : e.kind = .unknownCategory := by
  unfold checkCategory at h
  split at h
  · cases h
    rfl
  · cases h

theorem kind_of_outcome_eq_error {c : Compiler} {t : Attempt} {e : Error}
    (h : c.outcome t = .error e) :
    e.kind = .invalidGrammar ∨ e.kind = .unknownCategory ∨ e.kind = .rangeExhausted := by
  have hcourse := c.course t
  rw [h] at hcourse
  cases hcourse with
  | refused hg => exact .inl (Grammar.kind_of_check_eq_error hg)
  | unknown hg hc => exact .inr (.inl (kind_of_checkCategory_eq_error hc))
  | full hg hc ha =>
    rw [(Allocator.assign_error ha).1]
    exact .inr (.inr rfl)

/-- Runs on the allocator of a compiler. What was written there stays, also after a failure. -/
def onAllocator {α : Type} (x : EStateM Error Allocator α) : EStateM Error Compiler α := fun c =>
  match x.run c.allocator with
  | .ok r a => .ok r { c with allocator := a }
  | .error e a => .error e { c with allocator := a }

/-- Compiles one grammar. What is written before a step that fails stays written. -/
def compileInPlace (t : Attempt) : EStateM Error Compiler Output := do
  MonadExcept.ofExcept t.grammar.check
  MonadExcept.ofExcept ((← get).checkCategory t.grammar)
  let p ← onAllocator (Allocator.assignInPlace t.grammar.tileId t.grammar.band)
  let y ← MonadExcept.ofExcept
    (Derivation.glyph t.grammar (Category.ofText t.grammar.category) p t.char)
  modify fun c => { c with compiled := c.compiled.insert t.grammar.tileId (t.output p y) }
  return t.output p y

theorem onAllocator_run {α : Type} (x : EStateM Error Allocator α) (c : Compiler) :
    (onAllocator x).run c = match x.run c.allocator with
      | .ok r a => .ok r { c with allocator := a }
      | .error e a => .error e { c with allocator := a } := rfl

theorem assign_run (c : Compiler) (id : String) (b : Band) :
    (onAllocator (Allocator.assignInPlace id b)).run c = match c.allocator.assign id b with
      | .ok (p, a) => .ok p { c with allocator := a }
      | .error e => .error e c := by
  rw [onAllocator_run, Allocator.assignInPlace_run]
  cases c.allocator.assign id b <;> rfl

theorem compileInPlace_run (c : Compiler) (t : Attempt) :
    (compileInPlace t).run c = match c.outcome t with
      | .ok (o, d) => .ok o d
      | .error e => .error e c := by
  have hrun := c.assign_run t.grammar.tileId t.grammar.band
  have hcourse := c.course t
  generalize c.outcome t = r at hcourse
  cases hcourse with
  | refused hg => simp [compileInPlace, hg, MonadExcept.ofExcept]
  | unknown hg hc => simp [compileInPlace, hg, hc, MonadExcept.ofExcept]
  | full hg hc ha =>
    rw [ha] at hrun
    simp [compileInPlace, hg, hc, hrun, MonadExcept.ofExcept]
  | done hg hc ha hy =>
    -- Here codepoint and counter are written, and no later step fails.
    rw [ha] at hrun
    simp [compileInPlace, hg, hc, hrun, hy, MonadExcept.ofExcept, -bind_pure_comp]

end Compiler

end TileGrammar
