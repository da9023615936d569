import TileGrammar.Proofs.Codepoint.Interchange
import TileGrammar.Proofs.Compiler.Batch
import TileGrammar.Proofs.Compiler.InPlace

/-!
# What an attempt reads and writes

An attempt is checked, then its tile asks for a codepoint, then the glyph is
made. So the reply follows from the settings and the answer of the allocator,
and the compiler after an attempt follows from the reply: its tile has asked
for a codepoint and has the output as its entry, or nothing has changed.
Entries made before have no say in any of this.
-/

set_option autoImplicit false

namespace TileGrammar

namespace Attempt

def request (t : Attempt) : Allocator.Request := (t.grammar.tileId, t.grammar.band)

def complaint (t : Attempt) (e : Error) : String :=
  "Failed to compile " ++ t.grammar.tileId ++ ": " ++ e.message

end Attempt

namespace Compiler

attribute [ext] Compiler

/-- The checks of an attempt, before its tile asks for a codepoint. -/
def screen (c : Compiler) (t : Attempt) : Except Error Unit := do
  t.grammar.check
  c.checkCategory t.grammar

theorem screen_congr {c d : Compiler} (h : d.config = c.config) (t : Attempt) :
    d.screen t = c.screen t := by
  simp only [screen, checkCategory, h]

theorem outcome_eq (c : Compiler) (t : Attempt) : c.outcome t = (do
    c.screen t
    let (p, a) ← c.allocator.assign t.grammar.tileId t.grammar.band
    let y ← Derivation.glyph t.grammar (Category.ofText t.grammar.category) p t.char
    .ok (t.output p y, ⟨c.config, a, c.compiled.insert t.grammar.tileId (t.output p y)⟩)) := by
  unfold outcome compile screen
  cases t.grammar.check <;> rfl

theorem reply_eq (c : Compiler) (t : Attempt) : c.reply t =
    match c.screen t with
    | .error e => .error (t.complaint e)
    | .ok _ => match c.allocator.answer t.request with
      | .error e => .error (t.complaint e)
      | .ok p =>
        match Derivation.glyph t.grammar (Category.ofText t.grammar.category) p t.char with
        | .error e => .error (t.complaint e)
        | .ok y => .ok (t.output p y) := by
  rw [reply, outcome_eq, Allocator.answer, Attempt.request]
  cases c.screen t with
  | error e => rfl
  | ok =>
    rcases c.allocator.assign t.grammar.tileId t.grammar.band with e | ⟨p, a⟩
    · rfl
    · simp only [bind, Except.bind, Except.map]
      cases Derivation.glyph t.grammar (Category.ofText t.grammar.category) p t.char <;> rfl

theorem reply_congr {c d : Compiler} (hconfig : d.config = c.config) {t : Attempt}
    (h : d.allocator.answer t.request = c.allocator.answer t.request) : d.reply t = c.reply t := by
  rw [reply_eq, reply_eq, screen_congr hconfig, h]

theorem reply_of_answer {c : Compiler} {t : Attempt} (h : c.screen t = .ok ()) {p : Codepoint}
    (ha : c.allocator.answer t.request = .ok p) : ∃ y, c.reply t = .ok (t.output p y) := by
  obtain ⟨⟨⟩, hg, -⟩ := bind_eq_ok h
  obtain ⟨y, hy⟩ := Derivation.glyph_ok hg (Category.ofText t.grammar.category) p t.char
  exact ⟨y, by simp only [reply_eq, h, ha, hy]⟩

def put (c : Compiler) (t : Attempt) (o : Output) : Compiler :=
  ⟨c.config, c.allocator.step t.request, c.compiled.insert t.grammar.tileId o⟩

/-- What becomes of the compiler, by the reply. -/
theorem reply_cases (c : Compiler) (t : Attempt) :
    (∃ m, c.reply t = .error m ∧ c.attempt t = c) ∨
    ∃ o, c.reply t = .ok o ∧ o.tileId = t.grammar.tileId ∧
      c.allocator.answer t.request = .ok o.codepoint ∧ c.attempt t = c.put t o := by
  rcases c.attempt_cases t with ⟨e, he, hs⟩ | ⟨o, hok, ho, hown, hs⟩
  · exact .inl ⟨_, by rw [reply, he], hs⟩
  · exact .inr ⟨o, by rw [reply, hok], ho.tileId, (Allocator.answer_eq_ok_iff _ _ _).mpr hown, hs⟩

theorem attempt_eq (c : Compiler) (t : Attempt) : c.attempt t =
    match c.reply t with
    | .ok o => c.put t o
    | .error _ => c := by
  rcases c.reply_cases t with ⟨m, hm, hs⟩ | ⟨o, ho, -, -, hs⟩
  · rw [hm, hs]
  · rw [ho, hs]

theorem allocator_attempt {c : Compiler} {t : Attempt} (h : c.screen t = .ok ()) :
    (c.attempt t).allocator = c.allocator.step t.request := by
  rcases c.reply_cases t with ⟨m, hm, hs⟩ | ⟨o, -, -, -, hs⟩
  · cases ha : c.allocator.answer t.request with
    | error e => rw [hs, Allocator.step_of_answer_error ha]
    | ok p =>
      obtain ⟨y, hy⟩ := reply_of_answer h ha
      cases hm.symm.trans hy
  · rw [hs]
    rfl

theorem config_attempt (c : Compiler) (t : Attempt) : (c.attempt t).config = c.config := by
  rcases c.reply_cases t with ⟨m, -, hs⟩ | ⟨o, -, -, -, hs⟩ <;> rw [hs]
  rfl

theorem config_attemptAll (c : Compiler) (ts : List Attempt) :
    (c.attemptAll ts).config = c.config :=
  attemptAll_invariant (fun d t (h : d.config = c.config) => (d.config_attempt t).trans h) rfl ts

/-- The allocator of a run of attempts has run through the requests of the grammars that were
compiled. -/
theorem allocator_attemptAll (c : Compiler) (ts : List Attempt) :
    (c.attemptAll ts).allocator =
      c.allocator.run ((c.accepted ts).map fun g => (g.tileId, g.band)) := by
  induction ts generalizing c with
  | nil => rfl
  | cons t ts ih =>
    have hrun : c.attemptAll (t :: ts) = (c.attempt t).attemptAll ts := rfl
    rw [hrun, ih, accepted]
    rcases c.attempt_cases t with ⟨e, he, hs⟩ | ⟨o, hok, -, -, hs⟩
    · rw [he, hs]
    · have hstep : (c.attempt t).allocator =
          c.allocator.step (t.grammar.tileId, t.grammar.band) := by rw [hs]
      rw [hok, hstep]
      rfl

theorem map_tileId_outputsOf (c : Compiler) (ts : List Attempt) :
    (outputsOf (c.replies ts)).map Output.tileId = (c.accepted ts).map Grammar.tileId := by
  induction ts generalizing c with
  | nil => rfl
  | cons t ts ih =>
    rw [replies, accepted, reply]
    rcases c.attempt_cases t with ⟨e, he, hs⟩ | ⟨o, hok, ho, -, -⟩
    · rw [he, hs]
      exact ih c
    · rw [hok]
      exact congr (congrArg List.cons ho.tileId) (ih _)

end Compiler

end TileGrammar
