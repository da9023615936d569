import TileGrammar.Proofs.Compiler.Session

/-!
# What a batch answers

A batch answers its specs in order. A spec that is refused gets one message,
any other spec a reply for each of its grammars: the output, or a message that
names the tile. Outputs and errors of the batch are the two kinds of replies,
each in order, and the batch leaves the compiler as the run of its attempts
does. So a session is a run of attempts.
-/

set_option autoImplicit false

namespace TileGrammar

def Grammar.attempt (g : Grammar) : Attempt := ⟨g, none, none⟩

abbrev TileReply := Except String Output

def outputsOf : List TileReply → List Output
  | [] => []
  | .ok o :: rs => o :: outputsOf rs
  | .error _ :: rs => outputsOf rs

def messagesOf : List TileReply → List String
  | [] => []
  | .ok _ :: rs => messagesOf rs
  | .error message :: rs => message :: messagesOf rs

theorem outputsOf_append (rs ss : List TileReply) :
    outputsOf (rs ++ ss) = outputsOf rs ++ outputsOf ss := by
  induction rs with
  | nil => rfl
  | cons r rs ih => cases r <;> simp [outputsOf, ih]

theorem messagesOf_append (rs ss : List TileReply) :
    messagesOf (rs ++ ss) = messagesOf rs ++ messagesOf ss := by
  induction rs with
  | nil => rfl
  | cons r rs ih => cases r <;> simp [messagesOf, ih]

theorem length_outputsOf_add_length_messagesOf (rs : List TileReply) :
    (outputsOf rs).length + (messagesOf rs).length = rs.length := by
  induction rs with
  | nil => rfl
  | cons r rs ih =>
    cases r with
    | ok o =>
      simp only [outputsOf, messagesOf, List.length_cons]
      omega
    | error message =>
      simp only [outputsOf, messagesOf, List.length_cons]
      omega

namespace Compiler

def reply (c : Compiler) (t : Attempt) : TileReply :=
  match c.outcome t with
  | .ok (o, _) => .ok o
  | .error e => .error ("Failed to compile " ++ t.grammar.tileId ++ ": " ++ e.message)

/-- The replies to a run of attempts, each made after those before it. -/
def replies (c : Compiler) : List Attempt → List TileReply
  | [] => []
  | t :: ts => c.reply t :: (c.attempt t).replies ts

def specReplies (c : Compiler) (s : Spec) : List TileReply :=
  match s.check with
  | .ok _ => c.replies s.attempts
  | .error e => [.error ("Invalid spec " ++ s.id ++ ": " ++ e.message)]

def batchReplies (c : Compiler) : List Spec → List TileReply
  | [] => []
  | s :: specs => c.specReplies s ++ (c.attemptAll s.attempts).batchReplies specs

theorem replies_append (c : Compiler) (ts us : List Attempt) :
    c.replies (ts ++ us) = c.replies ts ++ (c.attemptAll ts).replies us := by
  induction ts generalizing c with
  | nil => rfl
  | cons t ts ih =>
    rw [List.cons_append, replies, ih]
    rfl

theorem batchReplies_append (c : Compiler) (a b : List Spec) :
    c.batchReplies (a ++ b) =
      c.batchReplies a ++ (c.attemptAll (a.flatMap Spec.attempts)).batchReplies b := by
  induction a generalizing c with
  | nil => rfl
  | cons s a ih =>
    rw [List.cons_append, batchReplies, ih, batchReplies, List.append_assoc, List.flatMap_cons,
      attemptAll_append]

theorem length_replies (c : Compiler) (ts : List Attempt) : (c.replies ts).length = ts.length := by
  induction ts generalizing c with
  | nil => rfl
  | cons t ts ih => rw [replies, List.length_cons, List.length_cons, ih]

theorem outputsOf_batchReplies (c : Compiler) (specs : List Spec) :
    outputsOf (c.batchReplies specs) = outputsOf (c.replies (specs.flatMap Spec.attempts)) := by
  induction specs generalizing c with
  | nil => rfl
  | cons s specs ih =>
    have hspec : outputsOf (c.specReplies s) = outputsOf (c.replies s.attempts) := by
      unfold specReplies Spec.attempts
      cases s.check <;> rfl
    rw [batchReplies, outputsOf_append, ih, hspec, List.flatMap_cons, replies_append,
      outputsOf_append]

def noteReplies (p : Progress) (c : Compiler) (rs : List TileReply) : Progress :=
  ⟨c, (outputsOf rs).reverse ++ p.outputs, (messagesOf rs).reverse ++ p.errors⟩

theorem noteReplies_append (p : Progress) (c d : Compiler) (rs ss : List TileReply) :
    noteReplies (noteReplies p c rs) d ss = noteReplies p d (rs ++ ss) := by
  simp [noteReplies, outputsOf_append, messagesOf_append]

theorem addGrammar_eq (p : Progress) (g : Grammar) :
    p.addGrammar g =
      noteReplies p (p.compiler.attempt g.attempt) [p.compiler.reply g.attempt] := by
  unfold Progress.addGrammar attempt reply outcome Grammar.attempt
  cases p.compiler.compile g none none <;> rfl

theorem addGrammars_eq (p : Progress) (gs : List Grammar) :
    gs.foldl Progress.addGrammar p =
      noteReplies p (p.compiler.attemptAll (gs.map Grammar.attempt))
        (p.compiler.replies (gs.map Grammar.attempt)) := by
  induction gs generalizing p with
  | nil => rfl
  | cons g gs ih =>
    rw [List.foldl_cons, ih, addGrammar_eq, noteReplies_append]
    rfl

theorem addSpec_eq (p : Progress) (s : Spec) :
    p.addSpec s = noteReplies p (p.compiler.attemptAll s.attempts) (p.compiler.specReplies s) := by
  unfold Progress.addSpec specReplies Spec.attempts
  cases s.check with
  | ok => exact addGrammars_eq p s.family
  | error e => rfl

theorem addSpecs_eq (p : Progress) (specs : List Spec) :
    specs.foldl Progress.addSpec p =
      noteReplies p (p.compiler.attemptAll (specs.flatMap Spec.attempts))
        (p.compiler.batchReplies specs) := by
  induction specs generalizing p with
  | nil => rfl
  | cons s specs ih =>
    rw [List.foldl_cons, ih, addSpec_eq, noteReplies_append, List.flatMap_cons, attemptAll_append]
    rfl

/-- What a batch with specs returns: the replies by kind, and the glyphs that are there after its
last attempt. -/
theorem compileAll_eq (c : Compiler) {specs : List Spec} (hs : specs ≠ []) :
    c.compileAll specs =
      let d := c.attemptAll (specs.flatMap Spec.attempts)
      .ok (⟨outputsOf (c.batchReplies specs), messagesOf (c.batchReplies specs), d.registry.text,
        d.registry.digest⟩, d) := by
  unfold compileAll
  rw [if_neg (by simpa using hs), addSpecs_eq]
  simp [noteReplies, Progress.ofCompiler]

theorem step_eq_attemptAll (c : Compiler) (k : Call) : c.step k = c.attemptAll k.attempts := by
  cases k with
  | tile t => rfl
  | batch specs =>
    cases specs with
    | nil => rfl
    | cons s specs =>
      rw [step, c.compileAll_eq (List.cons_ne_nil s specs)]
      rfl

theorem run_eq_attemptAll (c : Compiler) (calls : List Call) :
    c.run calls = c.attemptAll (calls.flatMap Call.attempts) := by
  induction calls generalizing c with
  | nil => rfl
  | cons k calls ih =>
    rw [List.flatMap_cons, attemptAll_append, ← step_eq_attemptAll]
    exact ih (c.step k)

theorem run_invariant {P : Compiler → Prop} (hs : ∀ c t, P c → P (c.attempt t))
    {c : Compiler} (h : P c) (calls : List Call) : P (c.run calls) := by
  rw [run_eq_attemptAll]
  exact attemptAll_invariant hs h _

end Compiler

end TileGrammar
