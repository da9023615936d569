import TileGrammar.Proofs.Compiler.Batch
import TileGrammar.Proofs.Order.Overlay

/-!
# A batch accounts for every tile

Each refused spec and each grammar of the other specs has one reply, so the
outputs and errors of a batch are as many as the families promise. The outputs
are laid over the entries of the compiler, in order, and the last one for a
tile shows.
-/

set_option autoImplicit false

namespace TileGrammar

def Output.entry (o : Output) : String × Output := (o.tileId, o)

theorem tileId_of_lastIn_entry {os : List Output} {id : String} {o : Output}
    (h : Dict.lastIn id (os.map Output.entry) = some o) : o.tileId = id := by
  obtain ⟨p, -, he⟩ := List.mem_map.mp (Dict.mem_of_lastIn h)
  cases he
  rfl

namespace Spec

def passes (s : Spec) : Bool := s.check.isOk

theorem foldl_familySize (n : Nat) (specs : List Spec) :
    specs.foldl (fun n s => n + s.familySize) n = n + tileTotal specs := by
  induction specs generalizing n with
  | nil => rfl
  | cons s specs ih =>
    rw [tileTotal, List.foldl_cons, List.foldl_cons, ih, ih, Nat.zero_add, Nat.add_assoc]

theorem tileTotal_cons (s : Spec) (specs : List Spec) :
    tileTotal (s :: specs) = s.familySize + tileTotal specs := by
  rw [tileTotal, List.foldl_cons, foldl_familySize, Nat.zero_add]

end Spec

namespace Compiler

theorem length_specReplies (c : Compiler) (s : Spec) :
    (c.specReplies s).length = if s.passes then s.familySize else 1 := by
  unfold specReplies Spec.passes
  cases h : s.check with
  | ok => simp [length_replies, Spec.attempts, h, Spec.length_family, Except.isOk, Except.toBool]
  | error e => simp [Except.isOk, Except.toBool]

theorem length_batchReplies (c : Compiler) (specs : List Spec) :
    (c.batchReplies specs).length =
      Spec.tileTotal (specs.filter Spec.passes) + specs.countP fun s => !s.passes := by
  induction specs generalizing c with
  | nil => rfl
  | cons s specs ih =>
    rw [batchReplies, List.length_append, ih, length_specReplies]
    cases h : s.passes with
    | true =>
      rw [if_pos rfl, List.filter_cons_of_pos h, Spec.tileTotal_cons,
        List.countP_cons_of_neg (by simp [h])]
      omega
    | false =>
      rw [if_neg (by simp), List.filter_cons_of_neg (by simp [h]),
        List.countP_cons_of_pos (by simp [h])]
      omega

theorem compiled_attemptAll (c : Compiler) (ts : List Attempt) :
    (c.attemptAll ts).compiled =
      c.compiled.insertAll ((outputsOf (c.replies ts)).map Output.entry) := by
  induction ts generalizing c with
  | nil => rfl
  | cons t ts ih =>
    have hrun : c.attemptAll (t :: ts) = (c.attempt t).attemptAll ts := rfl
    rw [hrun, ih, replies, reply]
    rcases c.attempt_cases t with ⟨e, he, hs⟩ | ⟨o, hok, ho, -, hs⟩
    · rw [he, hs]
      rfl
    · have hput : (c.attempt t).compiled = c.compiled.insert o.tileId o := by rw [hs, ho.tileId]
      rw [hok, hput]
      rfl

/-- Where there were no entries before, the exported glyphs are the last outputs of the tiles, in
the order of their ids. -/
theorem registry_of_outputs {d : Compiler} {os : List Output}
    (h : d.compiled = (∅ : Dict Output).insertAll (os.map Output.entry)) :
    ∃ last : List Output, d.registry.glyphs = last.map Output.glyph ∧
      last.Pairwise (fun o p => o.tileId < p.tileId) ∧
      (∀ o, o ∈ last ↔ Dict.lastIn o.tileId (os.map Output.entry) = some o) ∧
      ∀ id, id ∈ last.map Output.tileId ↔ id ∈ os.map Output.tileId := by
  have hget : ∀ id, d.compiled.get? id = Dict.lastIn id (os.map Output.entry) := by
    intro id
    rw [h, Dict.get?_insertAll, Dict.get?_empty, Option.or_none]
  have hkeyed : d.compiled.KeyedBy Output.tileId := by
    intro id o ho
    rw [hget] at ho
    exact tileId_of_lastIn_entry ho
  refine ⟨d.compiled.values, rfl, hkeyed.values_ordered, fun o => ?_, fun id => ?_⟩
  · rw [hkeyed.mem_values_iff, hget]
  · rw [hkeyed.map_values, Dict.mem_keys_iff]
    simp only [hget, Dict.exists_lastIn_iff, List.map_map]
    rfl

/-- A batch without specs is refused and changes nothing. Any other batch, from any compiler,
returns outputs and errors that are together as many as the tiles of the specs that pass their check
and the specs that do not. They are the two kinds of replies, in order, and the outputs lie over the
entries that were there before. Where there were none, one glyph is exported for each tile of the
outputs, the one of its last output, in the order of the tiles. -/
theorem batch_accounts_for_every_tile (c : Compiler) {specs : List Spec} (hs : specs ≠ []) :
    c.compileAll [] = .error .emptyBatch ∧ c.step (.batch []) = c ∧
    ∃ x d, c.compileAll specs = .ok (x, d) ∧
      x.outputs.length + x.errors.length =
        Spec.tileTotal (specs.filter Spec.passes) + specs.countP (fun s => !s.passes) ∧
      x.outputs = outputsOf (c.batchReplies specs) ∧
      x.errors = messagesOf (c.batchReplies specs) ∧
      d.compiled = c.compiled.insertAll (x.outputs.map Output.entry) ∧
      (∀ id, d.get? id =
        (Dict.lastIn id (x.outputs.map Output.entry)).or (c.get? id)) ∧
      (c.compiled = ∅ → ∃ last : List Output, d.registry.glyphs = last.map Output.glyph ∧
        last.Pairwise (fun o p => o.tileId < p.tileId) ∧
        (∀ o, o ∈ last ↔ Dict.lastIn o.tileId (x.outputs.map Output.entry) = some o) ∧
        ∀ id, id ∈ last.map Output.tileId ↔ id ∈ x.outputs.map Output.tileId) := by
  have hover := c.compiled_attemptAll (specs.flatMap Spec.attempts)
  rw [← outputsOf_batchReplies] at hover
  refine ⟨rfl, rfl, _, _, c.compileAll_eq hs, ?_, rfl, rfl, hover, fun id => ?_, fun hc => ?_⟩
  · rw [length_outputsOf_add_length_messagesOf, length_batchReplies]
  · rw [Compiler.get?, hover, Dict.get?_insertAll]
    rfl
  · rw [hc] at hover
    exact registry_of_outputs hover

theorem batch_accounts_for_every_tile_turned :
    let c := fresh .standard
    let wall := Grammar.ofCategory "wall" "stone"
    let specs : List Spec := [{ Spec.ofGrammar "worn" wall with damageVariants := 9 },
      { Spec.ofGrammar "walls" wall with rotations := true }]
    specs ≠ [] ∧ c.compiled = ∅ ∧ ∃ x d, c.compileAll specs = .ok (x, d) ∧
      x.outputs.length + x.errors.length = 5 ∧
      ∃ last : List Output, d.registry.glyphs = last.map Output.glyph ∧
        last.Pairwise (fun o p => o.tileId < p.tileId) ∧
        (∀ o, o ∈ last ↔ Dict.lastIn o.tileId (x.outputs.map Output.entry) = some o) ∧
        ∀ id, id ∈ last.map Output.tileId ↔ id ∈ x.outputs.map Output.tileId := by
  intro c wall specs
  have hs : specs ≠ [] := List.cons_ne_nil _ _
  have hsum : Spec.tileTotal (specs.filter Spec.passes) +
      specs.countP (fun s => !s.passes) = 5 := by decide +kernel
  obtain ⟨-, -, x, d, hx, hlength, -, -, -, -, hlast⟩ := batch_accounts_for_every_tile c hs
  exact ⟨hs, rfl, x, d, hx, hlength.trans hsum, hlast rfl⟩

end Compiler

end TileGrammar
