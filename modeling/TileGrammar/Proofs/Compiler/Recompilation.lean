import TileGrammar.Proofs.Compiler.Accounting
import TileGrammar.Proofs.Compiler.Footprint

/-!
# A batch that is compiled again

The second run of a batch asks an allocator that has seen the whole of the
first run. Tiles that were given a codepoint are answered with it, and tiles
that were refused are refused again, but for one case: a tile that ran out of
codepoints in one band may have come by one of another band later in the
batch. It then gets an output in the second run, and the later output of the
same tile still lies over it. So the second run only repeats what is there.
-/

set_option autoImplicit false

namespace TileGrammar

/-- Replies of a second run beside those of a first one: the same at every place, or an output where
the first run had none for a tile that has one later on. -/
inductive Repeats : List TileReply → List TileReply → Prop
  | nil : Repeats [] []
  | same (r : TileReply) {rs ss : List TileReply} (h : Repeats rs ss) :
      Repeats (r :: rs) (r :: ss)
  | late (m : String) {o : Output} {rs ss : List TileReply}
      (ho : o.tileId ∈ (outputsOf rs).map Output.tileId) (h : Repeats rs ss) :
      Repeats (.error m :: rs) (.ok o :: ss)

namespace Repeats

variable {rs ss : List TileReply}

theorem outputs_sublist (h : Repeats rs ss) : (outputsOf rs).Sublist (outputsOf ss) := by
  induction h with
  | nil => exact .slnil
  | same r h ih =>
    cases r with
    | ok o => exact ih.cons_cons o
    | error m => exact ih
  | late m ho h ih => exact ih.cons _

theorem messages_sublist (h : Repeats rs ss) : (messagesOf ss).Sublist (messagesOf rs) := by
  induction h with
  | nil => exact .slnil
  | same r h ih =>
    cases r with
    | ok o => exact ih
    | error m => exact ih.cons_cons m
  | late m ho h ih => exact ih.cons m

theorem lastIn_eq (h : Repeats rs ss) (id : String) :
    Dict.lastIn id ((outputsOf ss).map Output.entry) =
      Dict.lastIn id ((outputsOf rs).map Output.entry) := by
  induction h with
  | nil => rfl
  | same r h ih =>
    cases r with
    | ok o => rw [outputsOf, outputsOf, List.map_cons, List.map_cons, Dict.lastIn_cons,
        Dict.lastIn_cons, ih]
    | error m => exact ih
  | @late m o rs ss ho h ih =>
    rw [outputsOf, outputsOf, List.map_cons, Dict.lastIn_cons, ih]
    by_cases hid : o.tileId = id
    · -- The late output is not the last one of its tile.
      rw [hid] at ho
      have hkeys : id ∈ ((outputsOf rs).map Output.entry).map Prod.fst := by
        rw [List.map_map]
        exact ho
      obtain ⟨p, hp⟩ := (Dict.exists_lastIn_iff id _).mpr hkeys
      rw [hp, Option.some_or]
    · rw [if_neg (show o.entry.1 ≠ id from hid), Option.or_none]

end Repeats

namespace Compiler

theorem mem_outputs_of_get?_attemptAll {c : Compiler} {ts : List Attempt} {id : String}
    {p : Codepoint} (hn : c.allocator.get? id = none)
    (h : (c.attemptAll ts).allocator.get? id = some p) :
    id ∈ (outputsOf (c.replies ts)).map Output.tileId := by
  rw [allocator_attemptAll] at h
  obtain ⟨r, hr, rfl⟩ := Allocator.requested_of_get?_run hn h
  obtain ⟨g, hg, rfl⟩ := List.mem_map.mp hr
  rw [map_tileId_outputsOf]
  exact List.mem_map_of_mem hg

section Again

variable {c d : Compiler} {t : Attempt} {ts us : List Attempt} (hconfig : d.config = c.config)
include hconfig

theorem allocator_attempt_again (hd : d.allocator = (c.attemptAll (t :: us)).allocator) :
    (d.attempt t).allocator = d.allocator := by
  rcases d.reply_cases t with ⟨m, -, hs⟩ | ⟨o, ho, -, -, hs⟩
  · rw [hs]
  · have hscreen : c.screen t = .ok () := by
      rw [← screen_congr hconfig]
      cases h : d.screen t with
      | ok => rfl
      | error e =>
        rw [reply_eq, h] at ho
        cases ho
    have hrun : (c.attemptAll (t :: us)).allocator = ((c.attempt t).attemptAll us).allocator := rfl
    rw [hrun, allocator_attemptAll, allocator_attempt hscreen] at hd
    rw [hs]
    show d.allocator.step t.request = d.allocator
    rw [hd, Allocator.step_run_step]

theorem config_attempt_again (t : Attempt) : (d.attempt t).config = (c.attempt t).config := by
  rw [config_attempt, config_attempt, hconfig]

theorem allocator_attemptAll_again (hd : d.allocator = (c.attemptAll (ts ++ us)).allocator) :
    (d.attemptAll ts).allocator = d.allocator := by
  induction ts generalizing c d with
  | nil => rfl
  | cons t ts ih =>
    have ht : (d.attempt t).allocator = d.allocator := allocator_attempt_again hconfig hd
    have hts := ih (config_attempt_again hconfig t) (ht.trans hd)
    exact hts.trans ht

/-- The second reply is the first one, or an output where the band was full and the tile has come by
a codepoint since. -/
theorem reply_again (hd : d.allocator = (c.attemptAll (t :: us)).allocator) :
    d.reply t = c.reply t ∨ ∃ m o, c.reply t = .error m ∧ d.reply t = .ok o ∧
      o.tileId ∈ (outputsOf ((c.attempt t).replies us)).map Output.tileId := by
  cases hscreen : c.screen t with
  | error e =>
    left
    rw [reply_eq, reply_eq, screen_congr hconfig, hscreen]
  | ok =>
    have hrun : (c.attemptAll (t :: us)).allocator = ((c.attempt t).attemptAll us).allocator := rfl
    rw [hrun] at hd
    have hlate := hd
    rw [allocator_attemptAll, allocator_attempt hscreen] at hd
    cases ha : c.allocator.answer t.request with
    | ok p =>
      left
      refine reply_congr hconfig ?_
      rw [hd, ha, Allocator.answer_run_of_ok ha]
    | error e =>
      rw [Allocator.step_of_answer_error ha] at hd
      cases hid : d.allocator.get? t.request.1 with
      | none =>
        left
        refine reply_congr hconfig ?_
        rw [hd] at hid ⊢
        rw [ha, Allocator.answer_run_of_error ha hid]
      | some q =>
        right
        have hdscreen : d.screen t = .ok () := by rw [screen_congr hconfig, hscreen]
        obtain ⟨y, hy⟩ := reply_of_answer hdscreen (Allocator.answer_of_get? hid)
        refine ⟨_, _, by rw [reply_eq, hscreen, ha], hy, ?_⟩
        have hn : (c.attempt t).allocator.get? t.request.1 = none := by
          rw [allocator_attempt hscreen, Allocator.step_of_answer_error ha,
            Allocator.get?_of_answer_error ha]
        rw [hlate] at hid
        exact mem_outputs_of_get?_attemptAll hn hid

theorem repeats_replies (hd : d.allocator = (c.attemptAll (ts ++ us)).allocator)
    {rs ss : List TileReply} (hrs : outputsOf rs = outputsOf ((c.attemptAll ts).replies us))
    (h : Repeats rs ss) : Repeats (c.replies ts ++ rs) (d.replies ts ++ ss) := by
  -- By induction on the attempts in front. What `us` has for outputs is always those of `rs`.
  induction ts generalizing c d with
  | nil => exact h
  | cons t ts ih =>
    have ht : (d.attempt t).allocator = d.allocator := allocator_attempt_again hconfig hd
    have hlast : outputsOf rs = outputsOf (((c.attempt t).attemptAll ts).replies us) := hrs
    have hts := ih (config_attempt_again hconfig t) (ht.trans hd) hlast
    rw [replies, replies, List.cons_append, List.cons_append]
    rcases reply_again hconfig hd with hr | ⟨m, o, hm, ho, hlater⟩
    · rw [hr]
      exact .same _ hts
    · rw [hm, ho]
      refine .late m ?_ hts
      rwa [outputsOf_append, hlast, ← outputsOf_append, ← replies_append]

theorem repeats_batchReplies {specs : List Spec}
    (hd : d.allocator = (c.attemptAll (specs.flatMap Spec.attempts)).allocator) :
    Repeats (c.batchReplies specs) (d.batchReplies specs) := by
  induction specs generalizing c d with
  | nil => exact .nil
  | cons s specs ih =>
    rw [List.flatMap_cons] at hd
    have hs : (d.attemptAll s.attempts).allocator = d.allocator :=
      allocator_attemptAll_again hconfig hd
    have hrest : Repeats ((c.attemptAll s.attempts).batchReplies specs)
        ((d.attemptAll s.attempts).batchReplies specs) := by
      refine ih ?_ ?_
      · rw [config_attemptAll, config_attemptAll, hconfig]
      · rw [hs, hd, attemptAll_append]
    rw [batchReplies, batchReplies, specReplies, specReplies]
    cases s.check with
    | ok => exact repeats_replies hconfig hd (outputsOf_batchReplies _ _) hrest
    | error e => exact .same _ hrest

end Again

theorem insertAll_again (e : Dict Output) {os ps : List Output}
    (h : ∀ id, Dict.lastIn id (ps.map Output.entry) = Dict.lastIn id (os.map Output.entry)) :
    (e.insertAll (os.map Output.entry)).insertAll (ps.map Output.entry) =
      e.insertAll (os.map Output.entry) := by
  refine Dict.ext_get? fun id => ?_
  rw [Dict.get?_insertAll, Dict.get?_insertAll, h id, ← Option.or_assoc, Option.or_self]

theorem repeats_batchReplies_attemptAll (c : Compiler) (specs : List Spec) :
    Repeats (c.batchReplies specs)
      ((c.attemptAll (specs.flatMap Spec.attempts)).batchReplies specs) :=
  repeats_batchReplies (c.config_attemptAll _) rfl

theorem attemptAll_attemptAll (c : Compiler) (specs : List Spec) :
    (c.attemptAll (specs.flatMap Spec.attempts)).attemptAll (specs.flatMap Spec.attempts) =
      c.attemptAll (specs.flatMap Spec.attempts) := by
  have hlast := (c.repeats_batchReplies_attemptAll specs).lastIn_eq
  simp only [outputsOf_batchReplies] at hlast
  generalize specs.flatMap Spec.attempts = ts at hlast
  have hconfig := c.config_attemptAll ts
  have hallocator : (c.attemptAll ts).allocator = (c.attemptAll (ts ++ [])).allocator := by
    rw [List.append_nil]
  apply Compiler.ext
  · exact config_attemptAll _ ts
  · exact allocator_attemptAll_again hconfig hallocator
  · rw [compiled_attemptAll (c.attemptAll ts), compiled_attemptAll c, insertAll_again _ hlast]

/-- From any compiler: a batch that is compiled again right after leaves the compiler as it is, with
the same text and digest. Every output of the first run is there again, in order, and the second
run has no message that the first one had not. -/
theorem batch_recompiles_to_itself (c : Compiler) (s : Spec) (specs : List Spec) :
    ∃ x d y, c.compileAll (s :: specs) = .ok (x, d) ∧ d.compileAll (s :: specs) = .ok (y, d) ∧
      y.registryText = x.registryText ∧ y.registryHash = x.registryHash ∧
      x.outputs.Sublist y.outputs ∧ y.errors.Sublist x.errors ∧
      ∀ o ∈ x.outputs, ∃ p ∈ y.outputs, p.tileId = o.tileId ∧ p.codepoint = o.codepoint := by
  have hne : s :: specs ≠ [] := List.cons_ne_nil s specs
  have hrepeats := c.repeats_batchReplies_attemptAll (s :: specs)
  have hy := (c.attemptAll ((s :: specs).flatMap Spec.attempts)).compileAll_eq hne
  rw [attemptAll_attemptAll] at hy
  refine ⟨_, _, _, c.compileAll_eq hne, hy, rfl, rfl, hrepeats.outputs_sublist,
    hrepeats.messages_sublist, fun o ho => ?_⟩
  exact ⟨o, hrepeats.outputs_sublist.subset ho, rfl, rfl⟩

end Compiler

end TileGrammar
