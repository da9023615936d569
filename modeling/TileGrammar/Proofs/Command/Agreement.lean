import TileGrammar.Command.Run
import TileGrammar.Proofs.Compiler.Accounting
import TileGrammar.Proofs.Grammar.Family
import TileGrammar.Proofs.Order.Traversal
import TileGrammar.Proofs.Pack.Directory

/-!
# What the tasks say about one pack

Listing, expanding and compiling count the tiles of a pack by three routes: the
product of the variants, the length of the families, and the replies of a batch.
Where every spec passes its check the three numbers are one. Expansion stops at
the first spec that does not pass, compilation goes on behind it with a message.
-/

set_option autoImplicit false

namespace TileGrammar

/-- The outcome has this code, and its report is an object that has these members. -/
def Outcome.Reports (o : Outcome) (code : Nat) (ms : List (String × Json)) : Prop :=
  o.code = code ∧ ∃ report, o.report = some report ∧ ∀ m ∈ ms, report.member? m.1 = some m.2

theorem Outcome.reports_obj {code : Nat} {ms ns : List (String × Json)}
    (hnames : (ms.map Prod.fst).Nodup) (hsub : ns ⊆ ms) :
    Reports ⟨code, some (.obj ms)⟩ code ns :=
  ⟨rfl, _, rfl, fun _ hm => Dict.lookupIn_of_nodup hnames (hsub hm)⟩

namespace Spec

theorem passes_eq_true_iff (s : Spec) : s.passes = true ↔ s.check = .ok () := by
  unfold passes
  cases s.check <;> simp [Except.isOk, Except.toBool]

theorem passes_eq_false_iff (s : Spec) : s.passes = false ↔ ∃ e, s.check = .error e := by
  unfold passes
  cases s.check <;> simp [Except.isOk, Except.toBool]

theorem exists_first_refused {specs : List Spec} (h : ∃ s ∈ specs, s.passes = false) :
    ∃ before s behind e, specs = before ++ s :: behind ∧ (∀ t ∈ before, t.passes = true) ∧
      s.check = .error e := by
  obtain ⟨s, hs, hf⟩ := h
  obtain ⟨t, hfirst⟩ : ∃ t, specs.find? (fun t => !t.passes) = some t :=
    Option.isSome_iff_exists.mp (List.find?_isSome.mpr ⟨s, hs, by simp [hf]⟩)
  obtain ⟨ht, before, behind, happend, hbefore⟩ := List.find?_eq_some_iff_append.mp hfirst
  obtain ⟨e, he⟩ := t.passes_eq_false_iff.mp (by simpa using ht)
  exact ⟨before, t, behind, e, happend, by simpa using hbefore, he⟩

theorem tileTotal_eq_length (specs : List Spec) :
    tileTotal specs = (specs.flatMap family).length := by
  rw [tileTotal_eq_sum, List.length_flatMap]

def expand (s : Spec) : Except String (List Grammar) := failWith "" (s.check.map fun _ => s.family)

theorem expand_of_passes {s : Spec} (h : s.passes = true) : s.expand = .ok s.family := by
  rw [expand, s.passes_eq_true_iff.mp h]
  rfl

theorem expand_of_refused {s : Spec} {e : Error} (h : s.check = .error e) :
    s.expand = .error e.message := by
  rw [expand, h]
  exact congrArg Except.error (String.empty_append)

/-- Messages that a batch may give for a spec: one where the spec does not pass its check, and else
at most one for each grammar of the family, in order. -/
def MayReport (s : Spec) (messages : List String) : Prop :=
  match s.check with
  | .error e => messages = ["Invalid spec " ++ s.id ++ ": " ++ e.message]
  | .ok _ => ∃ failed : List (Grammar × Error), (failed.map Prod.fst).Sublist s.family ∧
      messages = failed.map fun f => "Failed to compile " ++ f.1.tileId ++ ": " ++ f.2.message

theorem messages_ne_nil {specs : List Spec} {parts : List (List String)}
    (h : List.Forall₂ MayReport specs parts) (hsome : ∃ s ∈ specs, s.passes = false) :
    parts.flatten ≠ [] := by
  obtain ⟨s, hs, hf⟩ := hsome
  obtain ⟨e, he⟩ := s.passes_eq_false_iff.mp hf
  induction h with
  | nil => cases hs
  | cons hhead _ ih =>
    rw [List.flatten_cons]
    rcases List.mem_cons.mp hs with rfl | hs
    · rw [MayReport, he] at hhead
      simp [hhead]
    · exact List.append_ne_nil_of_right_ne_nil _ (ih hs)

theorem filter_passes_eq_self {specs : List Spec} (h : ∀ s ∈ specs, s.passes = true) :
    specs.filter passes = specs ∧ specs.countP (fun s => !s.passes) = 0 := by
  refine ⟨List.filter_eq_self.mpr h, List.countP_eq_zero.mpr fun s hs => ?_⟩
  simp [h s hs]

end Spec

namespace Compiler

theorem messagesOf_replies (c : Compiler) (gs : List Grammar) :
    ∃ failed : List (Grammar × Error), (failed.map Prod.fst).Sublist gs ∧
      messagesOf (c.replies (gs.map Grammar.attempt)) =
        failed.map fun f => "Failed to compile " ++ f.1.tileId ++ ": " ++ f.2.message := by
  induction gs generalizing c with
  | nil => exact ⟨[], .slnil, rfl⟩
  | cons g gs ih =>
    obtain ⟨failed, hsub, hmessages⟩ := ih (c.attempt g.attempt)
    rw [List.map_cons, replies, reply]
    cases c.outcome g.attempt with
    | ok o => exact ⟨failed, hsub.cons g, hmessages⟩
    | error e => exact ⟨(g, e) :: failed, hsub.cons_cons g, by rw [messagesOf, hmessages]; rfl⟩

theorem mayReport_specReplies (c : Compiler) (s : Spec) :
    s.MayReport (messagesOf (c.specReplies s)) := by
  unfold Spec.MayReport specReplies Spec.attempts
  cases s.check with
  | ok => exact c.messagesOf_replies s.family
  | error e => rfl

/-- The errors of a batch are the messages on its specs, one spec after the other. -/
theorem messagesOf_batchReplies (c : Compiler) (specs : List Spec) :
    ∃ parts, messagesOf (c.batchReplies specs) = parts.flatten ∧
      List.Forall₂ Spec.MayReport specs parts := by
  induction specs generalizing c with
  | nil => exact ⟨[], rfl, .nil⟩
  | cons s specs ih =>
    obtain ⟨parts, hparts, hall⟩ := ih (c.attemptAll s.attempts)
    refine ⟨messagesOf (c.specReplies s) :: parts, ?_, .cons (c.mayReport_specReplies s) hall⟩
    rw [batchReplies, messagesOf_append, hparts, List.flatten_cons]

theorem accounts_of_compileAll {c d : Compiler} {specs : List Spec} {batch : Batch}
    (hs : specs ≠ []) (h : c.compileAll specs = .ok (batch, d)) :
    batch.outputs.length + batch.errors.length =
        Spec.tileTotal (specs.filter Spec.passes) + specs.countP (fun s => !s.passes) ∧
      ∃ parts, batch.errors = parts.flatten ∧ List.Forall₂ Spec.MayReport specs parts := by
  rw [compileAll_eq c hs] at h
  cases h
  refine ⟨?_, c.messagesOf_batchReplies specs⟩
  rw [length_outputsOf_add_length_messagesOf, length_batchReplies]

end Compiler

section

variable {s : Sources} {config : Settings} {r : PackSet} {p : Pack}

theorem Task.runOn_loaded (hc : Settings.ofFile s.config = .ok config)
    (hr : PackSet.ofDirectory s.packs = .ok r) (t : Task) :
    t.runOn s = t.run config r s.palettes := by
  simp only [runOn, hc, hr, failWith]

theorem PackSet.specsFor_id (hk : r.packs.KeyedBy Pack.id) (hp : p ∈ r.list)
    (he : p.checkEngine = .ok ()) : r.specsFor (some p.id) = .ok p.specs := by
  have hget : r.get? p.id = some p := (hk.mem_values_iff p).mp hp
  simp only [specsFor, hget, specsOf, he]
  rfl

theorem PackSet.listing_tiles (hk : r.packs.KeyedBy Pack.id) (hp : p ∈ r.list) :
    ∃ rows, r.listing = .arr rows ∧
      (∃ row ∈ rows, row.member? "id" = some (.str p.id)) ∧
      ∀ row ∈ rows, row.member? "id" = some (.str p.id) →
        row.member? "tiles" = some (.int p.tileTotal) := by
  refine ⟨_, rfl, ⟨_, List.mem_map_of_mem hp, rfl⟩, fun row hrow hid => ?_⟩
  obtain ⟨q, hq, rfl⟩ := List.mem_map.mp hrow
  -- Both packs are found under the one id, so they are one pack.
  have hsame : q.id = p.id := Json.str.inj (Option.some.inj hid)
  have hget := (hk.mem_values_iff q).mp hq
  rw [hsame, (hk.mem_values_iff p).mp hp] at hget
  cases hget
  rfl

theorem Task.runExpand_eq (h : r.specsFor (some p.id) = .ok p.specs) :
    Task.runExpand r p.id = (p.specs.mapM Spec.expand).map fun families =>
      .success (expandReport families.flatten) := by
  unfold runExpand
  rw [h]
  change p.specs.mapM Spec.expand >>= _ = _
  cases p.specs.mapM Spec.expand <;> rfl

theorem Task.runCompile_eq (c : Settings) (h : r.specsFor (some p.id) = .ok p.specs)
    (hs : p.specs ≠ []) :
    ∃ batch d, (Compiler.fresh c.compiler).compileAll p.specs = .ok (batch, d) ∧
      Task.runCompile c r (some p.id) none = .done (compileReport batch) := by
  have hall := (Compiler.fresh c.compiler).compileAll_eq hs
  refine ⟨_, _, hall, ?_⟩
  simp only [runCompile, compileSpecs, h, bind, Except.bind, hall, failWith, compileReply]

theorem Outcome.failure_reports (message : String) :
    (failure message).Reports 1 [("success", .bool false), ("error", .str message)] :=
  reports_obj (show ["success", "error"].Nodup by decide) (List.Subset.refl _)

theorem Task.expandReport_reports (grammars : List Grammar) :
    (Outcome.success (expandReport grammars)).Reports 0 [
      ("success", .bool true),
      ("count", .int grammars.length),
      ("grammars", .arr (grammars.map Grammar.codec.encode))] :=
  Outcome.reports_obj (show ["success", "count", "grammars"].Nodup by decide) (List.Subset.refl _)

theorem Task.compileReport_reports (batch : Batch) :
    (compileReport batch).Reports (if batch.errors = [] then 0 else 2) [
      ("success", .bool batch.errors.isEmpty),
      ("compiled", .int batch.outputs.length),
      ("errors", .arr (batch.errors.map Json.str))] := by
  have hcode : (compileReport batch).code = if batch.errors = [] then 0 else 2 := by
    simp [compileReport, Outcome.judged, List.isEmpty_iff]
  rw [← hcode]
  have hnames : ["success", "engine_version", "compiled", "errors", "registry_hash",
    "registry"].Nodup := by decide
  refine Outcome.reports_obj hnames ?_
  have herrors : (Codec.listOf .text).encode batch.errors = .arr (batch.errors.map Json.str) := rfl
  simp [batchFields, herrors]

end

/-- For every configuration that loads, every directory that loads, and every pack loaded from it
that has a spec and does not ask for a later engine. The listing has a row with the id of the pack,
and such a row says how many tiles the pack comes to. If all specs pass their check, the pack is
expanded into as many grammars. Otherwise expansion fails with the error of the first spec that does
not pass. Compilation gives a report in either case. Its errors are one message for each spec that
does not pass, and for the others at most one for each of their grammars, spec by spec. With the
compiled tiles they are as many as the tiles of the specs that pass and the specs that do not. The
code is 0 where there are no errors, and 2 otherwise. -/
theorem tasks_agree_on_pack (s : Sources) {config : Settings} {r : PackSet} {p : Pack}
    (hconfig : Settings.ofFile s.config = .ok config)
    (hpacks : PackSet.ofDirectory s.packs = .ok r) (hp : p ∈ r.list) (hspecs : p.specs ≠ [])
    (hengine : p.checkEngine = .ok ()) :
    (∃ rows, Task.packs.runOn s = .done (.success (.arr rows)) ∧
      (∃ row ∈ rows, row.member? "id" = some (.str p.id)) ∧
      ∀ row ∈ rows, row.member? "id" = some (.str p.id) →
        row.member? "tiles" = some (.int p.tileTotal)) ∧
    ((∀ x ∈ p.specs, x.passes = true) → ∃ outcome grammars,
      (Task.expand p.id).runOn s = .done outcome ∧
      outcome.Reports 0 [("success", .bool true), ("count", .int p.tileTotal),
        ("grammars", .arr grammars)] ∧
      grammars = (p.specs.flatMap Spec.family).map Grammar.codec.encode ∧
      grammars.length = p.tileTotal) ∧
    ((∃ x ∈ p.specs, x.passes = false) → ∃ before x behind e outcome,
      p.specs = before ++ x :: behind ∧ (∀ y ∈ before, y.passes = true) ∧ x.check = .error e ∧
      (Task.expand p.id).runOn s = .done outcome ∧
      outcome.Reports 1 [("success", .bool false), ("error", .str e.message)]) ∧
    ∃ outcome errors parts, ∃ compiled : Nat,
      (Task.compile (some p.id) none).runOn s = .done outcome ∧
      outcome.Reports (if errors = [] then 0 else 2) [("success", .bool errors.isEmpty),
        ("compiled", .int compiled), ("errors", .arr (errors.map Json.str))] ∧
      errors = parts.flatten ∧ List.Forall₂ Spec.MayReport p.specs parts ∧
      compiled + errors.length =
        Spec.tileTotal (p.specs.filter Spec.passes) + p.specs.countP (fun x => !x.passes) ∧
      ((∀ x ∈ p.specs, x.passes = true) → compiled + errors.length = p.tileTotal) ∧
      ((∃ x ∈ p.specs, x.passes = false) → outcome.code = 2) := by
  have hk := PackSet.ofDirectory_keyed hpacks
  have hselected := PackSet.specsFor_id hk hp hengine
  have hrun := fun t => Task.runOn_loaded hconfig hpacks t
  have hexpand : (Task.expand p.id).runOn s = .done (.ofResult (Task.runExpand r p.id)) := hrun _
  rw [Task.runExpand_eq hselected] at hexpand
  refine ⟨?_, fun hall => ?_, fun hsome => ?_, ?_⟩
  · obtain ⟨rows, hrows, htiles⟩ := PackSet.listing_tiles hk hp
    refine ⟨rows, ?_, htiles⟩
    rw [hrun, ← hrows]
    rfl
  · rw [mapM_eq_ok fun x hx => Spec.expand_of_passes (hall x hx)] at hexpand
    have hcount : (p.specs.flatMap Spec.family).length = p.tileTotal :=
      (Spec.tileTotal_eq_length p.specs).symm
    refine ⟨_, _, hexpand, ?_, rfl, by rw [List.length_map, hcount]⟩
    rw [← hcount]
    exact Task.expandReport_reports _
  · obtain ⟨before, x, behind, e, happend, hbefore, he⟩ := Spec.exists_first_refused hsome
    rw [happend, mapM_eq_error (fun y hy => Spec.expand_of_passes (hbefore y hy))
      (Spec.expand_of_refused he)] at hexpand
    exact ⟨before, x, behind, e, _, happend, hbefore, he, hexpand, Outcome.failure_reports _⟩
  · obtain ⟨batch, d, hbatch, hreport⟩ := Task.runCompile_eq config hselected hspecs
    obtain ⟨htotal, parts, hparts, hmessages⟩ := Compiler.accounts_of_compileAll hspecs hbatch
    have hreports := Task.compileReport_reports batch
    refine ⟨_, batch.errors, parts, batch.outputs.length, (hrun _).trans hreport, hreports, hparts,
      hmessages, htotal, fun hall => ?_, fun hsome => ?_⟩
    · obtain ⟨hfilter, hcount⟩ := Spec.filter_passes_eq_self hall
      rw [htotal, hfilter, hcount]
      rfl
    · have hne : batch.errors ≠ [] := hparts ▸ Spec.messages_ne_nil hmessages hsome
      rw [hreports.1, if_neg hne]

theorem tasks_agree_on_worn_pack :
    let text := "\x7b\"id\":\"p\",\"name\":\"Cave\",\"specs\":[" ++
      "\x7b\"id\":\"walls\",\"grammar\":\x7b\"category\":\"wall\",\"palette\":\"stone\"\x7d," ++
      "\"damage_variants\":3\x7d," ++
      "\x7b\"id\":\"worn\",\"grammar\":\x7b\"category\":\"wall\",\"palette\":\"stone\"\x7d," ++
      "\"damage_variants\":9\x7d]\x7d"
    let files : List (String × FileContent) := [("cave.json", .text text)]
    let s : Sources := ⟨.missing, .entries files, none⟩
    let walls := Spec.ofGrammar "walls" (.ofCategory "wall" "stone")
    let p : Pack := ⟨"p", "Cave", "", "1.0.0", "1.0.0", false,
      [{ walls with damageVariants := 3 }, { walls with id := "worn", damageVariants := 9 }]⟩
    ∃ r, Settings.ofFile s.config = .ok .standard ∧ PackSet.ofDirectory s.packs = .ok r ∧
      p ∈ r.list ∧ p.specs ≠ [] ∧ p.checkEngine = .ok () ∧
      (∃ outcome e, (Task.expand "p").runOn s = .done outcome ∧
        outcome.Reports 1 [("success", .bool false), ("error", .str e)]) ∧
      ∃ outcome, ∃ errors : List String, ∃ compiled : Nat,
        (Task.compile (some "p") none).runOn s = .done outcome ∧
        outcome.Reports 2 [("success", .bool false), ("compiled", .int compiled),
          ("errors", .arr (errors.map Json.str))] ∧
        compiled + errors.length = 4 := by
  intro text files s walls p
  have hlast : PackSet.lastPack p.id files = some p := by decide +kernel
  have hpacks := PackSet.ofDirectory_entries files
  have hp := ((PackSet.ofDirectory_keyed hpacks).mem_values_iff p).mpr
    ((PackSet.get?_ofList_packs files p.id).trans hlast)
  have hspecs : p.specs ≠ [] := List.cons_ne_nil _ _
  have hengine : p.checkEngine = .ok () := by decide +kernel
  have hsome : ∃ x ∈ p.specs, x.passes = false := by decide +kernel
  obtain ⟨-, -, hexpand, hcompile⟩ := tasks_agree_on_pack s rfl hpacks hp hspecs hengine
  obtain ⟨-, -, -, e, _, -, -, -, hfails, hfailure⟩ := hexpand hsome
  obtain ⟨_, errors, _, compiled, hruns, hreports, -, -, htotal, -, hcode⟩ := hcompile
  have hne : errors ≠ [] := by
    rintro rfl
    exact absurd (hreports.1.symm.trans (hcode hsome)) (by decide)
  rw [if_neg hne, List.isEmpty_eq_false_iff.mpr hne] at hreports
  have hsum : Spec.tileTotal (p.specs.filter Spec.passes) +
      p.specs.countP (fun x => !x.passes) = 4 := by decide +kernel
  exact ⟨_, rfl, hpacks, hp, hspecs, hengine, ⟨_, _, hfails, hfailure⟩,
    _, errors, compiled, hruns, hreports, htotal.trans hsum⟩

end TileGrammar
