import TileGrammar.Proofs.Validation.Verdicts

/-!
# Each rule has its kind of finding

The seven rules find things of seven different kinds, one kind each. So among
all findings on a picture those of one kind are what one rule finds, in its
order, and the errors of this kind in the verdict are the errors among them.
-/

set_option autoImplicit false

namespace TileGrammar

def Finds (answer : Except Error (List Violation)) (k : ViolationKind) : Prop :=
  ∃ found, answer = .ok found ∧ ∀ v ∈ found, v.kind = k

theorem Finds.flatten {α : Type} {f : α → Except Error (List Violation)} {k : ViolationKind}
    {as : List α} (h : ∀ a ∈ as, Finds (f a) k) : Finds ((as.mapM f).map List.flatten) k := by
  induction as with
  | nil => exact ⟨[], rfl, by simp⟩
  | cons a as ih =>
    obtain ⟨found, hfound, hk⟩ := h a (List.mem_cons_self ..)
    obtain ⟨others, hothers, hk'⟩ := ih fun b hb => h b (List.mem_cons_of_mem _ hb)
    exact ⟨found ++ others, flatten_mapM_cons hfound hothers,
      List.forall_mem_append.mpr ⟨hk, hk'⟩⟩

theorem findings_of_kinds {s : Scene} {rules : List Rule} {kinds : List ViolationKind}
    (h : List.Forall₂ (fun rule k => Finds (rule.check s) k) rules kinds) (hn : kinds.Nodup) :
    ∃ all, (rules.mapM fun (r : Rule) => r.check s).map List.flatten = .ok all ∧
      (∀ v ∈ all, v.kind ∈ kinds) ∧
      ∀ rule k found, (rule, k) ∈ rules.zip kinds → rule.check s = .ok found →
        all.filter (fun v => v.kind = k) = found := by
  induction h with
  | nil => exact ⟨[], rfl, by simp, by simp⟩
  | @cons rule k rules kinds hrule _ ih =>
    obtain ⟨hk, hkinds⟩ := List.nodup_cons.mp hn
    obtain ⟨found, hfound, hall⟩ := hrule
    obtain ⟨others, hothers, hrest, heach⟩ := ih hkinds
    refine ⟨found ++ others, flatten_mapM_cons hfound hothers, ?_, ?_⟩
    · intro v hv
      rcases List.mem_append.mp hv with hv | hv
      · rw [hall v hv]
        exact List.mem_cons_self ..
      · exact List.mem_cons_of_mem _ (hrest v hv)
    · intro rule' k' found' hz hfound'
      -- The first rule finds nothing of a later kind, nor the later rules anything of the first one.
      rw [List.filter_append]
      rcases List.mem_cons.mp hz with he | hz
      · obtain ⟨rfl, rfl⟩ := Prod.mk.inj he
        obtain rfl : found = found' := by
          rw [hfound] at hfound'
          exact Except.ok.inj hfound'
        have hself : found.filter (fun v => v.kind = k') = found :=
          List.filter_eq_self.mpr fun v hv => decide_eq_true (hall v hv)
        have hnone : others.filter (fun v => v.kind = k') = [] :=
          List.filter_eq_nil_iff.mpr fun v hv hf => hk (of_decide_eq_true hf ▸ hrest v hv)
        rw [hself, hnone, List.append_nil]
      · have hk' : k' ∈ kinds := (List.of_mem_zip hz).2
        have hnone : found.filter (fun v => v.kind = k') = [] :=
          List.filter_eq_nil_iff.mpr fun v hv hf =>
            hk (by rwa [← hall v hv, of_decide_eq_true hf])
        rw [hnone, List.nil_append]
        exact heach rule' k' found' hz hfound'

def Rule.kinds : List ViolationKind :=
  [.size, .color, .transparency, .antiAliasing, .edge, .stray, .center]

section

variable (policy : Policy) {c : Canvas} (g : Grammar) (palette : Option Palette)

theorem checkSize_finds (c : Canvas) :
    Finds (.ok (checkSize (.ofCanvas policy c g palette))) .size := by
  refine ⟨_, rfl, ?_⟩
  simp only [checkSize]
  split <;> simp

theorem checkPalette_finds (h : c.WellFormed) :
    Finds (checkPalette (.ofCanvas policy c g palette)) .color := by
  cases palette with
  | none => exact ⟨[], rfl, by simp⟩
  | some p =>
    refine ⟨_, checkPalette_eq policy g h p, fun v hv => ?_⟩
    obtain ⟨color, -, rfl⟩ := List.mem_map.mp hv
    rfl

theorem checkTransparency_finds (h : c.WellFormed) :
    Finds (checkTransparency (.ofCanvas policy c g palette)) .transparency := by
  refine ⟨_, checkTransparency_eq policy g palette h, List.forall_mem_append.mpr ⟨?_, ?_⟩⟩
  · generalize (Region.all c.width c.height).filter _ = ps
    cases ps <;> simp [semiTransparent]
  · split <;> simp [forbiddenTransparency]

theorem checkColorCount_finds (h : c.WellFormed) :
    Finds (checkColorCount (.ofCanvas policy c g palette)) .antiAliasing := by
  refine ⟨_, checkColorCount_eq policy g palette h, ?_⟩
  split <;> simp [tooManyColors]

theorem checkSide_finds (h : c.WellFormed) (hw : c.width ≠ 0) (hh : c.height ≠ 0)
    (d : Direction) : Finds (checkSide (.ofCanvas policy c g palette) d) .edge := by
  have hrow : (Region.side c.width c.height d).map c.pixel ≠ [] :=
    fun e => Region.side_ne_nil hw hh d (List.map_eq_nil_iff.mp e)
  obtain ⟨fault, hfault, -⟩ := edgeFault_errorFree_iff (g.edges.get d) hrow
  refine ⟨_, checkSide_eq policy g palette h hw hh d hfault, fun v hv => ?_⟩
  obtain ⟨f, -, rfl⟩ := List.mem_map.mp hv
  rfl

theorem checkEdges_finds (h : c.WellFormed) :
    Finds (checkEdges (.ofCanvas policy c g palette)) .edge := by
  by_cases hnone : c.width = 0 ∨ c.height = 0
  · exact ⟨[], if_pos hnone, by simp⟩
  · have hcheck : checkEdges (.ofCanvas policy c g palette) =
        (Direction.all.mapM (checkSide (.ofCanvas policy c g palette))).map List.flatten :=
      if_neg hnone
    obtain ⟨hw, hh⟩ := not_or.mp hnone
    rw [hcheck]
    exact .flatten fun d _ => checkSide_finds policy g palette h hw hh d

theorem checkStray_finds (h : c.WellFormed) :
    Finds (checkStray (.ofCanvas policy c g palette)) .stray := by
  refine ⟨_, checkStray_eq policy g palette h, ?_⟩
  generalize (Region.all c.width c.height).filter _ = ps
  cases ps <;> simp [strayPixels]

theorem checkCenter_finds (h : c.WellFormed) :
    Finds (checkCenter (.ofCanvas policy c g palette)) .center := by
  refine ⟨_, checkCenter_eq policy g palette h, ?_⟩
  split_ifs <;> simp [centerViolation]

theorem rules_find (h : c.WellFormed) :
    List.Forall₂ (fun (rule : Rule) k => Finds (rule.check (.ofCanvas policy c g palette)) k)
      Rule.all Rule.kinds :=
  .cons (checkSize_finds policy g palette c) <|
    .cons (checkPalette_finds policy g palette h) <|
    .cons (checkTransparency_finds policy g palette h) <|
    .cons (checkColorCount_finds policy g palette h) <|
    .cons (checkEdges_finds policy g palette h) <|
    .cons (checkStray_finds policy g palette h) <|
    .cons (checkCenter_finds policy g palette h) .nil

/-- The errors of one kind in a verdict are those that one rule finds. -/
theorem verdict_errors_of_kind (h : c.WellFormed) {counts : Dict Json}
    (hcounts : (Scene.ofCanvas policy c g palette).stats = .ok counts) :
    ∃ v, policy.judge c g palette = .ok v ∧ v.stats = counts ∧
      ∀ rule k found, (rule, k) ∈ Rule.all.zip Rule.kinds →
        rule.check (.ofCanvas policy c g palette) = .ok found →
        v.errors.filter (fun e => e.kind = k) = found.filter fun e => e.severity = .error := by
  obtain ⟨all, hall, -, heach⟩ := findings_of_kinds (rules_find policy g palette h) (by decide)
  have hjudge : policy.judge c g palette =
      .ok { (Verdict.clean g.tileId).noteAll all with stats := counts } := by
    rw [Policy.judge, Scene.verdict, show Scene.findings _ = _ from hall, hcounts]
    rfl
  refine ⟨_, hjudge, rfl, fun rule k found hz hfound => ?_⟩
  rw [← heach rule k found hz hfound, Verdict.noteAll_eq]
  simp only [Verdict.clean, List.nil_append, List.filter_filter, Bool.and_comm]

end

end TileGrammar
