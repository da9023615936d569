import TileGrammar.Proofs.Validation.Rules

/-!
# A tile passes when it meets its contract

The verdict on a tile keeps what all rules find and fails the tile for an
error only. So on a well formed canvas there is always a verdict, and it
passes the tile exactly when every part of the contract holds, whatever else
is warned of.
-/

set_option autoImplicit false

namespace TileGrammar

theorem Verdict.noteAll_eq (v : Verdict) (found : List Violation) :
    v.noteAll found = { v with
      passed := v.passed && found.all fun x => x.severity ≠ .error
      errors := v.errors ++ found.filter fun x => x.severity = .error
      warnings := v.warnings ++ found.filter fun x => x.severity = .warning } := by
  induction found generalizing v with
  | nil => simp [noteAll]
  | cons x found ih =>
    have hnote : v.noteAll (x :: found) = (v.note x).noteAll found := rfl
    rw [hnote, ih, note]
    cases hx : x.severity <;> simp [hx]

namespace Scene

theorem verdict_decides {s : Scene} {P : Prop} (h : Decides s.findings P) {counts : Dict Json}
    (hcounts : s.stats = .ok counts) :
    ∃ v, s.verdict = .ok v ∧ (v.passed = true ↔ P) ∧ (v.passed = true ↔ v.errors = []) := by
  obtain ⟨found, hfound, hP⟩ := h
  have hverdict : s.verdict =
      .ok { (Verdict.clean s.grammar.tileId).noteAll found with stats := counts } := by
    rw [verdict, hfound, hcounts]
    rfl
  have hpassed : ((Verdict.clean s.grammar.tileId).noteAll found).passed = true ↔ P := by
    rw [Verdict.noteAll_eq, ← hP]
    simp [Verdict.clean]
  have herrors : ((Verdict.clean s.grammar.tileId).noteAll found).errors = [] ↔ P := by
    rw [Verdict.noteAll_eq, ← hP]
    simp [Verdict.clean, List.filter_eq_nil_iff]
  exact ⟨_, hverdict, hpassed, hpassed.trans herrors.symm⟩

variable (policy : Policy) {c : Canvas} (g : Grammar) (palette : Option Palette)

/-- The seven rules together decide the contract. -/
theorem findings_decide (h : c.WellFormed) :
    Decides (findings (ofCanvas policy c g palette)) (policy.Contract c g palette) := by
  refine Decides.congr (.cons (checkSize_decides policy g palette c) <|
    .cons (checkPalette_decides policy g palette h) <|
    .cons (checkTransparency_decides policy g palette h) <|
    .cons (checkColorCount_decides policy g palette h) <|
    .cons (checkEdges_decides policy g palette h) <|
    .cons (checkStray_decides policy g palette h) <|
    .cons (checkCenter_decides policy g palette h) <| .nil _) ?_
  constructor
  · rintro ⟨hsize, hcolors, ⟨hsharp, hfull⟩, hbudget, hsides, -, hcenter, -⟩
    exact ⟨hsize, hcolors, hsharp, hfull, hbudget, hsides, hcenter⟩
  · rintro ⟨hsize, hcolors, hsharp, hfull, hbudget, hsides, hcenter⟩
    exact ⟨hsize, hcolors, ⟨hsharp, hfull⟩, hbudget, hsides, trivial, hcenter, trivial⟩

theorem stats_ok (h : c.WellFormed) :
    ∃ counts, (ofCanvas policy c g palette).stats = .ok counts := by
  have hforeign : ∃ colors, (ofCanvas policy c g palette).foreignColors? = .ok colors := by
    cases palette with
    | none => exact ⟨none, rfl⟩
    | some p =>
      simp only [foreignColors?, ofCanvas, Option.mapM_some, foreignColors_eq h]
      exact ⟨_, rfl⟩
  obtain ⟨colors, hcolors⟩ := hforeign
  simp only [stats, view_ofCanvas, distinctColors_eq h, hcolors]
  exact ⟨_, rfl⟩

theorem verdict_ok (h : c.WellFormed) :
    ∃ v, (ofCanvas policy c g palette).verdict = .ok v := by
  obtain ⟨counts, hcounts⟩ := stats_ok policy g palette h
  obtain ⟨v, hv, -⟩ := verdict_decides (findings_decide policy g palette h) hcounts
  exact ⟨v, hv⟩

end Scene

/-- Every well formed canvas gets a verdict, which passes it exactly when the canvas meets the
contract of its grammar, palette and policy, and exactly when there is no error among the findings,
whatever the warnings are. -/
theorem Policy.judge_passes_iff_contract (policy : Policy) {c : Canvas} (h : c.WellFormed)
    (g : Grammar) (palette : Option Palette) :
    ∃ v, policy.judge c g palette = .ok v ∧
      (v.passed = true ↔ policy.Contract c g palette) ∧ (v.passed = true ↔ v.errors = []) := by
  obtain ⟨counts, hcounts⟩ := Scene.stats_ok policy g palette h
  exact Scene.verdict_decides (Scene.findings_decide policy g palette h) hcounts

/-- A tile whose upper half is drawn: a solid side, an empty one, two that are half drawn and so
still count as empty, and a middle half drawn, in the one color that is allowed. -/
theorem judge_passes_upper_half :
    let c := (Canvas.uniform 4 4 .clear).drawAll [.rect 0 0 4 2 ⟨20, 20, 20, 255⟩]
    let g := { Grammar.ofCategory "wall" "ink" with
      size := .tiny, edges := ⟨.solid, .empty, .empty, .empty⟩, center := "torch" }
    let ink := { Palette.ofColors "ink" "Ink" [⟨20, 20, 20, 255, none⟩] with maxColors := 1 }
    c.WellFormed ∧ ∃ v, Policy.strictest.judge c g (some ink) = .ok v ∧ v.passed = true ∧
      Policy.strictest.Contract c g (some ink) := by
  intro c g ink
  have hc : c.WellFormed := Canvas.drawAll_wellFormed (Canvas.uniform_wellFormed _ _ _) _
  have hpassed : (Policy.strictest.judge c g (some ink)).toOption.map Verdict.passed = some true := by
    decide +kernel
  obtain ⟨v, hv, hiff, -⟩ := Policy.strictest.judge_passes_iff_contract hc g (some ink)
  have hvp : v.passed = true := by
    rw [hv] at hpassed
    exact Option.some.inj hpassed
  exact ⟨hc, v, hv, hvp, hiff.mp hvp⟩

end TileGrammar
