import TileGrammar.Proofs.Validation.Comparison

/-!
# Looser policies

A policy is looser than another one when it tolerates more, budgets more colors
and is strict only if the other one is. No rule finds more errors under a looser
policy, and an error can at most become a warning. So what passes under a policy
passes under every looser one.
-/

set_option autoImplicit false

namespace TileGrammar

/-- A policy that asks for no more than another one. -/
structure Policy.Loosens (q p : Policy) : Prop where
  tolerance : p.tolerance ≤ q.tolerance
  maxColors : p.maxColors ≤ q.maxColors
  strict : q.strict = true → p.strict = true

theorem Policy.lenient_loosens_strictest : lenient.Loosens strictest where
  tolerance := by decide
  maxColors := by decide
  strict := by decide

/-- No more errors of any kind are in the second list. -/
def Milder (xs ys : List Violation) : Prop :=
  ∀ k, countOf ys .error k ≤ countOf xs .error k

theorem Milder.refl (xs : List Violation) : Milder xs xs := fun _ => le_refl _

theorem milder_additive : Additive Milder where
  nil := .refl []
  append := by
    intro xs ys us vs h h' k
    rw [countOf_append, countOf_append]
    exact Nat.add_le_add (h k) (h' k)

theorem Rgba.Within.mono {t u : UInt8} (htu : t ≤ u) {p q : Rgba} (h : p.Within t q) :
    p.Within u q := fun channel hc => (h channel hc).trans (UInt8.le_iff_toNat_le.mp htu)

theorem Palette.Covers.mono {t u : UInt8} (htu : t ≤ u) {p : Palette} {pixel : Rgba}
    (h : p.Covers t pixel) : p.Covers u pixel := by
  rcases h with hclear | ⟨color, hcolor, hnear⟩ | ⟨hallow, hnear⟩
  · exact .inl hclear
  · exact .inr (.inl ⟨color, hcolor, hnear.mono htu⟩)
  · exact .inr (.inr ⟨hallow, hnear.mono htu⟩)

theorem Palette.foreign_sublist {t u : UInt8} (htu : t ≤ u) (p : Palette) (colors : List Rgba) :
    (colors.filter fun color => !p.admits u color).Sublist
      (colors.filter fun color => !p.admits t color) := by
  refine List.monotone_filter_right _ fun color hu => ?_
  simp only [Bool.not_eq_true'] at hu ⊢
  rw [← Bool.not_eq_true] at hu ⊢
  rw [Palette.admits_iff] at hu ⊢
  exact fun ht => hu (ht.mono htu)

section

variable {p q : Policy} {c : Canvas} (g : Grammar) (palette : Option Palette)

theorem Policy.Loosens.budget_le (hpq : q.Loosens p) : p.budget palette ≤ q.budget palette := by
  cases palette with
  | none => exact UInt64.le_iff_toNat_le.mp hpq.maxColors
  | some x => exact le_refl _

theorem checkPalette_milder (h : c.WellFormed) (hpq : q.Loosens p) :
    Related Milder (checkPalette (.ofCanvas p c g palette))
      (checkPalette (.ofCanvas q c g palette)) := by
  cases palette with
  | none => exact ⟨[], [], rfl, rfl, .refl []⟩
  | some x =>
    refine ⟨_, _, checkPalette_eq p g h x, checkPalette_eq q g h x, fun k => ?_⟩
    have hkind : ∀ (colors : List Rgba), ∀ v ∈ colors.map (foreignColor x),
        v.severity = .error ∧ v.kind = .color := by
      intro colors v hv
      obtain ⟨color, -, rfl⟩ := List.mem_map.mp hv
      exact ⟨rfl, rfl⟩
    have hfewer := x.foreign_sublist hpq.tolerance c.shades
    rw [countOf_uniform (hkind _), countOf_uniform (hkind _)]
    split
    · simp only [List.length_map, List.length_take]
      have := hfewer.length_le
      omega
    · exact le_refl _

/-- Too many colors are an error under the looser policy only if they are one under the other. -/
theorem checkColorCount_milder (h : c.WellFormed) (hpq : q.Loosens p) :
    Related Milder (checkColorCount (.ofCanvas p c g palette))
      (checkColorCount (.ofCanvas q c g palette)) := by
  refine ⟨_, _, checkColorCount_eq p g palette h, checkColorCount_eq q g palette h, fun k => ?_⟩
  have hbudget := hpq.budget_le palette
  by_cases hq : c.colorsSeen.card ≤ q.budget palette
  · rw [if_pos hq]
    exact Nat.zero_le _
  · have hp : ¬ c.colorsSeen.card ≤ p.budget palette := by omega
    rw [if_neg hq, if_neg hp]
    cases hs : q.strict with
    | true =>
      rw [hpq.strict hs]
      simp [countOf, tooManyColors]
    | false => simp [countOf, tooManyColors]

theorem rules_milder (h : c.WellFormed) (hpq : q.Loosens p) : ∀ rule ∈ Rule.all,
    Related Milder (rule.check (.ofCanvas p c g palette))
      (rule.check (.ofCanvas q c g palette)) := by
  simp only [Rule.all, List.forall_mem_cons, List.not_mem_nil, false_implies, implies_true,
    and_true]
  -- Only two of the rules look at the policy.
  exact ⟨.of_decides (checkSize_decides p g palette c) .refl,
    checkPalette_milder g palette h hpq,
    .of_decides (checkTransparency_decides p g palette h) .refl,
    checkColorCount_milder g palette h hpq,
    .of_decides (checkEdges_decides p g palette h) .refl,
    .of_decides (checkStray_decides p g palette h) .refl,
    .of_decides (checkCenter_decides p g palette h) .refl⟩

end

/-- A looser policy finds no more errors of any kind in a picture, so it passes whatever the
stricter one passes. In particular the lenient policy passes whatever the strictest one does. -/
theorem loosening_keeps_pass {c : Canvas} (h : c.WellFormed) (g : Grammar)
    (palette : Option Palette) :
    (∀ p q : Policy, p.tolerance ≤ q.tolerance → p.maxColors ≤ q.maxColors →
      (q.strict = true → p.strict = true) →
      ∃ v w, p.judge c g palette = .ok v ∧ q.judge c g palette = .ok w ∧
        (∀ k, w.errorCount k ≤ v.errorCount k) ∧ (v.passed = true → w.passed = true)) ∧
    ∃ v w, Policy.strictest.judge c g palette = .ok v ∧
      Policy.lenient.judge c g palette = .ok w ∧ (v.passed = true → w.passed = true) := by
  have hmain : ∀ p q : Policy, q.Loosens p →
      ∃ v w, p.judge c g palette = .ok v ∧ q.judge c g palette = .ok w ∧
        (∀ k, w.errorCount k ≤ v.errorCount k) ∧ (v.passed = true → w.passed = true) := by
    intro p q hpq
    obtain ⟨v, w, xs, ys, hv, hw, hvx, hwy, hmild⟩ := Scene.verdict_related milder_additive
      (rules_milder g palette h hpq) (Scene.stats_ok p g palette h) (Scene.stats_ok q g palette h)
    have hcount : ∀ k, w.errorCount k ≤ v.errorCount k := by
      intro k
      rw [hvx.errors, hwy.errors]
      exact hmild k
    refine ⟨v, w, hv, hw, hcount, fun hpass => ?_⟩
    rw [hwy.passed]
    intro k
    have hzero := hvx.passed.mp hpass k
    have hle := hcount k
    omega
  refine ⟨fun p q ht hm hs => hmain p q ⟨ht, hm, hs⟩, ?_⟩
  obtain ⟨v, w, hv, hw, -, hpass⟩ := hmain .strictest .lenient Policy.lenient_loosens_strictest
  exact ⟨v, w, hv, hw, hpass⟩

theorem loosening_keeps_pass_off_shade :
    let c := (Canvas.uniform 4 4 .clear).drawAll [.rect 0 0 4 2 ⟨22, 20, 20, 255⟩]
    let g := { Grammar.ofCategory "wall" "ink" with
      size := .tiny, edges := ⟨.solid, .empty, .empty, .empty⟩, center := "torch" }
    let ink := { Palette.ofColors "ink" "Ink" [⟨20, 20, 20, 255, none⟩] with maxColors := 1 }
    let p : Policy := ⟨true, 3, 1⟩
    let q : Policy := ⟨false, 200, 4⟩
    c.WellFormed ∧ p.tolerance ≤ q.tolerance ∧ p.maxColors ≤ q.maxColors ∧
      (q.strict = true → p.strict = true) ∧
      ∃ v w, p.judge c g (some ink) = .ok v ∧ q.judge c g (some ink) = .ok w ∧
        v.passed = true ∧ w.passed = true := by
  intro c g ink p q
  have hc : c.WellFormed := Canvas.drawAll_wellFormed (Canvas.uniform_wellFormed _ _ _) _
  have hpassed : (p.judge c g (some ink)).toOption.map Verdict.passed = some true := by
    decide +kernel
  have ht : p.tolerance ≤ q.tolerance := by decide
  have hm : p.maxColors ≤ q.maxColors := by decide
  have hs : q.strict = true → p.strict = true := by decide
  obtain ⟨v, w, hv, hw, -, hpass⟩ := (loosening_keeps_pass hc g (some ink)).1 p q ht hm hs
  have hvp : v.passed = true := by
    rw [hv] at hpassed
    exact Option.some.inj hpassed
  exact ⟨hc, ht, hm, hs, v, w, hv, hw, hvp, hpass hvp⟩

end TileGrammar
