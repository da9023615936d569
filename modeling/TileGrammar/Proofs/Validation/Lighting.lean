import TileGrammar.Proofs.Validation.Verdicts

/-!
# Transparency under the lighting dial

A palette may forbid transparency. At the middle position of the dial a tile
is judged by the palette itself, and the ban holds. At the other positions it
is judged by a companion of the palette, and companions go back to the default
of allowing transparency. There a tile with clear pixels passes whenever it
meets the rest of its contract; pixels that are neither clear nor opaque fail
a tile at every position.
-/

set_option autoImplicit false

namespace TileGrammar

theorem Palette.allowTransparency_litAt (p : Palette) {lighting : UInt8} (h : lighting ≠ 1) :
    (p.litAt lighting).allowTransparency = true := by
  unfold litAt
  rw [if_neg h]
  split <;> rfl

theorem Palette.litAt_one (p : Palette) : p.litAt 1 = p := rfl

/-- A tile with pixels that are not opaque, drawn for a palette that forbids them. In normal light it
fails. In other light the companion of the palette allows what the palette forbids, and the tile
passes exactly when it meets the contract of the companion. It fails in any light for a pixel that is
neither clear nor opaque. -/
theorem ban_holds_in_normal_light (policy : Policy) {r : PaletteSet} {g : Grammar} {p : Palette}
    {c : Canvas} (hc : c.WellFormed) (hp : r.get? g.palette = some p)
    (hban : p.allowTransparency = false) (hpixel : ∃ q ∈ c.places, (c.pixel q).a < 255) :
    ∃ v, policy.judge c g (r.paletteOf? g) = .ok v ∧
      (g.lighting = 1 → v.passed = false) ∧
      (g.lighting ≠ 1 → (p.litAt g.lighting).allowTransparency = true ∧
        (v.passed = true ↔ policy.Contract c g (some (p.litAt g.lighting)))) ∧
      ((∃ q ∈ c.places, 0 < (c.pixel q).a ∧ (c.pixel q).a < 255) → v.passed = false) := by
  have hlit : r.paletteOf? g = some (p.litAt g.lighting) := by
    rw [PaletteSet.paletteOf?, PaletteSet.lit?, hp, Option.map_some]
  rw [hlit]
  obtain ⟨counts, hcounts⟩ := Scene.stats_ok policy g (some (p.litAt g.lighting)) hc
  obtain ⟨v, hv, hiff, -⟩ := Scene.verdict_decides
    (Scene.findings_decide policy g (some (p.litAt g.lighting)) hc) hcounts
  refine ⟨v, hv, fun hone => ?_, fun hother => ⟨p.allowTransparency_litAt hother, hiff⟩, ?_⟩
  · obtain ⟨q, hq, hlow⟩ := hpixel
    rw [← Bool.not_eq_true, hiff]
    intro hmet
    have hfull := hmet.full _ rfl (by rw [hone, Palette.litAt_one, hban]) q hq
    rw [hfull] at hlow
    exact absurd hlow (by decide)
  · rintro ⟨q, hq, hpartial⟩
    rw [← Bool.not_eq_true, hiff]
    exact fun hmet => hmet.sharp q hq hpartial

theorem ban_holds_in_normal_light_pierced :
    let c := (Canvas.uniform 4 4 ⟨0, 0, 0, 255⟩).paint 1 1 .clear
    let g := { Grammar.ofCategory "wall" "ink" with
      size := .tiny, edges := Signature.onAllSides .solid, center := "wall", lighting := 2 }
    let ink := { Palette.ofColors "ink" "Ink" [⟨0, 0, 0, 255, none⟩] with allowTransparency := false }
    let r := PaletteSet.empty.register ink
    c.WellFormed ∧ r.get? g.palette = some ink ∧ (∃ q ∈ c.places, (c.pixel q).a < 255) ∧
      ∃ v, Policy.lenient.judge c g (r.paletteOf? g) = .ok v ∧
        (v.passed = true ↔ Policy.lenient.Contract c g (some (ink.litAt 2))) := by
  intro c g ink r
  have hc : c.WellFormed := Canvas.paint_wellFormed (Canvas.uniform_wellFormed _ _ _) _ _ _
  have hp : r.get? g.palette = some ink := by decide +kernel
  have hpixel : ∃ q ∈ c.places, (c.pixel q).a < 255 := ⟨(1, 1), by decide +kernel⟩
  obtain ⟨v, hv, -, hother, -⟩ := ban_holds_in_normal_light Policy.lenient hc hp rfl hpixel
  exact ⟨hc, hp, hpixel, v, hv, (hother (by decide)).2⟩

/-- In the dark the same tile passes, though its palette forbids the clear pixel. -/
theorem ban_lost_in_the_dark : ¬ ∀ (policy : Policy) (r : PaletteSet) (g : Grammar) (p : Palette)
    (c : Canvas) (v : Verdict), c.WellFormed → r.get? g.palette = some p →
    p.allowTransparency = false → g.lighting ≤ 2 → (∃ q ∈ c.places, (c.pixel q).a < 255) →
    policy.judge c g (r.paletteOf? g) = .ok v → v.passed = false := by
  intro h
  let c := (Canvas.uniform 4 4 ⟨0, 0, 0, 255⟩).paint 1 1 .clear
  let g := { Grammar.ofCategory "wall" "ink" with
    size := .tiny, edges := Signature.onAllSides .solid, center := "wall", lighting := 0 }
  let ink := { Palette.ofColors "ink" "Ink" [⟨0, 0, 0, 255, none⟩] with allowTransparency := false }
  let r := PaletteSet.empty.register ink
  have hpassed : (Policy.strictest.judge c g (r.paletteOf? g)).toOption.map Verdict.passed =
      some true := by decide +kernel
  cases hv : Policy.strictest.judge c g (r.paletteOf? g) with
  | error e =>
    rw [hv] at hpassed
    cases hpassed
  | ok v =>
    have hfail := h Policy.strictest r g ink c v
      (Canvas.paint_wellFormed (Canvas.uniform_wellFormed _ _ _) _ _ _) (by decide +kernel) rfl
      (by decide) ⟨(1, 1), by decide +kernel⟩ hv
    rw [hv] at hpassed
    have hpass : v.passed = true := Option.some.inj hpassed
    rw [hpass] at hfail
    cases hfail

end TileGrammar
