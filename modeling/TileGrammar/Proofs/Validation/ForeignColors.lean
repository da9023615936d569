import TileGrammar.Proofs.Order.Overlay
import TileGrammar.Proofs.Validation.Kinds
import TileGrammar.Proofs.Validation.Loosening
import TileGrammar.Proofs.Validation.Reach

/-!
# Foreign colors

The colors of a picture that its palette does not have, up to a tolerance. They
are listed once each in the order of their bytes, and a greater tolerance
leaves out some and changes nothing else. A verdict counts all of them and
reports the first five one by one. A picture is known here by a view alone,
and judged like the canvas with the same pixels.
-/

set_option autoImplicit false

namespace TileGrammar

theorem Rgba.rank_lt_iff (p q : Rgba) : p.rank < q.rank ↔ p.channels < q.channels := by
  obtain ⟨r, g, b, a⟩ := p
  obtain ⟨r', g', b', a'⟩ := q
  have bounds : ∀ c : UInt8, c.toNat < 256 := UInt8.toNat_lt
  have hg := bounds g
  have hg' := bounds g'
  have hb := bounds b
  have hb' := bounds b'
  have ha := bounds a
  have ha' := bounds a'
  simp only [rank, channels, List.cons_lt_cons_iff, UInt8.lt_iff_toNat_lt, ← UInt8.toNat_inj,
    List.not_lt_nil, and_false, or_false]
  omega

theorem Rgba.distinct_ordered (ps : List Rgba) :
    (distinct ps).Pairwise fun p q => p.channels < q.channels :=
  (sortedSetBy_ordered rank_injective ps).imp fun {p q} h => (rank_lt_iff p q).mp h

theorem Palette.contains_eq_any_near (p : Palette) (q : Rgba) :
    p.allowed.contains q = p.allowed.any fun a => q.near 0 a := by
  rw [Bool.eq_iff_iff, List.contains_iff_mem, List.any_eq_true]
  simp only [Rgba.near_iff, Rgba.within_zero_iff]
  exact ⟨fun h => ⟨q, h, rfl⟩, fun ⟨a, ha, he⟩ => he ▸ ha⟩

theorem stats_foreign (policy : Policy) {c : Canvas} (g : Grammar) (h : c.WellFormed)
    (p : Palette) :
    ∃ counts, (Scene.ofCanvas policy c g (some p)).stats = .ok counts ∧
      counts.get? "invalid_colors" =
        some (.int (c.shades.filter fun q => !p.admits policy.tolerance q).length) := by
  have hforeign : (Scene.ofCanvas policy c g (some p)).foreignColors? =
      .ok (some (c.shades.filter fun q => !p.admits policy.tolerance q)) := by
    simp only [Scene.foreignColors?, Scene.ofCanvas, Option.mapM_some, foreignColors_eq h]
    rfl
  simp only [Scene.stats, Scene.view_ofCanvas, distinctColors_eq h, hforeign]
  refine ⟨_, rfl, ?_⟩
  rw [Dict.get?_ofList, Dict.lastIn_append]
  rfl

section

variable {v : View} {pixel : Place → Rgba}

theorem Canvas.WellFormed.shows {c : Canvas} (h : c.WellFormed) : c.view.Shows c.pixel :=
  fun _ hp => h.read_eq (Canvas.mem_places.mpr hp)

def View.foreign (v : View) (pixel : Place → Rgba) (p : Palette) (tolerance : UInt8) : List Rgba :=
  (Canvas.ofFn v.width v.height pixel).shades.filter fun q => !p.admits tolerance q

theorem View.Shows.read_eq (hv : v.Shows pixel) {p : Place} (hp : p.1 < v.width ∧ p.2 < v.height) :
    v.read p = (Canvas.ofFn v.width v.height pixel).read p := by
  have hplace : p ∈ (Canvas.ofFn v.width v.height pixel).places := Canvas.mem_places.mpr hp
  rw [hv p hp, (Canvas.ofFn_wellFormed _ _ _).read_eq hplace, Canvas.pixel_ofFn _ hp]

theorem View.Shows.foreignColors_eq (hv : v.Shows pixel) (p : Palette) (tolerance : UInt8) :
    p.foreignColors tolerance v = .ok (v.foreign pixel p tolerance) := by
  let canvas := Canvas.ofFn v.width v.height pixel
  have hsame : p.foreignColors tolerance v = p.foreignColors tolerance canvas.view :=
    (p.foreignColors_asks tolerance v.width v.height).congr_read fun q hq =>
      hv.read_eq (Region.mem_all.mp hq)
  rw [hsame]
  exact TileGrammar.foreignColors_eq (Canvas.ofFn_wellFormed _ _ _) p tolerance

theorem View.Shows.verdict_eq (hv : v.Shows pixel) (policy : Policy) (g : Grammar)
    (palette : Option Palette) : Scene.verdict ⟨v, g, palette, policy⟩ =
      policy.judge (.ofFn v.width v.height pixel) g palette :=
  (Scene.ofCanvas policy (.ofFn v.width v.height pixel) g palette).verdict_congr_read
    fun _ hp => hv.read_eq hp

theorem View.mem_foreign_iff (p : Palette) (tolerance : UInt8) (q : Rgba) :
    q ∈ v.foreign pixel p tolerance ↔
      (∃ x y, x < v.width ∧ y < v.height ∧ pixel (x, y) = q) ∧
        ¬(q.a = 0 ∧ p.allowTransparency = true) ∧ ∀ a ∈ p.allowed, ¬q.Within tolerance a := by
  have hshown : q ∈ (Canvas.ofFn v.width v.height pixel).shades ↔
      ∃ x y, x < v.width ∧ y < v.height ∧ pixel (x, y) = q := by
    rw [mem_shades_iff]
    constructor
    · rintro ⟨⟨x, y⟩, hp, rfl⟩
      obtain ⟨hx, hy⟩ := Canvas.mem_places.mp hp
      exact ⟨x, y, hx, hy, (Canvas.pixel_ofFn pixel ⟨hx, hy⟩).symm⟩
    · rintro ⟨x, y, hx, hy, rfl⟩
      exact ⟨(x, y), Canvas.mem_places.mpr ⟨hx, hy⟩, Canvas.pixel_ofFn pixel ⟨hx, hy⟩⟩
  rw [View.foreign, List.mem_filter, hshown, Bool.not_eq_true', ← Bool.not_eq_true,
    Palette.admits_iff_allowed, not_or]
  push Not
  rfl

theorem View.Shows.verdict_counts_foreign (hv : v.Shows pixel) (policy : Policy) (g : Grammar)
    (p : Palette) :
    ∃ verdict, Scene.verdict ⟨v, g, some p, policy⟩ = .ok verdict ∧
      verdict.stats.get? "invalid_colors" =
        some (.int (v.foreign pixel p policy.tolerance).length) ∧
      verdict.errors.filter (fun e => e.kind = .color) =
        ((v.foreign pixel p policy.tolerance).take reportedColors).map (foreignColor p) := by
  let canvas := Canvas.ofFn v.width v.height pixel
  have hwell : canvas.WellFormed := Canvas.ofFn_wellFormed _ _ _
  obtain ⟨counts, hcounts, hcount⟩ := stats_foreign policy g hwell p
  obtain ⟨verdict, hverdict, hstats, hkind⟩ :=
    verdict_errors_of_kind policy g (some p) hwell hcounts
  refine ⟨verdict, (hv.verdict_eq policy g (some p)).trans hverdict, ?_, ?_⟩
  · rw [hstats]
    exact hcount
  · have hrule : ((⟨"palette", checkPalette⟩, .color) : Rule × ViolationKind) ∈
        Rule.all.zip Rule.kinds := by simp [Rule.all, Rule.kinds]
    have hfound := hkind _ _ _ hrule (checkPalette_eq policy g hwell p)
    have herrors : ∀ colors : List Rgba,
        (colors.map (foreignColor p)).filter (fun e => e.severity = .error) =
          colors.map (foreignColor p) := by
      intro colors
      rw [List.filter_eq_self]
      intro e he
      obtain ⟨color, -, rfl⟩ := List.mem_map.mp he
      rfl
    rw [hfound, herrors]
    rfl

end

/-- The foreign colors of a picture are listed once each and in the order of their bytes: those that
are shown, are neither clear where that is allowed nor within the tolerance of an allowed color. To
ask for an allowed color itself is to ask for one within tolerance zero, and a greater tolerance
leaves out some of the list. The verdict on the picture counts the whole list, and its errors about
colors are those for the first five. -/
theorem foreign_colors_are_reported {v : View} {pixel : Place → Rgba} (hv : v.Shows pixel)
    (p : Palette) :
    ∃ foreign : UInt8 → List Rgba,
      (∀ t, p.foreignColors t v = .ok (foreign t)) ∧
      (∀ t, (foreign t).Pairwise fun a b => a.channels < b.channels) ∧
      (∀ t q, q ∈ foreign t ↔ (∃ x y, x < v.width ∧ y < v.height ∧ pixel (x, y) = q) ∧
        ¬(q.a = 0 ∧ p.allowTransparency = true) ∧ ∀ a ∈ p.allowed, ¬q.Within t a) ∧
      (∀ q, p.allowed.contains q = p.allowed.any fun a => q.near 0 a) ∧
      (∀ t u, t ≤ u → (foreign u).Sublist (foreign t)) ∧
      ∀ (policy : Policy) (g : Grammar), ∃ verdict,
        Scene.verdict ⟨v, g, some p, policy⟩ = .ok verdict ∧
        verdict.stats.get? "invalid_colors" = some (.int (foreign policy.tolerance).length) ∧
        verdict.errors.filter (fun e => e.kind = .color) =
          ((foreign policy.tolerance).take 5).map (foreignColor p) ∧
        verdict.errorCount .color = min 5 (foreign policy.tolerance).length := by
  refine ⟨v.foreign pixel p, hv.foreignColors_eq p, fun t => ?_, View.mem_foreign_iff p,
    p.contains_eq_any_near, fun t u htu => p.foreign_sublist htu _, fun policy g => ?_⟩
  · exact (Rgba.distinct_ordered _).filter _
  · obtain ⟨verdict, hverdict, hcount, hreported⟩ := hv.verdict_counts_foreign policy g p
    refine ⟨verdict, hverdict, hcount, hreported, ?_⟩
    have hlength := congrArg List.length hreported
    rw [List.length_map, List.length_take] at hlength
    rw [Verdict.errorCount, List.countP_eq_length_filter, hlength]
    rfl

theorem foreign_colors_are_reported_seven :
    let c := (Canvas.uniform 8 1 .clear).drawAll [.point 1 0 ⟨7, 0, 0, 255⟩,
      .point 2 0 ⟨6, 0, 0, 255⟩, .point 3 0 ⟨5, 0, 0, 255⟩, .point 4 0 ⟨4, 0, 0, 255⟩,
      .point 5 0 ⟨3, 0, 0, 255⟩, .point 6 0 ⟨2, 0, 0, 255⟩, .point 7 0 ⟨2, 0, 0, 254⟩]
    let g := Grammar.ofCategory "wall" "ink"
    let ink := Palette.ofColors "ink" "Ink" [⟨20, 20, 20, 255, none⟩]
    c.view.Shows c.pixel ∧ (0 : UInt8) ≤ 200 ∧
      ∃ foreign : UInt8 → List Rgba, (foreign 0).length = 7 ∧ (foreign 200).Sublist (foreign 0) ∧
        ∃ verdict, Policy.strictest.judge c g (some ink) = .ok verdict ∧
          verdict.stats.get? "invalid_colors" = some (.int 7) ∧
          verdict.errors.filter (fun e => e.kind = .color) =
            ((foreign 0).take 5).map (foreignColor ink) ∧
          verdict.errorCount .color = 5 := by
  intro c g ink
  have hc : c.WellFormed := Canvas.drawAll_wellFormed (Canvas.uniform_wellFormed _ _ _) _
  have hle : (0 : UInt8) ≤ 200 := by decide
  obtain ⟨foreign, hforeign, -, -, -, hsublist, hverdict⟩ :=
    foreign_colors_are_reported hc.shows ink
  have hcount : (ink.foreignColors 0 c.view).toOption.map List.length = some 7 := by
    decide +kernel
  have hseven : (foreign 0).length = 7 := by
    rw [hforeign 0] at hcount
    exact Option.some.inj hcount
  obtain ⟨verdict, hjudge, hstats, herrors, hreported⟩ := hverdict Policy.strictest g
  rw [show Policy.strictest.tolerance = 0 from rfl, hseven] at hstats hreported
  exact ⟨hc.shows, hle, foreign, hseven, hsublist 0 200 hle, verdict, hjudge, hstats, herrors,
    hreported⟩

end TileGrammar
