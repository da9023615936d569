import TileGrammar.Proofs.Picture.Motion
import TileGrammar.Proofs.Validation.Comparison

/-!
# Judging a moved tile

A picture that is turned or mirrored together with the edges of its grammar is
judged like the picture it was made from. Each rule counts pixels in regions
that the motion takes to one another, or looks at a place and those next to it.
Only for a door frame it matters where on its side a pixel lies, since the
later of two middle places is looked at; what is wrong there is a warning.
-/

set_option autoImplicit false

namespace TileGrammar

def Grammar.moved (m : Motion) (g : Grammar) : Grammar := { g with edges := m.sides g.edges }

def Grammar.NoDoorFrame (g : Grammar) : Prop := ∀ d, g.edges.get d ≠ .doorFrame

/-- As many of each kind in both lists; if a condition holds, also of the warnings on edges. -/
def Balanced (P : Prop) (xs ys : List Violation) : Prop :=
  ∀ s k, (s = .warning → k = .edge → P) → countOf ys s k = countOf xs s k

theorem Balanced.refl (P : Prop) (xs : List Violation) : Balanced P xs xs := fun _ _ _ => rfl

theorem Balanced.trans {P : Prop} {xs ys zs : List Violation} (h : Balanced P xs ys)
    (h' : Balanced P ys zs) : Balanced P xs zs :=
  fun s k hP => (h' s k hP).trans (h s k hP)

theorem balanced_additive (P : Prop) : Additive (Balanced P) where
  nil := .refl P []
  append := by
    intro xs ys us vs h h' s k hP
    rw [countOf_append, countOf_append, h s k hP, h' s k hP]

def Violation.sort (v : Violation) : Severity × ViolationKind := (v.severity, v.kind)

theorem Balanced.of_map_sort {xs ys : List Violation} (P : Prop)
    (h : ys.map Violation.sort = xs.map Violation.sort) : Balanced P xs ys := by
  have hcount : ∀ zs s k, countOf zs s k =
      (zs.map Violation.sort).countP fun e => e.1 = s ∧ e.2 = k := by
    intro zs s k
    rw [List.countP_map]
    rfl
  intro s k _
  rw [hcount, hcount, h]

theorem Balanced.ofTest (P : Prop) {A B : Prop} [Decidable A] [Decidable B] (hAB : B ↔ A)
    {v w : Violation} (hs : w.sort = v.sort) :
    Balanced P (if A then [] else [v]) (if B then [] else [w]) := by
  apply Balanced.of_map_sort
  by_cases hA : A
  · rw [if_pos hA, if_pos (hAB.mpr hA)]
  · rw [if_neg hA, if_neg fun hB => hA (hAB.mp hB), List.map_singleton, List.map_singleton, hs]

theorem Balanced.of_perm {xs ys : List Violation} (P : Prop) (h : ys.Perm xs) :
    Balanced P xs ys := fun _ _ _ => h.countP_eq _

theorem strayPixels_balanced (P : Prop) {ps qs : List Place} (h : qs = [] ↔ ps = []) :
    Balanced P (strayPixels ps) (strayPixels qs) := by
  apply Balanced.of_map_sort
  cases ps <;> cases qs <;> simp [strayPixels, Violation.sort] at h ⊢

theorem semiTransparent_balanced (P : Prop) {ps qs : List Place} (h : qs = [] ↔ ps = []) :
    Balanced P (semiTransparent ps) (semiTransparent qs) := by
  apply Balanced.of_map_sort
  cases ps <;> cases qs <;> simp [semiTransparent, Violation.sort] at h ⊢

/-- Counting does not see in which order a row is read, and only for a door frame more is seen. -/
theorem edgeFault_perm {code : EdgeCode} (hcode : code ≠ .doorFrame) {row other : List Rgba}
    (h : other.Perm row) : edgeFault code other = edgeFault code row := by
  have hlength := h.length_eq
  have hdrawn := h.filter fun p => !p.isClear
  have hfilled := hdrawn.length_eq
  have hblue := (hdrawn.filter Rgba.isBluish).length_eq
  cases code <;> simp only [edgeFault, hlength, hfilled, hblue, ne_eq, not_true_eq_false] at hcode ⊢

theorem agrees_of_doorFrame {code : EdgeCode} (h : code = .doorFrame) (row : List Rgba) :
    (code = .solid → row.length ≤ (row.filter fun p => !p.isClear).length) ∧
      (code = .empty → (row.filter fun p => !p.isClear).length * 2 ≤ row.length) := by
  subst h
  exact ⟨(absurd · (by decide)), (absurd · (by decide))⟩

theorem warns_of_errorFree {fault : Option (Severity × String)} (h : ∀ f ∈ fault, f.1 ≠ .error)
    (d : Direction) (code : EdgeCode) (row : List Rgba) :
    ∀ v ∈ fault.toList.map (edgeViolation d code row), v.severity = .warning ∧ v.kind = .edge := by
  intro v hv
  obtain ⟨f, hf, rfl⟩ := List.mem_map.mp hv
  have hne := h f (Option.mem_toList.mp hf)
  refine ⟨?_, rfl⟩
  show f.1 = .warning
  cases hs : f.1 with
  | error => exact absurd hs hne
  | warning => rfl

section

variable (policy : Policy) {c : Canvas} (g : Grammar) (palette : Option Palette) (m : Motion)

theorem shades_moved (c : Canvas) : (c.moved m).shades = c.shades :=
  Rgba.distinct_perm (c.all_moved_perm m)

theorem checkSize_balanced (c : Canvas) (P : Prop) :
    Balanced P (checkSize (.ofCanvas policy c g palette))
      (checkSize (.ofCanvas policy (c.moved m) (g.moved m) palette)) := by
  have hsize : (c.moved m).width = g.size.side ∧ (c.moved m).height = g.size.side ↔
      c.width = g.size.side ∧ c.height = g.size.side := by
    cases m
    case turn => exact and_comm
    case mirror => exact Iff.rfl
    case flip => exact Iff.rfl
  exact Balanced.ofTest P hsize rfl

theorem checkPalette_balanced (h : c.WellFormed) (P : Prop) :
    Related (Balanced P) (checkPalette (.ofCanvas policy c g palette))
      (checkPalette (.ofCanvas policy (c.moved m) (g.moved m) palette)) := by
  cases palette with
  | none => exact ⟨[], [], rfl, rfl, .refl P []⟩
  | some x =>
    refine ⟨_, _, checkPalette_eq policy g h x,
      checkPalette_eq policy (g.moved m) (c.moved_wellFormed m) x, ?_⟩
    rw [shades_moved]
    exact .refl P _

theorem checkColorCount_balanced (h : c.WellFormed) (P : Prop) :
    Related (Balanced P) (checkColorCount (.ofCanvas policy c g palette))
      (checkColorCount (.ofCanvas policy (c.moved m) (g.moved m) palette)) := by
  refine ⟨_, _, checkColorCount_eq policy g palette h,
    checkColorCount_eq policy (g.moved m) palette (c.moved_wellFormed m), ?_⟩
  rw [← length_shades_seen, ← length_shades_seen, shades_moved]
  exact .refl P _

theorem checkTransparency_balanced (h : c.WellFormed) (P : Prop) :
    Related (Balanced P) (checkTransparency (.ofCanvas policy c g palette))
      (checkTransparency (.ofCanvas policy (c.moved m) (g.moved m) palette)) := by
  refine ⟨_, _, checkTransparency_eq policy g palette h,
    checkTransparency_eq policy (g.moved m) palette (c.moved_wellFormed m),
    (balanced_additive P).append (semiTransparent_balanced P ?_) ?_⟩
  · have hperm := (c.all_moved_perm m).filter Rgba.isPartial
    rw [List.filter_map, List.filter_map] at hperm
    have hlength := hperm.length_eq
    rw [List.length_map, List.length_map] at hlength
    rw [← List.length_eq_zero_iff, ← List.length_eq_zero_iff]
    exact Eq.congr_left hlength
  · rw [(c.all_moved_perm m).any_eq]
    exact .refl P _

theorem checkCenter_balanced (h : c.WellFormed) (P : Prop) :
    Related (Balanced P) (checkCenter (.ofCanvas policy c g palette))
      (checkCenter (.ofCanvas policy (c.moved m) (g.moved m) palette)) := by
  have hperm := c.center_moved_perm m
  refine ⟨_, _, checkCenter_eq policy g palette h,
    checkCenter_eq policy (g.moved m) palette (c.moved_wellFormed m), .of_map_sort P ?_⟩
  rw [hperm.length_eq, (hperm.filter fun p => !p.isClear).length_eq,
    show (g.moved m).center = g.center from rfl]
  split_ifs <;> rfl

theorem checkSide_balanced (h : c.WellFormed) (hw : c.width ≠ 0) (hh : c.height ≠ 0)
    (d : Direction) :
    Related (Balanced g.NoDoorFrame) (checkSide (.ofCanvas policy c g palette) (m.sideFrom d))
      (checkSide (.ofCanvas policy (c.moved m) (g.moved m) palette) d) := by
  obtain ⟨hw', hh'⟩ := c.moved_ne_zero m hw hh
  have hcode : (g.moved m).edges.get d = g.edges.get (m.sideFrom d) := m.get_sides g.edges d
  have hrow : (Region.side c.width c.height (m.sideFrom d)).map c.pixel ≠ [] :=
    fun e => Region.side_ne_nil hw hh _ (List.map_eq_nil_iff.mp e)
  have hrow' : (Region.side (c.moved m).width (c.moved m).height d).map (c.moved m).pixel ≠ [] :=
    fun e => Region.side_ne_nil hw' hh' d (List.map_eq_nil_iff.mp e)
  obtain ⟨fault, hfault, hfree⟩ := edgeFault_errorFree_iff (g.edges.get (m.sideFrom d)) hrow
  obtain ⟨other, hother, hfree'⟩ := edgeFault_errorFree_iff (g.edges.get (m.sideFrom d)) hrow'
  rw [← hcode] at hother
  refine ⟨_, _, checkSide_eq policy g palette h hw hh _ hfault,
    checkSide_eq policy (g.moved m) palette (c.moved_wellFormed m) hw' hh' d hother, ?_⟩
  by_cases hdoor : g.edges.get (m.sideFrom d) = .doorFrame
  · -- Whatever is found there, it is a warning on an edge.
    have hwarns := warns_of_errorFree (hfree.mpr (agrees_of_doorFrame hdoor _)) (m.sideFrom d)
    have hwarns' := warns_of_errorFree (hfree'.mpr (agrees_of_doorFrame hdoor _)) d
    intro s k hP
    rw [countOf_uniform (hwarns _ _), countOf_uniform (hwarns' _ _)]
    split
    next he => exact absurd hdoor (hP he.1.symm he.2.symm _)
    next => rfl
  · have hsame : other = fault := by
      have hperm := edgeFault_perm hdoor (c.side_moved_perm m hw hh d)
      rw [hcode, hperm, hfault] at hother
      exact (Except.ok.inj hother).symm
    apply Balanced.of_map_sort
    rw [hsame]
    cases fault <;> rfl

theorem checkEdges_balanced (h : c.WellFormed) :
    Related (Balanced g.NoDoorFrame) (checkEdges (.ofCanvas policy c g palette))
      (checkEdges (.ofCanvas policy (c.moved m) (g.moved m) palette)) := by
  have hzero := c.width_moved_eq_zero_or_iff m
  by_cases hnone : c.width = 0 ∨ c.height = 0
  · exact ⟨[], [], if_pos hnone, if_pos (hzero.mpr hnone), .refl _ []⟩
  · obtain ⟨hw, hh⟩ := not_or.mp hnone
    let scene := Scene.ofCanvas policy c g palette
    let other := Scene.ofCanvas policy (c.moved m) (g.moved m) palette
    choose found hfound _ using fun d => checkSide_decides policy g palette h hw hh d
    have hrel : Related (Balanced g.NoDoorFrame)
        ((Direction.all.mapM fun d => checkSide scene (m.sideFrom d)).map List.flatten)
        ((Direction.all.mapM (checkSide other)).map List.flatten) :=
      Related.mapM (balanced_additive g.NoDoorFrame)
        fun d _ => checkSide_balanced policy g palette m h hw hh d
    obtain ⟨xs, ys, hxs, hys, hbalanced⟩ := hrel
    have hscene : checkEdges scene = .ok (Direction.all.flatMap found) :=
      (if_neg hnone).trans (flatten_mapM_eq_ok fun d _ => hfound d)
    have hother : checkEdges other = .ok ys := (if_neg (mt hzero.mp hnone)).trans hys
    -- The sides of the moved picture are those of the other one in another order.
    have hperm : xs.Perm (Direction.all.flatMap found) := by
      rw [flatten_mapM_eq_ok fun d _ => hfound (m.sideFrom d)] at hxs
      rw [← Except.ok.inj hxs, ← List.flatMap_map]
      exact m.sideFrom_perm.flatMap_right found
    exact ⟨_, ys, hscene, hother, (Balanced.of_perm _ hperm).trans hbalanced⟩

theorem standsAlone_moved (c : Canvas) {q : Place} (hq : q ∈ (c.moved m).places) :
    (c.moved m).standsAlone q = c.standsAlone (m.placeFrom c.width c.height q) := by
  have hperm := c.neighbors_moved_perm m hq
  simp only [Canvas.standsAlone, c.pixel_moved m hq, hperm.isEmpty_eq, hperm.all_eq]

theorem checkStray_balanced (h : c.WellFormed) (P : Prop) :
    Related (Balanced P) (checkStray (.ofCanvas policy c g palette))
      (checkStray (.ofCanvas policy (c.moved m) (g.moved m) palette)) := by
  refine ⟨_, _, checkStray_eq policy g palette h,
    checkStray_eq policy (g.moved m) palette (c.moved_wellFormed m), strayPixels_balanced P ?_⟩
  rw [List.filter_eq_nil_iff, List.filter_eq_nil_iff]
  constructor
  · intro hnone p hp
    obtain ⟨q, hq, rfl⟩ := m.exists_placeFrom (Region.mem_all.mp hp)
    rw [← standsAlone_moved m c (Canvas.mem_places.mpr hq)]
    exact hnone q (Region.mem_all.mpr hq)
  · intro hnone q hq
    have hq := Region.mem_all.mp hq
    rw [standsAlone_moved m c (Canvas.mem_places.mpr hq)]
    exact hnone _ (Region.mem_all.mpr (m.placeFrom_lt hq))

theorem rules_balanced (h : c.WellFormed) : ∀ rule ∈ Rule.all,
    Related (Balanced g.NoDoorFrame) (rule.check (.ofCanvas policy c g palette))
      (rule.check (.ofCanvas policy (c.moved m) (g.moved m) palette)) := by
  simp only [Rule.all, List.forall_mem_cons, List.not_mem_nil, false_implies, implies_true,
    and_true]
  exact ⟨⟨_, _, rfl, rfl, checkSize_balanced policy g palette m c _⟩,
    checkPalette_balanced policy g palette m h _,
    checkTransparency_balanced policy g palette m h _,
    checkColorCount_balanced policy g palette m h _,
    checkEdges_balanced policy g palette m h,
    checkStray_balanced policy g palette m h _,
    checkCenter_balanced policy g palette m h _⟩

end

/-- A picture and its grammar's edges, turned by a quarter, mirrored or put upside down together,
are judged alike: the tile passes or fails as before, with as many errors of each kind and, but for
those on edges, as many warnings of each kind. Where no side is a door frame this holds of all
warnings. -/
theorem moved_tile_is_judged_alike (policy : Policy) {c : Canvas} (h : c.WellFormed) (g : Grammar)
    (palette : Option Palette) (m : Motion) :
    ∃ v w, policy.judge c g palette = .ok v ∧
      policy.judge (c.moved m) { g with edges := m.sides g.edges } palette = .ok w ∧
      w.passed = v.passed ∧ (∀ k, w.errorCount k = v.errorCount k) ∧
      ((∀ d, g.edges.get d ≠ .doorFrame) → ∀ k, w.warningCount k = v.warningCount k) ∧
      ∀ k, k ≠ .edge → w.warningCount k = v.warningCount k := by
  obtain ⟨v, w, xs, ys, hv, hw, hvx, hwy, hbalanced⟩ :=
    Scene.verdict_related (balanced_additive g.NoDoorFrame) (rules_balanced policy g palette m h)
      (Scene.stats_ok policy g palette h)
      (Scene.stats_ok policy (g.moved m) palette (c.moved_wellFormed m))
  have herrors : ∀ k, w.errorCount k = v.errorCount k := by
    intro k
    rw [hvx.errors, hwy.errors]
    exact hbalanced .error k fun hs => nomatch hs
  have hwarnings : ∀ k, (k = .edge → g.NoDoorFrame) → w.warningCount k = v.warningCount k := by
    intro k hk
    rw [hvx.warnings, hwy.warnings]
    exact hbalanced .warning k fun _ => hk
  have hpassed : w.passed = true ↔ v.passed = true := by
    rw [hvx.passed, hwy.passed]
    simp only [herrors]
  exact ⟨v, w, hv, hw, Bool.eq_iff_iff.mpr hpassed, herrors,
    fun hdoor k => hwarnings k fun _ => hdoor, fun k hk => hwarnings k fun he => absurd he hk⟩

theorem moved_tile_is_judged_alike_wide :
    let c := (Canvas.uniform 5 3 .clear).drawAll
      [.rect 0 0 3 1 ⟨20, 20, 20, 255⟩, .point 4 2 ⟨9, 9, 9, 255⟩]
    let g := { Grammar.ofCategory "wall" "ink" with
      size := .tiny, edges := ⟨.solid, .empty, .floor, .water⟩, center := "torch" }
    c.WellFormed ∧ (∀ d, g.edges.get d ≠ .doorFrame) ∧
      ∃ v w, Policy.strictest.judge c g none = .ok v ∧
        Policy.strictest.judge (c.moved .turn) { g with edges := ⟨.water, .solid, .empty, .floor⟩ }
          none = .ok w ∧
        v.errorCount .edge = 1 ∧ w.errorCount .edge = 1 ∧
        v.warningCount .stray = 1 ∧ w.warningCount .stray = 1 := by
  intro c g
  have hc : c.WellFormed := Canvas.drawAll_wellFormed (Canvas.uniform_wellFormed _ _ _) _
  have hdoor : ∀ d, g.edges.get d ≠ .doorFrame := by
    intro d
    cases d <;> decide
  have hcounts : (Policy.strictest.judge c g none).toOption.map
      (fun v => (v.errorCount .edge, v.warningCount .stray)) = some (1, 1) := by
    decide +kernel
  obtain ⟨v, w, hv, hw, -, herrors, hwarnings, -⟩ :=
    moved_tile_is_judged_alike Policy.strictest hc g none .turn
  rw [hv] at hcounts
  obtain ⟨hedge, hstray⟩ := Prod.mk.inj (Option.some.inj hcounts)
  exact ⟨hc, hdoor, v, w, hv, hw, hedge, (herrors _).trans hedge, hstray,
    (hwarnings hdoor _).trans hstray⟩

/-- An opening that is in the middle of its side is not there in the mirror. -/
example :
    let c := (Canvas.uniform 4 4 ⟨20, 20, 20, 255⟩).paint 2 0 .clear
    let g := { Grammar.ofCategory "door" "wood" with
      size := .tiny, edges := ⟨.doorFrame, .solid, .solid, .solid⟩, center := "door" }
    (Policy.lenient.judge c g none).toOption.map (fun v => v.warningCount .edge) = some 0 ∧
      (Policy.lenient.judge (c.moved .mirror) g none).toOption.map
        (fun v => v.warningCount .edge) = some 1 := by
  decide +kernel

end TileGrammar
