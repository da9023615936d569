import TileGrammar.Proofs.Validation.Contract

/-!
# What each rule decides

On a well formed canvas every rule answers, since it reads places of the
canvas only. Each one decides its own part of the contract: the lists that a
rule goes through are turned into sets of places, and its cases into the
condition that the contract states. Stray pixels are no part of it.
-/

set_option autoImplicit false

namespace TileGrammar

section

variable (policy : Policy) {c : Canvas} (g : Grammar) (palette : Option Palette)

@[simp] theorem Scene.view_ofCanvas : (ofCanvas policy c g palette).view = c.view := rfl

@[simp] theorem Scene.width_ofCanvas : (ofCanvas policy c g palette).width = c.width := rfl

@[simp] theorem Scene.height_ofCanvas : (ofCanvas policy c g palette).height = c.height := rfl

theorem checkSize_decides (c : Canvas) :
    Decides (.ok (checkSize (.ofCanvas policy c g palette)))
      ((c.width, c.height) = g.size.extent) := by
  refine (Decides.ofTest (P := c.width = g.size.extent.1 ∧ c.height = g.size.extent.2)
    rfl).congr ?_
  rw [Prod.ext_iff]

def Canvas.shades (c : Canvas) : List Rgba :=
  Rgba.distinct ((Region.all c.width c.height).map c.pixel)

theorem distinctColors_eq (h : c.WellFormed) : c.view.distinctColors = .ok c.shades := by
  rw [View.distinctColors, h.pixels_eq]
  rfl

theorem mem_shades_iff (c : Canvas) (q : Rgba) :
    q ∈ c.shades ↔ ∃ p ∈ c.places, c.pixel p = q := by
  simp [Canvas.shades, Rgba.mem_distinct, Canvas.mem_all_iff_mem_places]

theorem foreignColors_eq (h : c.WellFormed) (p : Palette) (tolerance : UInt8) :
    p.foreignColors tolerance c.view =
      .ok (c.shades.filter fun q => !p.admits tolerance q) := by
  rw [Palette.foreignColors, distinctColors_eq h]
  rfl

theorem checkPalette_eq (h : c.WellFormed) (p : Palette) :
    checkPalette (.ofCanvas policy c g (some p)) =
      .ok (((c.shades.filter fun q => !p.admits policy.tolerance q).take reportedColors).map
        (foreignColor p)) := by
  simp only [checkPalette, Scene.ofCanvas, foreignColors_eq h]
  rfl

theorem checkPalette_decides (h : c.WellFormed) :
    Decides (checkPalette (.ofCanvas policy c g palette))
      (∀ p ∈ palette, ∀ q ∈ c.places, p.Covers policy.tolerance (c.pixel q)) := by
  cases palette with
  | none => exact ⟨[], rfl, by simp⟩
  | some p =>
    let foreign := c.shades.filter fun q => !p.admits policy.tolerance q
    refine ⟨_, checkPalette_eq policy g h p, ?_⟩
    -- The list is cut off, but not to nothing.
    have hnone : (∀ v ∈ (foreign.take reportedColors).map (foreignColor p),
        v.severity ≠ .error) ↔ foreign = [] := by
      cases foreign with
      | nil => simp
      | cons q foreign => simp [reportedColors, foreignColor]
    rw [hnone, List.filter_eq_nil_iff]
    simp only [mem_shades_iff, Bool.not_eq_true', Bool.not_eq_false, Palette.admits_iff]
    simp only [Option.mem_some_iff, forall_eq', forall_exists_index, and_imp,
      forall_apply_eq_imp_iff₂]

theorem placesWhere_eq (h : c.WellFormed) {ps : List Place} (hps : ∀ p ∈ ps, p ∈ c.places)
    (good : Rgba → Bool) :
    c.view.placesWhere ps good = .ok (ps.filter fun p => good (c.pixel p)) := by
  rw [View.placesWhere, h.readAll_eq hps]
  simp [bind, Except.bind, ← List.map_prod_left_eq_zip, List.filter_map, Function.comp_def]

theorem semiTransparent_errorFree_iff (ps : List Place) :
    (∀ v ∈ semiTransparent ps, v.severity ≠ .error) ↔ ps = [] := by
  cases ps <;> simp [semiTransparent]

theorem forbidsTransparency_iff :
    forbidsTransparency palette = true ↔ ∃ p ∈ palette, p.allowTransparency = false := by
  cases palette <;> simp [forbidsTransparency]

theorem checkTransparency_eq (h : c.WellFormed) :
    checkTransparency (.ofCanvas policy c g palette) =
      .ok (semiTransparent ((Region.all c.width c.height).filter fun p => (c.pixel p).isPartial) ++
        if (forbidsTransparency palette &&
          ((Region.all c.width c.height).map c.pixel).any fun q => !q.isOpaque)
        then [forbiddenTransparency] else []) := by
  have hplaces := placesWhere_eq h (fun _ => Canvas.mem_all_iff_mem_places.mp) Rgba.isPartial
  simp only [checkTransparency, Scene.view_ofCanvas, Scene.width_ofCanvas, Scene.height_ofCanvas,
    hplaces, h.pixels_eq]
  rfl

theorem checkTransparency_decides (h : c.WellFormed) :
    Decides (checkTransparency (.ofCanvas policy c g palette))
      ((∀ q ∈ c.places, ¬(0 < (c.pixel q).a ∧ (c.pixel q).a < 255)) ∧
        ∀ p ∈ palette, p.allowTransparency = false → ∀ q ∈ c.places, (c.pixel q).a = 255) := by
  let blurred := (Region.all c.width c.height).filter fun p => (c.pixel p).isPartial
  let forbidden := forbidsTransparency palette &&
    ((Region.all c.width c.height).map c.pixel).any fun q => !q.isOpaque
  have hcheck : checkTransparency (.ofCanvas policy c g palette) =
      .ok (semiTransparent blurred ++ if forbidden then [forbiddenTransparency] else []) :=
    checkTransparency_eq policy g palette h
  have hblurred : blurred = [] ↔ ∀ q ∈ c.places, ¬(0 < (c.pixel q).a ∧ (c.pixel q).a < 255) := by
    simp [blurred, List.filter_eq_nil_iff, Rgba.isPartial, Region.mem_all, Canvas.mem_places]
  have hforbidden : forbidden = false ↔
      ∀ p ∈ palette, p.allowTransparency = false → ∀ q ∈ c.places, (c.pixel q).a = 255 := by
    rw [← Bool.not_eq_true, Bool.and_eq_true, forbidsTransparency_iff]
    simp only [List.any_map, List.any_eq_true, Canvas.mem_all_iff_mem_places, Function.comp_apply,
      Rgba.isOpaque, Bool.not_eq_true', decide_eq_false_iff_not]
    push Not
    constructor
    · intro hq p hp hban
      exact hq ⟨p, hp, hban⟩
    · rintro hq ⟨p, hp, hban⟩
      exact hq p hp hban
  refine ⟨_, hcheck, ?_⟩
  rw [List.forall_mem_append, semiTransparent_errorFree_iff, hblurred, ← hforbidden]
  cases forbidden <;> simp [forbiddenTransparency]

theorem length_shades_seen (c : Canvas) :
    (c.shades.filter fun q => !q.isClear).length = c.colorsSeen.card := by
  have hnodup : c.shades.Nodup := Rgba.nodup_distinct _
  rw [← List.toFinset_card_of_nodup (hnodup.filter _)]
  congr 1
  ext q
  simp [Canvas.colorsSeen, mem_shades_iff, Rgba.isClear]

theorem checkColorCount_eq (h : c.WellFormed) :
    checkColorCount (.ofCanvas policy c g palette) =
      .ok (if c.colorsSeen.card ≤ policy.budget palette then []
        else [tooManyColors policy.strict c.colorsSeen.card (policy.budget palette)]) := by
  have hbudget : (Scene.ofCanvas policy c g palette).colorBudget = policy.budget palette := by
    cases palette <;> rfl
  rw [← hbudget, ← length_shades_seen]
  simp only [checkColorCount, Scene.ofCanvas, distinctColors_eq h]
  rfl

theorem checkColorCount_decides (h : c.WellFormed) :
    Decides (checkColorCount (.ofCanvas policy c g palette))
      (policy.strict = true → c.colorsSeen.card ≤ policy.budget palette) := by
  refine ⟨_, checkColorCount_eq policy g palette h, ?_⟩
  by_cases hfew : c.colorsSeen.card ≤ policy.budget palette
  · simp [hfew]
  · cases hs : policy.strict <;> simp [hfew, tooManyColors]

theorem warning_errorFree (bad : Bool) (expected : String) :
    ∀ f ∈ (if bad then some (Severity.warning, expected) else none), f.1 ≠ .error := by
  intro f hf
  cases bad
  · cases hf
  · cases hf
    exact fun e => Severity.noConfusion e

/-- Only solid and empty sides can be at fault by an error. -/
theorem edgeFault_errorFree_iff (code : EdgeCode) {row : List Rgba} (hrow : row ≠ []) :
    ∃ fault, edgeFault code row = .ok fault ∧ ((∀ f ∈ fault, f.1 ≠ .error) ↔
      (code = .solid → row.length ≤ (row.filter fun p => !p.isClear).length) ∧
        (code = .empty → (row.filter fun p => !p.isClear).length * 2 ≤ row.length)) := by
  have hmiddle : row.length / 2 < row.length :=
    Nat.div_lt_self (List.length_pos_of_ne_nil hrow) (by decide)
  have hopening : middle row = .ok row[row.length / 2] := by
    simp [middle, hmiddle, orFail]
  cases code
  case empty =>
    refine ⟨_, rfl, ?_⟩
    by_cases hmany : row.length < (row.filter fun p => !p.isClear).length * 2
    · simp [hmany]
    · simp [hmany, not_lt.mp hmany]
  case solid =>
    refine ⟨_, rfl, ?_⟩
    by_cases hfew : (row.filter fun p => !p.isClear).length < row.length
    · simp [hfew]
    · simp [hfew, not_lt.mp hfew]
  case doorFrame =>
    refine ⟨_, by simp only [edgeFault, hopening]; rfl, ?_⟩
    exact iff_of_true (warning_errorFree _ _) ⟨(absurd · (by decide)), (absurd · (by decide))⟩
  all_goals
    exact ⟨_, rfl, iff_of_true (warning_errorFree _ _)
      ⟨(absurd · (by decide)), (absurd · (by decide))⟩⟩

theorem side_seen_iff (hw : c.width ≠ 0) (hh : c.height ≠ 0) (code : EdgeCode) (d : Direction)
    {row : List Rgba} (hrow : row = (Region.side c.width c.height d).map c.pixel) :
    ((code = .solid → row.length ≤ (row.filter fun p => !p.isClear).length) ∧
      (code = .empty → (row.filter fun p => !p.isClear).length * 2 ≤ row.length)) ↔
        c.SideAgrees code d := by
  have hmem : ∀ p, p ∈ Region.side c.width c.height d ↔ p ∈ c.sidePlaces d :=
    fun p => Canvas.mem_side_iff hw hh d
  have hlength : row.length = (c.sidePlaces d).card := by
    rw [hrow, List.length_map, Canvas.length_eq_card (Region.nodup_side _ _ d) hmem]
  have hseen : (row.filter fun p => !p.isClear).length = (c.drawn (c.sidePlaces d)).card := by
    rw [hrow, Canvas.length_seen_eq_card (Region.nodup_side _ _ d) hmem]
  have hall : (c.sidePlaces d).card ≤ (c.drawn (c.sidePlaces d)).card ↔
      ∀ p ∈ c.sidePlaces d, (c.pixel p).a ≠ 0 := by
    rw [← Finset.card_filter_eq_iff]
    exact ⟨fun hle => le_antisymm (Finset.card_filter_le _ _) hle, fun he => he.ge⟩
  rw [hlength, hseen, hall]
  rfl

theorem checkSide_eq (h : c.WellFormed) (hw : c.width ≠ 0) (hh : c.height ≠ 0) (d : Direction)
    {fault : Option (Severity × String)}
    (hfault : edgeFault (g.edges.get d) ((Region.side c.width c.height d).map c.pixel) =
      .ok fault) :
    checkSide (.ofCanvas policy c g palette) d = .ok (fault.toList.map
      (edgeViolation d (g.edges.get d) ((Region.side c.width c.height d).map c.pixel))) := by
  have hmem : ∀ p ∈ Region.side c.width c.height d, p ∈ c.places := by
    intro p hp
    exact c.sidePlaces_subset d ((Canvas.mem_side_iff hw hh d).mp hp)
  simp only [checkSide, Scene.view_ofCanvas, Scene.width_ofCanvas, Scene.height_ofCanvas,
    h.readAll_eq hmem, bind, Except.bind]
  rw [show (Scene.ofCanvas policy c g palette).grammar = g from rfl, hfault]

theorem checkSide_decides (h : c.WellFormed) (hw : c.width ≠ 0) (hh : c.height ≠ 0)
    (d : Direction) :
    Decides (checkSide (.ofCanvas policy c g palette) d) (c.SideAgrees (g.edges.get d) d) := by
  have hrow : (Region.side c.width c.height d).map c.pixel ≠ [] :=
    fun e => Region.side_ne_nil hw hh d (List.map_eq_nil_iff.mp e)
  obtain ⟨fault, hfault, hfree⟩ := edgeFault_errorFree_iff (g.edges.get d) hrow
  refine ⟨_, checkSide_eq policy g palette h hw hh d hfault, ?_⟩
  rw [← side_seen_iff hw hh (g.edges.get d) d rfl, ← hfree, List.forall_mem_map]
  simp only [Option.mem_toList, Option.mem_def, edgeViolation]

theorem checkEdges_decides (h : c.WellFormed) :
    Decides (checkEdges (.ofCanvas policy c g palette))
      (∀ d, c.SideAgrees (g.edges.get d) d) := by
  by_cases hnone : c.width = 0 ∨ c.height = 0
  · have hcheck : checkEdges (.ofCanvas policy c g palette) = .ok [] := if_pos hnone
    have hplaces : c.places = ∅ := by
      rcases hnone with hw | hh <;> simp [Canvas.places, *]
    have hsides : ∀ d, c.sidePlaces d = ∅ := fun d =>
      Finset.subset_empty.mp (hplaces ▸ c.sidePlaces_subset d)
    refine ⟨[], hcheck, ?_⟩
    simp [Canvas.SideAgrees, hsides, Canvas.drawn]
  · have hcheck : checkEdges (.ofCanvas policy c g palette) =
        (Direction.all.mapM (checkSide (.ofCanvas policy c g palette))).map List.flatten :=
      if_neg hnone
    push Not at hnone
    rw [hcheck]
    have hside := checkSide_decides policy g palette h hnone.1 hnone.2
    refine ((hside .north).cons ((hside .east).cons ((hside .south).cons
      ((hside .west).cons (.nil _))))).congr ?_
    constructor
    · rintro ⟨hn, he, hs, hw, -⟩ d
      cases d
      exacts [hn, he, hs, hw]
    · intro hd
      exact ⟨hd _, hd _, hd _, hd _, trivial⟩

def Canvas.standsAlone (c : Canvas) (p : Place) : Bool :=
  let around := (Region.neighbors c.width c.height p).map c.pixel
  !(c.pixel p).isClear && !around.isEmpty && around.all Rgba.isClear

theorem checkStray_eq (h : c.WellFormed) :
    checkStray (.ofCanvas policy c g palette) =
      .ok (strayPixels ((Region.all c.width c.height).filter c.standsAlone)) := by
  have hstray : ∀ p ∈ Region.all c.width c.height,
      c.view.isStray p = .ok (c.standsAlone p) := by
    intro p hp
    have hplace := Canvas.mem_all_iff_mem_places.mp hp
    have haround : ∀ q ∈ Region.neighbors c.width c.height p, q ∈ c.places := fun q hq =>
      Canvas.mem_places.mpr (Region.mem_neighbors_lt (Canvas.mem_places.mp hplace) hq)
    have hread : c.view.read p = .ok (c.pixel p) := h.read_eq hplace
    simp only [View.isStray, hread, Canvas.width_view, Canvas.height_view, bind, Except.bind,
      h.readAll_eq haround, Canvas.standsAlone]
  rw [checkStray]
  exact congrArg (Except.map strayPixels) (filterM_eq_ok hstray)

theorem checkStray_decides (h : c.WellFormed) :
    Decides (checkStray (.ofCanvas policy c g palette)) True := by
  refine ⟨_, checkStray_eq policy g palette h, iff_true_intro ?_⟩
  generalize (Region.all c.width c.height).filter _ = strays
  cases strays <;> simp [strayPixels]

theorem checkCenter_eq (h : c.WellFormed) :
    let scene := Scene.ofCanvas policy c g palette
    let row := (Region.center c.width c.height).map c.pixel
    let filled := (row.filter fun p => !p.isClear).length
    checkCenter scene = .ok (if row.length = 0 then []
      else if g.center = "empty" then
        if filled * 2 ≤ row.length then []
        else [centerViolation scene "mostly transparent" filled row.length]
      else if row.length ≤ filled * 2 then []
        else [centerViolation scene "mostly filled" filled row.length]) := by
  have hread : c.view.readAll (Region.center c.width c.height) =
      .ok ((Region.center c.width c.height).map c.pixel) :=
    h.readAll_eq fun p hp => c.centerPlaces_subset (Canvas.mem_center_iff.mp hp)
  simp only [checkCenter, Scene.view_ofCanvas, Scene.width_ofCanvas, Scene.height_ofCanvas, hread]
  rfl

theorem checkCenter_decides (h : c.WellFormed) :
    Decides (checkCenter (.ofCanvas policy c g palette)) (c.CenterAgrees g.center) := by
  have hmem : ∀ p, p ∈ Region.center c.width c.height ↔ p ∈ c.centerPlaces :=
    fun p => Canvas.mem_center_iff
  have hlength : ((Region.center c.width c.height).map c.pixel).length = c.centerPlaces.card := by
    rw [List.length_map, Canvas.length_eq_card (Region.nodup_center _ _) hmem]
  have hseen : (((Region.center c.width c.height).map c.pixel).filter
      fun p => !p.isClear).length = (c.drawn c.centerPlaces).card :=
    Canvas.length_seen_eq_card (Region.nodup_center _ _) hmem
  have hle : (c.drawn c.centerPlaces).card ≤ c.centerPlaces.card := Finset.card_filter_le _ _
  refine ⟨_, checkCenter_eq policy g palette h, ?_⟩
  rw [hlength, hseen, Canvas.CenterAgrees]
  -- An empty middle has nothing drawn, so it agrees with every center.
  by_cases hnone : c.centerPlaces.card = 0
  · have hdrawn : (c.drawn c.centerPlaces).card = 0 := by omega
    simp [hnone, hdrawn]
  · split_ifs <;> simp_all [centerViolation]

end

end TileGrammar
