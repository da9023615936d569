import Mathlib.Data.List.Forall2
import Mathlib.Data.Nat.PSub
import TileGrammar.Proofs.Picture.Asking
import TileGrammar.Proofs.Picture.Bytes
import TileGrammar.Proofs.Validation.Verdicts

/-!
# What validation looks at

Each rule asks for a list of places that is fixed by the size of the picture,
and so do the counts beside the findings. The lists are given here with
subtractions that have no answer below zero, as in a count of columns less one;
they always have an answer, since sides are looked at only where there are
some. All their places are in the picture. So no rule depends on anything
outside of it, and on a well formed canvas every place asked for is a place of
the buffer.
-/

set_option autoImplicit false

namespace TileGrammar

namespace Region

def side? (width height : Nat) : Direction → Option (List Place)
  | .north => some (rect 0 width 0 1)
  | .east => (width.psub 1).map fun x => rect x width 0 height
  | .south => (height.psub 1).map fun y => rect 0 width y height
  | .west => some (rect 0 1 0 height)

def center? (width height : Nat) : Option (List Place) := do
  let right ← width.psub (width / 4)
  let bottom ← height.psub (height / 4)
  some (rect (width / 4) right (height / 4) bottom)

def around (width height : Nat) (p : Place) : List Place :=
  (p.1.ppred.map fun x => (x, p.2)).toList ++
  (if p.1 + 1 < width then [(p.1 + 1, p.2)] else []) ++
  (p.2.ppred.map fun y => (p.1, y)).toList ++
  (if p.2 + 1 < height then [(p.1, p.2 + 1)] else [])

/-- The places that each rule asks for, in the order of the rules. -/
def asked (width height : Nat) (palette : Option Palette) : List (Option (List Place)) := [
  some [],
  some (palette.elim [] fun _ => all width height),
  some (all width height ++ all width height),
  some (all width height),
  if width = 0 ∨ height = 0 then some []
    else (Direction.all.mapM (side? width height)).map List.flatten,
  some ((all width height).flatMap fun p => p :: around width height p),
  center? width height]

section

variable {width height : Nat}

theorem side?_eq (hw : width ≠ 0) (hh : height ≠ 0) (d : Direction) :
    side? width height d = some (side width height d) := by
  have hcolumn : width.psub 1 = some (width - 1) := Nat.psub_eq_sub (Nat.one_le_iff_ne_zero.mpr hw)
  have hrow : height.psub 1 = some (height - 1) := Nat.psub_eq_sub (Nat.one_le_iff_ne_zero.mpr hh)
  cases d
  case north => rfl
  case east => rw [side?, hcolumn, Option.map_some, side]
  case south => rw [side?, hrow, Option.map_some, side]
  case west => rfl

theorem center?_eq (width height : Nat) : center? width height = some (center width height) := by
  have hright : width.psub (width / 4) = some (width - width / 4) :=
    Nat.psub_eq_sub (Nat.div_le_self _ _)
  have hbottom : height.psub (height / 4) = some (height - height / 4) :=
    Nat.psub_eq_sub (Nat.div_le_self _ _)
  rw [center?, hright, hbottom]
  rfl

theorem sides?_eq (hw : width ≠ 0) (hh : height ≠ 0) :
    (Direction.all.mapM (side? width height)).map List.flatten =
      some (Direction.all.flatMap (side width height)) := by
  simp only [Direction.all, List.mapM_cons, List.mapM_nil, side?_eq hw hh]
  rfl

theorem around_eq (p : Place) : around width height p = neighbors width height p := by
  have hback : ∀ (n : Nat) (f : Nat → Place),
      (n.ppred.map f).toList = if 0 < n then [f (n - 1)] else [] := by
    intro n f
    cases n <;> rfl
  rw [around, neighbors, hback, hback]

theorem mem_side_lt (hw : width ≠ 0) (hh : height ≠ 0) {d : Direction} {p : Place}
    (hp : p ∈ side width height d) : p.1 < width ∧ p.2 < height := by
  cases d <;> simp only [side, mem_rect] at hp <;> omega

theorem mem_center_lt {p : Place} (hp : p ∈ center width height) :
    p.1 < width ∧ p.2 < height := by
  simp only [center, mem_rect] at hp
  omega

theorem middle_side_lt (hw : width ≠ 0) (hh : height ≠ 0) (d : Direction) :
    (side width height d).length / 2 < (side width height d).length :=
  Nat.div_lt_self (List.length_pos_iff.mpr (side_ne_nil hw hh d)) (by decide)

end

end Region

/-- A computation asks for the places of a region, and all of them are in the picture. -/
def AsksWithin {α : Type} (width height : Nat) (region : Option (List Place))
    (run : (Place → Except Error Rgba) → Except Error α) : Prop :=
  ∃ ps, region = some ps ∧ (∀ p ∈ ps, p.1 < width ∧ p.2 < height) ∧ Asks ps run

theorem AsksWithin.congr_read {α : Type} {width height : Nat} {region : Option (List Place)}
    {run : (Place → Except Error Rgba) → Except Error α} (h : AsksWithin width height region run)
    {read read' : Place → Except Error Rgba}
    (hread : ∀ p : Place, p.1 < width ∧ p.2 < height → read p = read' p) : run read = run read' := by
  obtain ⟨ps, -, hps, hasks⟩ := h
  exact hasks.congr_read fun p hp => hread p (hps p hp)

theorem AsksWithin.exists_ok {α : Type} {c : Canvas} (hc : c.WellFormed)
    {region : Option (List Place)} {run : (Place → Except Error Rgba) → Except Error α}
    (h : AsksWithin c.width c.height region run) : ∃ a, run c.read = .ok a := by
  obtain ⟨ps, -, hps, hasks⟩ := h
  exact hasks.exists_ok fun p hp => hc.read_eq (Canvas.mem_places.mpr (hps p hp))

theorem View.distinctColors_asks (width height : Nat) :
    Asks (Region.all width height) fun read => View.distinctColors ⟨width, height, read⟩ :=
  (Asks.each (Region.all width height)).map Rgba.distinct

theorem Palette.foreignColors_asks (p : Palette) (tolerance : UInt8) (width height : Nat) :
    Asks (Region.all width height) fun read =>
      p.foreignColors tolerance ⟨width, height, read⟩ :=
  (View.distinctColors_asks width height).map fun colors =>
    colors.filter fun c => !p.admits tolerance c

namespace Scene

def reading (s : Scene) (read : Place → Except Error Rgba) : Scene :=
  { s with view := { s.view with read := read } }

variable (s : Scene)

theorem checkPalette_asks :
    Asks (s.palette.elim [] fun _ => Region.all s.width s.height) fun read =>
      checkPalette (s.reading read) := by
  obtain ⟨view, g, palette, policy⟩ := s
  cases palette with
  | none => exact .done []
  | some p =>
    exact (p.foreignColors_asks policy.tolerance view.width view.height).thenOk fun colors =>
      (colors.take reportedColors).map (foreignColor p)

theorem checkTransparency_asks :
    Asks (Region.all s.width s.height ++ Region.all s.width s.height) fun read =>
      checkTransparency (s.reading read) := by
  have hplaces := (Asks.each (Region.all s.width s.height)).thenOk fun pixels =>
    (((Region.all s.width s.height).zip pixels).filter fun e => e.2.isPartial).map Prod.fst
  exact hplaces.both (Asks.each _) fun places pixels =>
    semiTransparent places ++
      if forbidsTransparency s.palette && pixels.any fun p => !p.isOpaque
      then [forbiddenTransparency] else []

theorem checkColorCount_asks :
    Asks (Region.all s.width s.height) fun read => checkColorCount (s.reading read) := by
  let found (colors : List Rgba) : List Violation :=
    let used := (colors.filter fun c => !c.isClear).length
    if used ≤ s.colorBudget then [] else [tooManyColors s.policy.strict used s.colorBudget]
  exact (View.distinctColors_asks s.width s.height).thenOk found

theorem checkSide_asks (hw : s.width ≠ 0) (hh : s.height ≠ 0) (d : Direction) :
    Asks (Region.side s.width s.height d) fun read => checkSide (s.reading read) d := by
  let code := Sides.get s.grammar.edges d
  let check : List Rgba → Except Error (List Violation) := fun row => do
    let fault ← edgeFault code row
    .ok (fault.toList.map (edgeViolation d code row))
  let answer : List Rgba → List Violation := fun row =>
    ((edgeFault code row).toOption.getD none).toList.map (edgeViolation d code row)
  have hcheck : ∀ row, row.length = (Region.side s.width s.height d).length →
      check row = .ok (answer row) := by
    intro row hlength
    -- The side has a place, so there is a middle of its row.
    have hrow : row ≠ [] := by
      rintro rfl
      exact Region.side_ne_nil hw hh d (List.length_eq_zero_iff.mp hlength.symm)
    obtain ⟨found, hfound, -⟩ := edgeFault_errorFree_iff code hrow
    simp only [check, answer, hfound]
    rfl
  exact Asks.checked hcheck

theorem checkEdges_asks (hw : s.width ≠ 0) (hh : s.height ≠ 0) :
    Asks (Direction.all.flatMap (Region.side s.width s.height)) fun read =>
      checkEdges (s.reading read) := by
  have hsome : ∀ read, checkEdges (s.reading read) =
      (Direction.all.mapM (checkSide (s.reading read))).map List.flatten :=
    fun read => if_neg (not_or.mpr ⟨hw, hh⟩)
  simp only [hsome]
  exact (Asks.mapM fun d _ => s.checkSide_asks hw hh d).map List.flatten

theorem checkEdges_asks_none (h : s.width = 0 ∨ s.height = 0) :
    Asks [] fun read => checkEdges (s.reading read) := by
  have hnone : ∀ read, checkEdges (s.reading read) = .ok [] := fun read => if_pos h
  simp only [hnone]
  exact .done []

theorem isStray_asks (p : Place) :
    Asks (p :: Region.neighbors s.width s.height p) fun read =>
      (s.reading read).view.isStray p :=
  (Asks.one p).both (Asks.each _) fun pixel around =>
    !pixel.isClear && !around.isEmpty && around.all Rgba.isClear

theorem checkStray_asks :
    Asks ((Region.all s.width s.height).flatMap fun p => p :: Region.neighbors s.width s.height p)
      fun read => checkStray (s.reading read) :=
  (Asks.filterM fun p _ => s.isStray_asks p).map strayPixels

theorem checkCenter_asks :
    Asks (Region.center s.width s.height) fun read => checkCenter (s.reading read) := by
  let found (pixels : List Rgba) : List Violation :=
    let total := pixels.length
    let filled := (pixels.filter fun p => !p.isClear).length
    if total = 0 then []
    else if s.grammar.center = "empty" then
      if filled * 2 ≤ total then [] else [centerViolation s "mostly transparent" filled total]
    else if total ≤ filled * 2 then [] else [centerViolation s "mostly filled" filled total]
  exact (Asks.each (Region.center s.width s.height)).thenOk found

theorem stats_asks :
    Asks (Region.all s.width s.height ++ s.palette.elim [] fun _ => Region.all s.width s.height)
      fun read => (s.reading read).stats := by
  have hforeign : Asks (s.palette.elim [] fun _ => Region.all s.width s.height) fun read =>
      (s.reading read).foreignColors? := by
    obtain ⟨view, g, palette, policy⟩ := s
    cases palette with
    | none => exact .done none
    | some p =>
      exact (p.foreignColors_asks policy.tolerance view.width view.height).map some
  let counts (colors : List Rgba) (invalid : Option (List Rgba)) : Dict Json :=
    Dict.ofList ([
      ("width", .int s.width),
      ("height", .int s.height),
      ("colors_used", .int colors.length),
      ("center_type", .str s.grammar.center),
      ("edges_validated", .bool true)] ++
      invalid.toList.map fun colors => ("invalid_colors", .int colors.length))
  exact (View.distinctColors_asks s.width s.height).both hforeign counts

theorem mem_of_palette {ps : List Place} {p : Place} (h : p ∈ s.palette.elim [] fun _ => ps) :
    p ∈ ps := by
  cases hpalette : s.palette with
  | none => simp [hpalette] at h
  | some _ => rwa [hpalette] at h

theorem checkEdges_asksWithin : AsksWithin s.width s.height
    (if s.width = 0 ∨ s.height = 0 then some []
      else (Direction.all.mapM (Region.side? s.width s.height)).map List.flatten)
    fun read => checkEdges (s.reading read) := by
  by_cases hnone : s.width = 0 ∨ s.height = 0
  · rw [if_pos hnone]
    exact ⟨[], rfl, by simp, s.checkEdges_asks_none hnone⟩
  · rw [if_neg hnone]
    obtain ⟨hw, hh⟩ := not_or.mp hnone
    refine ⟨_, Region.sides?_eq hw hh, fun p hp => ?_, s.checkEdges_asks hw hh⟩
    obtain ⟨d, -, hp⟩ := List.mem_flatMap.mp hp
    exact Region.mem_side_lt hw hh hp

/-- Each rule asks for the places of its region, and all of them are in the picture. -/
theorem rules_ask : List.Forall₂ (fun (rule : Rule) region =>
      AsksWithin s.width s.height region fun read => rule.check (s.reading read))
    Rule.all (Region.asked s.width s.height s.palette) := by
  have hall : ∀ p ∈ Region.all s.width s.height, p.1 < s.width ∧ p.2 < s.height :=
    fun p => Region.mem_all.mp
  have htwice : ∀ p ∈ Region.all s.width s.height ++ Region.all s.width s.height,
      p.1 < s.width ∧ p.2 < s.height := by
    intro p hp
    exact (List.mem_append.mp hp).elim (hall p) (hall p)
  have hnear : ∀ p ∈ (Region.all s.width s.height).flatMap fun p =>
      p :: Region.neighbors s.width s.height p, p.1 < s.width ∧ p.2 < s.height := by
    intro q hq
    obtain ⟨p, hp, hq⟩ := List.mem_flatMap.mp hq
    rcases List.mem_cons.mp hq with rfl | hq
    · exact hall q hp
    · exact Region.mem_neighbors_lt (hall p hp) hq
  -- Rule by rule: what the subtractions come to, the bounds of the places, and how they are asked for.
  simp only [Region.asked, Region.around_eq, Region.center?_eq]
  exact .cons ⟨[], rfl, by simp, .done (checkSize s)⟩ <|
    .cons ⟨_, rfl, fun p hp => hall p (s.mem_of_palette hp), s.checkPalette_asks⟩ <|
    .cons ⟨_, rfl, htwice, s.checkTransparency_asks⟩ <|
    .cons ⟨_, rfl, hall, s.checkColorCount_asks⟩ <|
    .cons s.checkEdges_asksWithin <|
    .cons ⟨_, rfl, hnear, s.checkStray_asks⟩ <|
    .cons ⟨_, rfl, fun _ => Region.mem_center_lt, s.checkCenter_asks⟩ .nil

theorem stats_asksWithin : AsksWithin s.width s.height
    (some (Region.all s.width s.height ++
      s.palette.elim [] fun _ => Region.all s.width s.height))
    fun read => (s.reading read).stats := by
  refine ⟨_, rfl, fun p hp => ?_, s.stats_asks⟩
  rcases List.mem_append.mp hp with hp | hp
  · exact Region.mem_all.mp hp
  · exact Region.mem_all.mp (s.mem_of_palette hp)

section

variable {read read' : Place → Except Error Rgba}
  (hread : ∀ p : Place, p.1 < s.width ∧ p.2 < s.height → read p = read' p)

include hread

theorem check_congr_read {rule : Rule} (hrule : rule ∈ Rule.all) :
    rule.check (s.reading read) = rule.check (s.reading read') := by
  obtain ⟨region, -, hasks⟩ := exists_of_forall₂ s.rules_ask hrule
  exact hasks.congr_read hread

theorem verdict_congr_read : (s.reading read).verdict = (s.reading read').verdict := by
  have hfindings : (s.reading read).findings = (s.reading read').findings := by
    rw [findings, findings, mapM_congr fun rule hrule => s.check_congr_read hread hrule]
  have hstats := s.stats_asksWithin.congr_read hread
  rw [verdict, verdict, hfindings, hstats]
  rfl

end

end Scene

/-- Judging a canvas never leaves it, whatever the grammar, the palette and the policy are. Each rule
asks for a list of places that subtractions without an answer below zero make of the size, and so do
the counts; all of them are places of the canvas and have a pixel in the buffer. Where a middle of a
side is looked at it is on the side. So every rule answers, and there is a verdict. -/
theorem judging_stays_within {c : Canvas} (hc : c.Made) (policy : Policy) (g : Grammar)
    (palette : Option Palette) :
    let scene := Scene.ofCanvas policy c g palette
    (∀ p : Place, p.1 < c.width ∧ p.2 < c.height → p.2 * c.width + p.1 < c.pixels.size) ∧
    List.Forall₂ (fun (rule : Rule) region =>
        (AsksWithin c.width c.height region fun read => rule.check (scene.reading read)) ∧
          ∃ found, rule.check scene = .ok found)
      Rule.all (Region.asked c.width c.height palette) ∧
    (AsksWithin c.width c.height (some (Region.all c.width c.height ++
          palette.elim [] fun _ => Region.all c.width c.height))
        fun read => (scene.reading read).stats) ∧
      (∃ counts, scene.stats = .ok counts) ∧
    (c.width ≠ 0 → c.height ≠ 0 → ∀ d ps, Region.side? c.width c.height d = some ps →
      ps.length / 2 < ps.length) ∧
    ∃ v, policy.judge c g palette = .ok v := by
  intro scene
  have hwell := hc.wellFormed
  refine ⟨fun p hp => ?_, scene.rules_ask.imp fun rule region hasks => ?_, scene.stats_asksWithin,
    Scene.stats_ok policy g palette hwell, fun hw hh d ps hps => ?_, ?_⟩
  · rw [hwell]
    exact Region.index_lt hp
  · exact ⟨hasks, hasks.exists_ok hwell⟩
  · rw [Region.side?_eq hw hh, Option.some_inj] at hps
    rw [← hps]
    exact Region.middle_side_lt hw hh d
  · exact Scene.verdict_ok policy g palette hwell

theorem judging_stays_within_column :
    let c := (⟨1, 3, #[⟨0, 0, 0, 0⟩, ⟨1, 1, 1, 255⟩, ⟨2, 2, 2, 255⟩]⟩ : Canvas).draw
      (.rect 0 2 4 4 ⟨9, 9, 9, 255⟩)
    let g := { Grammar.ofCategory "wall" "ink" with edges := Signature.onAllSides .doorFrame }
    let scene := Scene.ofCanvas Policy.lenient c g none
    c.Made ∧ c.width ≠ 0 ∧ c.height ≠ 0 ∧ 2 * c.width + 0 < c.pixels.size ∧
      (∃ found, checkEdges scene = .ok found) ∧ (∃ found, checkStray scene = .ok found) ∧
      (∀ d ps, Region.side? 1 3 d = some ps → ps.length / 2 < ps.length) ∧
      ∃ v, Policy.lenient.judge c g none = .ok v := by
  intro c g scene
  have hread : Canvas.ofBytes 1 3 [0, 0, 0, 0, 1, 1, 1, 255, 2, 2, 2, 255] =
      .ok ⟨1, 3, #[⟨0, 0, 0, 0⟩, ⟨1, 1, 1, 255⟩, ⟨2, 2, 2, 255⟩]⟩ := by decide +kernel
  have hc : c.Made := .draw _ (.ofBytes hread)
  have hw : c.width ≠ 0 := by decide +kernel
  have hh : c.height ≠ 0 := by decide +kernel
  obtain ⟨hbuffer, hrules, -, -, hmiddle, hv⟩ := judging_stays_within hc Policy.lenient g none
  have hedges : (⟨"edge_pattern", checkEdges⟩ : Rule) ∈ Rule.all := by simp [Rule.all]
  have hstray : (⟨"stray_pixels", checkStray⟩ : Rule) ∈ Rule.all := by simp [Rule.all]
  obtain ⟨-, -, -, hfound⟩ := exists_of_forall₂ hrules hedges
  obtain ⟨-, -, -, hfound'⟩ := exists_of_forall₂ hrules hstray
  exact ⟨hc, hw, hh, hbuffer (0, 2) (by decide +kernel), hfound, hfound', hmiddle hw hh, hv⟩

end TileGrammar
