import TileGrammar.Picture.Region
import TileGrammar.Proofs.Order.Traversal

/-!
# Places that are asked for

What a computation learns of a picture is the pixels at the places it asks for.
One that asks for the places of a list, in their order, fails exactly where the
first of them fails, and otherwise works out its answer from their pixels
alone. Such computations can be put one after another, and then their places
are put one after another too. So the answer is the same for all pictures that
agree at these places, whatever they have elsewhere.
-/

set_option autoImplicit false

namespace TileGrammar

/-- The places of a list are asked for in order, and the answer depends on their pixels alone. -/
def Asks {α : Type} (ps : List Place) (run : (Place → Except Error Rgba) → Except Error α) : Prop :=
  ∃ answer : List Rgba → α, ∀ read, run read = (ps.mapM read).map answer

namespace Asks

variable {α β γ : Type} {ps qs : List Place} {run : (Place → Except Error Rgba) → Except Error α}
  {next : (Place → Except Error Rgba) → Except Error β}

theorem done (a : α) : Asks [] fun _ => .ok a := ⟨fun _ => a, fun _ => rfl⟩

theorem each (ps : List Place) : Asks ps fun read => ps.mapM read := by
  refine ⟨id, fun read => ?_⟩
  show ps.mapM read = (ps.mapM read).map id
  cases ps.mapM read <;> rfl

theorem one (p : Place) : Asks [p] fun read => read p := by
  refine ⟨fun pixels => pixels.headD .clear, fun read => ?_⟩
  rw [List.mapM_cons, List.mapM_nil]
  show read p = _
  cases read p <;> rfl

theorem map (h : Asks ps run) (f : α → β) : Asks ps fun read => (run read).map f := by
  obtain ⟨answer, hrun⟩ := h
  refine ⟨f ∘ answer, fun read => ?_⟩
  show (run read).map f = _
  rw [hrun]
  cases ps.mapM read <;> rfl

theorem thenOk (h : Asks ps run) (f : α → β) : Asks ps fun read => (do
    let a ← run read
    .ok (f a)) := by
  obtain ⟨answer, hrun⟩ := h.map f
  refine ⟨answer, fun read => ?_⟩
  rw [← hrun]
  dsimp only
  cases run read <;> rfl

theorem both (h : Asks ps run) (h' : Asks qs next) (f : α → β → γ) :
    Asks (ps ++ qs) fun read => (do
      let a ← run read
      let b ← next read
      .ok (f a b)) := by
  obtain ⟨answer, hrun⟩ := h
  obtain ⟨answer', hnext⟩ := h'
  refine ⟨fun pixels => f (answer (pixels.take ps.length)) (answer' (pixels.drop ps.length)),
    fun read => ?_⟩
  dsimp only
  rw [hrun, hnext, List.mapM_append]
  cases hps : ps.mapM read with
  | error e => rfl
  | ok pixels =>
    have hlength := length_of_mapM_eq_ok hps
    cases qs.mapM read with
    | error e => rfl
    | ok pixels' => simp [← hlength, Except.map, bind, Except.bind, pure, Except.pure]

theorem checked {check : List Rgba → Except Error α} {answer : List Rgba → α}
    (hcheck : ∀ pixels, pixels.length = ps.length → check pixels = .ok (answer pixels)) :
    Asks ps fun read => ps.mapM read >>= check := by
  refine ⟨answer, fun read => ?_⟩
  show ps.mapM read >>= check = _
  cases hps : ps.mapM read with
  | error e => rfl
  | ok pixels => exact hcheck pixels (length_of_mapM_eq_ok hps)

theorem mapM {as : List β} {places : β → List Place}
    {step : (Place → Except Error Rgba) → β → Except Error α}
    (h : ∀ b ∈ as, Asks (places b) fun read => step read b) :
    Asks (as.flatMap places) fun read => as.mapM (step read) := by
  induction as with
  | nil => exact done []
  | cons b as ih =>
    have hfirst := h b (List.mem_cons_self ..)
    have hrest := ih fun b hb => h b (List.mem_cons_of_mem _ hb)
    simp only [List.mapM_cons, List.flatMap_cons]
    exact hfirst.both hrest List.cons

theorem filterM {as : List β} {places : β → List Place}
    {test : (Place → Except Error Rgba) → β → Except Error Bool}
    (h : ∀ b ∈ as, Asks (places b) fun read => test read b) :
    Asks (as.flatMap places) fun read => as.filterM (test read) := by
  simp only [filterM_eq_map_mapM]
  exact (Asks.mapM h).map (keepMarked as)

/-- Nothing but the pixels at the places asked for is of account. -/
theorem congr_read (h : Asks ps run) {read read' : Place → Except Error Rgba}
    (hread : ∀ p ∈ ps, read p = read' p) : run read = run read' := by
  obtain ⟨answer, hrun⟩ := h
  rw [hrun, hrun, mapM_congr hread]

theorem exists_ok (h : Asks ps run) {read : Place → Except Error Rgba} {pixel : Place → Rgba}
    (hread : ∀ p ∈ ps, read p = .ok (pixel p)) : ∃ a, run read = .ok a := by
  obtain ⟨answer, hrun⟩ := h
  rw [hrun, mapM_eq_ok hread]
  exact ⟨_, rfl⟩

end Asks

/-- A view of a picture that has the given pixels at its places; of other places nothing is said. -/
def View.Shows (v : View) (pixel : Place → Rgba) : Prop :=
  ∀ p : Place, p.1 < v.width ∧ p.2 < v.height → v.read p = .ok (pixel p)

end TileGrammar
