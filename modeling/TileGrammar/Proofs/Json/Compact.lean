import TileGrammar.Proofs.Json.Alike
import TileGrammar.Proofs.Json.Numerals
import TileGrammar.Proofs.Json.Strings

/-!
# The compact text tells values apart

Where a text begins with a value, the value and what follows it can be told:
two values without doubles that are written in front of rests give one text
only if they are the same and the rests are. The first character shows the
kind of a value, and no kind of value begins with a closing bracket or a
comma, so that items and members end where they should. Nothing here limits
how deep values are nested or how long integers are.
-/

set_option autoImplicit false

namespace TileGrammar.Json

theorem writeText_injective {s t : String} {cs ds : List Char}
    (h : writeText s cs = writeText t ds) : s = t ∧ cs = ds := by
  obtain ⟨body, units, hs, hread, hjoin⟩ := readUnits_writeText s cs
  obtain ⟨body', units', ht, hread', hjoin'⟩ := readUnits_writeText t ds
  rw [hs, ht] at h
  rw [(List.cons.inj h).2, hread'] at hread
  obtain ⟨rfl, rfl⟩ := Prod.mk.inj (Option.some.inj hread)
  exact ⟨Option.some.inj (hjoin.symm.trans hjoin'), rfl⟩

theorem intText_injective {i j : Int} {cs ds : List Char} (hc : Stops cs) (hd : Stops ds)
    (h : intText i ++ cs = intText j ++ ds) : i = j ∧ cs = ds := by
  have hi := readNumeral_append hc (readNumeral_intText i)
  have hj := readNumeral_append hd (readNumeral_intText j)
  rw [List.nil_append] at hi hj
  rw [h, hj] at hi
  obtain ⟨hnumeral, hrest⟩ := Prod.mk.inj (Option.some.inj hi)
  obtain ⟨hsign, hdigits, -, -, -⟩ := Numeral.mk.inj hnumeral
  have habs : j.natAbs = i.natAbs := by
    rw [← foldl_digitValue_toDigits j.natAbs, hdigits, foldl_digitValue_toDigits]
  have hneg : j < 0 ↔ i < 0 := decide_eq_decide.mp hsign
  exact ⟨by omega, hrest.symm⟩

inductive Kind where
  | null
  | bool
  | int
  | str
  | arr
  | obj
  deriving DecidableEq

def Kind.ofLead? (c : Char) : Option Kind :=
  if c = 'n' then some .null
  else if c = 't' ∨ c = 'f' then some .bool
  else if c = '-' ∨ isDigit c then some .int
  else if c = '"' then some .str
  else if c = '[' then some .arr
  else if c = '{' then some .obj
  else none

def kind? : Json → Option Kind
  | .null => some .null
  | .bool _ => some .bool
  | .int _ => some .int
  | .str _ => some .str
  | .arr _ => some .arr
  | .obj _ => some .obj
  | _ => none

theorem kind?_ne_none {x : Json} (h : Exact x) : kind? x ≠ none := by
  cases x with
  | float y => exact h.elim
  | unreadable => exact h.elim
  | _ => exact Option.some_ne_none _

theorem ofLead?_digit {c : Char} (h : isDigit c = true) : Kind.ofLead? c = some .int := by
  unfold Kind.ofLead?
  rw [if_neg, if_neg, if_pos (.inr h)]
  · rintro (rfl | rfl) <;> cases h
  · rintro rfl
    cases h

theorem ofLead?_intText (i : Int) (cs : List Char) :
    (intText i ++ cs).head?.bind Kind.ofLead? = some .int := by
  unfold intText
  split
  next => rfl
  next =>
    cases hds : Nat.toDigits 10 i.natAbs with
    | nil => exact absurd hds Nat.toDigits_ne_nil
    | cons d ds =>
      have hd : d ∈ Nat.toDigits 10 i.natAbs := by
        rw [hds]
        exact List.mem_cons_self
      exact ofLead?_digit (isDigit_of_mem_toDigits hd)

theorem ofLead?_write {x : Json} (h : Exact x) (cs : List Char) :
    (x.write cs).head?.bind Kind.ofLead? = kind? x := by
  cases x with
  | null => rfl
  | bool b => cases b <;> rfl
  | int i => exact ofLead?_intText i cs
  | float y => exact h.elim
  | str s => rfl
  | arr xs => cases xs <;> rfl
  | obj ms =>
    rcases ms with _ | ⟨⟨k, y⟩, ms⟩
    · rfl
    · rfl
  | unreadable => exact h.elim

theorem kind?_eq_of_write_eq {x y : Json} {cs ds : List Char} (hx : Exact x) (hy : Exact y)
    (h : x.write cs = y.write ds) : kind? x = kind? y := by
  rw [← ofLead?_write hx cs, ← ofLead?_write hy ds, h]

theorem write_ne_cons {c : Char} (hc : Kind.ofLead? c = none) {x : Json} (hx : Exact x)
    (cs ds : List Char) : x.write cs ≠ c :: ds := by
  intro h
  have hlead := ofLead?_write hx cs
  rw [h] at hlead
  exact kind?_ne_none hx (hlead.symm.trans hc)

theorem stops_writeItems (xs : List Json) (cs : List Char) :
    Stops (writeItems xs (']' :: cs)) := by
  cases xs <;> exact stops_cons (by decide) _

theorem stops_writeMembers (ms : List (String × Json)) (cs : List Char) :
    Stops (writeMembers ms ('}' :: cs)) := by
  rcases ms with _ | ⟨⟨k, x⟩, ms⟩
  · exact stops_cons (by decide) _
  · exact stops_cons (by decide) _

mutual

/-- A value in front of a rest is told apart from its rest. -/
theorem write_injective : ∀ {x y : Json} {cs ds : List Char}, Exact x → Exact y → Stops cs →
    Stops ds → x.write cs = y.write ds → x = y ∧ cs = ds
  | .null, y, cs, ds, hx, hy, _, _, h => by
    have hk := kind?_eq_of_write_eq hx hy h
    cases y with
    | null => exact ⟨rfl, by simpa [write, writeLeaf, nullText] using h⟩
    | _ => simp [kind?] at hk
  | .bool b, y, cs, ds, hx, hy, _, _, h => by
    have hk := kind?_eq_of_write_eq hx hy h
    cases y with
    | bool c => cases b <;> cases c <;> simp_all [write, writeLeaf]
    | _ => simp [kind?] at hk
  | .int i, y, cs, ds, hx, hy, hcs, hds, h => by
    have hk := kind?_eq_of_write_eq hx hy h
    cases y with
    | int j =>
      obtain ⟨rfl, hrest⟩ := intText_injective hcs hds h
      exact ⟨rfl, hrest⟩
    | _ => simp [kind?] at hk
  | .float _, _, _, _, hx, _, _, _, _ => hx.elim
  | .str s, y, cs, ds, hx, hy, _, _, h => by
    have hk := kind?_eq_of_write_eq hx hy h
    cases y with
    | str t =>
      obtain ⟨rfl, hrest⟩ := writeText_injective h
      exact ⟨rfl, hrest⟩
    | _ => simp [kind?] at hk
  | .arr [], y, cs, ds, hx, hy, _, _, h => by
    have hk := kind?_eq_of_write_eq hx hy h
    cases y with
    | arr ys =>
      cases ys with
      | nil => exact ⟨rfl, by simpa [write] using h⟩
      | cons y ys => exact absurd (List.cons.inj h).2.symm (write_ne_cons (by decide) hy.1 _ _)
    | _ => simp [kind?] at hk
  | .arr (x :: xs), y, cs, ds, hx, hy, _, _, h => by
    have hk := kind?_eq_of_write_eq hx hy h
    cases y with
    | arr ys =>
      cases ys with
      | nil => exact absurd (List.cons.inj h).2 (write_ne_cons (by decide) hx.1 _ _)
      | cons y ys =>
        obtain ⟨rfl, hxs⟩ := write_injective hx.1 hy.1 (stops_writeItems xs cs)
          (stops_writeItems ys ds) (List.cons.inj h).2
        obtain ⟨rfl, hrest⟩ := writeItems_injective hx.2 hy.2 hxs
        exact ⟨rfl, hrest⟩
    | _ => simp [kind?] at hk
  | .obj [], y, cs, ds, hx, hy, _, _, h => by
    have hk := kind?_eq_of_write_eq hx hy h
    cases y with
    | obj ns =>
      rcases ns with _ | ⟨⟨l, y⟩, ns⟩
      · exact ⟨rfl, by simpa [write] using h⟩
      · exact absurd (List.cons.inj (List.cons.inj h).2).1 (by decide)
    | _ => simp [kind?] at hk
  | .obj ((k, x) :: ms), y, cs, ds, hx, hy, _, _, h => by
    have hk := kind?_eq_of_write_eq hx hy h
    cases y with
    | obj ns =>
      rcases ns with _ | ⟨⟨l, y⟩, ns⟩
      · exact absurd (List.cons.inj (List.cons.inj h).2).1 (by decide)
      · obtain ⟨rfl, hvalue⟩ := writeText_injective (List.cons.inj h).2
        obtain ⟨rfl, hms⟩ := write_injective hx.2.1 hy.2.1 (stops_writeMembers ms cs)
          (stops_writeMembers ns ds) (List.cons.inj hvalue).2
        obtain ⟨rfl, hrest⟩ := writeMembers_injective hx.2.2 hy.2.2 hms
        exact ⟨rfl, hrest⟩
    | _ => simp [kind?] at hk
  | .unreadable, _, _, _, hx, _, _, _, _ => hx.elim

theorem writeItems_injective : ∀ {xs ys : List Json} {cs ds : List Char}, ExactItems xs →
    ExactItems ys → writeItems xs (']' :: cs) = writeItems ys (']' :: ds) → xs = ys ∧ cs = ds
  | [], [], _, _, _, _, h => ⟨rfl, (List.cons.inj h).2⟩
  | [], _ :: _, _, _, _, _, h => absurd (List.cons.inj h).1 (by decide)
  | _ :: _, [], _, _, _, _, h => absurd (List.cons.inj h).1 (by decide)
  | x :: xs, y :: ys, cs, ds, hx, hy, h => by
    obtain ⟨rfl, hxs⟩ := write_injective hx.1 hy.1 (stops_writeItems xs cs)
      (stops_writeItems ys ds) (List.cons.inj h).2
    obtain ⟨rfl, hrest⟩ := writeItems_injective hx.2 hy.2 hxs
    exact ⟨rfl, hrest⟩

theorem writeMembers_injective : ∀ {ms ns : List (String × Json)} {cs ds : List Char},
    ExactMembers ms → ExactMembers ns →
    writeMembers ms ('}' :: cs) = writeMembers ns ('}' :: ds) → ms = ns ∧ cs = ds
  | [], [], _, _, _, _, h => ⟨rfl, (List.cons.inj h).2⟩
  | [], (_, _) :: _, _, _, _, _, h => absurd (List.cons.inj h).1 (by decide)
  | (_, _) :: _, [], _, _, _, _, h => absurd (List.cons.inj h).1 (by decide)
  | (k, x) :: ms, (l, y) :: ns, cs, ds, hx, hy, h => by
    obtain ⟨rfl, hvalue⟩ := writeText_injective (List.cons.inj h).2
    obtain ⟨rfl, hms⟩ := write_injective hx.1 hy.1 (stops_writeMembers ms cs)
      (stops_writeMembers ns ds) (List.cons.inj hvalue).2
    obtain ⟨rfl, hrest⟩ := writeMembers_injective hx.2 hy.2 hms
    exact ⟨rfl, hrest⟩

end

theorem compact_injective {x y : Json} (hx : Exact x) (hy : Exact y)
    (h : x.compact = y.compact) : x = y :=
  (write_injective hx hy stops_nil stops_nil (String.ofList_inj.mp h)).1

/-- The canonical text is one for alike values and tells all others apart. -/
theorem canonical_eq_iff_alike {x y : Json} (hx : Exact x) (hy : Exact y) :
    x.canonical = y.canonical ↔ Alike x y := by
  rw [← sorted_eq_iff_alike hx hy]
  exact ⟨compact_injective hx.sorted hy.sorted, congrArg compact⟩

end TileGrammar.Json
