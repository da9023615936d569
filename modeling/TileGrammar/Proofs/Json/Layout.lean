import TileGrammar.Proofs.Json.Numerals
import TileGrammar.Proofs.Json.Strings

/-!
# Reading back the text of a value

The text with one item a line is read as the value that was written, wherever
its numbers are read back and nothing is nested too deep. The reader takes one
step at most for every character it takes, so fuel for the characters of the
text is enough.
-/

set_option autoImplicit false

namespace TileGrammar.Json

mutual

/-- A value that is read back where it stands within `d` lists and objects. -/
def Legible : Nat → Json → Prop
  | _, .null => True
  | _, .bool _ => True
  | _, .int i => IntFits i
  | _, .float x => faithful x = true
  | _, .str _ => True
  | d, .arr xs => d < depthLimit ∧ LegibleItems (d + 1) xs
  | d, .obj ms => d < depthLimit ∧ LegibleMembers (d + 1) ms
  | _, .unreadable => False

def LegibleItems : Nat → List Json → Prop
  | _, [] => True
  | d, x :: xs => Legible d x ∧ LegibleItems d xs

def LegibleMembers : Nat → List (String × Json) → Prop
  | _, [] => True
  | d, (_, x) :: ms => Legible d x ∧ LegibleMembers d ms

end

theorem legibleItems_iff (d : Nat) (xs : List Json) :
    LegibleItems d xs ↔ ∀ x ∈ xs, Legible d x := by
  induction xs with
  | nil => simp [LegibleItems]
  | cons x xs ih => simp [LegibleItems, ih]

theorem legibleMembers_iff (d : Nat) (ms : List (String × Json)) :
    LegibleMembers d ms ↔ ∀ m ∈ ms, Legible d m.2 := by
  induction ms with
  | nil => simp [LegibleMembers]
  | cons m ms ih => simp [LegibleMembers, ih]

@[simp] theorem length_lineBreak (d : Nat) (cs : List Char) :
    (lineBreak d cs).length = 2 * d + 1 + cs.length := by
  simp [lineBreak]
  omega

theorem skipSpaces_cons {c : Char} (h : isSpace c = false) (cs : List Char) :
    skipSpaces (c :: cs) = c :: cs := by
  simp [skipSpaces, h]

theorem skipSpaces_space {c : Char} (h : isSpace c = true) (cs : List Char) :
    skipSpaces (c :: cs) = skipSpaces cs := by
  simp [skipSpaces, h]

theorem skipSpaces_lineBreak (d : Nat) (cs : List Char) :
    skipSpaces (lineBreak d cs) = skipSpaces cs := by
  have hspaces : ∀ c ∈ List.replicate (2 * d) ' ', isSpace c = true := by
    intro c hc
    rw [List.eq_of_mem_replicate hc]
    rfl
  rw [lineBreak, skipSpaces_space rfl, skipSpaces, List.dropWhile_append_of_pos hspaces]
  rfl

theorem readValue_head {fuel d : Nat} {cs : List Char} {p : Json × List Char}
    (h : readValue fuel d cs = some p) : ∃ c r, cs = c :: r ∧ isSpace c = false ∧ c ≠ ']' := by
  cases fuel with
  | zero => cases h
  | succ fuel =>
    cases cs with
    | nil => cases h
    | cons c r =>
      refine ⟨c, r, rfl, Bool.eq_false_iff.mpr fun hspace => ?_, ?_⟩
      · simp only [isSpace, Bool.or_eq_true, decide_eq_true_eq, or_assoc] at hspace
        rcases hspace with rfl | rfl | rfl | rfl <;> cases h
      · rintro rfl
        cases h

theorem skipSpaces_value {fuel d : Nat} {cs : List Char} {p : Json × List Char}
    (h : readValue fuel d cs = some p) : skipSpaces cs = cs := by
  obtain ⟨c, r, rfl, hspace, -⟩ := readValue_head h
  exact skipSpaces_cons hspace r

theorem readValue_of_items {fuel d e : Nat} {cs rest : List Char} {xs : List Json}
    {p : Json × List Char} (hd : d < depthLimit) (hx : readValue e (d + 1) (skipSpaces cs) = some p)
    (hxs : readItems fuel (d + 1) (skipSpaces cs) = some (xs, rest)) :
    readValue (fuel + 1) d ('[' :: cs) = some (.arr xs, rest) := by
  obtain ⟨c, r, hcs, -, hne⟩ := readValue_head hx
  rw [hcs] at hxs
  rw [readValue, hcs]
  simp only
  split
  next heq => exact absurd (List.cons.inj heq).1 hne
  next => simp only [hxs, Option.map_some, atDepth, if_pos hd]

theorem readValue_numeral {cs rest : List Char} {j : Json} (h : Denotes cs j) (hs : Stops rest)
    (fuel d : Nat) : readValue (fuel + 1) d (cs ++ rest) = some (j, rest) := by
  obtain ⟨n, hread, rfl⟩ := h.append hs
  rw [readValue]
  · rw [hread]
    rfl
  all_goals
    rintro r heq
    rw [heq] at hread
    cases hread

theorem readValue_writeLeaf {rest : List Char} (hs : Stops rest) (fuel : Nat) {d : Nat} :
    ∀ {j : Json}, Legible d j → (∀ xs, j ≠ .arr xs) → (∀ ms, j ≠ .obj ms) →
      readValue (fuel + 1) d (writeLeaf rest j) = some (j, rest)
  | .null, _, _, _ => rfl
  | .bool true, _, _, _ => rfl
  | .bool false, _, _, _ => rfl
  | .int _, h, _, _ => readValue_numeral (denotes_intText h) hs fuel d
  | .float _, h, _, _ => readValue_numeral (denotes_floatText h) hs fuel d
  | .str s, _, _, _ => by
    obtain ⟨body, units, htext, hread, hs⟩ := readUnits_writeText s rest
    rw [writeLeaf, htext, readValue, hread]
    simp only [Option.map_some, hs]
  | .arr xs, _, h, _ => absurd rfl (h xs)
  | .obj ms, _, _, h => absurd rfl (h ms)
  | .unreadable, h, _, _ => h.elim

theorem length_le_writeText (s : String) (rest : List Char) :
    rest.length ≤ (writeText s rest).length := by
  have hfold : ∀ cs : List Char,
      rest.length ≤ (cs.foldr (fun c r => escapedChar c ++ r) ('"' :: rest)).length := by
    intro cs
    induction cs with
    | nil => simp
    | cons c cs ih =>
      rw [List.foldr_cons, List.length_append]
      omega
  exact Nat.le_succ_of_le (hfold s.toList)

theorem length_le_writeLeaf (rest : List Char) (j : Json) :
    rest.length ≤ (writeLeaf rest j).length := by
  unfold writeLeaf
  split
  case h_5 s => exact length_le_writeText s rest
  all_goals
    simp only [List.length_cons, List.length_append]
    omega

mutual

theorem length_le_writeLines : ∀ (d : Nat) (j : Json) (rest : List Char),
    rest.length ≤ (writeLines d j rest).length
  | d, .arr [], rest => Nat.le_add_right rest.length 2
  | d, .arr (x :: xs), rest => by
    have hx := length_le_writeLines (d + 1) x
      (writeItemLines (d + 1) xs (lineBreak d (']' :: rest)))
    have hxs := length_le_writeItemLines (d + 1) xs (lineBreak d (']' :: rest))
    simp only [writeLines, List.length_cons, length_lineBreak] at hx hxs ⊢
    omega
  | d, .obj [], rest => Nat.le_add_right rest.length 2
  | d, .obj ((k, x) :: ms), rest => by
    have hk := length_le_writeText k (':' :: ' ' :: writeLines (d + 1) x
      (writeMemberLines (d + 1) ms (lineBreak d ('}' :: rest))))
    have hx := length_le_writeLines (d + 1) x
      (writeMemberLines (d + 1) ms (lineBreak d ('}' :: rest)))
    have hms := length_le_writeMemberLines (d + 1) ms (lineBreak d ('}' :: rest))
    simp only [writeLines, List.length_cons, length_lineBreak] at hk hx hms ⊢
    omega
  | _, .null, rest => length_le_writeLeaf rest _
  | _, .bool _, rest => length_le_writeLeaf rest _
  | _, .int _, rest => length_le_writeLeaf rest _
  | _, .float _, rest => length_le_writeLeaf rest _
  | _, .str _, rest => length_le_writeLeaf rest _
  | _, .unreadable, rest => length_le_writeLeaf rest _

theorem length_le_writeItemLines : ∀ (d : Nat) (xs : List Json) (rest : List Char),
    rest.length ≤ (writeItemLines d xs rest).length
  | _, [], _ => Nat.le_refl _
  | d, x :: xs, rest => by
    have hx := length_le_writeLines d x (writeItemLines d xs rest)
    have hxs := length_le_writeItemLines d xs rest
    simp only [writeItemLines, List.length_cons, length_lineBreak]
    omega

theorem length_le_writeMemberLines : ∀ (d : Nat) (ms : List (String × Json)) (rest : List Char),
    rest.length ≤ (writeMemberLines d ms rest).length
  | _, [], _ => Nat.le_refl _
  | d, (k, x) :: ms, rest => by
    have hk := length_le_writeText k (':' :: ' ' :: writeLines d x (writeMemberLines d ms rest))
    have hx := length_le_writeLines d x (writeMemberLines d ms rest)
    have hms := length_le_writeMemberLines d ms rest
    simp only [writeMemberLines, List.length_cons, length_lineBreak] at hk ⊢
    omega

end

theorem mapM_map_eq_some {α β : Type} {write : α → β} {read : β → Option α} {xs : List α}
    (h : ∀ a ∈ xs, read (write a) = some a) : (xs.map write).mapM read = some xs := by
  induction xs with
  | nil => rfl
  | cons x xs ih =>
    rw [List.map_cons, List.mapM_cons, h x List.mem_cons_self,
      ih fun a ha => h a (List.mem_cons_of_mem x ha)]
    rfl

theorem ofMembers_named (ms : List (String × Json)) :
    ofMembers (ms.map fun m => (some m.1, m.2)) = .obj ms := by
  have hnames : (ms.map fun m => (some m.1, m.2)).mapM
      (fun m : Option String × Json => m.1.map fun k => (k, m.2)) = some ms :=
    mapM_map_eq_some fun _ _ => rfl
  rw [ofMembers, hnames]

section Members

variable {fuel d : Nat} {cs r rest : List Char} {x : Json} {ms : List (String × Json)}

theorem readMembers_last (k : String) (hx : readValue fuel d cs = some (x, r))
    (hr : skipSpaces r = '}' :: rest) :
    readMembers (fuel + 1) d (writeText k (':' :: ' ' :: cs)) = some ([(some k, x)], rest) := by
  obtain ⟨body, units, htext, hread, hk⟩ := readUnits_writeText k (':' :: ' ' :: cs)
  have hspace : skipSpaces (' ' :: cs) = cs := (skipSpaces_space rfl cs).trans (skipSpaces_value hx)
  rw [htext, readMembers, hread]
  simp only [skipSpaces_cons (c := ':') rfl, hspace, hx, hr, hk]

theorem readMembers_next (k : String) (hx : readValue fuel d cs = some (x, r)) {next : List Char}
    (hr : skipSpaces r = ',' :: next)
    (hms : readMembers fuel d (skipSpaces next) = some (ms.map fun m => (some m.1, m.2), rest)) :
    readMembers (fuel + 1) d (writeText k (':' :: ' ' :: cs)) =
      some (((k, x) :: ms).map fun m => (some m.1, m.2), rest) := by
  obtain ⟨body, units, htext, hread, hk⟩ := readUnits_writeText k (':' :: ' ' :: cs)
  have hspace : skipSpaces (' ' :: cs) = cs := (skipSpaces_space rfl cs).trans (skipSpaces_value hx)
  rw [htext, readMembers, hread]
  simp only [skipSpaces_cons (c := ':') rfl, hspace, hx, hr, hk, hms, Option.map_some,
    List.map_cons]

theorem readValue_of_members {k : String} (hd : d < depthLimit)
    (hcs : skipSpaces cs = writeText k r)
    (hms : readMembers fuel (d + 1) (writeText k r) =
      some (ms.map fun m => (some m.1, m.2), rest)) :
    readValue (fuel + 1) d ('{' :: cs) = some (.obj ms, rest) := by
  obtain ⟨body, units, htext, -, -⟩ := readUnits_writeText k r
  rw [htext] at hcs hms
  rw [readValue, hcs]
  simp only
  split
  next heq => exact absurd (List.cons.inj heq).1 (by decide)
  next => simp only [hms, Option.map_some, ofMembers_named, atDepth, if_pos hd]

end Members

theorem stops_writeItemLines (d e : Nat) (xs : List Json) (rest : List Char) :
    Stops (writeItemLines d xs (lineBreak e (']' :: rest))) := by
  cases xs <;> exact stops_cons (by decide) _

theorem stops_writeMemberLines (d e : Nat) (ms : List (String × Json)) (rest : List Char) :
    Stops (writeMemberLines d ms (lineBreak e ('}' :: rest))) := by
  cases ms <;> exact stops_cons (by decide) _

mutual

/-- Fuel for the characters in front of the rest is enough, since every list and object has more
characters of its own than it takes steps. -/
theorem readValue_writeLines : ∀ (j : Json) (d fuel : Nat) (rest : List Char), Legible d j →
    Stops rest → (writeLines d j rest).length ≤ fuel + rest.length →
    readValue (fuel + 1) d (writeLines d j rest) = some (j, rest)
  | .arr [], d, fuel, rest, h, _, _ => by
    have hclose : skipSpaces (']' :: rest) = ']' :: rest := skipSpaces_cons rfl rest
    rw [writeLines, readValue, hclose]
    simp only [atDepth, if_pos h.1]
  | .arr (x :: xs), d, fuel, rest, ⟨hd, hlx, hlxs⟩, hs, hlen => by
    have hx' := length_le_writeLines (d + 1) x
      (writeItemLines (d + 1) xs (lineBreak d (']' :: rest)))
    have hxs' := length_le_writeItemLines (d + 1) xs (lineBreak d (']' :: rest))
    simp only [writeLines, List.length_cons, length_lineBreak] at hlen hxs'
    -- Two steps lead to the first item; the bracket and the line break pay for them.
    obtain ⟨f, rfl⟩ : ∃ f, fuel = f + 2 := ⟨fuel - 2, by omega⟩
    have hx := readValue_writeLines x (d + 1) f _ hlx (stops_writeItemLines (d + 1) d xs rest)
      (by omega)
    have hxs := readItems_writeItemLines xs (d + 1) d f x _ rest hlxs (by omega) hx
    have hskip := (skipSpaces_lineBreak (d + 1) _).trans (skipSpaces_value hx)
    rw [writeLines]
    exact readValue_of_items hd (by rw [hskip]; exact hx) (by rw [hskip]; exact hxs)
  | .obj [], d, fuel, rest, h, _, _ => by
    have hclose : skipSpaces ('}' :: rest) = '}' :: rest := skipSpaces_cons rfl rest
    rw [writeLines, readValue, hclose]
    simp only [atDepth, if_pos h.1]
  | .obj ((k, x) :: ms), d, fuel, rest, ⟨hd, hlx, hlms⟩, hs, hlen => by
    have hk' := length_le_writeText k (':' :: ' ' :: writeLines (d + 1) x
      (writeMemberLines (d + 1) ms (lineBreak d ('}' :: rest))))
    have hx' := length_le_writeLines (d + 1) x
      (writeMemberLines (d + 1) ms (lineBreak d ('}' :: rest)))
    have hms' := length_le_writeMemberLines (d + 1) ms (lineBreak d ('}' :: rest))
    simp only [writeLines, List.length_cons, length_lineBreak] at hlen hk' hms'
    obtain ⟨f, rfl⟩ : ∃ f, fuel = f + 2 := ⟨fuel - 2, by omega⟩
    have hx := readValue_writeLines x (d + 1) f _ hlx (stops_writeMemberLines (d + 1) d ms rest)
      (by omega)
    have hms := readMembers_writeMemberLines ms (d + 1) d f k x _ rest hlms (by omega) hx
    rw [writeLines]
    refine readValue_of_members hd ?_ hms
    exact (skipSpaces_lineBreak (d + 1) _).trans (skipSpaces_cons rfl _)
  | .null, _, fuel, _, h, hs, _ => readValue_writeLeaf hs fuel h nofun nofun
  | .bool _, _, fuel, _, h, hs, _ => readValue_writeLeaf hs fuel h nofun nofun
  | .int _, _, fuel, _, h, hs, _ => readValue_writeLeaf hs fuel h nofun nofun
  | .float _, _, fuel, _, h, hs, _ => readValue_writeLeaf hs fuel h nofun nofun
  | .str _, _, fuel, _, h, hs, _ => readValue_writeLeaf hs fuel h nofun nofun
  | .unreadable, _, _, _, h, _, _ => h.elim

theorem readItems_writeItemLines : ∀ (xs : List Json) (d e fuel : Nat) (x : Json)
    (cs rest : List Char), LegibleItems d xs →
    (writeItemLines d xs (lineBreak e (']' :: rest))).length ≤ fuel + rest.length →
    readValue (fuel + 1) d cs = some (x, writeItemLines d xs (lineBreak e (']' :: rest))) →
    readItems (fuel + 2) d cs = some (x :: xs, rest)
  | [], d, e, fuel, x, cs, rest, _, _, hx => by
    rw [readItems, hx]
    simp only [writeItemLines, skipSpaces_lineBreak, skipSpaces_cons (c := ']') rfl]
  | y :: ys, d, e, fuel, x, cs, rest, ⟨hly, hlys⟩, hlen, hx => by
    have hy' := length_le_writeLines d y (writeItemLines d ys (lineBreak e (']' :: rest)))
    have hys' := length_le_writeItemLines d ys (lineBreak e (']' :: rest))
    simp only [writeItemLines, List.length_cons, length_lineBreak] at hlen hys'
    obtain ⟨f, rfl⟩ : ∃ f, fuel = f + 1 := ⟨fuel - 1, by omega⟩
    have hy := readValue_writeLines y d f _ hly (stops_writeItemLines d e ys rest) (by omega)
    have hys := readItems_writeItemLines ys d e f y _ rest hlys (by omega) hy
    have hskip := (skipSpaces_lineBreak d _).trans (skipSpaces_value hy)
    rw [readItems, hx]
    simp only [writeItemLines, skipSpaces_cons (c := ',') rfl, hskip, hys, Option.map_some]

theorem readMembers_writeMemberLines : ∀ (ms : List (String × Json)) (d e fuel : Nat) (k : String)
    (x : Json) (cs rest : List Char), LegibleMembers d ms →
    (writeMemberLines d ms (lineBreak e ('}' :: rest))).length ≤ fuel + rest.length →
    readValue (fuel + 1) d cs = some (x, writeMemberLines d ms (lineBreak e ('}' :: rest))) →
    readMembers (fuel + 2) d (writeText k (':' :: ' ' :: cs)) =
      some (((k, x) :: ms).map fun m => (some m.1, m.2), rest)
  | [], d, e, fuel, k, x, cs, rest, _, _, hx =>
    readMembers_last k hx ((skipSpaces_lineBreak e _).trans (skipSpaces_cons rfl rest))
  | (l, y) :: ms, d, e, fuel, k, x, cs, rest, ⟨hly, hlms⟩, hlen, hx => by
    have hl' := length_le_writeText l (':' :: ' ' :: writeLines d y
      (writeMemberLines d ms (lineBreak e ('}' :: rest))))
    have hy' := length_le_writeLines d y (writeMemberLines d ms (lineBreak e ('}' :: rest)))
    have hms' := length_le_writeMemberLines d ms (lineBreak e ('}' :: rest))
    simp only [writeMemberLines, List.length_cons, length_lineBreak] at hlen hl' hms'
    obtain ⟨f, rfl⟩ : ∃ f, fuel = f + 1 := ⟨fuel - 1, by omega⟩
    have hy := readValue_writeLines y d f _ hly (stops_writeMemberLines d e ms rest) (by omega)
    have hms := readMembers_writeMemberLines ms d e f l y _ rest hlms (by omega) hy
    refine readMembers_next k hx (skipSpaces_cons rfl _) ?_
    rw [skipSpaces_lineBreak]
    exact (congrArg (readMembers (f + 2) d) (skipSpaces_cons rfl _)).trans hms

end

theorem ofText?_pretty {j : Json} (h : Legible 0 j) : ofText? j.pretty = some j := by
  have hread := readValue_writeLines j 0 (2 * (writeLines 0 j []).length + 1) [] h stops_nil
    (by simp; omega)
  rw [ofText?, pretty, String.toList_ofList, skipSpaces_value hread, hread]
  rfl

end TileGrammar.Json
