import TileGrammar.Proofs.Palette.Channels

/-!
# Which texts are colors

A color is spelled by three or four pairs of characters behind any number of
hash marks, each of which is read as a channel. It is written in small digits,
and without its alpha where that is full, and it is read back from what is
written. A plus mark in a text is taken for a digit that is left out.
-/

set_option autoImplicit false

namespace TileGrammar.Color

/-- Three pairs or four, one after the other. -/
def Spelled (cs : List Char) : Prop := ∃ pairs : List (Char × Char),
  (pairs.length = 3 ∨ pairs.length = 4) ∧ (∀ p ∈ pairs, IsPair p) ∧
    cs = pairs.flatMap fun p => [p.1, p.2]

def IsPlain (cs : List Char) : Prop := (cs.length = 6 ∨ cs.length = 8) ∧ cs ⊆ hexDigits

def behindMarks (s : String) : List Char := s.toList.dropWhile (· = '#')

/-- Digits without an alpha that is full. -/
def shortened (ds : List Char) : List Char := if ds.drop 6 = ['f', 'f'] then ds.take 6 else ds

def ofChannels? (name : Option String) : List UInt8 → Option Color
  | [r, g, b] => some ⟨r, g, b, 255, name⟩
  | [r, g, b, a] => some ⟨r, g, b, a, name⟩
  | _ => none

def shown (c : Color) : List UInt8 := if c.a = 255 then [c.r, c.g, c.b] else [c.r, c.g, c.b, c.a]

theorem toList_hex (c : Color) : c.hex.toList = '#' :: c.shown.flatMap channelDigits := by
  have hmark : "#".toList = ['#'] := rfl
  rw [hex, String.toList_append, hmark, String.toList_join, List.flatMap_map]
  rfl

theorem ofChannels?_shown (c : Color) : ofChannels? c.name c.shown = some c := by
  rw [shown]
  by_cases h : c.a = 255
  · rw [if_pos h, ofChannels?, ← h]
  · rw [if_neg h, ofChannels?]

theorem ofDigits?_eq_some_iff {name : Option String} {cs : List Char} {c : Color} :
    ofDigits? name cs = some c ↔ ∃ vs, ReadsAs cs vs ∧ ofChannels? name vs = some c := by
  constructor
  · intro h
    unfold ofDigits? at h
    split at h
    next r r' g g' b b' =>
      simp only [Option.bind_eq_bind, Option.bind_eq_some_iff] at h
      obtain ⟨red, hr, green, hg, blue, hb, h⟩ := h
      exact ⟨_, .cons hr (.cons hg (.cons hb .nil)), h⟩
    next r r' g g' b b' a a' =>
      simp only [Option.bind_eq_bind, Option.bind_eq_some_iff] at h
      obtain ⟨red, hr, green, hg, blue, hb, alpha, ha, h⟩ := h
      exact ⟨_, .cons hr (.cons hg (.cons hb (.cons ha .nil))), h⟩
    next => cases h
  · rintro ⟨vs, hreads, hc⟩
    unfold ofChannels? at hc
    split at hc
    next red green blue =>
      obtain ⟨⟩ | ⟨hr, _ | ⟨hg, _ | ⟨hb, _ | _⟩⟩⟩ := hreads
      simp only [ofDigits?, hr, hg, hb]
      exact hc
    next red green blue alpha =>
      obtain ⟨⟩ | ⟨hr, _ | ⟨hg, _ | ⟨hb, _ | ⟨ha, _ | _⟩⟩⟩⟩ := hreads
      simp only [ofDigits?, hr, hg, hb, ha]
      exact hc
    next => cases hc

theorem exists_ofChannels?_iff (name : Option String) {vs : List UInt8} :
    (∃ c, ofChannels? name vs = some c) ↔ vs.length = 3 ∨ vs.length = 4 := by
  constructor
  · rintro ⟨c, h⟩
    unfold ofChannels? at h
    split at h
    next => exact .inl rfl
    next => exact .inr rfl
    next => cases h
  · rintro (h | h)
    · obtain ⟨r, g, b, rfl⟩ := List.length_eq_three.mp h
      exact ⟨_, rfl⟩
    · obtain ⟨r, g, b, a, rfl⟩ := List.length_eq_four.mp h
      exact ⟨_, rfl⟩

theorem shortened_append {ds : List Char} (h : ds.length = 6) (es : List Char) :
    shortened (ds ++ es) = if es = ['f', 'f'] then ds else ds ++ es := by
  rw [shortened, List.drop_left' h, List.take_left' h]

theorem of_ofChannels? {name : Option String} {vs : List UInt8} {c : Color}
    (h : ofChannels? name vs = some c) :
    c.name = name ∧ c.shown.flatMap channelDigits = shortened (vs.flatMap channelDigits) := by
  have hfront : ∀ r g b : UInt8, ([r, g, b].flatMap channelDigits).length = 6 := by
    intro r g b
    simp [length_channelDigits]
  have hfull : channelDigits 255 = ['f', 'f'] := by decide
  unfold ofChannels? at h
  split at h
  next r g b =>
    cases h
    have hshort := shortened_append (hfront r g b) []
    rw [List.append_nil, if_neg (by decide)] at hshort
    rw [hshort]
    exact ⟨rfl, rfl⟩
  next r g b a =>
    cases h
    have hsplit : [r, g, b, a].flatMap channelDigits =
        [r, g, b].flatMap channelDigits ++ channelDigits a := by simp
    rw [hsplit, shortened_append (hfront r g b), ← hfull, shown]
    by_cases ha : a = 255
    · simp [ha]
    · have hother : channelDigits a ≠ channelDigits 255 := fun he => ha (channelDigits_injective he)
      simp [ha, hother]
  next => cases h

theorem behindMarks_hex (c : Color) : behindMarks c.hex = c.shown.flatMap channelDigits := by
  have hmark := (readsAs_channelDigits c.shown).mark_notMem
  rw [behindMarks, toList_hex, List.dropWhile_cons_of_pos (by simp)]
  cases hdigits : c.shown.flatMap channelDigits with
  | nil => rfl
  | cons d ds =>
    rw [hdigits, List.mem_cons, not_or] at hmark
    rw [List.dropWhile_cons_of_neg (by simpa using Ne.symm hmark.1)]

theorem ofHex_eq_ok_iff {s : String} {name : Option String} {c : Color} : ofHex s name = .ok c ↔
    ∃ vs, ReadsAs (behindMarks s) vs ∧ ofChannels? name vs = some c := by
  rw [ofHex, orFail_eq_ok_iff, ofDigits?_eq_some_iff]
  rfl

theorem exists_ofHex_iff (s : String) (name : Option String) :
    (∃ c, ofHex s name = .ok c) ↔ Spelled (behindMarks s) := by
  constructor
  · rintro ⟨c, h⟩
    obtain ⟨vs, hreads, hc⟩ := ofHex_eq_ok_iff.mp h
    obtain ⟨pairs, hlength, hpairs⟩ := hreads.pairs
    refine ⟨pairs, ?_, hpairs⟩
    rw [hlength]
    exact (exists_ofChannels?_iff name).mp ⟨c, hc⟩
  · rintro ⟨pairs, hcount, hpairs, hcs⟩
    obtain ⟨vs, hlength, hreads⟩ := exists_readsAs hpairs
    rw [← hlength] at hcount
    obtain ⟨c, hc⟩ := (exists_ofChannels?_iff name).mpr hcount
    rw [← hcs] at hreads
    exact ⟨c, ofHex_eq_ok_iff.mpr ⟨vs, hreads, hc⟩⟩

theorem hex_of_ofHex {s : String} {name : Option String} {c : Color} (h : ofHex s name = .ok c) :
    c.name = name ∧
      c.hex = "#" ++ String.ofList (shortened ((behindMarks s).map smallDigit)) := by
  obtain ⟨vs, hreads, hc⟩ := ofHex_eq_ok_iff.mp h
  obtain ⟨hname, hdigits⟩ := of_ofChannels? hc
  refine ⟨hname, ?_⟩
  apply String.toList_inj.mp
  rw [toList_hex, hdigits, hreads.digits]
  simp

theorem eq_of_ofHex_eq_error {s : String} {name : Option String} {e : Error}
    (h : ofHex s name = .error e) : e = .hexColor s := by
  rw [ofHex] at h
  cases hread : ofDigits? name (s.toList.dropWhile (· = '#')) with
  | some c =>
    rw [hread] at h
    cases h
  | none =>
    rw [hread] at h
    cases h
    rfl

theorem exists_pairs {cs : List Char} {k : Nat} (h : cs.length = 2 * k) :
    ∃ pairs : List (Char × Char), pairs.length = k ∧ cs = pairs.flatMap fun p => [p.1, p.2] := by
  induction k generalizing cs with
  | zero => exact ⟨[], rfl, List.eq_nil_of_length_eq_zero h⟩
  | succ k ih =>
    rcases cs with _ | ⟨high, _ | ⟨low, cs⟩⟩
    · simp at h
    · simp only [List.length_cons, List.length_nil] at h
      omega
    · simp only [List.length_cons] at h
      have hrest : cs.length = 2 * k := by omega
      obtain ⟨pairs, hlength, rfl⟩ := ih hrest
      exact ⟨(high, low) :: pairs, by simp [hlength], rfl⟩

theorem length_flatMap_pairs (pairs : List (Char × Char)) :
    (pairs.flatMap fun p => [p.1, p.2]).length = 2 * pairs.length := by
  simp [Nat.mul_comm]

/-- What is spelled without plus marks is plain. -/
theorem isPlain_iff {cs : List Char} : IsPlain cs ↔ Spelled cs ∧ '+' ∉ cs := by
  constructor
  · rintro ⟨hcount, hsub⟩
    constructor
    · have heven : cs.length = 2 * (cs.length / 2) := by omega
      obtain ⟨pairs, hlength, rfl⟩ := exists_pairs heven
      refine ⟨pairs, by omega, fun p hp => ?_, rfl⟩
      have hmem : ∀ c ∈ [p.1, p.2], c ∈ hexDigits := fun c hc =>
        hsub (List.mem_flatMap.mpr ⟨p, hp, hc⟩)
      exact ⟨.inl (hmem p.1 (by simp)), hmem p.2 (by simp)⟩
    · intro hplus
      exact plus_notMem_hexDigits (hsub hplus)
  · rintro ⟨⟨pairs, hcount, hpairs, rfl⟩, hplus⟩
    constructor
    · rw [length_flatMap_pairs]
      omega
    · intro c hc
      rcases mem_of_isPair hpairs hc with hdigit | rfl
      · exact hdigit
      · exact absurd hc hplus

theorem IsPlain.map_smallDigit {cs : List Char} (h : IsPlain cs) :
    cs.map smallDigit = cs.map Char.toLower := by
  apply List.map_congr_left
  intro c hc
  exact smallDigit_of_mem c (h.2 hc)

theorem ofHex_of_not_spelled {s : String} (name : Option String) (h : ¬ Spelled (behindMarks s)) :
    ofHex s name = .error (.hexColor s) := by
  cases hread : ofHex s name with
  | ok c => exact absurd ((exists_ofHex_iff s name).mp ⟨c, hread⟩) h
  | error e => rw [eq_of_ofHex_eq_error hread]

theorem ofHex_hex (c : Color) : ofHex c.hex c.name = .ok c := by
  apply ofHex_eq_ok_iff.mpr
  rw [behindMarks_hex]
  exact ⟨c.shown, readsAs_channelDigits c.shown, ofChannels?_shown c⟩

/-- A text is read as a color exactly when three or four pairs stand behind its hash marks. This is
to be six digits or eight, unless one of the pairs has a plus mark. The color is written with the
digits of the pairs, small, with a zero for each plus mark and without a full alpha, so that plain
digits are kept but for their case. All other texts are refused for their format. It is all the same
whether a text is counted and cut by characters or by bytes. A color is read back from what it is
written as. -/
theorem pairs_spell_color (s : String) (name : Option String) (c : Color) :
    ((∃ d, ofHex s name = .ok d) ↔ Spelled (behindMarks s)) ∧
    (((∃ d, ofHex s name = .ok d) ↔ IsPlain (behindMarks s)) ↔
      ¬ (Spelled (behindMarks s) ∧ '+' ∈ behindMarks s)) ∧
    (∀ d, ofHex s name = .ok d → d.name = name ∧
      d.hex = "#" ++ String.ofList (shortened ((behindMarks s).map smallDigit))) ∧
    (IsPlain (behindMarks s) → ∃ d, ofHex s name = .ok d ∧
      d.hex = "#" ++ String.ofList (shortened ((behindMarks s).map Char.toLower))) ∧
    (¬ Spelled (behindMarks s) →
      ofHex s name = .error (.hexColor s) ∧ (Error.hexColor s).kind = .format) ∧
    (ofHex s name = .ok c ↔
      ∃ vs, ReadsBytes (behindMarks s) vs ∧ ofChannels? name vs = some c) ∧
    ofHex c.hex c.name = .ok c := by
  have hread := exists_ofHex_iff s name
  refine ⟨hread, ?_, fun d => hex_of_ofHex, fun hplain => ?_, fun h => ?_, ?_, ofHex_hex c⟩
  · rw [hread, isPlain_iff]
    by_cases hspelled : Spelled (behindMarks s) <;> simp [hspelled]
  · obtain ⟨d, hd⟩ := hread.mpr (isPlain_iff.mp hplain).1
    refine ⟨d, hd, ?_⟩
    rw [(hex_of_ofHex hd).2, hplain.map_smallDigit]
  · exact ⟨ofHex_of_not_spelled name h, rfl⟩
  · simp only [readsBytes_iff]
    exact ofHex_eq_ok_iff

theorem pairs_spell_color_marked :
    (∃ c, ofHex "##+A0f+0FF" (some "ink") = .ok c ∧ c.name = some "ink" ∧ c.hex = "#0a0f00") ∧
      (∃ c, ofHex "0A0b0C80" none = .ok c ∧ c.hex = "#0a0b0c80") ∧
      ofHex "#ééé" none = .error (.hexColor "#ééé") := by
  have ink : Color := ⟨0, 0, 0, 255, none⟩
  refine ⟨?_, ?_, ?_⟩
  · have hmarked : ofHex "##+A0f+0FF" (some "ink") = .ok ⟨10, 15, 0, 255, some "ink"⟩ := by decide
    obtain ⟨-, -, hwritten, -⟩ := pairs_spell_color "##+A0f+0FF" (some "ink") ink
    obtain ⟨hname, hhex⟩ := hwritten _ hmarked
    exact ⟨_, hmarked, hname, hhex.trans (by decide)⟩
  · obtain ⟨-, -, -, hplain, -⟩ := pairs_spell_color "0A0b0C80" none ink
    obtain ⟨c, hc, hhex⟩ := hplain ⟨by decide, by decide⟩
    exact ⟨c, hc, hhex.trans (by decide)⟩
  · obtain ⟨hread, -, -, -, hrefused, -⟩ := pairs_spell_color "#ééé" none ink
    have hrun : (ofHex "#ééé" none).toOption = none := by decide
    have hnone : ¬ Spelled (behindMarks "#ééé") := by
      intro hspelled
      obtain ⟨c, hc⟩ := hread.mpr hspelled
      rw [hc] at hrun
      cases hrun
    exact (hrefused hnone).1

/-- A plus mark is taken for a digit that is left out, though it is none. -/
theorem plus_marks_are_taken :
    ofHex "#+1+2+3" none = .ok ⟨1, 2, 3, 255, none⟩ ∧ ¬ behindMarks "#+1+2+3" ⊆ hexDigits := by
  decide

end TileGrammar.Color
