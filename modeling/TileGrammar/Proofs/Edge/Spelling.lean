import TileGrammar.Proofs.Edge.SignatureIndex
import TileGrammar.Proofs.Order.Traversal
import TileGrammar.Proofs.Text.Hexadecimal

/-!
# Which texts are signatures

A signature is written with four large digits in base sixteen, one for each
side. Four digits in any case are read as the signature that is written with
their large forms, so a signature has one text up to case. A text of another
length, or with a character that is no digit, is refused for its format.
-/

set_option autoImplicit false

namespace TileGrammar

theorem EdgeCode.ofRank?_eq_some_iff {n : Nat} {e : EdgeCode} :
    ofRank? n = some e ↔ n = e.rank := by
  constructor
  · intro h
    obtain ⟨hn, -⟩ := List.getElem?_eq_some_iff.mp h
    have hall : ∀ n < 16, (ofRank? n).map rank = some n := by decide
    have hrank := hall n hn
    rw [h] at hrank
    exact (Option.some.inj hrank).symm
  · rintro rfl
    exact e.ofRank?_rank

namespace Signature

/-- Four digits in base sixteen, in any case. -/
def IsCode (t : String) : Prop := t.length = 4 ∧ t.toList ⊆ hexDigits

theorem readDigit_eq_ok_iff {t : String} {c : Char} {e : EdgeCode} :
    readDigit t c = .ok e ↔ c ∈ hexDigits ∧ hexValue c = e.rank := by
  rw [readDigit, orFail_eq_ok_iff, Option.bind_eq_some_iff]
  constructor
  · rintro ⟨n, hn, he⟩
    obtain ⟨hc, rfl⟩ := hexDigit?_eq_some_iff.mp hn
    exact ⟨hc, EdgeCode.ofRank?_eq_some_iff.mp he⟩
  · rintro ⟨hc, he⟩
    exact ⟨hexValue c, hexDigit?_of_mem c hc, EdgeCode.ofRank?_eq_some_iff.mpr he⟩

theorem exists_readDigit_iff {t : String} {c : Char} :
    (∃ e, readDigit t c = .ok e) ↔ c ∈ hexDigits := by
  constructor
  · rintro ⟨e, he⟩
    exact (readDigit_eq_ok_iff.mp he).1
  · intro hc
    have hall : ∀ n < 16, ∃ e ∈ EdgeCode.all, e.rank = n := by decide
    obtain ⟨e, -, he⟩ := hall (hexValue c) (hexValue_lt c hc)
    exact ⟨e, readDigit_eq_ok_iff.mpr ⟨hc, he.symm⟩⟩

theorem readDigit_of_notMem {t : String} {c : Char} (h : c ∉ hexDigits) :
    readDigit t c = .error (.edgeDigit c t) := by
  have hnone : hexDigit? c = none := by
    apply Option.eq_none_iff_forall_ne_some.mpr
    intro d hd
    exact h (hexDigit?_eq_some_iff.mp hd).1
  rw [readDigit, hnone]
  rfl

theorem map_toList_parse {t : String} (h : t.length = 4) :
    (parse t).map Sides.toList = t.toList.mapM (readDigit t) := by
  rw [← String.length_toList] at h
  obtain ⟨n, e, s, w, ht⟩ := List.length_eq_four.mp h
  rw [parse, ht]
  simp only [List.mapM_cons, List.mapM_nil]
  cases readDigit t n with
  | error => rfl
  | ok =>
    cases readDigit t e with
    | error => rfl
    | ok =>
      cases readDigit t s with
      | error => rfl
      | ok => cases readDigit t w <;> rfl

theorem parse_of_length_ne {t : String} (h : t.length ≠ 4) :
    parse t = .error (.edgeCodeLength t) := by
  unfold parse
  split
  next n e s w ht =>
    rw [← String.length_toList, ht] at h
    exact absurd rfl h
  next => rfl

theorem toList_injective : Function.Injective (Sides.toList : Signature → List EdgeCode) := by
  rintro ⟨n, e, s, w⟩ ⟨n', e', s', w'⟩ h
  simpa [Sides.toList] using h

theorem parse_eq_ok_iff {t : String} {s : Signature} :
    parse t = .ok s ↔
      List.Forall₂ (fun c e => c ∈ hexDigits ∧ hexValue c = e.rank) t.toList s.toList := by
  -- Both sides say what the reader does with the characters, one by one.
  simp only [← readDigit_eq_ok_iff (t := t), ← mapM_eq_ok_iff]
  by_cases hlength : t.length = 4
  · rw [← map_toList_parse hlength]
    constructor
    · intro h
      rw [h]
      rfl
    · intro h
      cases hparse : parse t with
      | error e =>
        rw [hparse] at h
        cases h
      | ok s' =>
        rw [hparse] at h
        rw [toList_injective (Except.ok.inj h)]
  · constructor
    · intro h
      rw [parse_of_length_ne hlength] at h
      cases h
    · intro h
      have hsame := length_of_mapM_eq_ok h
      rw [String.length_toList] at hsame
      exact absurd hsame.symm hlength

theorem digit_eq {c : Char} {e : EdgeCode} (hc : c ∈ hexDigits) (h : hexValue c = e.rank) :
    digit e = c.toUpper := by
  rw [digit, ← h]
  exact toUpper_digitChar_hexValue c hc

theorem of_parse_eq_error {t : String} {e : Error} (h : parse t = .error e) :
    t.length ≠ 4 ∧ e = .edgeCodeLength t ∨
      ∃ c ∈ t.toList, c ∉ hexDigits ∧ e = .edgeDigit c t := by
  by_cases hlength : t.length = 4
  · have hrun : t.toList.mapM (readDigit t) = .error e := by
      rw [← map_toList_parse hlength, h]
      rfl
    obtain ⟨c, hc, he⟩ := mem_of_mapM_eq_error hrun
    by_cases hdigit : c ∈ hexDigits
    · obtain ⟨code, hcode⟩ := exists_readDigit_iff.mpr hdigit
      rw [hcode] at he
      cases he
    · rw [readDigit_of_notMem hdigit] at he
      cases he
      exact .inr ⟨c, hc, hdigit, rfl⟩
  · rw [parse_of_length_ne hlength] at h
    cases h
    exact .inl ⟨hlength, rfl⟩

theorem isCode_of_parse {t : String} {s : Signature} (h : parse t = .ok s) : IsCode t := by
  have hdigits := parse_eq_ok_iff.mp h
  constructor
  · rw [← String.length_toList, hdigits.length_eq]
    rfl
  · intro c hc
    obtain ⟨e, -, hce, -⟩ := exists_of_forall₂ hdigits hc
    exact hce

theorem exists_parse_iff (t : String) : (∃ s, parse t = .ok s) ↔ IsCode t := by
  constructor
  · rintro ⟨s, hs⟩
    exact isCode_of_parse hs
  · intro hcode
    cases hparse : parse t with
    | ok s => exact ⟨s, rfl⟩
    | error e =>
      rcases of_parse_eq_error hparse with ⟨hlength, -⟩ | ⟨c, hc, hdigit, -⟩
      · exact absurd hcode.1 hlength
      · exact absurd (hcode.2 hc) hdigit

theorem exists_parse_error {t : String} (h : ¬ IsCode t) : ∃ e, parse t = .error e := by
  cases hparse : parse t with
  | ok s => exact absurd (isCode_of_parse hparse) h
  | error e => exact ⟨e, rfl⟩

theorem kind_of_parse_eq_error {t : String} {e : Error} (h : parse t = .error e) :
    e.kind = .format := by
  rcases of_parse_eq_error h with ⟨-, rfl⟩ | ⟨c, -, -, rfl⟩
  · rfl
  · rfl

theorem toUpper_eq_ofList (t : String) :
    t.toUpper = String.ofList (t.toList.map Char.toUpper) := by
  show t.map Char.toUpper = _
  rw [← String.toList_inj, String.toList_map, String.toList_ofList]

theorem toLower_eq_ofList (t : String) :
    t.toLower = String.ofList (t.toList.map Char.toLower) := by
  show t.map Char.toLower = _
  rw [← String.toList_inj, String.toList_map, String.toList_ofList]

theorem text_eq_toUpper {t : String} {s : Signature} (h : parse t = .ok s) :
    text s = t.toUpper := by
  have hdigits : List.Forall₂ (· = ·) (s.toList.map digit) (t.toList.map Char.toUpper) := by
    rw [List.forall₂_map_left_iff, List.forall₂_map_right_iff]
    apply List.Forall₂.flip
    exact (parse_eq_ok_iff.mp h).imp fun c e hce => digit_eq hce.1 hce.2
  rw [List.forall₂_eq_eq_eq] at hdigits
  rw [text, toUpper_eq_ofList, hdigits]

theorem parse_ofList_map {write : EdgeCode → Char}
    (h : ∀ e, write e ∈ hexDigits ∧ hexValue (write e) = e.rank) (s : Signature) :
    parse (String.ofList (s.toList.map write)) = .ok s := by
  rw [parse_eq_ok_iff, String.toList_ofList, List.forall₂_map_left_iff, List.forall₂_same]
  exact fun e _ => h e

theorem digit_spells (e : EdgeCode) : digit e ∈ hexDigits ∧ hexValue (digit e) = e.rank := by
  cases e <;> decide

theorem small_digit_spells (e : EdgeCode) :
    (digit e).toLower ∈ hexDigits ∧ hexValue (digit e).toLower = e.rank := by
  cases e <;> decide

/-- The texts that are read are those of four digits in base sixteen, of either case. What is read
is written as the text in large digits. Any other text is refused for its format, by its length or
by a character that is no digit. A signature is read back from its text and from the same text in
small digits. -/
theorem four_digits_spell_signature :
    (∀ t : String, (∃ s, parse t = .ok s) ↔ IsCode t) ∧
    (∀ (t : String) (s : Signature), parse t = .ok s → text s = t.toUpper) ∧
    (∀ t : String, ¬ IsCode t → ∃ e, parse t = .error e ∧ e.kind = .format ∧
      (t.length ≠ 4 ∧ e = .edgeCodeLength t ∨
        ∃ c ∈ t.toList, c ∉ hexDigits ∧ e = .edgeDigit c t)) ∧
    ∀ s : Signature, parse (text s) = .ok s ∧ parse (text s).toLower = .ok s := by
  refine ⟨exists_parse_iff, fun t s => text_eq_toUpper, fun t hcode => ?_, fun s => ⟨?_, ?_⟩⟩
  · obtain ⟨e, he⟩ := exists_parse_error hcode
    exact ⟨e, he, kind_of_parse_eq_error he, of_parse_eq_error he⟩
  · exact parse_ofList_map digit_spells s
  · rw [toLower_eq_ofList, text, String.toList_ofList, List.map_map]
    exact parse_ofList_map small_digit_spells s

theorem four_digits_spell_signature_mixed :
    (∃ s, parse "aB0f" = .ok s ∧ text s = "AB0F") ∧
      (∃ e, parse "éé" = .error e ∧ e.kind = .format) ∧
      ∃ e, parse "110١" = .error e ∧ e.kind = .format := by
  obtain ⟨hread, hwritten, hrefused, -⟩ := four_digits_spell_signature
  refine ⟨?_, ?_, ?_⟩
  · obtain ⟨s, hs⟩ := (hread "aB0f").mpr ⟨by decide, by decide⟩
    have hupper : "aB0f".toUpper = "AB0F" := by
      rw [toUpper_eq_ofList]
      decide
    exact ⟨s, hs, (hwritten _ s hs).trans hupper⟩
  · obtain ⟨e, he, hkind, -⟩ := hrefused "éé" fun h => absurd h.1 (by decide)
    exact ⟨e, he, hkind⟩
  · obtain ⟨e, he, hkind, -⟩ := hrefused "110١" fun h => absurd h.2 (by decide)
    exact ⟨e, he, hkind⟩

end Signature

end TileGrammar
