import Mathlib.Data.Nat.Digits.Defs
import TileGrammar.Proofs.Text.Digits

/-!
# Base sixteen

What a reader of digits in base sixteen takes, said without the reader: lists
of the twenty-two characters that are digits, each worth its place among the
small ones. A reader gives the number that the digits stand for, and none for
anything else. One that reads words takes one plus mark in front of them, and
nothing that is too great.
-/

set_option autoImplicit false

namespace TileGrammar

def hexDigits : List Char := "0123456789abcdefABCDEF".toList

def hexValue (c : Char) : Nat := hexDigits.idxOf c.toLower

def hexNumber (cs : List Char) : Nat := Nat.ofDigits 16 (cs.reverse.map hexValue)

def IsHexNumeral (cs : List Char) : Prop := cs ≠ [] ∧ cs ⊆ hexDigits

/-- A numeral of a number, with or without one plus mark in front. -/
def SpellsHex (cs : List Char) (n : Nat) : Prop :=
  ∃ ds, (cs = ds ∨ cs = '+' :: ds) ∧ IsHexNumeral ds ∧ hexNumber ds = n

/-- A test of each digit, where a test of every character would be too long. -/
theorem forall_hexDigits {p : Char → Prop} [DecidablePred p]
    (h : (hexDigits.all fun c => decide (p c)) = true) : ∀ c ∈ hexDigits, p c := by
  intro c hc
  exact of_decide_eq_true (List.all_eq_true.mp h c hc)

theorem hexDigit?_of_mem : ∀ c ∈ hexDigits, hexDigit? c = some (hexValue c) :=
  forall_hexDigits (by decide)

theorem hexValue_lt : ∀ c ∈ hexDigits, hexValue c < 16 := forall_hexDigits (by decide)

theorem digitChar_hexValue : ∀ c ∈ hexDigits, Nat.digitChar (hexValue c) = c.toLower :=
  forall_hexDigits (by decide)

theorem toUpper_digitChar_hexValue :
    ∀ c ∈ hexDigits, (Nat.digitChar (hexValue c)).toUpper = c.toUpper :=
  forall_hexDigits (by decide)

theorem plus_notMem_hexDigits : '+' ∉ hexDigits := by decide

theorem mem_hexDigits_of_lt :
    ∀ n < 128, hexDigit? (Char.ofNat n) ≠ none → Char.ofNat n ∈ hexDigits := by
  decide +kernel

theorem lt_of_hexDigit? {c : Char} (h : hexDigit? c ≠ none) : c.toNat < 128 := by
  have hle : ∀ d : Char, c ≤ d → d.toNat < 128 → c.toNat < 128 := fun d hcd hd =>
    Nat.lt_of_le_of_lt hcd hd
  unfold hexDigit? at h
  split at h
  next hc => exact hle '9' hc.2 (by decide)
  next =>
    split at h
    next hc => exact hle 'f' hc.2 (by decide)
    next =>
      split at h
      next hc => exact hle 'F' hc.2 (by decide)
      next => exact absurd rfl h

theorem hexDigit?_eq_some_iff {c : Char} {d : Nat} :
    hexDigit? c = some d ↔ c ∈ hexDigits ∧ hexValue c = d := by
  constructor
  · intro h
    -- Only the first 128 characters can be digits, and these have been tested.
    have hsome : hexDigit? c ≠ none := by simp [h]
    have hmem : c ∈ hexDigits := by
      have hn := mem_hexDigits_of_lt c.toNat (lt_of_hexDigit? hsome)
      rw [Char.ofNat_toNat] at hn
      exact hn hsome
    rw [hexDigit?_of_mem c hmem] at h
    exact ⟨hmem, Option.some.inj h⟩
  · rintro ⟨hmem, rfl⟩
    exact hexDigit?_of_mem c hmem

theorem hexNumber_cons (c : Char) (cs : List Char) :
    hexNumber (c :: cs) = hexValue c * 16 ^ cs.length + hexNumber cs := by
  rw [hexNumber, List.reverse_cons, List.map_append, Nat.ofDigits_append, List.length_map,
    List.length_reverse, List.map_singleton, Nat.ofDigits_singleton, hexNumber]
  ring

theorem hexNumber_single (c : Char) : hexNumber [c] = hexValue c := by
  simp [hexNumber]

theorem hexNumber_pair (high low : Char) :
    hexNumber [high, low] = hexValue high * 16 + hexValue low := by
  rw [hexNumber_cons, hexNumber_single]
  rfl

theorem foldDigits_hex_eq_some_iff {n m : Nat} {cs : List Char} :
    foldDigits hexDigit? 16 n cs = some m ↔
      cs ⊆ hexDigits ∧ n * 16 ^ cs.length + hexNumber cs = m := by
  induction cs generalizing n with
  | nil => simp [foldDigits, hexNumber]
  | cons c cs ih =>
    rw [foldDigits, Option.bind_eq_some_iff, List.cons_subset, hexNumber_cons, List.length_cons]
    have hplace : ∀ d, (n * 16 + d) * 16 ^ cs.length + hexNumber cs =
        n * 16 ^ (cs.length + 1) + (d * 16 ^ cs.length + hexNumber cs) := fun d => by ring
    constructor
    · rintro ⟨d, hd, h⟩
      obtain ⟨hc, rfl⟩ := hexDigit?_eq_some_iff.mp hd
      obtain ⟨hcs, hm⟩ := ih.mp h
      exact ⟨⟨hc, hcs⟩, by rw [← hplace, hm]⟩
    · rintro ⟨⟨hc, hcs⟩, hm⟩
      exact ⟨hexValue c, hexDigit?_of_mem c hc, ih.mpr ⟨hcs, by rw [hplace, hm]⟩⟩

theorem foldDigits_zero_hex_eq_some_iff {n : Nat} {cs : List Char} :
    foldDigits hexDigit? 16 0 cs = some n ↔ cs ⊆ hexDigits ∧ hexNumber cs = n := by
  rw [foldDigits_hex_eq_some_iff, Nat.zero_mul, Nat.zero_add]

theorem toDigits_subset_hexDigits (n : Nat) : Nat.toDigits 16 n ⊆ hexDigits := by
  have hread : foldDigits hexDigit? 16 0 ((Nat.toDigits 16 n).map id) = some n :=
    foldDigits_toDigits (by decide) hexDigit?_digitChar n
  rw [List.map_id] at hread
  exact (foldDigits_zero_hex_eq_some_iff.mp hread).1

theorem readHex?_eq_some_iff {n : Nat} {cs : List Char} :
    readHex? cs = some n ↔ IsHexNumeral cs ∧ hexNumber cs = n := by
  cases cs with
  | nil => simp [readHex?, IsHexNumeral]
  | cons c cs =>
    rw [readHex?, foldDigits_zero_hex_eq_some_iff]
    · simp [IsHexNumeral]
    · exact List.cons_ne_nil c cs

theorem readHexWord?_of_plus {bits n : Nat} {cs : List Char} :
    readHexWord? bits ('+' :: cs) = some n ↔
      IsHexNumeral cs ∧ hexNumber cs = n ∧ n < 2 ^ bits := by
  show (readHex? cs).filter _ = some n ↔ _
  rw [Option.filter_eq_some_iff, readHex?_eq_some_iff, decide_eq_true_iff, and_assoc]
  exact Iff.rfl

theorem readHexWord?_of_head {bits n : Nat} {cs : List Char} (h : ∀ ds, cs ≠ '+' :: ds) :
    readHexWord? bits cs = some n ↔ IsHexNumeral cs ∧ hexNumber cs = n ∧ n < 2 ^ bits := by
  have hread : readHexWord? bits cs = (readHex? cs).filter (· < Nat.pow 2 bits) := by
    unfold readHexWord?
    split
    next ds => exact absurd rfl (h ds)
    next => rfl
  rw [hread, Option.filter_eq_some_iff, readHex?_eq_some_iff, decide_eq_true_iff, and_assoc]
  exact Iff.rfl

/-- A word is spelled, and it can hold its number. -/
theorem readHexWord?_eq_some_iff {bits n : Nat} {cs : List Char} :
    readHexWord? bits cs = some n ↔ SpellsHex cs n ∧ n < 2 ^ bits := by
  have hmark : ∀ ds, ¬ IsHexNumeral ('+' :: ds) := fun ds h =>
    plus_notMem_hexDigits (h.2 List.mem_cons_self)
  by_cases hplus : ∃ ds, cs = '+' :: ds
  · obtain ⟨ds, rfl⟩ := hplus
    rw [readHexWord?_of_plus]
    constructor
    · rintro ⟨hds, hn, hlt⟩
      exact ⟨⟨ds, .inr rfl, hds, hn⟩, hlt⟩
    · rintro ⟨⟨es, rfl | heq, hes, hn⟩, hlt⟩
      · exact absurd hes (hmark ds)
      · cases heq
        exact ⟨hes, hn, hlt⟩
  · rw [readHexWord?_of_head fun ds h => hplus ⟨ds, h⟩]
    constructor
    · rintro ⟨hcs, hn, hlt⟩
      exact ⟨⟨cs, .inl rfl, hcs, hn⟩, hlt⟩
    · rintro ⟨⟨ds, rfl | rfl, hds, hn⟩, hlt⟩
      · exact ⟨hds, hn, hlt⟩
      · exact absurd ⟨ds, rfl⟩ hplus

theorem SpellsHex.unique {m n : Nat} {cs : List Char} (hm : SpellsHex cs m)
    (hn : SpellsHex cs n) : m = n := by
  -- A word that is wide enough for both numbers is read as each of them.
  have hread : ∀ k ≤ max m n, SpellsHex cs k → readHexWord? (max m n) cs = some k := by
    intro k hk hspells
    apply readHexWord?_eq_some_iff.mpr
    exact ⟨hspells, Nat.lt_of_le_of_lt hk Nat.lt_two_pow_self⟩
  have hsame := hread m (Nat.le_max_left m n) hm
  rw [hread n (Nat.le_max_right m n) hn] at hsame
  exact (Option.some.inj hsame).symm

theorem toList_hexLower_two {n : Nat} (h : n < 256) :
    (hexLower 2 n).toList = [Nat.digitChar (n / 16), Nat.digitChar (n % 16)] := by
  rw [hexLower, String.toList_ofList]
  by_cases hn : n < 16
  · rw [Nat.toDigits_of_lt_base hn, Nat.div_eq_of_lt hn, Nat.mod_eq_of_lt hn]
    rfl
  · have hhigh : n / 16 < 16 := by omega
    rw [Nat.toDigits_of_base_le (by decide) (by omega), Nat.toDigits_of_lt_base hhigh]
    rfl

theorem toList_hexLower_hexNumber {high low : Char} (hh : high ∈ hexDigits)
    (hl : low ∈ hexDigits) :
    (hexLower 2 (hexNumber [high, low])).toList = [high.toLower, low.toLower] := by
  have hhigh := hexValue_lt high hh
  have hlow := hexValue_lt low hl
  have hdiv : (hexValue high * 16 + hexValue low) / 16 = hexValue high := by omega
  have hmod : (hexValue high * 16 + hexValue low) % 16 = hexValue low := by omega
  rw [hexNumber_pair, toList_hexLower_two (by omega), hdiv, hmod, digitChar_hexValue high hh,
    digitChar_hexValue low hl]

end TileGrammar
