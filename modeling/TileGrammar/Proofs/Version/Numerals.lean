import Mathlib.Data.List.Induction
import Mathlib.Data.String.Basic
import TileGrammar.Proofs.Text.Digits
import TileGrammar.Version

/-!
# Numerals in versions

Digits without a zero in front are those that their number is written with. So
such numerals stand in the order of their numbers when the shorter one stands
first, and of two that are equally long the first one letter by letter.
-/

set_option autoImplicit false

namespace TileGrammar.Version

def numberOf (ds : List Char) : Nat := Nat.ofDigitChars 10 ds 0

theorem isDigitChar_of_mem_toDigits {n : Nat} {c : Char} (h : c ∈ Nat.toDigits 10 n) :
    isDigitChar c = true := by
  have hc := Nat.isDigit_of_mem_toDigits (by decide) (by decide) h
  simpa [isDigitChar, Char.isDigit, Char.le_def] using hc

theorem isNumeric_toDigits (n : Nat) : isNumeric (Nat.toDigits 10 n) = true :=
  List.all_eq_true.mpr fun _ => isDigitChar_of_mem_toDigits

theorem toNat_digit {c : Char} (h : isDigitChar c = true) :
    '0'.toNat ≤ c.toNat ∧ c.toNat ≤ '9'.toNat := by
  simpa [isDigitChar, Char.le_def, UInt32.le_iff_toNat_le] using h

theorem decimalDigit?_digit {c : Char} (h : isDigitChar c = true) :
    decimalDigit? c = some (c.toNat - '0'.toNat) := by
  have hrange : '0' ≤ c ∧ c ≤ '9' := by simpa [isDigitChar] using h
  rw [decimalDigit?, if_pos hrange]

theorem foldDigits_digits {ds : List Char} (h : isNumeric ds = true) (n : Nat) :
    foldDigits decimalDigit? 10 n ds = some (Nat.ofDigitChars 10 ds n) := by
  induction ds generalizing n with
  | nil => rfl
  | cons c ds ih =>
    rw [isNumeric, List.all_cons, Bool.and_eq_true] at h
    rw [foldDigits, decimalDigit?_digit h.1, Option.bind_some, ih h.2, Nat.ofDigitChars_cons,
      Nat.mul_comm]

theorem digit_lt {c : Char} (h : isDigitChar c = true) : c.toNat - '0'.toNat < 10 := by
  obtain ⟨-, hhigh⟩ := toNat_digit h
  have hnine : '9'.toNat = '0'.toNat + 9 := rfl
  omega

theorem toDigits_digit {c : Char} (h : isDigitChar c = true) :
    Nat.toDigits 10 (c.toNat - '0'.toNat) = [c] := by
  obtain ⟨hlow, -⟩ := toNat_digit h
  have hzero : '0'.toNat = 48 := rfl
  rw [Nat.toDigits_of_lt_base (digit_lt h)]
  refine congrArg (fun d => [d]) (Char.toNat_inj.mp ?_)
  rw [Nat.toNat_digitChar_of_lt_ten (digit_lt h)]
  omega

theorem isPlainNumeral_cons_cons_iff {c d : Char} {ds : List Char} :
    isPlainNumeral (c :: d :: ds) = true ↔ c ≠ '0' := by
  by_cases h : c = '0'
  · subst h
    simp [isPlainNumeral]
  · simp [isPlainNumeral, h]

theorem toDigits_numberOf {ds : List Char} (hne : ds ≠ []) (hd : isNumeric ds = true)
    (hp : isPlainNumeral ds = true) : Nat.toDigits 10 (numberOf ds) = ds := by
  induction ds using List.reverseRecOn with
  | nil => exact absurd rfl hne
  | append_singleton cs c ih =>
    rw [isNumeric, List.all_append, Bool.and_eq_true] at hd
    have hc : isDigitChar c = true := by simpa using hd.2
    rw [numberOf, Nat.ofDigitChars_append, Nat.ofDigitChars_cons, Nat.ofDigitChars_nil]
    by_cases hcs : cs = []
    · rw [hcs, Nat.ofDigitChars_nil, Nat.mul_zero, Nat.zero_add, toDigits_digit hc]
      rfl
    · have hplain : isPlainNumeral cs = true := by
        rcases cs with _ | ⟨d, _ | ⟨e, cs⟩⟩
        · rfl
        · simp [isPlainNumeral]
        · exact isPlainNumeral_cons_cons_iff.mpr (isPlainNumeral_cons_cons_iff.mp hp)
      have hfront : Nat.toDigits 10 (numberOf cs) = cs := ih hcs hd.1 hplain
      have hpos : 0 < numberOf cs := by
        refine Nat.pos_of_ne_zero fun hz => ?_
        rw [hz, Nat.toDigits_zero] at hfront
        rw [← hfront] at hp
        simp [isPlainNumeral] at hp
      calc Nat.toDigits 10 (10 * numberOf cs + (c.toNat - '0'.toNat))
          = Nat.toDigits 10 (numberOf cs) ++ Nat.toDigits 10 (c.toNat - '0'.toNat) :=
            (Nat.toDigits_append_toDigits (by decide) hpos (digit_lt hc)).symm
        _ = cs ++ [c] := by rw [hfront, toDigits_digit hc]

theorem isPlainNumeral_toDigits (n : Nat) : isPlainNumeral (Nat.toDigits 10 n) = true := by
  rcases hds : Nat.toDigits 10 n with _ | ⟨c, _ | ⟨d, ds⟩⟩
  · rfl
  · simp [isPlainNumeral]
  · refine isPlainNumeral_cons_cons_iff.mpr ?_
    rintro rfl
    rw [head_toDigits_eq_zero (by decide) hds, Nat.toDigits_zero] at hds
    cases hds

theorem numberOf_toDigits (n : Nat) : numberOf (Nat.toDigits 10 n) = n :=
  Nat.ofDigitChars_ten_toDigits

theorem readDecimal?_eq_some_iff {n : Nat} {ds : List Char} (h : isNumeric ds = true) :
    readDecimal? ds = some n ↔ ds ≠ [] ∧ numberOf ds = n := by
  cases ds with
  | nil => simp [readDecimal?]
  | cons d ds => simp [readDecimal?, foldDigits_digits h, numberOf]

theorem numberOf_cons (c : Char) (ds : List Char) :
    numberOf (c :: ds) = 10 ^ ds.length * (c.toNat - '0'.toNat) + numberOf ds := by
  rw [numberOf, Nat.ofDigitChars_cons, Nat.ofDigitChars_eq_ofDigitChars_zero, Nat.mul_zero,
    Nat.zero_add, numberOf]

theorem numberOf_lt {ds : List Char} (h : isNumeric ds = true) :
    numberOf ds < 10 ^ ds.length := by
  induction ds with
  | nil => decide
  | cons c ds ih =>
    rw [isNumeric, List.all_cons, Bool.and_eq_true] at h
    have hlast := ih h.2
    have hfirst : 10 ^ ds.length * (c.toNat - '0'.toNat) ≤ 10 ^ ds.length * 9 :=
      Nat.mul_le_mul_left _ (Nat.le_of_lt_succ (digit_lt h.1))
    rw [numberOf_cons, List.length_cons, Nat.pow_succ]
    omega

theorem digit_lt_iff {c d : Char} (hc : isDigitChar c = true) (hd : isDigitChar d = true) :
    c < d ↔ c.toNat - '0'.toNat < d.toNat - '0'.toNat := by
  have hlow := (toNat_digit hc).1
  have hlow' := (toNat_digit hd).1
  have hlt : c < d ↔ c.toNat < d.toNat := Iff.rfl
  rw [hlt]
  omega

theorem digit_eq_iff {c d : Char} (hc : isDigitChar c = true) (hd : isDigitChar d = true) :
    c = d ↔ c.toNat - '0'.toNat = d.toNat - '0'.toNat := by
  have hlow := (toNat_digit hc).1
  have hlow' := (toNat_digit hd).1
  rw [← Char.toNat_inj]
  omega

theorem leading_lt_iff {scale x y m n : Nat} (hm : m < scale) (hn : n < scale) :
    scale * x + m < scale * y + n ↔ x < y ∨ x = y ∧ m < n := by
  have hstep : ∀ {v w : Nat}, v < w → scale * v + scale ≤ scale * w := fun {v w} hvw => by
    have hle : scale * (v + 1) ≤ scale * w := Nat.mul_le_mul_left scale hvw
    rwa [Nat.mul_succ] at hle
  constructor
  · intro h
    rcases Nat.lt_trichotomy x y with hxy | rfl | hyx
    · exact .inl hxy
    · exact .inr ⟨rfl, by omega⟩
    · have hscaled := hstep hyx
      omega
  · rintro (hxy | ⟨rfl, h⟩)
    · have hscaled := hstep hxy
      omega
    · omega

/-- Equally long numerals stand letter by letter in the order of their numbers. -/
theorem lex_iff_numberOf_lt {as bs : List Char} (ha : isNumeric as = true)
    (hb : isNumeric bs = true) (hlength : as.length = bs.length) :
    List.Lex (· < ·) as bs ↔ numberOf as < numberOf bs := by
  induction as generalizing bs with
  | nil =>
    rw [List.length_nil] at hlength
    rw [List.length_eq_zero_iff.mp hlength.symm]
    simp [numberOf, List.not_lex_nil]
  | cons a as ih =>
    rcases bs with _ | ⟨b, bs⟩
    · cases hlength
    · rw [isNumeric, List.all_cons, Bool.and_eq_true] at ha hb
      have hlengths : as.length = bs.length := Nat.succ.inj hlength
      have hrestA := numberOf_lt ha.2
      have hrestB := numberOf_lt hb.2
      rw [List.cons_lex_cons_iff, digit_lt_iff ha.1 hb.1, digit_eq_iff ha.1 hb.1, ih ha.2 hb.2 hlengths, numberOf_cons,
        numberOf_cons, hlengths]
      rw [hlengths] at hrestA
      exact (leading_lt_iff hrestA hrestB).symm

theorem compareText_eq_lt_iff (as bs : List Char) :
    compareText as bs = .lt ↔ List.Lex (· < ·) as bs := by
  rw [compareText, compare_lt_iff_lt, String.lt_iff_toList_lt, String.toList_ofList,
    String.toList_ofList]
  exact Iff.rfl

theorem compareText_eq_eq_iff (as bs : List Char) : compareText as bs = .eq ↔ as = bs := by
  rw [compareText, compare_eq_iff_eq, String.ofList_inj]

theorem lt_of_length_toDigits_lt {m n : Nat}
    (h : (Nat.toDigits 10 m).length < (Nat.toDigits 10 n).length) : m < n := by
  have hpos : 0 < (Nat.toDigits 10 m).length := Nat.length_toDigits_pos
  have hm := (Nat.length_toDigits_le_iff (n := m) (by decide) hpos).mp (Nat.le_refl _)
  have hn : ¬ n < 10 ^ (Nat.toDigits 10 m).length := fun hlt =>
    Nat.not_le.mpr h ((Nat.length_toDigits_le_iff (by decide) hpos).mpr hlt)
  omega

theorem compareNumerals_toDigits_eq_lt_iff (m n : Nat) :
    compareNumerals (Nat.toDigits 10 m) (Nat.toDigits 10 n) = .lt ↔ m < n := by
  rw [compareNumerals, Ordering.then_eq_lt, Nat.compare_eq_lt, Nat.compare_eq_eq,
    compareText_eq_lt_iff]
  constructor
  · rintro (hlength | ⟨hlength, hlex⟩)
    · exact lt_of_length_toDigits_lt hlength
    · have hlt := (lex_iff_numberOf_lt (isNumeric_toDigits m) (isNumeric_toDigits n) hlength).mp
        hlex
      rwa [numberOf_toDigits, numberOf_toDigits] at hlt
  · intro h
    rcases Nat.lt_trichotomy (Nat.toDigits 10 m).length (Nat.toDigits 10 n).length
      with hlt | heq | hgt
    · exact .inl hlt
    · refine .inr ⟨heq, ?_⟩
      rw [lex_iff_numberOf_lt (isNumeric_toDigits m) (isNumeric_toDigits n) heq,
        numberOf_toDigits, numberOf_toDigits]
      exact h
    · exact absurd (lt_of_length_toDigits_lt hgt) (Nat.lt_asymm h)

theorem compareNumerals_eq_eq_iff (as bs : List Char) :
    compareNumerals as bs = .eq ↔ as = bs := by
  rw [compareNumerals, Ordering.then_eq_eq, compareText_eq_eq_iff, Nat.compare_eq_eq]
  exact ⟨And.right, fun h => ⟨congrArg _ h, h⟩⟩

end TileGrammar.Version
