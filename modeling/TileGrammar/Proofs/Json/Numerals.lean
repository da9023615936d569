import Mathlib.Data.List.TakeDrop
import Mathlib.Data.List.TakeWhile
import TileGrammar.Json.Parser
import TileGrammar.Json.Printer
import TileGrammar.Proofs.Text.Digits

/-!
# Numerals in JSON text

A numeral ends where no digit, point or mark of an exponent follows. So what is
read of a numeral alone is read of it in front of any such rest. The text of an
integer of 64 bits is read as that integer. Doubles are another matter: the
reader scales in the arithmetic of doubles and need not find the double that
was written, so a double is `faithful` where it does.
-/

set_option autoImplicit false

namespace TileGrammar

theorem foldl_digitValue {v n : Nat} {cs : List Char}
    (h : foldDigits decimalDigit? 10 v cs = some n) :
    cs.foldl (fun v c => v * 10 + digitValue c) v = n := by
  induction cs generalizing v with
  | nil => exact Option.some.inj h
  | cons c cs ih =>
    obtain ⟨d, hd, hcs⟩ := Option.bind_eq_some_iff.mp h
    rw [List.foldl_cons, digitValue, hd]
    exact ih hcs

theorem foldl_digitValue_toDigits (n : Nat) :
    (Nat.toDigits 10 n).foldl (fun v c => v * 10 + digitValue c) 0 = n := by
  have hdigit : ∀ d < 10, decimalDigit? (id (Nat.digitChar d)) = some d := by decide
  have hread := foldDigits_toDigits (by decide) hdigit n
  rw [List.map_id] at hread
  exact foldl_digitValue hread

namespace Json

def Stops (rest : List Char) : Prop :=
  ∀ c ∈ rest.head?, isDigit c = false ∧ c ≠ '.' ∧ c ≠ 'e' ∧ c ≠ 'E'

theorem stops_nil : Stops [] := by
  intro c hc
  cases hc

theorem stops_cons {c : Char} (h : isDigit c = false ∧ c ≠ '.' ∧ c ≠ 'e' ∧ c ≠ 'E')
    (rest : List Char) : Stops (c :: rest) := by
  intro d hd
  cases hd
  exact h

theorem isDigit_of_mem_toDigits {n : Nat} {c : Char} (h : c ∈ Nat.toDigits 10 n) :
    isDigit c = true := by
  have hc := Nat.isDigit_of_mem_toDigits (by decide) (by decide) h
  simpa [isDigit, Char.isDigit, Char.le_def] using hc

theorem span_append {rest : List Char} (h : Stops rest) (cs : List Char) :
    (cs ++ rest).span isDigit = ((cs.span isDigit).1, (cs.span isDigit).2 ++ rest) := by
  simp only [List.span_eq_takeWhile_dropWhile]
  induction cs with
  | nil =>
    cases rest with
    | nil => rfl
    | cons c rest => simp [(h c rfl).1]
  | cons c cs ih =>
    cases hc : isDigit c with
    | false => simp [hc]
    | true =>
      obtain ⟨htake, hdrop⟩ := Prod.mk.inj ih
      simp [hc, htake, hdrop]

def readDigits (cs : List Char) : Option (List Char × List Char) :=
  match cs.span isDigit with
  | ([], _) => none
  | (ds, r) => some (ds, r)

theorem readPower_eq (negative : Bool) (cs : List Char) :
    readPower negative cs = (readDigits cs).map fun p =>
      let n : Int := p.1.foldl (fun v c => v * 10 + digitValue c) 0
      (if negative then -n else n, p.2) := by
  unfold readPower readDigits
  rcases cs.span isDigit with ⟨_ | ⟨d, ds⟩, r⟩ <;> rfl

theorem readWhole_of_head {cs : List Char} (h : cs.head? ≠ some '0') :
    readWhole cs = readDigits cs := by
  unfold readWhole
  split
  · exact absurd rfl h
  · rfl

theorem readFraction_of_head {cs : List Char} (h : cs.head? ≠ some '.') :
    readFraction cs = some ([], cs) := by
  unfold readFraction
  split
  · exact absurd rfl h
  · rfl

def readSignedPower (cs : List Char) : Option (Int × List Char) :=
  match cs with
  | '+' :: r => readPower false r
  | '-' :: r => readPower true r
  | _ => readPower false cs

theorem readSignedPower_of_head {cs : List Char} (hplus : cs.head? ≠ some '+')
    (hminus : cs.head? ≠ some '-') : readSignedPower cs = readPower false cs := by
  unfold readSignedPower
  split
  · exact absurd rfl hplus
  · exact absurd rfl hminus
  · rfl

theorem readExponent_mark {c : Char} (h : c = 'e' ∨ c = 'E') (cs : List Char) :
    readExponent (c :: cs) = (readSignedPower cs).map fun p => (some p.1, p.2) := by
  simp only [readExponent]
  rw [if_pos (by simpa using h)]
  rfl

theorem readExponent_of_head {cs : List Char} (h : ∀ c ∈ cs.head?, c ≠ 'e' ∧ c ≠ 'E') :
    readExponent cs = some (none, cs) := by
  cases cs with
  | nil => rfl
  | cons c cs =>
    unfold readExponent
    exact if_neg (by simpa using h c rfl)

def readUnsigned (negative : Bool) (cs : List Char) : Option (Numeral × List Char) :=
  (readWhole cs).bind fun (whole, cs) =>
  (readFraction cs).bind fun (fraction, cs) =>
  (readExponent cs).map fun (exponent, cs) =>
  (⟨negative, whole, fraction, exponent.getD 0, fraction.isEmpty && exponent.isNone⟩, cs)

theorem readNumeral_minus (cs : List Char) : readNumeral ('-' :: cs) = readUnsigned true cs := rfl

theorem readNumeral_of_head {cs : List Char} (h : cs.head? ≠ some '-') :
    readNumeral cs = readUnsigned false cs := by
  unfold readNumeral
  split
  rename_i heq
  split at heq
  · exact absurd rfl h
  · cases heq
    rfl

section Append

variable {rest : List Char} (hs : Stops rest) {cs r ds : List Char}
include hs

theorem readDigits_append (h : readDigits cs = some (ds, r)) :
    readDigits (cs ++ rest) = some (ds, r ++ rest) := by
  unfold readDigits at h ⊢
  rw [span_append hs]
  rcases hspan : cs.span isDigit with ⟨_ | ⟨d, ds⟩, t⟩
  · rw [hspan] at h
    cases h
  · rw [hspan] at h
    cases h
    rfl

theorem readWhole_append (h : readWhole cs = some (ds, r)) :
    readWhole (cs ++ rest) = some (ds, r ++ rest) := by
  cases cs with
  | nil => cases h
  | cons c t =>
    by_cases hz : c = '0'
    · subst hz
      cases h
      rfl
    · rw [readWhole_of_head (by simpa using hz)] at h ⊢
      exact readDigits_append hs h

theorem readFraction_append (h : readFraction cs = some (ds, r)) :
    readFraction (cs ++ rest) = some (ds, r ++ rest) := by
  cases cs with
  | nil =>
    cases h
    refine readFraction_of_head fun hpoint => ?_
    exact (hs _ hpoint).2.1 rfl
  | cons c t =>
    by_cases hpoint : c = '.'
    · subst hpoint
      exact readDigits_append hs h
    · rw [readFraction_of_head (by simpa using hpoint)] at h ⊢
      cases h
      rfl

theorem readPower_append {negative : Bool} {e : Int} (h : readPower negative cs = some (e, r)) :
    readPower negative (cs ++ rest) = some (e, r ++ rest) := by
  rw [readPower_eq, Option.map_eq_some_iff] at h
  obtain ⟨⟨ds, t⟩, hds, h⟩ := h
  cases h
  rw [readPower_eq, readDigits_append hs hds]
  rfl

theorem readSignedPower_append {e : Int} (h : readSignedPower cs = some (e, r)) :
    readSignedPower (cs ++ rest) = some (e, r ++ rest) := by
  cases cs with
  | nil => cases h
  | cons c t =>
    by_cases hplus : c = '+'
    · subst hplus
      exact readPower_append hs h
    · by_cases hminus : c = '-'
      · subst hminus
        exact readPower_append hs h
      · rw [readSignedPower_of_head (by simpa using hplus) (by simpa using hminus)] at h ⊢
        exact readPower_append hs h

theorem readExponent_append {e : Option Int}
    (h : readExponent cs = some (e, r)) : readExponent (cs ++ rest) = some (e, r ++ rest) := by
  cases cs with
  | nil =>
    cases h
    exact readExponent_of_head fun c hc => (hs c hc).2.2
  | cons c t =>
    by_cases hmark : c = 'e' ∨ c = 'E'
    · rw [readExponent_mark hmark, Option.map_eq_some_iff] at h
      obtain ⟨⟨p, u⟩, hp, h⟩ := h
      cases h
      rw [List.cons_append, readExponent_mark hmark, readSignedPower_append hs hp]
      rfl
    · rw [readExponent_of_head (by simpa using hmark)] at h ⊢
      cases h
      rfl

theorem readUnsigned_append {negative : Bool} {n : Numeral}
    (h : readUnsigned negative cs = some (n, r)) :
    readUnsigned negative (cs ++ rest) = some (n, r ++ rest) := by
  obtain ⟨⟨whole, t⟩, hwhole, h⟩ := Option.bind_eq_some_iff.mp h
  obtain ⟨⟨fraction, u⟩, hfraction, h⟩ := Option.bind_eq_some_iff.mp h
  obtain ⟨⟨exponent, v⟩, hexponent, h⟩ := Option.map_eq_some_iff.mp h
  cases h
  unfold readUnsigned
  rw [readWhole_append hs hwhole]
  simp only [Option.bind_some, readFraction_append hs hfraction, readExponent_append hs hexponent,
    Option.map_some]

theorem readNumeral_append {n : Numeral} (h : readNumeral cs = some (n, r)) :
    readNumeral (cs ++ rest) = some (n, r ++ rest) := by
  cases cs with
  | nil => cases h
  | cons c t =>
    by_cases hminus : c = '-'
    · subst hminus
      exact readUnsigned_append hs h
    · rw [readNumeral_of_head (by simpa using hminus)] at h ⊢
      exact readUnsigned_append hs h

end Append

/-- A text is a numeral and nothing else, and stands for a value. -/
def Denotes (cs : List Char) (j : Json) : Prop :=
  ∃ n, readNumeral cs = some (n, []) ∧ ofNumeral n = j

theorem readWhole_toDigits (n : Nat) :
    readWhole (Nat.toDigits 10 n) = some (Nat.toDigits 10 n, []) := by
  by_cases hz : (Nat.toDigits 10 n).head? = some '0'
  · obtain ⟨cs, hcs⟩ := List.head?_eq_some_iff.mp hz
    rw [head_toDigits_eq_zero (by decide) hcs, Nat.toDigits_zero]
    rfl
  · have hspan : (Nat.toDigits 10 n).span isDigit = (Nat.toDigits 10 n, []) := by
      rw [List.span_eq_takeWhile_dropWhile,
        List.takeWhile_eq_self_iff.mpr fun _ => isDigit_of_mem_toDigits,
        List.dropWhile_eq_nil_iff.mpr fun _ => isDigit_of_mem_toDigits]
    rw [readWhole_of_head hz, readDigits, hspan]
    cases hds : Nat.toDigits 10 n with
    | nil => exact absurd hds Nat.toDigits_ne_nil
    | cons d ds => rfl

theorem readUnsigned_toDigits (negative : Bool) (n : Nat) :
    readUnsigned negative (Nat.toDigits 10 n) =
      some (⟨negative, Nat.toDigits 10 n, [], 0, true⟩, []) := by
  rw [readUnsigned, readWhole_toDigits]
  rfl

theorem readNumeral_intText (i : Int) :
    readNumeral (intText i) = some (⟨i < 0, Nat.toDigits 10 i.natAbs, [], 0, true⟩, []) := by
  unfold intText
  split
  next h => rw [readNumeral_minus, readUnsigned_toDigits, decide_eq_true h]
  next h =>
    rw [readNumeral_of_head, readUnsigned_toDigits, decide_eq_false h]
    intro hminus
    have hdigit := isDigit_of_mem_toDigits (List.mem_of_mem_head? hminus)
    cases hdigit

def IntFits (i : Int) : Prop := -0x8000000000000000 ≤ i ∧ i < 0x10000000000000000

theorem denotes_intText {i : Int} (h : IntFits i) : Denotes (intText i) (.int i) := by
  refine ⟨_, readNumeral_intText i, ?_⟩
  obtain ⟨hlow, hhigh⟩ := h
  have hpow : Nat.pow 2 63 = 0x8000000000000000 := rfl
  have hsize : UInt64.size = 0x10000000000000000 := rfl
  have hint : Numeral.toInt? ⟨i < 0, Nat.toDigits 10 i.natAbs, [], 0, true⟩ = some i := by
    simp only [Numeral.toInt?, foldl_digitValue_toDigits, Bool.not_true, Bool.false_eq_true,
      if_false, decide_eq_true_eq, hpow, hsize]
    split
    · rw [if_neg (by omega)]
      congr 1
      omega
    · rw [if_neg (by omega)]
      congr 1
      omega
  rw [ofNumeral, hint]

/-- The text of a double is finite and read as that double. -/
def faithful (x : Float) : Bool :=
  x.isFinite && (readNumeral (floatText x)).any fun p =>
    p.1.toInt?.isNone && p.1.toFloat? = some x && p.2.isEmpty

theorem denotes_floatText {x : Float} (h : faithful x = true) :
    Denotes (if x.isFinite then floatText x else nullText) (.float x) := by
  simp only [faithful, Bool.and_eq_true, Option.any_eq_true] at h
  obtain ⟨hfinite, ⟨n, r⟩, hread, ⟨hint, hfloat⟩, hr⟩ := h
  obtain rfl : r = [] := List.isEmpty_iff.mp hr
  rw [if_pos hfinite]
  refine ⟨n, hread, ?_⟩
  rw [ofNumeral, Option.isNone_iff_eq_none.mp hint, of_decide_eq_true hfloat]

theorem Denotes.append {cs rest : List Char} {j : Json} (h : Denotes cs j) (hs : Stops rest) :
    ∃ n, readNumeral (cs ++ rest) = some (n, rest) ∧ ofNumeral n = j := by
  obtain ⟨n, hread, hj⟩ := h
  exact ⟨n, readNumeral_append hs hread, hj⟩

end Json

end TileGrammar
