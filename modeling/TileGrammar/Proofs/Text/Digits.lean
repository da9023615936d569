import TileGrammar.Text.Basic

/-!
# Written numerals are read as their numbers

Whatever the base, and however a digit is written, as long as its reader takes
each written digit for what it stands for. Zeros in front change nothing.
-/

set_option autoImplicit false

namespace TileGrammar

section

variable {digit? : Char → Option Nat} {base : Nat}

theorem foldDigits_append (n : Nat) (cs ds : List Char) :
    foldDigits digit? base n (cs ++ ds) =
      (foldDigits digit? base n cs).bind fun m => foldDigits digit? base m ds := by
  induction cs generalizing n with
  | nil => rfl
  | cons c cs ih =>
    rw [List.cons_append, foldDigits, foldDigits]
    cases digit? c with
    | none => rfl
    | some d => exact ih (n * base + d)

theorem foldDigits_toDigits {write : Char → Char} (hb : 1 < base)
    (hd : ∀ d < base, digit? (write (Nat.digitChar d)) = some d) (n : Nat) :
    foldDigits digit? base 0 ((Nat.toDigits base n).map write) = some n := by
  induction n using Nat.strongRecOn with
  | ind n ih =>
    rcases Nat.lt_or_ge n base with h | h
    · simp [Nat.toDigits_of_lt_base h, foldDigits, hd n h]
    · have hlast := hd (n % base) (Nat.mod_lt n (by omega))
      rw [Nat.toDigits_of_base_le hb h, List.map_append, foldDigits_append,
        ih _ (Nat.div_lt_self (by omega) hb)]
      simp only [Option.bind_some, List.map_cons, List.map_nil, foldDigits, hlast,
        Nat.div_add_mod']

theorem foldDigits_zeros (hz : digit? '0' = some 0) (k : Nat) (cs : List Char) :
    foldDigits digit? base 0 (List.replicate k '0' ++ cs) = foldDigits digit? base 0 cs := by
  induction k with
  | zero => rfl
  | succ k ih =>
    rw [List.replicate_succ, List.cons_append, foldDigits, hz, Option.bind_some, Nat.zero_mul, ih]

end

theorem head_toDigits_eq_zero {base n : Nat} {cs : List Char} (hb : 1 < base)
    (h : Nat.toDigits base n = '0' :: cs) : n = 0 := by
  induction n using Nat.strongRecOn generalizing cs with
  | ind n ih =>
    rcases Nat.lt_or_ge n base with hlt | hge
    · rw [Nat.toDigits_of_lt_base hlt] at h
      simpa using (List.cons.inj h).1
    · rw [Nat.toDigits_of_base_le hb hge] at h
      obtain ⟨ds, hds⟩ : ∃ ds, Nat.toDigits base (n / base) = '0' :: ds := by
        cases hq : Nat.toDigits base (n / base) with
        | nil => exact absurd hq Nat.toDigits_ne_nil
        | cons d ds =>
          rw [hq] at h
          exact ⟨ds, by rw [(List.cons.inj h).1]⟩
      have hzero := ih (n / base) (Nat.div_lt_self (by omega) hb) hds
      have hpos := Nat.div_pos hge (by omega)
      omega

theorem readHexWord?_eq_some {bits n : Nat} {cs : List Char} (hne : cs ≠ [])
    (h : foldDigits hexDigit? 16 0 cs = some n) (hn : n < Nat.pow 2 bits) :
    readHexWord? bits cs = some n := by
  have hread : readHex? cs = some n := by
    cases cs with
    | nil => exact absurd rfl hne
    | cons c cs => exact h
  unfold readHexWord?
  split
  · cases h
  · simp only [hread, Option.filter_some, decide_eq_true hn, if_true]

theorem hexDigit?_digitChar : ∀ d < 16, hexDigit? (Nat.digitChar d) = some d := by decide

theorem foldDigits_hexLower (width n : Nat) :
    foldDigits hexDigit? 16 0 (hexLower width n).toList = some n := by
  have hdigits : foldDigits hexDigit? 16 0 ((Nat.toDigits 16 n).map id) = some n :=
    foldDigits_toDigits (by decide) hexDigit?_digitChar n
  rw [hexLower, String.toList_ofList, List.leftpad, foldDigits_zeros rfl, ← hdigits, List.map_id]

theorem hexLower_injective (width : Nat) : Function.Injective (hexLower width) := by
  intro m n h
  have hm := foldDigits_hexLower width m
  rw [h, foldDigits_hexLower] at hm
  exact (Option.some.inj hm).symm

theorem decimal_injective : Function.Injective decimal := by
  intro m n h
  have hdigits : Nat.toDigits 10 m = Nat.toDigits 10 n := String.ofList_injective h
  calc m = Nat.ofDigitChars 10 (Nat.toDigits 10 m) 0 := Nat.ofDigitChars_ten_toDigits.symm
    _ = Nat.ofDigitChars 10 (Nat.toDigits 10 n) 0 := by rw [hdigits]
    _ = n := Nat.ofDigitChars_ten_toDigits

theorem dot_notMem_decimal (n : Nat) : '.' ∉ (decimal n).toList := by
  intro h
  rw [decimal, String.toList_ofList] at h
  have hdigit : '.'.isDigit = true := Nat.isDigit_of_mem_toDigits (by decide) (by decide) h
  exact absurd hdigit (by decide)

theorem length_hexLower {width n : Nat} (hw : 0 < width) (h : n < Nat.pow 16 width) :
    (hexLower width n).toList.length = width := by
  rw [hexLower, String.toList_ofList, List.length_leftpad]
  exact Nat.max_eq_left ((Nat.length_toDigits_le_iff (by decide) hw).mpr h)

theorem hexDigit?_toUpper : ∀ d < 16, hexDigit? (Nat.digitChar d).toUpper = some d := by decide

theorem foldDigits_hexUpper (width n : Nat) :
    foldDigits hexDigit? 16 0 (hexUpper width n).toList = some n := by
  rw [hexUpper, String.toList_ofList, List.leftpad, foldDigits_zeros rfl,
    foldDigits_toDigits (by decide) hexDigit?_toUpper]

theorem hexUpper_ne_nil (width n : Nat) : (hexUpper width n).toList ≠ [] := by
  simp [hexUpper, List.leftpad, Nat.toDigits_ne_nil]

end TileGrammar
