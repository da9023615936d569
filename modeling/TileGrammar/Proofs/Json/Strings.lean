import TileGrammar.Json.Parser
import TileGrammar.Json.Printer

/-!
# Strings in JSON text

The reader of strings undoes the escapes of the writer, character by
character. A character is one unit, whatever its plane, and never half of a
pair, so the units of a written string join into the string again.
-/

set_option autoImplicit false

namespace TileGrammar.Json

theorem escapedChar_cases (c : Char) :
    (∃ e, escapedChar c = ['\\', e] ∧ e ≠ 'u' ∧ plainEscape? e = some c) ∨
    (c.toNat < 0x20 ∧ escapedChar c =
      ['\\', 'u', '0', '0', Nat.digitChar (c.toNat / 16), Nat.digitChar (c.toNat % 16)]) ∨
    (escapedChar c = [c] ∧ c ≠ '"' ∧ c ≠ '\\' ∧ 0x20 ≤ c.toNat) := by
  unfold escapedChar
  split
  next h => exact .inl ⟨'"', rfl, by decide, by rw [h]; rfl⟩
  next hmark =>
  split
  next h => exact .inl ⟨'\\', rfl, by decide, by rw [h]; rfl⟩
  next hslash =>
  split
  next h => exact .inl ⟨'n', rfl, by decide, by rw [h]; rfl⟩
  split
  next h => exact .inl ⟨'r', rfl, by decide, by rw [h]; rfl⟩
  split
  next h => exact .inl ⟨'t', rfl, by decide, by rw [h]; rfl⟩
  split
  next h => exact .inl ⟨'b', rfl, by decide, by rw [h]; rfl⟩
  split
  next h => exact .inl ⟨'f', rfl, by decide, by rw [h]; rfl⟩
  split
  next h => exact .inr (.inl ⟨h, rfl⟩)
  next h => exact .inr (.inr ⟨rfl, hmark, hslash, Nat.le_of_not_lt h⟩)

theorem readHex?_control : ∀ n < 0x20,
    readHex? ['0', '0', Nat.digitChar (n / 16), Nat.digitChar (n % 16)] = some n := by
  decide

theorem readUnits_escapedChar (c : Char) (rest : List Char) (units : List Nat) :
    readUnits (escapedChar c ++ rest) units = readUnits rest (c.toNat :: units) := by
  rcases escapedChar_cases c with ⟨e, he, hu, hc⟩ | ⟨hlt, he⟩ | ⟨he, hmark, hslash, hle⟩
  · rw [he, List.cons_append, List.singleton_append, readUnits, hc]
    rintro a b c d r rfl
    exact fun _ => hu rfl
  · rw [he]
    simp only [List.cons_append, List.nil_append, readUnits, readHex?_control _ hlt]
  · have hspace : ¬ c < ' ' := Nat.not_lt.mpr hle
    rw [he, List.singleton_append, readUnits, if_neg hspace]
    all_goals simp_all

theorem readUnits_escaped (cs rest : List Char) (units : List Nat) :
    readUnits (cs.foldr (fun c r => escapedChar c ++ r) ('"' :: rest)) units =
      some ((cs.map Char.toNat).reverse ++ units, rest) := by
  induction cs generalizing units with
  | nil => simp [readUnits]
  | cons c cs ih =>
    rw [List.foldr_cons, readUnits_escapedChar, ih]
    simp

theorem joinUnits_char (c : Char) (units : List Nat) (out : List Char) :
    joinUnits (c.toNat :: units) out = joinUnits units (c :: out) := by
  have hvalid : c.toNat < 0xD800 ∨ 0xDFFF < c.toNat ∧ c.toNat < 0x110000 := c.valid
  rw [joinUnits.eq_def]
  simp only
  rw [if_neg (by omega), if_neg (by omega), Char.ofNat_toNat]

theorem joinUnits_chars (cs : List Char) (units : List Nat) (out : List Char) :
    joinUnits ((cs.map Char.toNat).reverse ++ units) out = joinUnits units (cs ++ out) := by
  induction cs generalizing units with
  | nil => rfl
  | cons c cs ih =>
    rw [List.map_cons, List.reverse_cons, List.append_assoc, List.singleton_append, ih,
      joinUnits_char, List.cons_append]

/-- A written string is read back, and nothing after its closing mark is touched. -/
theorem readUnits_writeText (s : String) (rest : List Char) : ∃ body units,
    writeText s rest = '"' :: body ∧ readUnits body [] = some (units, rest) ∧
      textOfUnits units = some s := by
  refine ⟨_, _, rfl, readUnits_escaped s.toList rest [], ?_⟩
  rw [textOfUnits, joinUnits_chars]
  simp [joinUnits]

end TileGrammar.Json
