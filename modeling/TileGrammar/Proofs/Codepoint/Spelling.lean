import TileGrammar.Error
import TileGrammar.Proofs.Text.Hexadecimal

/-!
# Which texts are codepoints

A text spells a number when it is the mark, at most one more plus mark, and
digits in base sixteen, in either case and with any zeros in front. The texts
that are read as codepoints are those that spell a word of 32 bits. A codepoint
is written in one way only, so writing what was read gives each number a text
of its own.
-/

set_option autoImplicit false

namespace TileGrammar.Codepoint

/-- The digits a number is shown with: large ones, at least four, and no zero in front of more. -/
structure Shows (ds : List Char) (n : Nat) : Prop where
  digits : ds ⊆ "0123456789ABCDEF".toList
  four : 4 ≤ ds.length
  plain : 4 < ds.length → ds.head? ≠ some '0'
  value : hexNumber ds = n

/-- The mark and a numeral of the number, which may have a plus mark of its own. -/
def Spells (s : String) (n : Nat) : Prop := ∃ cs, s = "U+" ++ String.ofList cs ∧ SpellsHex cs n

def Marked (s : String) : Prop := "U+".toList <+: s.toList

theorem toUpper_of_hexDigit : ∀ c ∈ hexDigits, c.toUpper ∈ "0123456789ABCDEF".toList :=
  forall_hexDigits (by decide)

theorem eq_zero_of_toUpper : ∀ c ∈ hexDigits, c.toUpper = '0' → c = '0' :=
  forall_hexDigits (by decide)

/-- Padding stops at four, and a number has no zero in front. -/
theorem shows_hexUpper (n : Nat) : Shows (hexUpper 4 n).toList n := by
  obtain ⟨-, hvalue⟩ := foldDigits_zero_hex_eq_some_iff.mp (foldDigits_hexUpper 4 n)
  have hlist : (hexUpper 4 n).toList =
      List.leftpad 4 '0' ((Nat.toDigits 16 n).map Char.toUpper) := by
    rw [hexUpper, String.toList_ofList]
  constructor
  · intro c hc
    rw [hlist, List.leftpad, List.mem_append] at hc
    rcases hc with hzero | hdigit
    · rw [List.eq_of_mem_replicate hzero]
      decide
    · obtain ⟨d, hd, rfl⟩ := List.mem_map.mp hdigit
      exact toUpper_of_hexDigit d (toDigits_subset_hexDigits n hd)
  · rw [hlist, List.length_leftpad]
    exact Nat.le_max_left _ _
  · intro hlong hhead
    -- More than four digits are not padded, so the zero is the first of the number's own.
    rw [hlist, List.length_leftpad, List.length_map] at hlong
    have hpad : 4 - (Nat.toDigits 16 n).length = 0 := by omega
    rw [hlist, List.leftpad, List.length_map, hpad, List.replicate_zero, List.nil_append,
      List.head?_map] at hhead
    obtain ⟨c, hc, hupper⟩ := Option.map_eq_some_iff.mp hhead
    obtain ⟨cs, hcs⟩ := List.head?_eq_some_iff.mp hc
    have hmem : c ∈ hexDigits := toDigits_subset_hexDigits n (by simp [hcs])
    rw [eq_zero_of_toUpper c hmem hupper] at hcs
    rw [head_toDigits_eq_zero (by decide) hcs, Nat.toDigits_zero] at hlong
    simp at hlong
  · exact hvalue

theorem marked_iff {s : String} : Marked s ↔ ∃ cs, s.toList = 'U' :: '+' :: cs := by
  constructor
  · rintro ⟨cs, hcs⟩
    exact ⟨cs, hcs.symm⟩
  · rintro ⟨cs, hcs⟩
    exact ⟨cs, hcs.symm⟩

theorem eq_marked_iff {s : String} {cs : List Char} :
    s = "U+" ++ String.ofList cs ↔ s.toList = 'U' :: '+' :: cs := by
  simp [← String.toList_inj]

theorem Spells.unique {s : String} {m n : Nat} (hm : Spells s m) (hn : Spells s n) : m = n := by
  obtain ⟨cs, hcs, hm⟩ := hm
  obtain ⟨ds, hds, hn⟩ := hn
  obtain rfl : cs = ds := by
    rw [eq_marked_iff] at hcs hds
    simpa [hcs] using hds
  exact hm.unique hn

theorem parse_of_unmarked {s : String} (h : ¬ Marked s) : parse s = .error .mark := by
  unfold parse
  split
  next cs hs => exact absurd (marked_iff.mpr ⟨cs, hs⟩) h
  next => rfl

theorem parse_of_marked {s : String} {cs : List Char} (h : s.toList = 'U' :: '+' :: cs) :
    parse s = match readHexWord? 32 cs with
      | some n => .ok ⟨UInt32.ofNat n⟩
      | none => .error .digits := by
  rw [parse, h]
  rfl

theorem parse_text (c : Codepoint) : parse c.text = .ok c := by
  have hread : readHexWord? 32 (hexUpper 4 c.value.toNat).toList = some c.value.toNat :=
    readHexWord?_eq_some (hexUpper_ne_nil _ _) (foldDigits_hexUpper _ _) c.value.toNat_lt
  have htext : c.text.toList = 'U' :: '+' :: (hexUpper 4 c.value.toNat).toList := by
    rw [text, String.toList_append]
    rfl
  rw [parse, htext]
  simp only [hread, UInt32.ofNat_toNat]

theorem parse_eq_ok_iff (s : String) (c : Codepoint) :
    parse s = .ok c ↔ Spells s c.value.toNat := by
  constructor
  · intro h
    by_cases hs : Marked s
    · obtain ⟨cs, hcs⟩ := marked_iff.mp hs
      rw [parse_of_marked hcs] at h
      split at h
      next n hn =>
        cases h
        obtain ⟨hspells, hlt⟩ := readHexWord?_eq_some_iff.mp hn
        have hvalue : (UInt32.ofNat n).toNat = n := UInt32.toNat_ofNat_of_lt' hlt
        rw [hvalue]
        exact ⟨cs, eq_marked_iff.mpr hcs, hspells⟩
      next => cases h
    · rw [parse_of_unmarked hs] at h
      cases h
  · rintro ⟨cs, hcs, hspells⟩
    have hn : readHexWord? 32 cs = some c.value.toNat :=
      readHexWord?_eq_some_iff.mpr ⟨hspells, c.value.toNat_lt⟩
    rw [parse_of_marked (eq_marked_iff.mp hcs), hn]
    simp only [UInt32.ofNat_toNat]

theorem exists_parse_iff (s : String) (n : Nat) :
    (∃ c, parse s = .ok c ∧ c.value.toNat = n) ↔ Spells s n ∧ n < 2 ^ 32 := by
  constructor
  · rintro ⟨c, hc, rfl⟩
    exact ⟨(parse_eq_ok_iff s c).mp hc, c.value.toNat_lt⟩
  · rintro ⟨hs, hn⟩
    have hvalue : (UInt32.ofNat n).toNat = n := UInt32.toNat_ofNat_of_lt' hn
    refine ⟨⟨UInt32.ofNat n⟩, (parse_eq_ok_iff s _).mpr ?_, hvalue⟩
    rw [hvalue]
    exact hs

theorem fault_eq_mark_iff {s : String} {fault : Fault} (h : parse s = .error fault) :
    fault = .mark ↔ ¬ Marked s := by
  by_cases hs : Marked s
  · obtain ⟨cs, hcs⟩ := marked_iff.mp hs
    rw [parse_of_marked hcs] at h
    split at h
    next => cases h
    next =>
      cases h
      simp [hs]
  · rw [parse_of_unmarked hs] at h
    cases h
    simp [hs]

theorem text_injective : Function.Injective text := by
  intro c d h
  have hc := parse_text c
  rw [h, parse_text] at hc
  exact (Except.ok.inj hc).symm

theorem exists_fault {s : String} (h : ¬ ∃ n < 2 ^ 32, Spells s n) :
    ∃ fault, parse s = .error fault := by
  cases hparse : parse s with
  | ok c =>
    obtain ⟨hspells, hlt⟩ := (exists_parse_iff s c.value.toNat).mp ⟨c, hparse, rfl⟩
    exact absurd ⟨_, hlt, hspells⟩ h
  | error fault => exact ⟨fault, rfl⟩

theorem text_eq_text_iff {s t : String} {c d : Codepoint} (hc : parse s = .ok c)
    (hd : parse t = .ok d) : c.text = d.text ↔ ∃ n, Spells s n ∧ Spells t n := by
  have hs := (parse_eq_ok_iff s c).mp hc
  have ht := (parse_eq_ok_iff t d).mp hd
  rw [text_injective.eq_iff]
  constructor
  · rintro rfl
    exact ⟨_, hs, ht⟩
  · rintro ⟨n, hsn, htn⟩
    have hvalue : c.value = d.value :=
      UInt32.toNat_inj.mp ((hs.unique hsn).trans (ht.unique htn).symm)
    exact congrArg Codepoint.mk hvalue

/-- A codepoint is written as its mark and four large digits or more, and is read back. What is read
are the texts that spell a word of 32 bits, whatever zeros stand in front and in either case; all
others are refused for their format. So two texts are written alike once they have been read exactly
when they spell one number. -/
theorem text_is_canonical :
    (∀ c : Codepoint, (∃ ds, c.text = "U+" ++ String.ofList ds ∧ Shows ds c.value.toNat) ∧
      parse c.text = .ok c) ∧
    (∀ (s : String) (n : Nat), (∃ c, parse s = .ok c ∧ c.value.toNat = n) ↔
      Spells s n ∧ n < 2 ^ 32) ∧
    (∀ s : String, (¬ ∃ n < 2 ^ 32, Spells s n) → ∃ fault, parse s = .error fault ∧
      (fault = .mark ↔ ¬ Marked s) ∧ (Error.ofCodepointFault s fault).kind = .format) ∧
    ∀ (s t : String) (c d : Codepoint), parse s = .ok c → parse t = .ok d →
      (c.text = d.text ↔ ∃ n, Spells s n ∧ Spells t n) := by
  refine ⟨fun c => ⟨⟨_, ?_, shows_hexUpper _⟩, parse_text c⟩, exists_parse_iff, fun s hs => ?_,
    fun s t c d => text_eq_text_iff⟩
  · rw [text, String.ofList_toList]
  · obtain ⟨fault, hfault⟩ := exists_fault hs
    refine ⟨fault, hfault, fault_eq_mark_iff hfault, ?_⟩
    cases fault <;> rfl

theorem text_is_canonical_padded :
    (∃ n, Spells "U++000e200" n ∧ Spells "U+E200" n) ∧
      ∃ fault, parse "U+100000000" = .error fault ∧
        (Error.ofCodepointFault "U+100000000" fault).kind = .format := by
  obtain ⟨-, hread, hrefused, hsame⟩ := text_is_canonical
  have hpadded : parse "U++000e200" = .ok ⟨0xE200⟩ := by decide
  have hplain : parse "U+E200" = .ok ⟨0xE200⟩ := by decide
  have hgreat : ¬ ∃ n < 2 ^ 32, Spells "U+100000000" n := by
    rintro ⟨n, hn, hspells⟩
    obtain ⟨c, hc, -⟩ := (hread _ n).mpr ⟨hspells, hn⟩
    have herror : parse "U+100000000" = .error .digits := by decide
    rw [hc] at herror
    cases herror
  refine ⟨(hsame _ _ _ _ hpadded hplain).mp rfl, ?_⟩
  obtain ⟨fault, hfault, -, hkind⟩ := hrefused _ hgreat
  exact ⟨fault, hfault, hkind⟩

example : parse "U++" = .error .digits ∧ parse "u+E200" = .error .mark := by decide

end TileGrammar.Codepoint
