import Mathlib.Data.List.TakeDrop
import Mathlib.Data.List.TakeWhile
import TileGrammar.Proofs.Text.Parts
import TileGrammar.Proofs.Version.Numerals

/-!
# How a version is spelled

Three numbers without zeros in front, joined by dots, then a hyphen and the
identifiers of the pre-release, then a plus and those of the build. Identifiers
are letters, digits and hyphens, at least one; a numeral of a pre-release has
no zeros in front either. The reader takes exactly these texts, as far as the
numbers have 64 bits, and each for the one version that it spells.
-/

set_option autoImplicit false

namespace TileGrammar.Version

def IsIdentifier (i : List Char) : Prop := i ≠ [] ∧ ∀ c ∈ i, isIdentifierChar c = true

def IsPreIdentifier (i : List Char) : Prop :=
  IsIdentifier i ∧ (isNumeric i = true → isPlainNumeral i = true)

/-- What semantic versioning asks of a version. -/
structure Lawful (v : Version) : Prop where
  pre : ∀ i ∈ v.pre, IsPreIdentifier i
  build : ∀ i ∈ v.build, IsIdentifier i

structure Fits (v : Version) : Prop where
  major : v.major < UInt64.size
  minor : v.minor < UInt64.size
  patch : v.patch < UInt64.size

def marked (mark : Char) : List (List Char) → List Char
  | [] => []
  | is => mark :: ['.'].intercalate is

def chars (v : Version) : List Char :=
  Nat.toDigits 10 v.major ++ '.' :: (Nat.toDigits 10 v.minor ++ '.' ::
    (Nat.toDigits 10 v.patch ++ (marked '-' v.pre ++ marked '+' v.build)))

def text (v : Version) : String := String.ofList v.chars

section Reader

variable {n : Nat} {c : Char} {cs rest : List Char} {is : List (List Char)}

theorem span_append_of_head {p : Char → Bool} (hcs : ∀ c ∈ cs, p c = true)
    (hrest : ∀ c ∈ rest.head?, p c = false) : (cs ++ rest).span p = (cs, rest) := by
  rw [List.span_eq_takeWhile_dropWhile, List.takeWhile_append_of_pos hcs,
    List.dropWhile_append_of_pos hcs]
  cases rest with
  | nil => simp
  | cons d rest => simp [hrest d rfl]

theorem of_span {p : Char → Bool} {ds : List Char} (h : cs.span p = (ds, rest)) :
    cs = ds ++ rest ∧ ∀ c ∈ ds, p c = true := by
  rw [List.span_eq_takeWhile_dropWhile] at h
  obtain ⟨rfl, rfl⟩ := Prod.mk.inj h
  exact ⟨List.takeWhile_append_dropWhile.symm, fun c => List.mem_takeWhile_imp⟩

theorem of_readNumber (h : readNumber cs = some (n, rest)) :
    cs = Nat.toDigits 10 n ++ rest ∧ n < UInt64.size := by
  unfold readNumber at h
  rcases hspan : cs.span isDigitChar with ⟨ds, r⟩
  obtain ⟨rfl, hdigits⟩ := of_span hspan
  have hnumeric : isNumeric ds = true := List.all_eq_true.mpr hdigits
  simp only [hspan] at h
  split at h
  next hplain =>
    obtain ⟨m, hm, he⟩ := Option.map_eq_some_iff.mp h
    obtain ⟨rfl, rfl⟩ := Prod.mk.inj he
    obtain ⟨hread, hsize⟩ := Option.filter_eq_some_iff.mp hm
    obtain ⟨hne, rfl⟩ := (readDecimal?_eq_some_iff hnumeric).mp hread
    exact ⟨by rw [toDigits_numberOf hne hnumeric hplain], of_decide_eq_true hsize⟩
  next => cases h

theorem readNumber_append (hn : n < UInt64.size)
    (hrest : ∀ c ∈ rest.head?, isDigitChar c = false) :
    readNumber (Nat.toDigits 10 n ++ rest) = some (n, rest) := by
  have hread : readDecimal? (Nat.toDigits 10 n) = some n :=
    (readDecimal?_eq_some_iff (isNumeric_toDigits n)).mpr
      ⟨Nat.toDigits_ne_nil, numberOf_toDigits n⟩
  unfold readNumber
  rw [span_append_of_head (fun c => isDigitChar_of_mem_toDigits) hrest]
  simp only [isPlainNumeral_toDigits, hread, if_true, Option.filter_some, decide_eq_true hn,
    Option.map_some]

theorem expect_eq_some_iff : expect c cs = some rest ↔ cs = c :: rest := by
  cases cs with
  | nil => simp [expect]
  | cons d cs =>
    by_cases h : d = c <;> simp [expect, h]

def isIdentifierText (c : Char) : Bool := isIdentifierChar c || c = '.'

theorem readIdentifiers_eq (cs : List Char) : readIdentifiers cs =
    if (splitAtChar '.' (cs.span isIdentifierText).1).any List.isEmpty then none
    else some (splitAtChar '.' (cs.span isIdentifierText).1, (cs.span isIdentifierText).2) := rfl

theorem of_readIdentifiers (h : readIdentifiers cs = some (is, rest)) :
    cs = ['.'].intercalate is ++ rest ∧ is ≠ [] ∧ ∀ i ∈ is, IsIdentifier i := by
  rcases hspan : cs.span isIdentifierText with ⟨body, r⟩
  obtain ⟨rfl, hbody⟩ := of_span hspan
  rw [readIdentifiers_eq, hspan] at h
  split at h
  next => cases h
  next hany =>
    obtain ⟨rfl, rfl⟩ := Prod.mk.inj (Option.some.inj h)
    refine ⟨by rw [intercalate_splitAtChar], splitAtChar_ne_nil '.' body, fun i hi => ?_⟩
    refine ⟨fun hnil => hany (List.any_eq_true.mpr ⟨i, hi, by rw [hnil]; rfl⟩), fun c hc => ?_⟩
    obtain ⟨hin, hdot⟩ := mem_splitAtChar hi hc
    simpa [isIdentifierText, hdot] using hbody c hin

theorem IsIdentifier.dot_notMem {i : List Char} (h : IsIdentifier i) : '.' ∉ i := fun hdot =>
  absurd (h.2 '.' hdot) (by decide)

theorem splitAtChar_identifiers (hne : is ≠ []) (h : ∀ i ∈ is, IsIdentifier i) :
    splitAtChar '.' (['.'].intercalate is) = is := by
  rw [splitAtChar_intercalate '.' hne, List.flatMap_congr fun i hi =>
    splitAtChar_of_notMem (h i hi).dot_notMem, List.flatMap_singleton']

theorem readIdentifiers_append (hne : is ≠ []) (h : ∀ i ∈ is, IsIdentifier i)
    (hrest : ∀ c ∈ rest.head?, isIdentifierText c = false) :
    readIdentifiers (['.'].intercalate is ++ rest) = some (is, rest) := by
  have hbody : ∀ c ∈ ['.'].intercalate is, isIdentifierText c = true := by
    intro c hc
    rcases mem_intercalate hc with hdot | ⟨i, hi, hci⟩
    · rw [List.mem_singleton.mp hdot]
      decide
    · rw [isIdentifierText, (h i hi).2 c hci, Bool.true_or]
  have hfull : is.any List.isEmpty = false := by
    refine List.any_eq_false.mpr fun i hi => ?_
    simpa using (h i hi).1
  rw [readIdentifiers_eq, span_append_of_head hbody hrest, splitAtChar_identifiers hne h, hfull]
  rfl

theorem marked_of_ne_nil (mark : Char) (hne : is ≠ []) :
    marked mark is = mark :: ['.'].intercalate is := by
  cases is with
  | nil => exact absurd rfl hne
  | cons i is => rfl

theorem head_marked {mark : Char} (h : c ∈ (marked mark is).head?) : c = mark := by
  cases is with
  | nil => cases h
  | cons i is => exact (Option.some.inj h).symm

theorem of_readPre (h : readPre cs = some (is, rest)) :
    cs = marked '-' is ++ rest ∧ ∀ i ∈ is, IsPreIdentifier i := by
  unfold readPre at h
  split at h
  next cs =>
    obtain ⟨hread, hplain⟩ := Option.filter_eq_some_iff.mp h
    obtain ⟨rfl, hne, hall⟩ := of_readIdentifiers hread
    refine ⟨by rw [marked_of_ne_nil '-' hne]; rfl, fun i hi => ⟨hall i hi, fun hnumeric => ?_⟩⟩
    simpa [hnumeric] using List.all_eq_true.mp hplain i hi
  next =>
    obtain ⟨rfl, rfl⟩ := Prod.mk.inj (Option.some.inj h)
    exact ⟨rfl, nofun⟩

theorem readPre_append (h : ∀ i ∈ is, IsPreIdentifier i)
    (hrest : ∀ c ∈ rest.head?, isIdentifierText c = false) :
    readPre (marked '-' is ++ rest) = some (is, rest) := by
  by_cases hne : is = []
  · subst hne
    have hmark : ∀ cs, rest ≠ '-' :: cs := by
      rintro cs rfl
      exact absurd (hrest '-' rfl) (by decide)
    rw [marked, List.nil_append, readPre]
    exact hmark
  · have hplain : is.all (fun i => !isNumeric i || isPlainNumeral i) = true := by
      refine List.all_eq_true.mpr fun i hi => ?_
      cases hnumeric : isNumeric i with
      | false => rfl
      | true => exact (h i hi).2 hnumeric
    rw [marked_of_ne_nil '-' hne, List.cons_append, readPre,
      readIdentifiers_append hne (fun i hi => (h i hi).1) hrest, Option.filter_some, if_pos hplain]

theorem of_readBuild (h : readBuild cs = some (is, rest)) :
    cs = marked '+' is ++ rest ∧ ∀ i ∈ is, IsIdentifier i := by
  unfold readBuild at h
  split at h
  next cs =>
    obtain ⟨rfl, hne, hall⟩ := of_readIdentifiers h
    exact ⟨by rw [marked_of_ne_nil '+' hne]; rfl, hall⟩
  next =>
    obtain ⟨rfl, rfl⟩ := Prod.mk.inj (Option.some.inj h)
    exact ⟨rfl, nofun⟩

theorem readBuild_marked (h : ∀ i ∈ is, IsIdentifier i) :
    readBuild (marked '+' is) = some (is, []) := by
  by_cases hne : is = []
  · subst hne
    rfl
  · have hread : readIdentifiers (['.'].intercalate is ++ []) = some (is, []) :=
      readIdentifiers_append hne h nofun
    rw [List.append_nil] at hread
    rw [marked_of_ne_nil '+' hne, readBuild, hread]

end Reader

theorem isIdentifierText_head_build {build : List (List Char)} {c : Char}
    (h : c ∈ (marked '+' build).head?) : isIdentifierText c = false := by
  rw [head_marked h]
  decide

theorem isDigitChar_head_suffix {pre build : List (List Char)} {c : Char}
    (h : c ∈ (marked '-' pre ++ marked '+' build).head?) : isDigitChar c = false := by
  cases pre with
  | nil =>
    rw [head_marked h]
    decide
  | cons i is =>
    rw [← Option.some.inj h]
    decide

/-- A version is spelled by a text. -/
structure Spells (v : Version) (s : String) : Prop where
  lawful : v.Lawful
  fits : v.Fits
  text : v.text = s

/-- The texts that are read as versions are those that spell one. -/
theorem ofText?_eq_some_iff (s : String) (v : Version) : ofText? s = some v ↔ v.Spells s := by
  constructor
  · intro h
    simp only [ofText?, Option.bind_eq_bind, Option.bind_eq_some_iff] at h
    obtain ⟨⟨major, cs₁⟩, hmajor, cs₂, hdot, ⟨minor, cs₃⟩, hminor, cs₄, hdot', ⟨patch, cs₅⟩, hpatch,
      ⟨pre, cs₆⟩, hpre, ⟨build, cs₇⟩, hbuild, hend⟩ := h
    obtain ⟨htext, hmajorFits⟩ := of_readNumber hmajor
    obtain rfl := expect_eq_some_iff.mp hdot
    obtain ⟨rfl, hminorFits⟩ := of_readNumber hminor
    obtain rfl := expect_eq_some_iff.mp hdot'
    obtain ⟨rfl, hpatchFits⟩ := of_readNumber hpatch
    obtain ⟨rfl, hpreLawful⟩ := of_readPre hpre
    obtain ⟨rfl, hbuildLawful⟩ := of_readBuild hbuild
    split at hend
    next hempty =>
      obtain rfl := Option.some.inj hend
      obtain rfl : cs₇ = [] := List.isEmpty_iff.mp hempty
      rw [List.append_nil] at htext
      refine ⟨⟨hpreLawful, hbuildLawful⟩, ⟨hmajorFits, hminorFits, hpatchFits⟩, ?_⟩
      apply String.toList_inj.mp
      rw [Version.text, String.toList_ofList, htext]
      rfl
    next => cases hend
  · rintro ⟨hlawful, hfits, rfl⟩
    have hdot : ∀ cs : List Char, ∀ c ∈ ('.' :: cs).head?, isDigitChar c = false := by
      rintro cs _ ⟨⟩
      decide
    have hexpect : ∀ cs : List Char, expect '.' ('.' :: cs) = some cs := fun _ =>
      expect_eq_some_iff.mpr rfl
    have hpatch := readNumber_append hfits.patch fun _ => @isDigitChar_head_suffix v.pre v.build _
    have hpre := readPre_append hlawful.pre fun _ => @isIdentifierText_head_build v.build _
    simp only [ofText?, Version.text, String.toList_ofList, chars, Option.bind_eq_bind, hexpect,
      readNumber_append hfits.major (hdot _), readNumber_append hfits.minor (hdot _), hpatch, hpre,
      readBuild_marked hlawful.build, Option.bind_some]
    rfl

theorem Spells.unique {s : String} {v w : Version} (hv : v.Spells s) (hw : w.Spells s) : v = w :=
  Option.some.inj (((ofText?_eq_some_iff s v).mpr hv).symm.trans ((ofText?_eq_some_iff s w).mpr hw))

end TileGrammar.Version
