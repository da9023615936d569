import TileGrammar.Proofs.Version.Spelling

/-!
# Precedence of versions

Precedence looks at the three numbers, then at the pre-release: a version with
one comes before the version without, and two of them go by the first
identifier that differs, numerals by their number and in front of all others.
It does not look at the build. The total order agrees with it and goes on to
the build where precedence sees no difference.
-/

set_option autoImplicit false

namespace TileGrammar.Version

inductive IdentifierLt : List Char → List Char → Prop
  | byNumber {i j : List Char} (hi : isNumeric i = true) (hj : isNumeric j = true)
      (h : numberOf i < numberOf j) : IdentifierLt i j
  | numberFirst {i j : List Char} (hi : isNumeric i = true) (hj : isNumeric j = false) :
      IdentifierLt i j
  | byLetters {i j : List Char} (hi : isNumeric i = false) (hj : isNumeric j = false)
      (h : List.Lex (· < ·) i j) : IdentifierLt i j

/-- Pre-releases in order, where a list without identifiers stands for the release. -/
inductive PreLt : List (List Char) → List (List Char) → Prop
  | release {i : List Char} {is : List (List Char)} : PreLt (i :: is) []
  | identifiers {i j : List Char} {is js : List (List Char)}
      (h : List.Lex IdentifierLt (i :: is) (j :: js)) : PreLt (i :: is) (j :: js)

/-- The second version has the greater precedence. -/
inductive Precedes (a b : Version) : Prop
  | major (h : a.major < b.major)
  | minor (hmajor : a.major = b.major) (h : a.minor < b.minor)
  | patch (hmajor : a.major = b.major) (hminor : a.minor = b.minor) (h : a.patch < b.patch)
  | pre (hmajor : a.major = b.major) (hminor : a.minor = b.minor) (hpatch : a.patch = b.patch)
      (h : PreLt a.pre b.pre)

structure Level (a b : Version) : Prop where
  major : a.major = b.major
  minor : a.minor = b.minor
  patch : a.patch = b.patch
  pre : a.pre = b.pre

theorem not_precedes_of_release {a b : Version} (hmajor : a.major = b.major)
    (hminor : a.minor = b.minor) (hpatch : a.patch = b.patch) (hrelease : a.pre = []) :
    ¬ a.Precedes b := by
  intro h
  cases h with
  | major h => exact Nat.ne_of_lt h hmajor
  | minor _ h => exact Nat.ne_of_lt h hminor
  | patch _ _ h => exact Nat.ne_of_lt h hpatch
  | pre _ _ _ h =>
    rw [hrelease] at h
    cases h

section Identifiers

variable {i j : List Char}

theorem IsPreIdentifier.toDigits (h : IsPreIdentifier i) (hi : isNumeric i = true) :
    Nat.toDigits 10 (numberOf i) = i := toDigits_numberOf h.1.1 hi (h.2 hi)

theorem compareIdentifiers_eq_lt_iff (hi : IsPreIdentifier i) (hj : IsPreIdentifier j) :
    compareIdentifiers compareNumerals i j = .lt ↔ IdentifierLt i j := by
  unfold compareIdentifiers
  split
  next hin hjn =>
    have hnumbers : compareNumerals i j = .lt ↔ numberOf i < numberOf j := by
      rw [← compareNumerals_toDigits_eq_lt_iff, hi.toDigits hin, hj.toDigits hjn]
    rw [hnumbers]
    refine ⟨.byNumber hin hjn, fun h => ?_⟩
    cases h <;> simp_all
  next hin hjn => exact iff_of_true rfl (.numberFirst hin hjn)
  next hin hjn =>
    refine iff_of_false (by decide) fun h => ?_
    cases h <;> simp_all
  next hin hjn =>
    rw [compareText_eq_lt_iff]
    refine ⟨.byLetters hin hjn, fun h => ?_⟩
    cases h <;> simp_all

theorem compareIdentifiers_eq_eq_iff :
    compareIdentifiers compareNumerals i j = .eq ↔ i = j := by
  unfold compareIdentifiers
  split
  next => exact compareNumerals_eq_eq_iff i j
  next hin hjn =>
    refine iff_of_false (by decide) ?_
    rintro rfl
    rw [hin] at hjn
    cases hjn
  next hin hjn =>
    refine iff_of_false (by decide) ?_
    rintro rfl
    rw [hin] at hjn
    cases hjn
  next => exact compareText_eq_eq_iff i j

end Identifiers

section Lists

variable {is js : List (List Char)}

theorem compareLists_eq_lt_iff (hi : ∀ i ∈ is, IsPreIdentifier i)
    (hj : ∀ j ∈ js, IsPreIdentifier j) :
    compareLists (compareIdentifiers compareNumerals) is js = .lt ↔
      List.Lex IdentifierLt is js := by
  induction is generalizing js with
  | nil =>
    cases js with
    | nil => exact iff_of_false (by decide) List.not_lex_nil
    | cons j js => exact iff_of_true rfl .nil
  | cons i is ih =>
    cases js with
    | nil => exact iff_of_false nofun List.not_lex_nil
    | cons j js =>
      obtain ⟨hi, his⟩ := List.forall_mem_cons.mp hi
      obtain ⟨hj, hjs⟩ := List.forall_mem_cons.mp hj
      rw [compareLists, Ordering.then_eq_lt, compareIdentifiers_eq_lt_iff hi hj,
        compareIdentifiers_eq_eq_iff, ih his hjs, List.cons_lex_cons_iff]

theorem compareLists_eq_eq_iff :
    compareLists (compareIdentifiers compareNumerals) is js = .eq ↔ is = js := by
  induction is generalizing js with
  | nil => cases js <;> simp [compareLists]
  | cons i is ih =>
    cases js with
    | nil => simp [compareLists]
    | cons j js =>
      rw [compareLists, Ordering.then_eq_eq, compareIdentifiers_eq_eq_iff, ih, List.cons.injEq]

theorem comparePre_eq_lt_iff (hi : ∀ i ∈ is, IsPreIdentifier i)
    (hj : ∀ j ∈ js, IsPreIdentifier j) : comparePre is js = .lt ↔ PreLt is js := by
  rcases is with _ | ⟨i, is⟩ <;> rcases js with _ | ⟨j, js⟩
  · exact iff_of_false (by decide) nofun
  · exact iff_of_false (by simp [comparePre]) nofun
  · exact iff_of_true rfl .release
  · rw [comparePre, compareLists_eq_lt_iff hi hj]
    · refine ⟨.identifiers, fun h => ?_⟩
      cases h with
      | identifiers h => exact h
    · simp
    · simp
    · simp

theorem comparePre_eq_eq_iff : comparePre is js = .eq ↔ is = js := by
  rcases is with _ | ⟨i, is⟩ <;> rcases js with _ | ⟨j, js⟩
  · simp [comparePre]
  · simp [comparePre]
  · simp [comparePre]
  · rw [comparePre, compareLists_eq_eq_iff]
    · simp
    · simp
    · simp

end Lists

/-- The total order looks at the build where precedence sees no difference. -/
theorem compareTotal_eq_lt_iff {a b : Version} (ha : a.Lawful) (hb : b.Lawful) :
    a.compareTotal b = .lt ↔
      a.Precedes b ∨ a.Level b ∧ compareBuild a.build b.build = .lt := by
  simp only [compareTotal, Ordering.then_eq_lt, Nat.compare_eq_lt, Nat.compare_eq_eq,
    comparePre_eq_lt_iff ha.pre hb.pre, comparePre_eq_eq_iff]
  constructor
  · rintro (h | ⟨hmajor, h | ⟨hminor, h | ⟨hpatch, h | ⟨hpre, h⟩⟩⟩⟩)
    · exact .inl (.major h)
    · exact .inl (.minor hmajor h)
    · exact .inl (.patch hmajor hminor h)
    · exact .inl (.pre hmajor hminor hpatch h)
    · exact .inr ⟨⟨hmajor, hminor, hpatch, hpre⟩, h⟩
  · rintro (h | ⟨h, hbuild⟩)
    · cases h with
      | major h => exact .inl h
      | minor hmajor h => exact .inr ⟨hmajor, .inl h⟩
      | patch hmajor hminor h => exact .inr ⟨hmajor, .inr ⟨hminor, .inl h⟩⟩
      | pre hmajor hminor hpatch h =>
        exact .inr ⟨hmajor, .inr ⟨hminor, .inr ⟨hpatch, .inl h⟩⟩⟩
    · exact .inr ⟨h.major, .inr ⟨h.minor, .inr ⟨h.patch, .inr ⟨h.pre, hbuild⟩⟩⟩⟩

theorem compareIdentifiers_nil_eq_lt {i : List Char} (h : i ≠ []) :
    compareIdentifiers comparePadded [] i = .lt := by
  have hnil : isNumeric [] = true := rfl
  rw [compareIdentifiers, hnil]
  cases hi : isNumeric i with
  | false => rfl
  | true =>
    have hlength : compare 0 i.length = .lt :=
      Nat.compare_eq_lt.mpr (List.length_pos_iff.mpr h)
    show ((compare 0 (i.dropWhile (· = '0')).length).then
      (compareText [] (i.dropWhile (· = '0')))).then (compare 0 i.length) = .lt
    rcases hzeros : i.dropWhile (· = '0') with _ | ⟨c, cs⟩
    · rw [hlength]
      rfl
    · have hfirst : compare 0 (c :: cs).length = .lt := Nat.compare_eq_lt.mpr (Nat.succ_pos _)
      rw [hfirst]
      rfl

theorem compareBuild_nil_eq_lt_iff {build : List (List Char)} (h : ∀ i ∈ build, IsIdentifier i) :
    compareBuild [] build = .lt ↔ build ≠ [] := by
  cases build with
  | nil => exact iff_of_false (by decide) (fun hne => hne rfl)
  | cons i is =>
    refine iff_of_true ?_ (List.cons_ne_nil i is)
    have hfirst := compareIdentifiers_nil_eq_lt (h i List.mem_cons_self).1
    show (compareIdentifiers comparePadded [] i).then _ = .lt
    rw [hfirst]
    rfl

end TileGrammar.Version
