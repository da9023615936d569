import TileGrammar.Grammar.Prompt
import TileGrammar.Proofs.Compiler.InPlace
import TileGrammar.Proofs.Glyph.DottedId
import TileGrammar.Proofs.Grammar.Orbit

/-!
# Where the words of the dials are looked up

A glyph asks for the words of damage and age, a prompt for those of damage,
lighting and age. A look-up fails where a dial stands beyond its words, and
only there. A compiler checks its grammar before it asks, and the dials of a
family are set by a spec whose counts were checked, whatever dials its base
has. A prompt is made of a grammar as it is.
-/

set_option autoImplicit false

namespace TileGrammar

namespace Dial

def usual : Dial → Nat
  | .lighting => 1
  | _ => 0

/-- Does a dial that stands here have a word, if it has words at all? -/
def HasWord (d : Dial) (n : Nat) : Prop := d = .moisture ∨ n < d.words.length

def remark (d : Dial) (n : Nat) : List String :=
  if n = d.usual then []
  else if d = .moisture then ["wet/damp"]
  else d.words[n]?.toList.map fun w => d.name ++ "=" ++ w

theorem hasWord_of_le_limit {d : Dial} {n : Nat} (h : n ≤ d.limit) : d.HasWord n := by
  cases d with
  | moisture => exact .inl rfl
  | damage | lighting | age => exact .inr (Nat.lt_succ_of_le h)

theorem word_of_lt {d : Dial} {n : Nat} (h : n < d.words.length) :
    ∃ w, d.words[n]? = some w ∧ orFail .outOfRange d.words[n]? = .ok w :=
  ⟨_, List.getElem?_eq_getElem h, orFail_eq_ok_iff.mpr (List.getElem?_eq_getElem h)⟩

theorem word_of_le {d : Dial} {n : Nat} (h : d.words.length ≤ n) :
    orFail .outOfRange d.words[n]? = .error .outOfRange :=
  orFail_eq_error_iff.mpr (List.getElem?_eq_none h)

end Dial

namespace Derivation

theorem wordAt_of_lt {d : Dial} {n : UInt8} (h : n.toNat < d.words.length) :
    wordAt d n = .ok (d.wordUp n.toNat) := by
  obtain ⟨w, hw⟩ := wordAt_ok h
  rw [hw, wordAt_eq_ok hw]

theorem wordAt_of_le {d : Dial} {n : UInt8} (hd : d.words ≠ []) (h : d.words.length ≤ n.toNat) :
    wordAt d n = .error .outOfRange := by
  have hpos : 0 < n.toNat := Nat.lt_of_lt_of_le (List.length_pos_iff.mpr hd) h
  have hne : n ≠ 0 := by
    rintro rfl
    exact absurd hpos (by decide)
  rw [wordAt, if_neg hne, Dial.word_of_le h]
  rfl

def wordsUp (g : Grammar) : Words :=
  ⟨Dial.damage.wordUp g.damage.toNat, g.moisture ≠ 0, Dial.age.wordUp g.age.toNat⟩

theorem words_eq (g : Grammar) : words g =
    if g.damage.toNat ≤ 3 ∧ g.age.toNat ≤ 2 then .ok (wordsUp g) else .error .outOfRange := by
  unfold words
  rcases Nat.lt_or_ge 3 g.damage.toNat with hd | hd
  · have hbeyond : ¬ (g.damage.toNat ≤ 3 ∧ g.age.toNat ≤ 2) := by omega
    rw [wordAt_of_le (d := .damage) (by decide) hd, if_neg hbeyond]
    rfl
  · rw [wordAt_of_lt (d := .damage) (Nat.lt_succ_of_le hd)]
    rcases Nat.lt_or_ge 2 g.age.toNat with ha | ha
    · have hbeyond : ¬ (g.damage.toNat ≤ 3 ∧ g.age.toNat ≤ 2) := by omega
      rw [wordAt_of_le (d := .age) (by decide) ha, if_neg hbeyond]
      rfl
    · rw [wordAt_of_lt (d := .age) (Nat.lt_succ_of_le ha), if_pos ⟨hd, ha⟩]
      rfl

theorem glyph_eq_error_iff (g : Grammar) (k : Category) (p : Codepoint) (char : Option Char) :
    glyph g k p char = .error .outOfRange ↔ 3 < g.damage.toNat ∨ 2 < g.age.toNat := by
  unfold glyph
  rw [words_eq]
  split
  next h =>
    simp only [bind, Except.bind]
    constructor
    · nofun
    · omega
  next h =>
    simp only [bind, Except.bind, true_iff]
    omega

/-- The texts of a glyph are made with the words that are turned up. -/
structure Texts (y : Glyph) (g : Grammar) (k : Category) : Prop where
  id : y.id = dottedId g k (wordsUp g)
  name : y.name = title g (wordsUp g)
  tags : y.tags = tagList g
  narrative : y.narrative = narrative g k (wordsUp g)
  appraisal : y.appraisal = appraisal g k (wordsUp g)

theorem glyph_texts {g : Grammar} {k : Category} {p : Codepoint} {char : Option Char} {y : Glyph}
    (h : glyph g k p char = .ok y) : Texts y g k := by
  obtain ⟨w, hw, hy⟩ := bind_eq_ok h
  rw [words_eq] at hw
  split at hw
  · cases hw
    cases hy
    exact ⟨rfl, rfl, rfl, rfl, rfl⟩
  · cases hw

end Derivation

namespace Grammar

def Worded (g : Grammar) : Prop := ∀ d : Dial, d.HasWord (g.dial d).toNat

theorem worded_iff (g : Grammar) :
    g.Worded ↔ g.damage.toNat ≤ 3 ∧ g.lighting.toNat ≤ 2 ∧ g.age.toNat ≤ 2 := by
  constructor
  · intro h
    have hword : ∀ d : Dial, d ≠ .moisture → (g.dial d).toNat < d.words.length :=
      fun d hd => (h d).resolve_left hd
    exact ⟨Nat.le_of_lt_succ (hword .damage nofun), Nat.le_of_lt_succ (hword .lighting nofun),
      Nat.le_of_lt_succ (hword .age nofun)⟩
  · rintro ⟨hdamage, hlighting, hage⟩ d
    cases d with
    | damage => exact .inr (Nat.lt_succ_of_le hdamage)
    | lighting => exact .inr (Nat.lt_succ_of_le hlighting)
    | moisture => exact .inl rfl
    | age => exact .inr (Nat.lt_succ_of_le hage)

theorem worded_of_check {g : Grammar} (h : g.check = .ok ()) : g.Worded := by
  obtain ⟨-, -, hdials⟩ := g.check_eq_ok_iff.mp h
  exact fun d => Dial.hasWord_of_le_limit (hdials d)

def remarks (g : Grammar) : List String := Dial.all.flatMap fun d => d.remark (g.dial d).toNat

end Grammar

namespace Prompt

theorem dialText_eq {g : Grammar} {d : Dial} (h : d ≠ .moisture) : dialText g d =
    if (g.dial d).toNat = d.usual then .ok []
    else (word d (g.dial d)).map fun w => [d.name ++ "=" ++ w] := by
  have hzero : ∀ n : UInt8, n = 0 ↔ n.toNat = 0 := fun _ => UInt8.toNat_inj.symm
  have hone : ∀ n : UInt8, n = 1 ↔ n.toNat = 1 := fun _ => UInt8.toNat_inj.symm
  cases d with
  | moisture => exact absurd rfl h
  | damage => simp only [dialText, Grammar.dial, Dial.usual, Dial.name, hzero]; rfl
  | lighting => simp only [dialText, Grammar.dial, Dial.usual, Dial.name, hone]; rfl
  | age => simp only [dialText, Grammar.dial, Dial.usual, Dial.name, hzero]; rfl

theorem dialText_eq_ok {g : Grammar} {d : Dial} (h : d.HasWord (g.dial d).toNat) :
    dialText g d = .ok (d.remark (g.dial d).toNat) := by
  rcases h with rfl | hlt
  · have hzero : g.moisture = 0 ↔ g.moisture.toNat = 0 := UInt8.toNat_inj.symm
    simp only [dialText, Dial.remark, Grammar.dial, Dial.usual, hzero, if_true]
  · have hd : d ≠ .moisture := by
      rintro rfl
      cases hlt
    obtain ⟨w, hsome, hw⟩ := Dial.word_of_lt hlt
    rw [dialText_eq hd, Dial.remark, if_neg hd]
    split
    · rfl
    · rw [word, hw, hsome]
      rfl

theorem dialText_eq_error {g : Grammar} {d : Dial} (h : ¬ d.HasWord (g.dial d).toNat) :
    dialText g d = .error .outOfRange := by
  obtain ⟨hd, hlt⟩ := not_or.mp h
  have hle := Nat.le_of_not_lt hlt
  have husual : (g.dial d).toNat ≠ d.usual := by
    intro he
    rw [he] at hlt
    cases d with
    | moisture => exact hd rfl
    | damage | lighting | age => exact hlt (by decide)
  rw [dialText_eq hd, if_neg husual, word, Dial.word_of_le hle]
  rfl

theorem states_eq_ok {g : Grammar} (h : g.Worded) : states g = .ok g.remarks :=
  flatten_mapM_eq_ok fun d _ => dialText_eq_ok (h d)

theorem states_eq_error {g : Grammar} (h : ¬ g.Worded) : states g = .error .outOfRange := by
  unfold states
  cases hm : Dial.all.mapM (dialText g) with
  | ok lists =>
    exfalso
    apply h
    intro d
    by_contra hd
    obtain ⟨text, -, htext⟩ := exists_of_forall₂ (mapM_eq_ok_iff.mp hm) d.mem_all
    rw [dialText_eq_error hd] at htext
    cases htext
  | error e =>
    obtain ⟨d, -, hd⟩ := mem_of_mapM_eq_error hm
    by_cases hword : d.HasWord (g.dial d).toNat
    · rw [dialText_eq_ok hword] at hd
      cases hd
    · rw [dialText_eq_error hword] at hd
      cases hd
      rfl

theorem ofGrammar_eq_ok {g : Grammar} (h : g.Worded) (palette : Option Palette) :
    ofGrammar g palette =
      .ok ⟨g.tileId, g.palette, "\n".intercalate (lines g palette g.remarks)⟩ := by
  rw [ofGrammar, states_eq_ok h]
  rfl

theorem ofGrammar_eq_error {g : Grammar} (h : ¬ g.Worded) (palette : Option Palette) :
    ofGrammar g palette = .error .outOfRange := by
  rw [ofGrammar, states_eq_error h]
  rfl

end Prompt

namespace Spec

theorem checkVariants_eq_ok_iff (s : Spec) (d : Dial) :
    s.checkVariants d = .ok () ↔ 0 < (s.variants d).toNat ∧ (s.variants d).toNat ≤ d.limit + 1 := by
  simp only [checkVariants]
  split <;> simp <;> omega

theorem check_eq_ok_iff (s : Spec) : s.check = .ok () ↔
    ∀ d, 0 < (s.variants d).toNat ∧ (s.variants d).toNat ≤ d.limit + 1 := by
  simp only [check, forM_eq_ok_iff, checkVariants_eq_ok_iff, Dial.mem_all, forall_const]

variable {s : Spec} {g : Grammar}

theorem family_ne_nil (h : s.check = .ok ()) : s.family ≠ [] := by
  have hcounts := s.check_eq_ok_iff.mp h
  have hturns : 0 < s.rotationCount := by
    unfold rotationCount
    split <;> decide
  have hflips : 0 < s.flipCount := by
    unfold flipCount
    split <;> decide
  rw [← List.length_pos_iff, length_family, familySize]
  have hdials := Nat.mul_pos (Nat.mul_pos (Nat.mul_pos (hcounts .damage).1 (hcounts .lighting).1)
    (hcounts .moisture).1) (hcounts .age).1
  exact Nat.mul_pos (Nat.mul_pos hdials hturns) hflips

theorem dial_le_limit (h : s.check = .ok ()) (hg : g ∈ s.family) (d : Dial) :
    (g.dial d).toNat ≤ d.limit := by
  obtain ⟨-, hle⟩ := s.check_eq_ok_iff.mp h d
  have hlt := ((s.mem_family_iff g).mp hg).1 d
  omega

/-- The dials of a family are in range, so what is left of the check is what the base is named. -/
theorem check_of_mem_family (h : s.check = .ok ()) (hg : g ∈ s.family) : g.check = .ok () ↔
    blankText s.grammar.category = false ∧ blankText s.grammar.palette = false := by
  obtain ⟨-, -, hbase⟩ := (s.mem_family_iff g).mp hg
  have hcategory : g.category = s.grammar.category := by rw [hbase]; rfl
  have hpalette : g.palette = s.grammar.palette := by rw [hbase]; rfl
  rw [g.check_eq_ok_iff, hcategory, hpalette]
  simp only [dial_le_limit h hg, implies_true, and_true]

theorem worded_of_mem_family (h : s.check = .ok ()) (hg : g ∈ s.family) : g.Worded :=
  fun d => Dial.hasWord_of_le_limit (dial_le_limit h hg d)

end Spec

namespace Compiler

theorem outcome_never_lacks_word (c : Compiler) (t : Attempt) :
    (∃ o d, c.outcome t = .ok (o, d) ∧ t.grammar.Worded ∧
      Derivation.Texts o.glyph t.grammar (Category.ofText t.grammar.category)) ∨
    ∃ e, c.outcome t = .error e ∧ e ≠ .outOfRange := by
  have hcourse := c.course t
  cases ho : c.outcome t with
  | error e =>
    refine .inr ⟨e, rfl, ?_⟩
    rintro rfl
    rcases kind_of_outcome_eq_error ho with h | h | h <;> cases h
  | ok r =>
    obtain ⟨o, d⟩ := r
    rw [ho] at hcourse
    cases hcourse with
    | done hg hc ha hy =>
      exact .inl ⟨_, _, rfl, Grammar.worded_of_check hg, Derivation.glyph_texts hy⟩

end Compiler

/-- Whatever the dials of a grammar, compiling it does not fail for a word, and the texts of its
glyph are made with words that are there. Without the check a glyph would lack a word where damage
or age stand too high. The grammars of a checked spec pass their checks exactly if the base has a
category and a palette. A prompt is made of every grammar with damage, lighting and age in range, so
of those that were checked or belong to a checked spec, and of no others. -/
theorem checked_dials_have_words :
    (∀ (c : Compiler) (t : Attempt),
      (∃ o d, c.outcome t = .ok (o, d) ∧ t.grammar.Worded ∧
        Derivation.Texts o.glyph t.grammar (Category.ofText t.grammar.category)) ∨
      ∃ e, c.outcome t = .error e ∧ e ≠ .outOfRange) ∧
    (∀ (g : Grammar) (k : Category) (p : Codepoint) (char : Option Char),
      Derivation.glyph g k p char = .error .outOfRange ↔ 3 < g.damage.toNat ∨ 2 < g.age.toNat) ∧
    (∀ s : Spec, s.check = .ok () → s.family ≠ [] ∧ ∀ g ∈ s.family,
      (g.check = .ok () ↔
        blankText s.grammar.category = false ∧ blankText s.grammar.palette = false) ∧
      ∀ palette, ∃ x, Prompt.ofGrammar g palette = .ok x) ∧
    ∀ (g : Grammar) (palette : Option Palette),
      (g.damage.toNat ≤ 3 ∧ g.lighting.toNat ≤ 2 ∧ g.age.toNat ≤ 2 →
        ∃ x, Prompt.ofGrammar g palette = .ok x ∧ x.tileId = g.tileId ∧ x.palette = g.palette) ∧
      (¬ (g.damage.toNat ≤ 3 ∧ g.lighting.toNat ≤ 2 ∧ g.age.toNat ≤ 2) →
        Prompt.ofGrammar g palette = .error .outOfRange) ∧
      (g.check = .ok () → ∃ x, Prompt.ofGrammar g palette = .ok x) := by
  refine ⟨Compiler.outcome_never_lacks_word, Derivation.glyph_eq_error_iff, fun s hs => ?_,
    fun g palette => ⟨fun h => ?_, fun h => ?_, fun h => ?_⟩⟩
  · refine ⟨Spec.family_ne_nil hs, fun g hg => ⟨Spec.check_of_mem_family hs hg, fun palette => ?_⟩⟩
    exact ⟨_, Prompt.ofGrammar_eq_ok (Spec.worded_of_mem_family hs hg) palette⟩
  · exact ⟨_, Prompt.ofGrammar_eq_ok (g.worded_iff.mpr h) palette, rfl, rfl⟩
  · exact Prompt.ofGrammar_eq_error (fun hw => h (g.worded_iff.mp hw)) palette
  · exact ⟨_, Prompt.ofGrammar_eq_ok (Grammar.worded_of_check h) palette⟩

/-- A base whose own dials are far off their ranges has no prompt and is not compiled, and yet every
grammar of its family has one, up to the last, which passes its checks. -/
theorem checked_dials_have_words_ruin :
    let ruin := (Grammar.ofCategory "wall" "stone").withDials 9 7 0 200
    let s := { Spec.ofGrammar "ruins" ruin with
      damageVariants := 4, lightingVariants := 3, ageVariants := 3 }
    let last := ruin.withDials 3 2 0 2
    s.check = .ok () ∧ last ∈ s.family ∧ last.check = .ok () ∧
      (∃ x, Prompt.ofGrammar last none = .ok x) ∧
      Prompt.ofGrammar ruin none = .error .outOfRange ∧
      Derivation.glyph ruin .wall ⟨0xE200⟩ none = .error .outOfRange ∧
      ∃ e, (Compiler.fresh .standard).outcome ⟨ruin, none, none⟩ = .error e ∧ e ≠ .outOfRange := by
  intro ruin s last
  obtain ⟨hcompile, hglyph, hfamily, hprompt⟩ := checked_dials_have_words
  have hs : s.check = .ok () := by decide
  have hlast : last ∈ s.family := by decide
  obtain ⟨hcheck, hbuilt⟩ := (hfamily s hs).2 last hlast
  refine ⟨hs, hlast, hcheck.mpr (by decide), hbuilt none, (hprompt ruin none).2.1 (by decide),
    (hglyph ruin .wall _ none).mpr (by decide), ?_⟩
  rcases hcompile (Compiler.fresh .standard) ⟨ruin, none, none⟩ with ⟨o, d, -, hworded, -⟩ | h
  · exact absurd (ruin.worded_iff.mp hworded) (by decide)
  · exact h

end TileGrammar
