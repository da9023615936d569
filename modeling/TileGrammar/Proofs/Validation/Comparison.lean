import TileGrammar.Proofs.Validation.Verdicts

/-!
# Two scenes compared rule by rule

What two scenes are found to have is compared by a relation between lists of
findings that is kept when lists are put together. Where it holds for every
rule it holds for all findings, and so it can be read off the two verdicts by
counting what they report of each kind.
-/

set_option autoImplicit false

namespace TileGrammar

def countOf (found : List Violation) (s : Severity) (k : ViolationKind) : Nat :=
  found.countP fun v => v.severity = s ∧ v.kind = k

theorem countOf_append (xs ys : List Violation) (s : Severity) (k : ViolationKind) :
    countOf (xs ++ ys) s k = countOf xs s k + countOf ys s k := List.countP_append

theorem countOf_uniform {found : List Violation} {s₀ : Severity} {k₀ : ViolationKind}
    (h : ∀ v ∈ found, v.severity = s₀ ∧ v.kind = k₀) (s : Severity) (k : ViolationKind) :
    countOf found s k = if s₀ = s ∧ k₀ = k then found.length else 0 := by
  by_cases he : s₀ = s ∧ k₀ = k
  · rw [if_pos he, countOf, List.countP_eq_length]
    intro v hv
    obtain ⟨hs, hk⟩ := h v hv
    rw [hs, hk]
    exact decide_eq_true he
  · rw [if_neg he, countOf, List.countP_eq_zero]
    intro v hv
    obtain ⟨hs, hk⟩ := h v hv
    rw [hs, hk]
    exact fun ht => he (of_decide_eq_true ht)

/-- A relation between lists of findings that is kept when lists are put together. -/
structure Additive (r : List Violation → List Violation → Prop) : Prop where
  nil : r [] []
  append : ∀ {xs ys us vs}, r xs ys → r us vs → r (xs ++ us) (ys ++ vs)

def Related (r : List Violation → List Violation → Prop)
    (a b : Except Error (List Violation)) : Prop :=
  ∃ xs ys, a = .ok xs ∧ b = .ok ys ∧ r xs ys

section

variable {r : List Violation → List Violation → Prop}

theorem Related.mapM {α : Type} (hr : Additive r) {f g : α → Except Error (List Violation)}
    {as : List α} (h : ∀ a ∈ as, Related r (f a) (g a)) :
    Related r ((as.mapM f).map List.flatten) ((as.mapM g).map List.flatten) := by
  induction as with
  | nil => exact ⟨[], [], rfl, rfl, hr.nil⟩
  | cons a as ih =>
    obtain ⟨xs, ys, hf, hg, hxs⟩ := h a (List.mem_cons_self ..)
    obtain ⟨us, vs, hfs, hgs, hus⟩ := ih fun b hb => h b (List.mem_cons_of_mem a hb)
    exact ⟨xs ++ us, ys ++ vs, flatten_mapM_cons hf hfs, flatten_mapM_cons hg hgs,
      hr.append hxs hus⟩

theorem Related.of_decides {a : Except Error (List Violation)} {P : Prop} (h : Decides a P)
    (hr : ∀ xs, r xs xs) : Related r a a := by
  obtain ⟨xs, hxs, -⟩ := h
  exact ⟨xs, xs, hxs, hxs, hr xs⟩

end

namespace Verdict

def errorCount (v : Verdict) (k : ViolationKind) : Nat := v.errors.countP fun e => e.kind = k

def warningCount (v : Verdict) (k : ViolationKind) : Nat := v.warnings.countP fun e => e.kind = k

structure Reports (v : Verdict) (found : List Violation) : Prop where
  errors : ∀ k, v.errorCount k = countOf found .error k
  warnings : ∀ k, v.warningCount k = countOf found .warning k
  passed : v.passed = true ↔ ∀ k, v.errorCount k = 0

theorem errorCount_eq_zero_iff (v : Verdict) : (∀ k, v.errorCount k = 0) ↔ v.errors = [] := by
  constructor
  · intro h
    cases he : v.errors with
    | nil => rfl
    | cons e es =>
      have hk := h e.kind
      rw [errorCount, he, List.countP_eq_zero] at hk
      exact absurd (decide_eq_true rfl) (hk e (List.mem_cons_self ..))
  · intro h k
    rw [errorCount, h]
    rfl

theorem noteAll_reports (tile : String) (found : List Violation) (counts : Dict Json) :
    Reports { (clean tile).noteAll found with stats := counts } found := by
  have herrors : ((clean tile).noteAll found).errors =
      found.filter fun v => v.severity = .error := by
    rw [noteAll_eq]
    rfl
  have hwarnings : ((clean tile).noteAll found).warnings =
      found.filter fun v => v.severity = .warning := by
    rw [noteAll_eq]
    rfl
  refine ⟨fun k => ?_, fun k => ?_, ?_⟩
  · rw [errorCount, herrors, List.countP_filter, countOf]
    simp only [Bool.decide_and, Bool.and_comm]
  · rw [warningCount, hwarnings, List.countP_filter, countOf]
    simp only [Bool.decide_and, Bool.and_comm]
  · rw [errorCount_eq_zero_iff, herrors, noteAll_eq]
    simp [clean, List.filter_eq_nil_iff]

end Verdict

theorem Scene.verdict_related {r : List Violation → List Violation → Prop} (hr : Additive r)
    {s t : Scene} (h : ∀ rule ∈ Rule.all, Related r (rule.check s) (rule.check t))
    (hs : ∃ counts, s.stats = .ok counts) (ht : ∃ counts, t.stats = .ok counts) :
    ∃ v w xs ys, s.verdict = .ok v ∧ t.verdict = .ok w ∧ v.Reports xs ∧ w.Reports ys ∧
      r xs ys := by
  obtain ⟨xs, ys, hxs, hys, hrel⟩ := Related.mapM hr h
  obtain ⟨cs, hcs⟩ := hs
  obtain ⟨ct, hct⟩ := ht
  have hverdict : ∀ {u : Scene} {found : List Violation} {counts : Dict Json},
      u.findings = .ok found → u.stats = .ok counts →
      u.verdict = .ok { (Verdict.clean u.grammar.tileId).noteAll found with stats := counts } := by
    intro u found counts hfound hcounts
    rw [verdict, hfound, hcounts]
    rfl
  exact ⟨_, _, xs, ys, hverdict hxs hcs, hverdict hys hct, Verdict.noteAll_reports _ xs cs,
    Verdict.noteAll_reports _ ys ct, hrel⟩

end TileGrammar
