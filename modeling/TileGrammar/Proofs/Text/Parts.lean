import TileGrammar.Text.Basic

/-!
# Splitting what was joined

A text that was joined of parts is split into the parts of its parts. A part
without the separator stays as it is. Nothing is lost by splitting, so a text
is known by its parts. With a longer separator it is enough that no part has
its first character: then two joined texts agree part by part.
-/

set_option autoImplicit false

namespace TileGrammar

theorem splitAtChar_append (sep : Char) (cs ds : List Char) :
    splitAtChar sep (cs ++ sep :: ds) = splitAtChar sep cs ++ splitAtChar sep ds := by
  induction cs with
  | nil => simp [splitAtChar]
  | cons c cs ih =>
    rw [List.cons_append, splitAtChar, splitAtChar]
    by_cases h : c = sep
    · rw [if_pos h, if_pos h, ih, List.cons_append]
    · rw [if_neg h, if_neg h, ih]
      cases hcs : splitAtChar sep cs with
      | nil => exact absurd hcs (splitAtChar_ne_nil sep cs)
      | cons part parts => rfl

theorem splitAtChar_of_notMem {sep : Char} {cs : List Char} (h : sep ∉ cs) :
    splitAtChar sep cs = [cs] := by
  induction cs with
  | nil => rfl
  | cons c cs ih =>
    obtain ⟨hc, hcs⟩ := not_or.mp (h ∘ List.mem_cons.mpr)
    rw [splitAtChar, if_neg (Ne.symm hc), ih hcs]

theorem mem_splitAtChar {sep c : Char} {cs part : List Char} (hpart : part ∈ splitAtChar sep cs)
    (hc : c ∈ part) : c ∈ cs ∧ c ≠ sep := by
  induction cs generalizing part with
  | nil =>
    rw [splitAtChar, List.mem_singleton] at hpart
    rw [hpart] at hc
    cases hc
  | cons d cs ih =>
    rw [splitAtChar] at hpart
    by_cases hd : d = sep
    · rw [if_pos hd] at hpart
      rcases List.mem_cons.mp hpart with rfl | hpart
      · cases hc
      · exact ⟨List.mem_cons_of_mem _ (ih hpart hc).1, (ih hpart hc).2⟩
    · rw [if_neg hd] at hpart
      cases hcs : splitAtChar sep cs with
      | nil => exact absurd hcs (splitAtChar_ne_nil sep cs)
      | cons first parts =>
        rw [hcs] at hpart ih
        rcases List.mem_cons.mp hpart with rfl | hpart
        · rcases List.mem_cons.mp hc with rfl | hc
          · exact ⟨List.mem_cons_self, hd⟩
          · have hin := ih List.mem_cons_self hc
            exact ⟨List.mem_cons_of_mem _ hin.1, hin.2⟩
        · have hin := ih (List.mem_cons_of_mem _ hpart) hc
          exact ⟨List.mem_cons_of_mem _ hin.1, hin.2⟩

theorem splitAtChar_intercalate (sep : Char) {parts : List (List Char)} (h : parts ≠ []) :
    splitAtChar sep ([sep].intercalate parts) = parts.flatMap (splitAtChar sep) := by
  induction parts with
  | nil => exact absurd rfl h
  | cons p ps ih =>
    cases ps with
    | nil => simp
    | cons q qs =>
      rw [List.intercalate_cons_cons, List.append_assoc, List.singleton_append,
        splitAtChar_append, ih (List.cons_ne_nil q qs)]
      rfl

theorem mem_intercalate {sep : List Char} {c : Char} {parts : List (List Char)}
    (h : c ∈ sep.intercalate parts) : c ∈ sep ∨ ∃ part ∈ parts, c ∈ part := by
  induction parts with
  | nil => simp at h
  | cons p ps ih =>
    cases ps with
    | nil => exact .inr ⟨p, List.mem_cons_self, by simpa using h⟩
    | cons q qs =>
      rw [List.intercalate_cons_cons, List.mem_append, List.mem_append] at h
      rcases h with (hp | hsep) | hrest
      · exact .inr ⟨p, List.mem_cons_self, hp⟩
      · exact .inl hsep
      · exact (ih hrest).imp_right fun ⟨part, hpart, hc⟩ =>
          ⟨part, List.mem_cons_of_mem p hpart, hc⟩

theorem intercalate_splitAtChar (sep : Char) (cs : List Char) :
    [sep].intercalate (splitAtChar sep cs) = cs := by
  induction cs with
  | nil => rfl
  | cons c cs ih =>
    rw [splitAtChar]
    cases hcs : splitAtChar sep cs with
    | nil => exact absurd hcs (splitAtChar_ne_nil sep cs)
    | cons part parts =>
      rw [hcs] at ih
      by_cases h : c = sep
      · rw [if_pos h, List.intercalate_cons_cons, ih, h]
        rfl
      · rw [if_neg h]
        show [sep].intercalate ((c :: part) :: parts) = c :: cs
        rw [List.intercalate_cons_cons_left, ih]

theorem append_cons_inj {mark : Char} {as bs cs ds : List Char} (ha : mark ∉ as) (hb : mark ∉ bs)
    (h : as ++ mark :: cs = bs ++ mark :: ds) : as = bs ∧ cs = ds := by
  induction as generalizing bs with
  | nil =>
    cases bs with
    | nil => exact ⟨rfl, (List.cons.inj h).2⟩
    | cons b bs => exact absurd (List.cons.inj h).1 (List.ne_of_not_mem_cons hb)
  | cons a as ih =>
    cases bs with
    | nil => exact absurd (List.cons.inj h).1.symm (List.ne_of_not_mem_cons ha)
    | cons b bs =>
      obtain ⟨rfl, hrest⟩ := List.cons.inj h
      obtain ⟨rfl, rfl⟩ :=
        ih (List.not_mem_of_not_mem_cons ha) (List.not_mem_of_not_mem_cons hb) hrest
      exact ⟨rfl, rfl⟩

section

variable {sep : String} {mark : Char} {tail : List Char}

theorem first_part_inj (hsep : sep.toList = mark :: tail) {a b : String} {as bs : List String}
    (ha : mark ∉ a.toList) (hb : mark ∉ b.toList)
    (h : sep.intercalate (a :: as) = sep.intercalate (b :: bs)) :
    a = b ∧ (as = [] ↔ bs = []) ∧ sep.intercalate as = sep.intercalate bs := by
  -- One part alone has no mark, and a part with others behind it is followed by one.
  have hbehind : ∀ (c d : String) (ds : List String),
      (sep.intercalate (c :: d :: ds)).toList =
        c.toList ++ mark :: (tail ++ (sep.intercalate (d :: ds)).toList) := by
    intro c d ds
    rw [String.intercalate_cons_cons, String.toList_append, String.toList_append, hsep,
      List.append_assoc, List.cons_append]
  cases as with
  | nil =>
    cases bs with
    | nil =>
      rw [String.intercalate_singleton, String.intercalate_singleton] at h
      exact ⟨h, Iff.rfl, rfl⟩
    | cons d bs =>
      rw [String.intercalate_singleton] at h
      rw [h, hbehind b d bs] at ha
      exact absurd (List.mem_append_right _ List.mem_cons_self) ha
  | cons c as =>
    cases bs with
    | nil =>
      rw [String.intercalate_singleton] at h
      rw [← h, hbehind a c as] at hb
      exact absurd (List.mem_append_right _ List.mem_cons_self) hb
    | cons d bs =>
      have hlists := congrArg String.toList h
      rw [hbehind, hbehind] at hlists
      obtain ⟨hfirst, hrest⟩ := append_cons_inj ha hb hlists
      refine ⟨String.toList_inj.mp hfirst, by simp, ?_⟩
      exact String.toList_inj.mp (List.append_cancel_left hrest)

theorem intercalate_cons_ne_empty (sep : String) {a : String} (ha : a ≠ "") (as : List String) :
    sep.intercalate (a :: as) ≠ "" := by
  cases as with
  | nil => rwa [String.intercalate_singleton]
  | cons b as =>
    intro h
    rw [String.intercalate_cons_cons, String.append_eq_empty_iff, String.append_eq_empty_iff] at h
    exact ha h.1.1

/-- Parts that are not empty and have no mark are read off the joined text. -/
theorem intercalate_inj (hsep : sep.toList = mark :: tail) {as bs : List String}
    (ha : ∀ a ∈ as, mark ∉ a.toList ∧ a ≠ "") (hb : ∀ b ∈ bs, mark ∉ b.toList ∧ b ≠ "")
    (h : sep.intercalate as = sep.intercalate bs) : as = bs := by
  induction as generalizing bs with
  | nil =>
    cases bs with
    | nil => rfl
    | cons b bs =>
      exact absurd h.symm (intercalate_cons_ne_empty sep (hb b List.mem_cons_self).2 bs)
  | cons a as ih =>
    cases bs with
    | nil => exact absurd h (intercalate_cons_ne_empty sep (ha a List.mem_cons_self).2 as)
    | cons b bs =>
      obtain ⟨rfl, -, hrest⟩ :=
        first_part_inj hsep (ha a List.mem_cons_self).1 (hb b List.mem_cons_self).1 h
      rw [ih (fun c hc => ha c (List.mem_cons_of_mem _ hc))
        (fun c hc => hb c (List.mem_cons_of_mem _ hc)) hrest]

theorem intercalate_append_cancel (sep : String) (shared : List String) {as bs : List String}
    (ha : as ≠ []) (hb : bs ≠ [])
    (h : sep.intercalate (shared ++ as) = sep.intercalate (shared ++ bs)) :
    sep.intercalate as = sep.intercalate bs := by
  by_cases hshared : shared = []
  · rwa [hshared] at h
  · rw [String.intercalate_append_of_ne_nil hshared ha,
      String.intercalate_append_of_ne_nil hshared hb] at h
    exact (String.append_right_inj _).mp h

end

def dotParts (s : String) : List String := (splitAtChar '.' s.toList).map String.ofList

theorem dotParts_of_notMem {s : String} (h : '.' ∉ s.toList) : dotParts s = [s] := by
  rw [dotParts, splitAtChar_of_notMem h, List.map_singleton, String.ofList_toList]

theorem dotParts_intercalate {parts : List String} (h : parts ≠ []) :
    dotParts (".".intercalate parts) = parts.flatMap dotParts := by
  have hdot : ".".toList = ['.'] := rfl
  have hparts : parts.map String.toList ≠ [] := by simpa using h
  rw [dotParts, String.toList_intercalate, hdot, splitAtChar_intercalate '.' hparts,
    List.flatMap_map, List.map_flatMap]
  rfl

theorem dotParts_injective : Function.Injective dotParts := by
  intro s t h
  have hparts : splitAtChar '.' s.toList = splitAtChar '.' t.toList :=
    (List.map_inj_right fun _ _ he => String.ofList_injective he).mp h
  apply String.toList_inj.mp
  calc s.toList = ['.'].intercalate (splitAtChar '.' s.toList) :=
        (intercalate_splitAtChar '.' s.toList).symm
    _ = ['.'].intercalate (splitAtChar '.' t.toList) := by rw [hparts]
    _ = t.toList := intercalate_splitAtChar '.' t.toList

end TileGrammar
