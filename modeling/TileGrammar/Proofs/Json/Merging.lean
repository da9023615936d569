import TileGrammar.Glyph.Glyph
import TileGrammar.Proofs.Json.NormalForm

/-!
# Objects merged into written records

Both merges of objects put one member after the other, and differ in what they
make of a value that meets another one. Read through look-up, the order and the
place of the members are gone: at a name that changes there stands what the two
values make, elsewhere what was there. So a record that is read after a merge is
read field by field from what it was written as and from the change of its own
name. Names of no field are not seen.
-/

set_option autoImplicit false

namespace TileGrammar

namespace Json

variable {meet : Option Json → Json → Json} {ms cs : List (String × Json)}

theorem lookupIn_putMember (k j : String) (v : Json) (ms : List (String × Json)) :
    Dict.lookupIn j (putMember k v ms) = if k = j then some v else Dict.lookupIn j ms := by
  induction ms with
  | nil => rfl
  | cons m ms ih =>
    obtain ⟨i, w⟩ := m
    by_cases hi : i = k
    · subst hi
      by_cases hj : i = j <;> simp [putMember, Dict.lookupIn, hj]
    · by_cases hj : i = j
      · subst hj
        simp [putMember, Dict.lookupIn, hi, Ne.symm hi]
      · simp [putMember, Dict.lookupIn, hi, hj, ih]

theorem mem_names_putMember {k j : String} {v : Json} (h : j ∈ (putMember k v ms).map Prod.fst) :
    j = k ∨ j ∈ ms.map Prod.fst := by
  induction ms with
  | nil => exact .inl (List.mem_singleton.mp h)
  | cons m ms ih =>
    obtain ⟨i, w⟩ := m
    simp only [putMember] at h
    split at h
    · exact .inr h
    · rcases List.mem_cons.mp h with rfl | h
      · exact .inr List.mem_cons_self
      · exact (ih h).imp_right (List.mem_cons_of_mem _)

theorem nodup_names_putMember (k : String) (v : Json) (hn : (ms.map Prod.fst).Nodup) :
    ((putMember k v ms).map Prod.fst).Nodup := by
  induction ms with
  | nil => exact List.nodup_singleton k
  | cons m ms ih =>
    obtain ⟨i, w⟩ := m
    obtain ⟨hi, hms⟩ := List.nodup_cons.mp hn
    simp only [putMember]
    split
    · exact hn
    next hne =>
      refine List.nodup_cons.mpr ⟨fun hmem => ?_, ih hms⟩
      exact (mem_names_putMember hmem).elim hne hi

/-- Members put in one after the other, where `meet` says what a value makes of the one that stands
at its name, if any. -/
def mergeWith (meet : Option Json → Json → Json) (ms cs : List (String × Json)) :
    List (String × Json) :=
  cs.foldl (fun ms c => putMember c.1 (meet (Dict.lookupIn c.1 ms) c.2) ms) ms

def displace : Option Json → Json → Json := fun _ v => v

def descend : Option Json → Json → Json
  | some (.obj inner), .obj inside => .obj (patch inner inside)
  | _, v => v

theorem patch_eq (ms cs : List (String × Json)) : patch ms cs = mergeWith displace ms cs := rfl

theorem overlay_eq (ms cs : List (String × Json)) : overlay ms cs = mergeWith descend ms cs := by
  refine congrArg (fun put => cs.foldl put ms) (funext fun ms => funext fun c => ?_)
  split
  next hlookup hinside => rw [hlookup, hinside, descend]
  next hother =>
    refine congrArg (putMember c.1 · ms) (Eq.symm ?_)
    unfold descend
    split
    next hlookup hinside => exact absurd hinside (hother _ _ hlookup)
    next => rfl

theorem nodup_names_mergeWith (hn : (ms.map Prod.fst).Nodup) :
    ((mergeWith meet ms cs).map Prod.fst).Nodup := by
  induction cs generalizing ms with
  | nil => exact hn
  | cons c cs ih => exact ih (nodup_names_putMember _ _ hn)

theorem nodup_names_patch (hn : (ms.map Prod.fst).Nodup) : ((patch ms cs).map Prod.fst).Nodup := by
  rw [patch_eq]
  exact nodup_names_mergeWith hn

/-- Where a name changes there stands what the two values make, elsewhere what was there. -/
theorem lookupIn_mergeWith (hc : (cs.map Prod.fst).Nodup) (k : String) :
    Dict.lookupIn k (mergeWith meet ms cs) =
      ((Dict.lookupIn k cs).map (meet (Dict.lookupIn k ms))).or (Dict.lookupIn k ms) := by
  induction cs generalizing ms with
  | nil => rfl
  | cons c cs ih =>
    obtain ⟨i, v⟩ := c
    obtain ⟨hi, hcs⟩ := List.nodup_cons.mp hc
    refine (ih hcs).trans ?_
    rw [lookupIn_putMember, Dict.lookupIn]
    split
    next hk =>
      subst hk
      rw [Dict.lookupIn_eq_none hi]
      rfl
    next => rfl

theorem lookupIn_patch (hc : (cs.map Prod.fst).Nodup) (k : String) :
    Dict.lookupIn k (patch ms cs) = (Dict.lookupIn k cs).or (Dict.lookupIn k ms) := by
  rw [patch_eq, lookupIn_mergeWith hc]
  exact congrArg (Option.or · _) Option.map_id'

def changed (meet : Option Json → Json → Json) (j : Json) : Option Json → Json
  | none => j
  | some v => meet (some j) v

theorem lookupIn_mergeWith_of_some (hc : (cs.map Prod.fst).Nodup) {k : String} {j : Json}
    (hj : Dict.lookupIn k ms = some j) :
    Dict.lookupIn k (mergeWith meet ms cs) = some (changed meet j (Dict.lookupIn k cs)) := by
  rw [lookupIn_mergeWith hc, hj]
  cases Dict.lookupIn k cs <;> rfl

end Json

namespace Schema

variable {ρ : Type} {s : Schema ρ} {r : ρ} {meet : Option Json → Json → Json}
  {cs : List (String × Json)}

/-- A record that is written, changed and read again is read field by field. -/
theorem decode_mergeWith (hn : (s.fields.map Field.name).Nodup) (hc : (cs.map Prod.fst).Nodup) :
    s.codec.decode (.obj (Json.mergeWith meet (s.members r) cs)) =
      s.fields.foldlM (fun q f =>
        f.read (Json.changed meet (f.write r) (Dict.lookupIn f.name cs)) q) s.blank := by
  have hnames : ((Json.mergeWith meet (s.members r) cs).map Prod.fst).Nodup :=
    Json.nodup_names_mergeWith (by rwa [map_fst_members])
  have hdecode : s.codec.decode (.obj (Json.mergeWith meet (s.members r) cs)) =
      s.fields.foldlM (readMember (Json.mergeWith meet (s.members r) cs)) s.blank :=
    if_neg (by rw [any_repeated_of_nodup hnames]; exact Bool.false_ne_true)
  rw [hdecode]
  refine foldlM_congr (fun f hf q => ?_) s.blank
  rw [readMember, Json.lookupIn_mergeWith_of_some hc (lookupIn_members hn hf)]

end Schema

end TileGrammar
