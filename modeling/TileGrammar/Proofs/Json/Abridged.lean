import TileGrammar.Proofs.Json.Records
import TileGrammar.Proofs.Order.Traversal

/-!
# Abridged records

A record may be written without the fields that stand at their defaults, and
with members that nobody knows. A slot says of a field under which name it is
written, what may stand there, and when it may be left out. The defaults are
those of the slots: that the reader has the same ones is what is proved.
-/

set_option autoImplicit false

namespace TileGrammar

/-- What may stand in a document for values of a type. -/
abbrev Form (β : Type) := β → Json → Prop

namespace Codec

variable {β : Type}

def Verbatim (c : Codec β) : Form β := fun b j => j = c.encode b

def Accepts (c : Codec β) (form : Form β) : Prop := ∀ b j, form b j → c.decode j = some b

theorem accepts_verbatim {c : Codec β} (h : ∀ b, c.Returns b) : c.Accepts c.Verbatim := by
  rintro b _ rfl
  exact h b

theorem text_accepts : text.Accepts text.Verbatim := accepts_verbatim text_returns

theorem flag_accepts : flag.Accepts flag.Verbatim := accepts_verbatim flag_returns

theorem word8_accepts : word8.Accepts word8.Verbatim := accepts_verbatim word8_returns

theorem Accepts.returns {c : Codec β} {form : Form β} (h : c.Accepts form) {b : β}
    (hb : form b (c.encode b)) : c.Returns b := h b _ hb

end Codec

def Form.each {β : Type} (form : Form β) : Form (List β) :=
  fun bs j => ∃ js, j = .arr js ∧ List.Forall₂ form bs js

theorem Codec.Accepts.each {β : Type} {c : Codec β} {form : Form β} (h : c.Accepts form) :
    (listOf c).Accepts form.each := by
  rintro bs _ ⟨js, rfl, hjs⟩
  have hread : js.mapM c.decode = some bs := by
    induction hjs with
    | nil => rfl
    | @cons b j bs js hb _ ih => rw [List.mapM_cons, h b j hb, ih]; rfl
  exact hread

theorem Form.each_encode {β : Type} {c : Codec β} {form : Form β} {bs : List β}
    (h : ∀ b ∈ bs, form b (c.encode b)) : form.each bs ((Codec.listOf c).encode bs) := by
  refine ⟨bs.map c.encode, rfl, ?_⟩
  induction bs with
  | nil => exact .nil
  | cons b bs ih =>
    obtain ⟨hb, hbs⟩ := List.forall_mem_cons.mp h
    exact .cons hb (ih hbs)

structure Slot (ρ : Type) where
  name : String
  stands : Form ρ
  spare : ρ → Prop

namespace Slot

variable {ρ β : Type}

def required (name : String) (form : Form β) (get : ρ → β) : Slot ρ where
  name := name
  stands r j := form (get r) j
  spare _ := False

def optional (name : String) (form : Form β) (get : ρ → β) (default : β) : Slot ρ where
  name := name
  stands r j := form (get r) j
  spare r := get r = default

/-- Among the members there is either one for the slot, or none and the slot is spare. -/
def Filled (t : Slot ρ) (r : ρ) (ms : List (String × Json)) : Prop :=
  match ms.filter fun m => m.1 = t.name with
  | [] => t.spare r
  | [m] => t.stands r m.2
  | _ => False

end Slot

/-- An object that fills every slot, whatever else it holds. -/
def Abridged {ρ : Type} (slots : List (Slot ρ)) : Form ρ :=
  fun r j => ∃ ms, j = .obj ms ∧ ∀ t ∈ slots, t.Filled r ms

namespace Schema

variable {ρ β : Type} {ms : List (String × Json)} {name : String} {c : Codec β} {get : ρ → β}
  {set : ρ → β → ρ}

theorem readMember_of_lookup {p : Presence} {j : Json} {b : β}
    (hj : Dict.lookupIn name ms = some j) (hb : c.decode j = some b) {q : ρ} :
    readMember ms q (.of name p c get set) = some (set q b) := by
  rw [readMember, Field.of_name, hj]
  exact Field.read_of_decode hb name p get set q

theorem readMember_of_absent (hnone : Dict.lookupIn name ms = none) {q : ρ} :
    readMember ms q (.of name .defaulted c get set) = some q := by
  rw [readMember, Field.of_name, hnone]
  rfl

end Schema

namespace Slot

variable {ρ β : Type} {t : Slot ρ} {r : ρ} {ms : List (String × Json)}

theorem lookupIn_eq_head? (name : String) (ms : List (String × Json)) :
    Dict.lookupIn name ms = (ms.filter fun m => m.1 = name).head?.map Prod.snd := by
  induction ms with
  | nil => rfl
  | cons m ms ih =>
    obtain ⟨k, x⟩ := m
    by_cases h : k = name <;> simp [Dict.lookupIn, h, ih]

theorem Filled.lookup (h : t.Filled r ms) :
    (Dict.lookupIn t.name ms = none ∧ t.spare r) ∨
      ∃ j, Dict.lookupIn t.name ms = some j ∧ t.stands r j := by
  unfold Filled at h
  rw [lookupIn_eq_head?]
  split at h
  next hms => exact .inl ⟨by rw [hms]; rfl, h⟩
  next m hms => exact .inr ⟨m.2, by rw [hms]; rfl, h⟩
  next => exact h.elim

theorem Filled.not_repeated (h : t.Filled r ms) {f : Field ρ} (hf : f.name = t.name) :
    Schema.repeated ms f = false := by
  have hfilter : (ms.filter fun m => m.1 == f.name) = ms.filter fun m => m.1 = t.name := by
    rw [hf]
    rfl
  unfold Filled at h
  rw [Schema.repeated, hfilter]
  split at h
  next hms => rw [hms]; rfl
  next hms => rw [hms]; rfl
  next => exact h.elim

theorem Filled.required_then {name : String} {form : Form β} {get : ρ → β}
    (h : (required name form get).Filled r ms) {c : Codec β} (hc : c.Accepts form)
    {p : Presence} {set : ρ → β → ρ} {fs : List (Field ρ)} {q q' : ρ}
    (hfs : fs.foldlM (Schema.readMember ms) (set q (get r)) = some q') :
    (.of name p c get set :: fs).foldlM (Schema.readMember ms) q = some q' := by
  have hread : Schema.readMember ms q (.of name p c get set) = some (set q (get r)) := by
    obtain ⟨-, hspare⟩ | ⟨j, hj, hstands⟩ := h.lookup
    · exact hspare.elim
    · exact Schema.readMember_of_lookup hj (hc _ _ hstands)
  rw [List.foldlM_cons, hread]
  exact hfs

theorem Filled.optional_then {name : String} {form : Form β} {get : ρ → β} {default : β}
    (h : (optional name form get default).Filled r ms) {c : Codec β} (hc : c.Accepts form)
    {set : ρ → β → ρ} {fs : List (Field ρ)} {q q' : ρ} (hq : get q = default)
    (hset : set q (get q) = q)
    (hfs : fs.foldlM (Schema.readMember ms) (set q (get r)) = some q') :
    (.of name .defaulted c get set :: fs).foldlM (Schema.readMember ms) q = some q' := by
  have hread : Schema.readMember ms q (.of name .defaulted c get set) = some (set q (get r)) := by
    obtain ⟨hnone, hspare⟩ | ⟨j, hj, hstands⟩ := h.lookup
    · have habsent : Dict.lookupIn name ms = none := hnone
      have hsame : get r = get q := hspare.trans hq.symm
      rw [Schema.readMember_of_absent habsent, hsame, hset]
    · exact Schema.readMember_of_lookup hj (hc _ _ hstands)
  rw [List.foldlM_cons, hread]
  exact hfs

end Slot

namespace Schema

variable {ρ : Type} {s : Schema ρ} {slots : List (Slot ρ)} {r : ρ}

theorem decode_filled (hnames : slots.map Slot.name = s.fields.map Field.name)
    {ms : List (String × Json)} (h : ∀ t ∈ slots, t.Filled r ms)
    (hread : s.fields.foldlM (readMember ms) s.blank = some r) :
    s.codec.decode (.obj ms) = some r := by
  have hrepeated : s.fields.any (repeated ms) = false := by
    refine List.any_eq_false.mpr fun f hf => ?_
    obtain ⟨t, ht, hname⟩ : ∃ t ∈ slots, t.name = f.name := by
      rw [← List.mem_map, hnames]
      exact List.mem_map_of_mem hf
    rw [(h t ht).not_repeated hname.symm]
    exact Bool.false_ne_true
  have hdecode : (if s.fields.any (repeated ms) then none
      else s.fields.foldlM (readMember ms) s.blank) = some r := by
    rw [hrepeated, hread]
    rfl
  exact hdecode

theorem abridged_encode (hn : (s.fields.map Field.name).Nodup)
    (h : List.Forall₂ (fun t f => t.name = f.name ∧ t.stands r (f.write r)) slots s.fields) :
    Abridged slots r (s.codec.encode r) := by
  refine ⟨s.members r, rfl, fun t ht => ?_⟩
  obtain ⟨f, hf, hname, hstands⟩ := exists_of_forall₂ h ht
  have hfilter : ((s.members r).filter fun m => m.1 = t.name) = [(f.name, f.write r)] := by
    have hmem : (f.name, f.write r) ∈ s.members r := List.mem_map.mpr ⟨f, hf, rfl⟩
    have hnodup : ((s.members r).map Prod.fst).Nodup := by rwa [map_fst_members]
    rw [hname]
    exact filter_eq_singleton_of_nodup hnodup hmem
  rw [Slot.Filled, hfilter]
  exact hstands

end Schema

end TileGrammar
