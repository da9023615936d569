import TileGrammar.Proofs.Json.Merging

/-!
# Records overridden part by part

An override of a record names some of its parts. What it does is said of each
part alone, on the values themselves and without their JSON: a part that is not
named stays, one that is named has the value that is read there, and a part
that is a record in turn may be overridden by its own parts. Reading a merged
record does the same when each of its fields does.
-/

set_option autoImplicit false

namespace TileGrammar

open Json (changed descend displace mergeWith patch)

/-- How a value takes an override, which may be missing: what can be read as one, and what the
value is before and after. -/
structure Overriding (α : Type) where
  fits : Option Json → Prop
  takes : Option Json → α → α → Prop

structure Part (ρ : Type) extends Overriding ρ where
  name : String

variable {α β ρ : Type}

def Part.of (name : String) (o : Overriding β) (get : ρ → β) : Part ρ where
  name := name
  fits := o.fits
  takes v r r' := o.takes v (get r) (get r')

@[simp] theorem Part.of_name (name : String) (o : Overriding β) (get : ρ → β) :
    (Part.of name o get).name = name := rfl

/-- What is given under the name of a part can be read as an override of it. -/
def Fit (parts : List (Part ρ)) (cs : List (String × Json)) : Prop :=
  ∀ t ∈ parts, t.fits (Dict.lookupIn t.name cs)

/-- Each part takes what is given under its name. -/
def Overridden (parts : List (Part ρ)) (cs : List (String × Json)) (r r' : ρ) : Prop :=
  ∀ t ∈ parts, t.takes (Dict.lookupIn t.name cs) r r'

namespace Overriding

def whole (c : Codec α) : Overriding α where
  fits
    | none => True
    | some j => ∃ a, c.decode j = some a
  takes
    | none, a, a' => a' = a
    | some j, _, a' => c.decode j = some a'

/-- An object overrides the parts that it names, any other value the whole. -/
def facet (c : Codec ρ) (parts : List (Part ρ)) : Overriding ρ where
  fits
    | some (.obj inside) => Fit parts inside
    | v => (whole c).fits v
  takes
    | some (.obj inside), r, r' => Overridden parts inside r r'
    | v, r, r' => (whole c).takes v r r'

/-- An object overrides the entries that it names and adds to them, any other value the whole. -/
def entries : Overriding SettledDict where
  fits
    | some (.obj _) => True
    | v => (whole .settledDict).fits v
  takes
    | some (.obj inside), d, d' => ∀ k, d'.get? k = (Dict.lookupIn k inside).or (d.get? k)
    | v, d, d' => (whole .settledDict).takes v d d'

end Overriding

/-- Reading a written value after a change does what the override says. What is read does not
depend on whether the change was made before. -/
structure Codec.Realizes (c : Codec α) (meet : Option Json → Json → Json) (o : Overriding α)
    (v : Option Json) (a : α) : Prop where
  takes : ∀ a', c.decode (changed meet (c.encode a) v) = some a' ↔ o.takes v a a'
  fits : (∃ a', c.decode (changed meet (c.encode a) v) = some a') ↔ o.fits v
  again : ∀ a', o.takes v a a' →
    c.decode (changed meet (c.encode a') v) = c.decode (changed meet (c.encode a) v)

structure Field.Realizes (f : Field ρ) (meet : Option Json → Json → Json) (t : Part ρ)
    (v : Option Json) (r : ρ) : Prop where
  name : f.name = t.name
  takes : ∀ r', f.read (changed meet (f.write r) v) r' = some r' ↔ t.takes v r r'
  fits : ∀ q, (∃ q', f.read (changed meet (f.write r) v) q = some q') ↔ t.fits v
  again : ∀ r' q, t.takes v r r' →
    f.read (changed meet (f.write r') v) q = f.read (changed meet (f.write r) v) q

section Codecs

variable {c : Codec α} {meet : Option Json → Json → Json} {a : α} {v : Option Json}

theorem Codec.Returns.realizes_none {o : Overriding α} (h : c.Returns a)
    (htakes : ∀ a', o.takes none a a' ↔ a' = a) (hfits : o.fits none) :
    c.Realizes meet o none a where
  takes a' := by
    rw [htakes, show c.decode (changed meet (c.encode a) none) = some a from h, Option.some.injEq,
      eq_comm]
  fits := iff_of_true ⟨a, h⟩ hfits
  again a' ha := by rw [(htakes a').mp ha]

theorem Codec.Returns.realizes_whole (h : c.Returns a)
    (hmeet : ∀ b j, meet (some (c.encode b)) j = j) : c.Realizes meet (.whole c) v a := by
  cases v with
  | none => exact h.realizes_none (fun _ => Iff.rfl) trivial
  | some j =>
    have hchanged : ∀ b, changed meet (c.encode b) (some j) = j := fun b => hmeet b j
    refine ⟨fun a' => ?_, ?_, fun a' _ => ?_⟩
    · rw [hchanged]
      rfl
    · rw [hchanged]
      rfl
    · rw [hchanged, hchanged]

theorem Codec.Returns.realizes_displaced (h : c.Returns a) : c.Realizes displace (.whole c) v a :=
  h.realizes_whole fun _ _ => rfl

def Codec.Undivided (c : Codec α) : Prop := ∀ b j, descend (some (c.encode b)) j = j

theorem Codec.Returns.realizes_undivided (h : c.Returns a) (hc : c.Undivided) :
    c.Realizes descend (.whole c) v a := h.realizes_whole hc

theorem Codec.text_undivided : text.Undivided := fun _ _ => rfl

theorem Codec.character_undivided : character.Undivided := fun _ _ => rfl

theorem Codec.listOf_undivided (c : Codec α) : (listOf c).Undivided := fun _ _ => rfl

theorem Codec.Undivided.nullable (h : c.Undivided) : (nullable c).Undivided
  | none, _ => rfl
  | some a, j => h a j

end Codecs

theorem Field.of_realizes {c : Codec β} {meet : Option Json → Json → Json} {o : Overriding β}
    {v : Option Json} {get : ρ → β} {r : ρ} (h : c.Realizes meet o v (get r)) (name : String)
    (p : Presence) {set : ρ → β → ρ} (hget : ∀ q b, get (set q b) = b)
    (hset : ∀ q, set q (get q) = q) :
    (Field.of name p c get set).Realizes meet (.of name o get) v r where
  name := rfl
  takes r' := by
    refine Iff.trans ?_ (h.takes (get r'))
    refine Option.map_eq_some_iff.trans ⟨?_, fun hdecode => ⟨get r', hdecode, hset r'⟩⟩
    rintro ⟨b, hdecode, hb⟩
    rw [← hb, hget]
    exact hdecode
  fits q := by
    refine Iff.trans ?_ h.fits
    refine ⟨fun ⟨q', hread⟩ => ?_, fun ⟨b, hdecode⟩ => ⟨set q b, read_of_decode hdecode _ _ _ _ q⟩⟩
    obtain ⟨b, hdecode, -⟩ := Option.map_eq_some_iff.mp hread
    exact ⟨b, hdecode⟩
  again r' q hr := congrArg (Option.map (set q)) (h.again (get r') hr)

section Partners

variable {R : α → β → Prop} {P : α → Prop} {Q : β → Prop} {xs : List α} {ys : List β}

theorem forall_mem_of_forall₂ (h : List.Forall₂ R xs ys) (hQ : ∀ y ∈ ys, Q y)
    (hPQ : ∀ x y, R x y → Q y → P x) : ∀ x ∈ xs, P x := by
  induction h with
  | nil => nofun
  | cons hxy _ ih =>
    obtain ⟨hy, hys⟩ := List.forall_mem_cons.mp hQ
    exact List.forall_mem_cons.mpr ⟨hPQ _ _ hxy hy, ih hys⟩

theorem forall_mem_iff_of_forall₂ (h : List.Forall₂ R xs ys)
    (hPQ : ∀ x y, R x y → (P x ↔ Q y)) : (∀ x ∈ xs, P x) ↔ ∀ y ∈ ys, Q y :=
  ⟨fun hP => forall_mem_of_forall₂ h.flip hP fun y x hxy => (hPQ x y hxy).mp,
    fun hQ => forall_mem_of_forall₂ h hQ fun x y hxy => (hPQ x y hxy).mpr⟩

/-- A run over a list succeeds when each step does, provided that it does so from everywhere or from
nowhere, as its partner says. -/
theorem exists_foldlM_iff_of_forall₂ {σ : Type} {step : σ → α → Option σ}
    (h : List.Forall₂ R xs ys) (hstep : ∀ x y, R x y → ∀ b, (∃ b', step b x = some b') ↔ Q y)
    (b : σ) : (∃ b', xs.foldlM step b = some b') ↔ ∀ y ∈ ys, Q y := by
  induction h generalizing b with
  | nil => simp
  | cons hxy _ ih =>
    rw [List.forall_mem_cons, ← hstep _ _ hxy b, List.foldlM_cons]
    constructor
    · rintro ⟨b', hrun⟩
      obtain ⟨b₁, hfirst, hrest⟩ := Option.bind_eq_some_iff.mp hrun
      exact ⟨⟨b₁, hfirst⟩, (ih b₁).mp ⟨b', hrest⟩⟩
    · rintro ⟨⟨b₁, hfirst⟩, hall⟩
      obtain ⟨b', hrest⟩ := (ih b₁).mpr hall
      exact ⟨b', Option.bind_eq_some_iff.mpr ⟨b₁, hfirst, hrest⟩⟩

end Partners

namespace Schema

variable {s : Schema ρ} {meet : Option Json → Json → Json} {parts : List (Part ρ)}
  {cs : List (String × Json)} {r r' : ρ}

/-- The names of the fields differ, and a record is what its fields, read one after the other over
the blank one, say that it is. -/
structure Lawful (s : Schema ρ) : Prop where
  nodup : (s.fields.map Field.name).Nodup
  separable : ∀ (js : Field ρ → Json) (r : ρ),
    s.fields.foldlM (fun q f => f.read (js f) q) s.blank = some r ↔
      ∀ f ∈ s.fields, f.read (js f) r = some r

def Realizes (s : Schema ρ) (meet : Option Json → Json → Json) (parts : List (Part ρ))
    (cs : List (String × Json)) (r : ρ) : Prop :=
  List.Forall₂ (fun f t => f.Realizes meet t (Dict.lookupIn f.name cs) r) s.fields parts

theorem Realizes.decode_mergeWith_iff (h : s.Realizes meet parts cs r) (hl : s.Lawful)
    (hc : (cs.map Prod.fst).Nodup) :
    s.codec.decode (.obj (mergeWith meet (s.members r) cs)) = some r' ↔
      Overridden parts cs r r' := by
  rw [decode_mergeWith hl.nodup hc]
  refine (hl.separable (fun f => changed meet (f.write r) (Dict.lookupIn f.name cs)) r').trans ?_
  refine forall_mem_iff_of_forall₂ h fun f t hf => ?_
  rw [← hf.name]
  exact hf.takes r'

theorem Realizes.exists_decode_mergeWith_iff (h : s.Realizes meet parts cs r) (hl : s.Lawful)
    (hc : (cs.map Prod.fst).Nodup) :
    (∃ r', s.codec.decode (.obj (mergeWith meet (s.members r) cs)) = some r') ↔ Fit parts cs := by
  rw [decode_mergeWith hl.nodup hc]
  refine exists_foldlM_iff_of_forall₂ h (fun f t hf q => ?_) s.blank
  rw [← hf.name]
  exact hf.fits q

theorem Realizes.decode_mergeWith_again (h : s.Realizes meet parts cs r) (hl : s.Lawful)
    (hc : (cs.map Prod.fst).Nodup) (hr : Overridden parts cs r r') :
    s.codec.decode (.obj (mergeWith meet (s.members r') cs)) =
      s.codec.decode (.obj (mergeWith meet (s.members r) cs)) := by
  rw [decode_mergeWith hl.nodup hc, decode_mergeWith hl.nodup hc]
  refine foldlM_congr (forall_mem_of_forall₂ h hr fun f t hf ht q => ?_) s.blank
  rw [← hf.name] at ht
  exact hf.again r' q ht

theorem Lawful.realizes_facet {v : Option Json} (hl : s.Lawful)
    (hv : ∀ j, v = some j → j.Settled) (hr : s.codec.Returns r)
    (h : ∀ inside, s.Realizes displace parts inside r) :
    s.codec.Realizes descend (.facet s.codec parts) v r := by
  cases v with
  | none => exact hr.realizes_none (fun _ => Iff.rfl) trivial
  | some j =>
    cases j with
    | obj inside =>
      have hc : (inside.map Prod.fst).Nodup := (hv _ rfl).nodup_names
      exact {
        takes := fun r' => (h inside).decode_mergeWith_iff hl hc
        fits := (h inside).exists_decode_mergeWith_iff hl hc
        again := fun r' => (h inside).decode_mergeWith_again hl hc }
    | _ => exact ⟨fun _ => Iff.rfl, Iff.rfl, fun _ _ => rfl⟩

end Schema

namespace Codec

variable {d : SettledDict} {inside : List (String × Json)}

theorem decode_changed_entries (hi : (Json.obj inside).Settled) :
    settledDict.decode (changed descend (settledDict.encode d) (some (.obj inside))) =
      some (d.insertAll hi) := by
  have hnames : ((patch d.entries inside).map Prod.fst).Nodup := Json.nodup_names_patch d.nodup_keys
  have hlookup : ∀ k, Dict.lookupIn k (patch d.entries inside) = (d.insertAll hi).get? k := by
    intro k
    rw [Json.lookupIn_patch hi.nodup_names, SettledDict.insertAll,
      d.toDict.get?_insertAll_of_nodup hi.nodup_names]
    rfl
  have hsettled : ∀ m ∈ patch d.entries inside, m.2.Settled := fun m hm =>
    (d.insertAll hi).settled m.1 m.2
      ((hlookup m.1).symm.trans (Dict.lookupIn_of_nodup hnames hm))
  rw [decode_settledDict_eq_some_iff, encode_settledDict]
  refine (decode_dict_any hsettled).trans (congrArg some (Dict.ext_get? fun k => ?_))
  rw [Dict.get?_ofList, Dict.lastIn_of_nodup hnames, hlookup]

theorem entries_takes_iff (hi : (Json.obj inside).Settled) (d' : SettledDict) :
    Overriding.entries.takes (some (.obj inside)) d d' ↔ d' = d.insertAll hi := by
  have hget := d.toDict.get?_insertAll_of_nodup hi.nodup_names
  constructor
  · exact fun h => SettledDict.ext_get? fun k => (h k).trans (hget k).symm
  · rintro rfl
    exact hget

theorem realizes_entries {v : Option Json} (hv : ∀ j, v = some j → j.Settled) :
    settledDict.Realizes descend .entries v d := by
  cases v with
  | none => exact (settledDict_returns d).realizes_none (fun _ => Iff.rfl) trivial
  | some j =>
    cases j with
    | obj inside =>
      have hi := hv _ rfl
      have hdecode := decode_changed_entries (d := d) hi
      refine ⟨fun d' => ?_, iff_of_true ⟨_, hdecode⟩ trivial, fun d' hd' => ?_⟩
      · rw [hdecode, entries_takes_iff hi, Option.some.injEq, eq_comm]
      · obtain rfl := (entries_takes_iff hi d').mp hd'
        have hagain : (d.insertAll hi).insertAll hi = d.insertAll hi :=
          SettledDict.ext_get? fun k => congrArg (Dict.get? · k) (d.toDict.insertAll_again inside)
        rw [decode_changed_entries hi, hdecode, hagain]
    | _ => exact ⟨fun _ => Iff.rfl, Iff.rfl, fun _ _ => rfl⟩

end Codec

end TileGrammar
