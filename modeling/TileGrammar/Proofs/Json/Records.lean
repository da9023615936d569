import TileGrammar.Json.Record
import TileGrammar.Proofs.Json.Layout
import TileGrammar.Proofs.Order.Overlay

/-!
# Records that come back as they were

For each codec: which values are read as themselves once they are written, and
where their text is legible. A record comes back when each of its fields does,
provided the names of the fields differ: the reader finds every field, and
setting them one after the other over the blank record leaves nothing of it.
-/

set_option autoImplicit false

namespace TileGrammar

open Json (Legible depthLimit faithful)

namespace Codec

variable {α β : Type}

/-- What is written of a value is read as it. -/
def Returns (c : Codec α) (a : α) : Prop := c.decode (c.encode a) = some a

@[simp] theorem text_returns (s : String) : text.Returns s := rfl

@[simp] theorem flag_returns (b : Bool) : flag.Returns b := rfl

theorem natBelow_returns {bound n : Nat} (h : n < bound) : (natBelow bound).Returns n := by
  have hbound : 0 ≤ (n : Int) ∧ (n : Int) < bound := by omega
  simp only [Returns, natBelow, if_pos hbound, Int.toNat_natCast]

theorem via_returns {c : Codec α} {write : β → α} {read : α → Option β} {b : β}
    (hc : c.Returns (write b)) (hread : read (write b) = some b) :
    (c.via write read).Returns b := by
  have hdecode : (c.decode (c.encode (write b))).bind read = some b := by
    rw [show c.decode (c.encode (write b)) = some (write b) from hc]
    exact hread
  exact hdecode

@[simp] theorem word8_returns (n : UInt8) : word8.Returns n :=
  via_returns (natBelow_returns n.toNat_lt_size) (by rw [UInt8.ofNat_toNat])

@[simp] theorem word32_returns (n : UInt32) : word32.Returns n :=
  via_returns (natBelow_returns n.toNat_lt_size) (by rw [UInt32.ofNat_toNat])

@[simp] theorem int32_returns (n : Int32) : int32.Returns n := by
  have hrange : -0x80000000 ≤ n.toInt ∧ n.toInt < 0x80000000 := ⟨n.le_toInt, n.toInt_lt⟩
  simp only [Returns, int32, if_pos hrange, Int32.ofInt_toInt]

theorem number_returns {x : Float} (h : x.isFinite = true) : number.Returns x := by
  simp only [Returns, number, if_pos h]

@[simp] theorem character_returns (c : Char) : character.Returns c := by
  simp [Returns, character]

theorem nullable_returns {c : Codec α} {o : Option α}
    (h : ∀ a ∈ o, c.Returns a ∧ c.encode a ≠ .null) : (nullable c).Returns o := by
  cases o with
  | none => rfl
  | some a =>
    obtain ⟨ha, hne⟩ := h a rfl
    have hdecode : (nullable c).decode (c.encode a) = (c.decode (c.encode a)).map some := by
      generalize c.encode a = j at hne
      cases j with
      | null => exact absurd rfl hne
      | _ => rfl
    exact hdecode.trans (by rw [ha]; rfl)

@[simp] theorem nullableText_returns (o : Option String) : (nullable text).Returns o :=
  nullable_returns fun s _ => ⟨text_returns s, nofun⟩

@[simp] theorem listOf_returns {c : Codec α} {xs : List α} (h : ∀ a ∈ xs, c.Returns a) :
    (listOf c).Returns xs :=
  Json.mapM_map_eq_some h

@[simp] theorem listOfText_returns (xs : List String) : (listOf text).Returns xs :=
  listOf_returns fun s _ => text_returns s

theorem named_returns [BEq α] {all : List α} {name : α → String} (hn : (all.map name).Nodup)
    {a : α} (ha : a ∈ all) : (named all name).Returns a := by
  have hfind := (find?_eq_some_iff_of_nodup hn (name a) a).mpr ⟨ha, rfl⟩
  exact hfind

section Legible

variable {d : Nat}

@[simp] theorem legible_text (s : String) : Legible d (text.encode s) := trivial

@[simp] theorem legible_flag (b : Bool) : Legible d (flag.encode b) := trivial

@[simp] theorem legible_character (c : Char) : Legible d (character.encode c) := trivial

@[simp] theorem legible_named [BEq α] (all : List α) (name : α → String) (a : α) :
    Legible d ((named all name).encode a) := trivial

theorem legible_natBelow (bound : Nat) {n : Nat} (h : n < UInt64.size) :
    Legible d ((natBelow bound).encode n) := by
  have hsize : UInt64.size = 0x10000000000000000 := rfl
  have hfits : Json.IntFits n := ⟨by omega, by omega⟩
  exact hfits

@[simp] theorem legible_word8 (n : UInt8) : Legible d (word8.encode n) :=
  legible_natBelow UInt8.size (Nat.lt_trans n.toNat_lt_size (by decide))

@[simp] theorem legible_word32 (n : UInt32) : Legible d (word32.encode n) :=
  legible_natBelow UInt32.size (Nat.lt_trans n.toNat_lt_size (by decide))

@[simp] theorem legible_int32 (n : Int32) : Legible d (int32.encode n) := by
  have hlow := n.le_toInt
  have hhigh := n.toInt_lt
  have hfits : Json.IntFits n.toInt := ⟨by omega, by omega⟩
  exact hfits

theorem isFinite_of_faithful {x : Float} (h : faithful x = true) : x.isFinite = true :=
  (Bool.and_eq_true_iff.mp h).1

theorem legible_number {x : Float} (h : faithful x = true) : Legible d (number.encode x) := by
  simp only [number, if_pos (isFinite_of_faithful h)]
  exact h

theorem legible_nullable {c : Codec α} {o : Option α} (h : ∀ a ∈ o, Legible d (c.encode a)) :
    Legible d ((nullable c).encode o) := by
  cases o with
  | none => trivial
  | some a => exact h a rfl

@[simp] theorem legible_nullableText (o : Option String) :
    Legible d ((nullable text).encode o) := legible_nullable fun s _ => legible_text s

theorem legible_listOf {c : Codec α} {xs : List α} (hd : d < depthLimit)
    (h : ∀ a ∈ xs, Legible (d + 1) (c.encode a)) : Legible d ((listOf c).encode xs) := by
  refine ⟨hd, (Json.legibleItems_iff _ _).mpr fun j hj => ?_⟩
  obtain ⟨a, ha, rfl⟩ := List.mem_map.mp hj
  exact h a ha

theorem legible_listOfText (hd : d < depthLimit) (xs : List String) :
    Legible d ((listOf text).encode xs) := legible_listOf hd fun s _ => legible_text s

theorem legible_dict_empty (hd : d < depthLimit) (c : Codec α) : Legible d ((dict c).encode ∅) :=
  ⟨hd, trivial⟩

end Legible

end Codec

namespace Field

variable {ρ β : Type}

@[simp] theorem of_name (name : String) (p : Presence) (c : Codec β) (get : ρ → β)
    (set : ρ → β → ρ) : (Field.of name p c get set).name = name := rfl

@[simp] theorem of_write (name : String) (p : Presence) (c : Codec β) (get : ρ → β)
    (set : ρ → β → ρ) (r : ρ) : (Field.of name p c get set).write r = c.encode (get r) := rfl

theorem read_of_decode {c : Codec β} {j : Json} {b : β} (h : c.decode j = some b) (name : String)
    (p : Presence) (get : ρ → β) (set : ρ → β → ρ) (q : ρ) :
    (Field.of name p c get set).read j q = some (set q b) :=
  congrArg (Option.map (set q)) h

theorem read_encode {c : Codec β} {b : β} (h : c.Returns b) (name : String) (p : Presence)
    (get : ρ → β) (set : ρ → β → ρ) (q : ρ) :
    (Field.of name p c get set).read (c.encode b) q = some (set q b) :=
  read_of_decode h name p get set q

end Field

namespace Schema

variable {ρ : Type} {s : Schema ρ} {r : ρ}

def members (s : Schema ρ) (r : ρ) : List (String × Json) :=
  s.fields.map fun f => (f.name, f.write r)

theorem map_fst_members (s : Schema ρ) (r : ρ) :
    (s.members r).map Prod.fst = s.fields.map Field.name := by
  simp [members]

theorem repeated_eq (ms : List (String × Json)) (f : Field ρ) :
    repeated ms f = decide (1 < (ms.map Prod.fst).count f.name) := by
  rw [repeated, List.count, List.countP_map, List.countP_eq_length_filter]
  rfl

theorem any_repeated_of_nodup {ms : List (String × Json)} (hn : (ms.map Prod.fst).Nodup) :
    s.fields.any (repeated ms) = false := by
  refine List.any_eq_false.mpr fun f _ => ?_
  rw [repeated_eq, decide_eq_true_eq]
  exact Nat.not_lt.mpr (List.nodup_iff_count_le_one.mp hn f.name)

theorem foldlM_congr {fs : List (Field ρ)} {read read' : ρ → Field ρ → Option ρ}
    (h : ∀ f ∈ fs, ∀ q, read q f = read' q f) (q : ρ) : fs.foldlM read q = fs.foldlM read' q := by
  induction fs generalizing q with
  | nil => rfl
  | cons f fs ih =>
    obtain ⟨hf, hfs⟩ := List.forall_mem_cons.mp h
    rw [List.foldlM_cons, List.foldlM_cons, hf q]
    exact congrArg _ (funext (ih hfs))

theorem lookupIn_members (hn : (s.fields.map Field.name).Nodup) {f : Field ρ}
    (hf : f ∈ s.fields) : Dict.lookupIn f.name (s.members r) = some (f.write r) :=
  Dict.lookupIn_of_nodup (by rwa [map_fst_members]) (List.mem_map.mpr ⟨f, hf, rfl⟩)

theorem foldlM_readMember (hn : (s.fields.map Field.name).Nodup) (q : ρ) :
    s.fields.foldlM (readMember (s.members r)) q =
      s.fields.foldlM (fun q f => f.read (f.write r) q) q := by
  refine foldlM_congr (fun f hf q => ?_) q
  rw [readMember, lookupIn_members hn hf]

/-- A record comes back when its fields, read one after the other, make it up. -/
theorem codec_returns (hn : (s.fields.map Field.name).Nodup)
    (h : s.fields.foldlM (fun q f => f.read (f.write r) q) s.blank = some r) :
    s.codec.Returns r := by
  have hdecode : (if s.fields.any (repeated (s.members r)) then none
      else s.fields.foldlM (readMember (s.members r)) s.blank) = some r := by
    rw [any_repeated_of_nodup (by rwa [map_fst_members]), foldlM_readMember hn, h]
    rfl
  exact hdecode

theorem legible_codec {d : Nat} (hd : d < depthLimit)
    (h : ∀ f ∈ s.fields, Legible (d + 1) (f.write r)) : Legible d (s.codec.encode r) := by
  refine ⟨hd, (Json.legibleMembers_iff _ _).mpr fun m hm => ?_⟩
  obtain ⟨f, hf, rfl⟩ := List.mem_map.mp hm
  exact h f hf

end Schema

theorem Codec.ofText?_pretty {α : Type} {c : Codec α} {a : α} (h : c.Returns a)
    (hl : Legible 0 (c.encode a)) : c.ofText? (c.encode a).pretty = some a := by
  rw [ofText?, Json.ofText?_pretty hl]
  exact h

end TileGrammar
