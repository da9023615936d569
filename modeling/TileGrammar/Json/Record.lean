import TileGrammar.Json.Parser
import TileGrammar.Json.Printer

/-!
# Records in JSON

A codec writes a value as JSON and reads it back, or finds that it cannot. A
schema does the same for a record, field by field, starting from a blank
record that holds every default. Fields nobody knows are passed over; a known
field given twice is refused. A record may also stand as the list of its
fields in order, where only fields with a default may be left out at the end.
-/

set_option autoImplicit false

namespace TileGrammar

/-- Where a list of items is read, each value comes from one of them. -/
theorem exists_of_mem_mapM {α β : Type} {read : β → Option α} {ys : List β} {xs : List α}
    (h : ys.mapM read = some xs) {x : α} (hx : x ∈ xs) : ∃ y ∈ ys, read y = some x := by
  induction ys generalizing xs with
  | nil =>
    cases h
    cases hx
  | cons y ys ih =>
    obtain ⟨a, ha, h⟩ := Option.bind_eq_some_iff.mp (List.mapM_cons.symm.trans h)
    obtain ⟨as, has, h⟩ := Option.bind_eq_some_iff.mp h
    cases h
    rcases List.mem_cons.mp hx with rfl | hx
    · exact ⟨y, List.mem_cons_self, ha⟩
    · obtain ⟨z, hz, hread⟩ := ih has hx
      exact ⟨z, List.mem_cons_of_mem y hz, hread⟩

structure Codec (α : Type) where
  encode : α → Json
  decode : Json → Option α

namespace Codec

variable {α β : Type}

def text : Codec String where
  encode := .str
  decode
    | .str s => some s
    | _ => none

def flag : Codec Bool where
  encode := .bool
  decode
    | .bool b => some b
    | _ => none

/-- Whole numbers below `bound`. A double is never one. -/
def natBelow (bound : Nat) : Codec Nat where
  encode n := .int n
  decode
    | .int i => if 0 ≤ i ∧ i < bound then some i.toNat else none
    | _ => none

def via (c : Codec α) (write : β → α) (read : α → Option β) : Codec β where
  encode b := c.encode (write b)
  decode j := (c.decode j).bind read

def word8 : Codec UInt8 := (natBelow UInt8.size).via UInt8.toNat fun n => some (UInt8.ofNat n)

def word32 : Codec UInt32 := (natBelow UInt32.size).via UInt32.toNat fun n => some (UInt32.ofNat n)

def word64 : Codec UInt64 := (natBelow UInt64.size).via UInt64.toNat fun n => some (UInt64.ofNat n)

def int32 : Codec Int32 where
  encode n := .int n.toInt
  decode
    | .int i => if -0x80000000 ≤ i ∧ i < 0x80000000 then some (Int32.ofInt i) else none
    | _ => none

/-- Doubles; an integer is taken for the nearest one. -/
def number : Codec Float where
  encode x := if x.isFinite then .float x else .null
  decode
    | .float x => some x
    | .int i => some (Float.ofInt i)
    | _ => none

def character : Codec Char where
  encode c := .str (String.singleton c)
  decode
    | .str s => match s.toList with
      | [c] => some c
      | _ => none
    | _ => none

def nullable (c : Codec α) : Codec (Option α) where
  encode
    | none => .null
    | some a => c.encode a
  decode
    | .null => some none
    | j => (c.decode j).map some

def listOf (c : Codec α) : Codec (List α) where
  encode xs := .arr (xs.map c.encode)
  decode
    | .arr js => js.mapM c.decode
    | _ => none

def pair (c : Codec α) (d : Codec β) : Codec (α × β) where
  encode p := .arr [c.encode p.1, d.encode p.2]
  decode
    | .arr [x, y] => (c.decode x).bind fun a => (d.decode y).map fun b => (a, b)
    | _ => none

/-- A choice among named values: its name, or an object of that name alone
which holds nothing. -/
def named [BEq α] (all : List α) (name : α → String) : Codec α where
  encode a := .str (name a)
  decode
    | .str s => all.find? fun a => name a == s
    | .obj [(s, .null)] => all.find? fun a => name a == s
    | _ => none

def any : Codec Json where
  encode := Json.sorted
  decode := Json.settled?

/-- Objects with arbitrary names, the last of one name alone. -/
def dict (c : Codec α) : Codec (Dict α) where
  encode d := .obj (d.entries.map fun e => (e.1, c.encode e.2))
  decode
    | .obj ms => (ms.mapM fun m => (c.decode m.2).map fun a => (m.1, a)).map Dict.ofList
    | _ => none

theorem settled_of_decode_dict {d : Dict Json} {j : Json} (h : (dict any).decode j = some d) :
    d.Settled := by
  intro k v hv
  cases j with
  | obj ms =>
    obtain ⟨es, hes, rfl⟩ := Option.map_eq_some_iff.mp h
    have hmem : (k, v) ∈ es := Dict.mem_entries_ofList ((Dict.get?_eq_some_iff _ k v).mp hv)
    obtain ⟨m, -, hm⟩ := exists_of_mem_mapM hes hmem
    obtain ⟨a, ha, he⟩ := Option.map_eq_some_iff.mp hm
    cases he
    exact Json.Settled.of_settled? ha
  | _ => cases h

/-- Objects of any values, which are in normal form once they are read. -/
def settledDict : Codec SettledDict where
  encode d := (dict any).encode d.toDict
  decode j := ((dict any).decode j).pmap (fun d h => ⟨d, h⟩) fun _ h => settled_of_decode_dict h

end Codec

/-- What becomes of a field that is not given. A `nullable` field may be absent
from an object, but not from a list. -/
inductive Presence where
  | required
  | nullable
  | defaulted
  deriving DecidableEq

/-- A field of the record type `ρ`: how it is written, and how a given value
changes the record. -/
structure Field (ρ : Type) where
  name : String
  presence : Presence
  write : ρ → Json
  read : Json → ρ → Option ρ

def Field.of {ρ β : Type} (name : String) (presence : Presence) (c : Codec β) (get : ρ → β)
    (set : ρ → β → ρ) : Field ρ where
  name := name
  presence := presence
  write r := c.encode (get r)
  read j r := (c.decode j).map (set r)

structure Schema (ρ : Type) where
  blank : ρ
  fields : List (Field ρ)

namespace Schema

variable {ρ : Type}

def encode (s : Schema ρ) (r : ρ) : Json := .obj (s.fields.map fun f => (f.name, f.write r))

def readMember (ms : List (String × Json)) (r : ρ) (f : Field ρ) : Option ρ :=
  match Dict.lookupIn f.name ms with
  | some j => f.read j r
  | none => if f.presence = .required then none else some r

def repeated (ms : List (String × Json)) (f : Field ρ) : Bool :=
  1 < (ms.filter fun m => m.1 == f.name).length

def readSequence : List (Field ρ) → List Json → ρ → Option ρ
  | [], [], r => some r
  | [], _ :: _, _ => none
  | f :: fs, [], r => if f.presence = .defaulted then readSequence fs [] r else none
  | f :: fs, j :: js, r => (f.read j r).bind (readSequence fs js)

def decode (s : Schema ρ) : Json → Option ρ
  | .obj ms => if s.fields.any (repeated ms) then none else s.fields.foldlM (readMember ms) s.blank
  | .arr js => readSequence s.fields js s.blank
  | _ => none

def codec (s : Schema ρ) : Codec ρ := ⟨s.encode, s.decode⟩

end Schema

/-- The value a text holds, and nothing else. -/
def Codec.ofText? {α : Type} (c : Codec α) (s : String) : Option α :=
  (Json.ofText? s).bind c.decode

end TileGrammar
