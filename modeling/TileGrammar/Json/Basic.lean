import TileGrammar.Order.Dict

/-!
# JSON values

A value keeps the members of an object as written, in order and with names
given twice. `sorted` is the normal form: members in order of names at every
depth, the last of one name alone. A value is settled when it can be read and
is its own normal form, and whatever is read as a value without a type is
settled. Integers and doubles are kept apart, since their texts differ and an
integer field takes no double.
-/

set_option autoImplicit false

namespace TileGrammar

/-- `unreadable` is well formed text that stands for no value: a number beyond
every double, an escape that is half of a pair, a list or object nested too
deep. It may be passed over but not read. -/
inductive Json where
  | null
  | bool (b : Bool)
  | int (i : Int)
  | float (x : Float)
  | str (s : String)
  | arr (items : List Json)
  | obj (members : List (String × Json))
  | unreadable

instance : Inhabited Json := ⟨.null⟩

namespace Json

mutual

def readable : Json → Bool
  | .arr xs => readableItems xs
  | .obj ms => readableMembers ms
  | .unreadable => false
  | _ => true

def readableItems : List Json → Bool
  | [] => true
  | x :: xs => readable x && readableItems xs

def readableMembers : List (String × Json) → Bool
  | [] => true
  | (_, x) :: ms => readable x && readableMembers ms

end

mutual

def sorted : Json → Json
  | .arr xs => .arr (sortedItems xs)
  | .obj ms => .obj (Dict.ofList (sortedMembers ms)).entries
  | .null => .null
  | .bool b => .bool b
  | .int i => .int i
  | .float x => .float x
  | .str s => .str s
  | .unreadable => .unreadable

def sortedItems : List Json → List Json
  | [] => []
  | x :: xs => sorted x :: sortedItems xs

def sortedMembers : List (String × Json) → List (String × Json)
  | [] => []
  | (k, x) :: ms => (k, sorted x) :: sortedMembers ms

end

/-- The value of a text that holds it alone, in normal form. -/
def settled? (j : Json) : Option Json := if j.readable then some j.sorted else none

/-- The value can be read, and reading leaves it as it is. -/
def Settled (j : Json) : Prop := j.settled? = some j

theorem settled_iff {j : Json} : j.Settled ↔ j.readable = true ∧ j.sorted = j := by
  rw [Settled, settled?]
  split
  next h => simp [h]
  next h => simp [h]

theorem readableItems_iff (xs : List Json) : readableItems xs = true ↔ ∀ x ∈ xs, x.readable := by
  induction xs with
  | nil => simp [readableItems]
  | cons x xs ih => simp [readableItems, ih]

theorem readableMembers_iff (ms : List (String × Json)) :
    readableMembers ms = true ↔ ∀ m ∈ ms, m.2.readable := by
  induction ms with
  | nil => simp [readableMembers]
  | cons m ms ih => simp [readableMembers, ih]

theorem sortedItems_eq (xs : List Json) : sortedItems xs = xs.map sorted := by
  induction xs with
  | nil => rfl
  | cons x xs ih => rw [sortedItems, ih, List.map_cons]

theorem sortedMembers_eq (ms : List (String × Json)) :
    sortedMembers ms = ms.map fun m => (m.1, sorted m.2) := by
  induction ms with
  | nil => rfl
  | cons m ms ih => rw [sortedMembers, ih, List.map_cons]

theorem settled_obj_entries {d : Dict Json} (h : ∀ m ∈ d.entries, m.2.Settled) :
    (obj d.entries).Settled := by
  have hmembers : sortedMembers d.entries = d.entries := by
    rw [sortedMembers_eq]
    refine (List.map_congr_left fun m hm => ?_).trans (List.map_id _)
    rw [(settled_iff.mp (h m hm)).2]
    rfl
  refine settled_iff.mpr ⟨?_, ?_⟩
  · exact (readableMembers_iff _).mpr fun m hm => (settled_iff.mp (h m hm)).1
  · rw [sorted, hmembers, Dict.ofList_entries]

mutual

theorem settled_sorted : ∀ {x : Json}, x.readable = true → x.sorted.Settled
  | .null, _ => rfl
  | .bool _, _ => rfl
  | .int _, _ => rfl
  | .float _, _ => rfl
  | .str _, _ => rfl
  | .arr xs, h => by
    have hitems : ∀ x ∈ sortedItems xs, x.Settled := settled_sortedItems h
    rw [sorted, settled_iff, readable, sorted, readableItems_iff, sortedItems_eq (sortedItems xs)]
    refine ⟨fun x hx => (settled_iff.mp (hitems x hx)).1, congrArg arr ?_⟩
    refine (List.map_congr_left fun x hx => ?_).trans (List.map_id _)
    exact (settled_iff.mp (hitems x hx)).2
  | .obj ms, h => by
    have hmembers : ∀ m ∈ sortedMembers ms, m.2.Settled := settled_sortedMembers h
    exact settled_obj_entries fun m hm => hmembers m (Dict.mem_entries_ofList hm)

theorem settled_sortedItems : ∀ {xs : List Json}, readableItems xs = true →
    ∀ x ∈ sortedItems xs, x.Settled
  | [], _ => nofun
  | x :: xs, h => by
    obtain ⟨hx, hxs⟩ := Bool.and_eq_true_iff.mp h
    exact List.forall_mem_cons.mpr ⟨settled_sorted hx, settled_sortedItems hxs⟩

theorem settled_sortedMembers : ∀ {ms : List (String × Json)}, readableMembers ms = true →
    ∀ m ∈ sortedMembers ms, m.2.Settled
  | [], _ => nofun
  | (k, x) :: ms, h => by
    obtain ⟨hx, hms⟩ := Bool.and_eq_true_iff.mp h
    exact List.forall_mem_cons.mpr ⟨settled_sorted hx, settled_sortedMembers hms⟩

end

theorem Settled.of_settled? {j v : Json} (h : j.settled? = some v) : v.Settled := by
  rw [settled?] at h
  split at h
  next hreadable =>
    cases h
    exact settled_sorted hreadable
  next => cases h

def member? (name : String) : Json → Option Json
  | .obj ms => Dict.lookupIn name ms
  | _ => none

/-- Replaces the member of a name, or adds it at the end. -/
def putMember (name : String) (value : Json) : List (String × Json) → List (String × Json)
  | [] => [(name, value)]
  | (k, v) :: ms => if k = name then (k, value) :: ms else (k, v) :: putMember name value ms

end Json

def Dict.Settled (d : Dict Json) : Prop := ∀ k j, d.get? k = some j → j.Settled

/-- A dictionary of values in normal form, as all values are that were read. -/
structure SettledDict extends Dict Json where
  settled : toDict.Settled

namespace SettledDict

instance : EmptyCollection SettledDict := ⟨⟨∅, nofun⟩⟩

theorem ext_get? {d e : SettledDict} (h : ∀ k, d.get? k = e.get? k) : d = e := by
  obtain ⟨d, _⟩ := d
  obtain ⟨e, _⟩ := e
  cases Dict.ext_get? h
  rfl

end SettledDict

end TileGrammar
