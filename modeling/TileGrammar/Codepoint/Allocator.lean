import TileGrammar.Error

/-!
# Handing out codepoints

Each band has a counter that only moves forward. A tile gets the next
codepoint of its band once and keeps it, whatever band it is asked for later.
A full band is an error and changes nothing. Runs are lists of requests.
-/

set_option autoImplicit false

namespace TileGrammar

structure Allocator where
  /-- The next codepoint of each band, by rank. -/
  counters : Vector Nat 12
  assigned : Dict Codepoint

structure BandUse where
  assigned : Nat
  remaining : Nat
  total : Nat
  deriving DecidableEq

namespace Allocator

def fresh : Allocator := ⟨.ofFn fun i => 0xE000 + Band.width * i, ∅⟩

def counter (a : Allocator) (b : Band) : Nat := a.counters[b.rank]

def get? (a : Allocator) (id : String) : Option Codepoint := a.assigned.get? id

def assign (a : Allocator) (id : String) (b : Band) : Except Error (Codepoint × Allocator) :=
  match a.get? id with
  | some c => .ok (c, a)
  | none =>
    let next := a.counter b
    if b.last < next then .error (.bandExhausted b)
    else
      let c : Codepoint := ⟨UInt32.ofNat next⟩
      .ok (c, ⟨a.counters.set b.rank (next + 1), a.assigned.insert id c⟩)

/-- A request for a codepoint: a tile and a band. -/
abbrev Request := String × Band

/-- The allocator after a request. A refused request leaves it as it was. -/
def step (a : Allocator) (r : Request) : Allocator :=
  match a.assign r.1 r.2 with
  | .ok (_, a) => a
  | .error _ => a

def run (a : Allocator) (rs : List Request) : Allocator := rs.foldl step a

theorem run_append (a : Allocator) (rs ss : List Request) :
    a.run (rs ++ ss) = (a.run rs).run ss := List.foldl_append

theorem assign_of_get? {a : Allocator} {id : String} {c : Codepoint} (h : a.get? id = some c)
    (b : Band) : a.assign id b = .ok (c, a) := by
  simp [assign, h]

theorem step_of_get? {a : Allocator} {r : Request} {c : Codepoint} (h : a.get? r.1 = some c) :
    a.step r = a := by
  simp [step, assign_of_get? h]

/-- The tiles whose codepoint lies in a band, by id. -/
def assignedIn (a : Allocator) (b : Band) : List (String × Codepoint) :=
  a.assigned.entries.filter fun e => b.contains e.2

def use (a : Allocator) (b : Band) : BandUse :=
  ⟨a.counter b - b.first, b.last + 1 - a.counter b, b.last - b.first + 1⟩

def stats (a : Allocator) : List (Band × BandUse) := Band.all.map fun b => (b, a.use b)

end Allocator

end TileGrammar
