import TileGrammar.Text.Basic

/-!
# Texts and their bytes

A text may be cut at a byte between two characters and not inside of one. So
the characters that take some of its bytes are known, if there are any.
-/

set_option autoImplicit false

namespace TileGrammar

def byteLength (cs : List Char) : Nat := (String.ofList cs).utf8ByteSize

/-- Characters that take the bytes of a text from one on, as many as given. -/
def TakesBytes (start length : Nat) (cs ds : List Char) : Prop :=
  ∃ front back, cs = front ++ ds ++ back ∧ byteLength front = start ∧ byteLength ds = length

theorem byteLength_nil : byteLength [] = 0 := rfl

theorem byteLength_cons (c : Char) (cs : List Char) :
    byteLength (c :: cs) = c.utf8Size + byteLength cs := by
  have hsplit : String.ofList (c :: cs) = String.singleton c ++ String.ofList cs := by
    apply String.toList_inj.mp
    simp
  rw [byteLength, hsplit, String.utf8ByteSize_append, String.utf8ByteSize_singleton, byteLength]

theorem byteLength_append (cs ds : List Char) :
    byteLength (cs ++ ds) = byteLength cs + byteLength ds := by
  rw [byteLength, String.ofList_append, String.utf8ByteSize_append, byteLength, byteLength]

theorem eq_nil_of_byteLength {cs : List Char} (h : byteLength cs = 0) : cs = [] := by
  cases cs with
  | nil => rfl
  | cons c cs =>
    have hpos := c.utf8Size_pos
    rw [byteLength_cons] at h
    omega

/-- The number of its bytes tells where a text was cut. -/
theorem append_inj_of_byteLength {as bs cs ds : List Char} (h : as ++ bs = cs ++ ds)
    (hbytes : byteLength as = byteLength cs) : as = cs ∧ bs = ds := by
  induction as generalizing cs with
  | nil =>
    rw [eq_nil_of_byteLength hbytes.symm] at h ⊢
    exact ⟨rfl, h⟩
  | cons a as ih =>
    cases cs with
    | nil => exact absurd (eq_nil_of_byteLength hbytes) (List.cons_ne_nil a as)
    | cons c cs =>
      obtain ⟨rfl, hrest⟩ := List.cons.inj h
      rw [byteLength_cons, byteLength_cons, Nat.add_left_cancel_iff] at hbytes
      obtain ⟨rfl, rfl⟩ := ih hrest hbytes
      exact ⟨rfl, rfl⟩

theorem takesBytes_append_iff {front rest ds : List Char} {length : Nat} :
    TakesBytes (byteLength front) length (front ++ rest) ds ↔
      byteLength ds = length ∧ ∃ back, rest = ds ++ back := by
  constructor
  · rintro ⟨front', back, heq, hfront, hlength⟩
    rw [List.append_assoc] at heq
    obtain ⟨rfl, hrest⟩ := append_inj_of_byteLength heq hfront.symm
    exact ⟨hlength, back, hrest⟩
  · rintro ⟨hlength, back, rfl⟩
    exact ⟨front, back, (List.append_assoc _ _ _).symm, rfl, hlength⟩

theorem byteLength_eq_length {cs : List Char} (h : ∀ c ∈ cs, c.utf8Size = 1) :
    byteLength cs = cs.length := by
  induction cs with
  | nil => rfl
  | cons c cs ih =>
    obtain ⟨hc, hcs⟩ := List.forall_mem_cons.mp h
    rw [byteLength_cons, hc, ih hcs, List.length_cons, Nat.add_comm]

end TileGrammar
