import Mathlib.Data.List.Basic
import TileGrammar.Digest.Sha256
import TileGrammar.Proofs.Text.Digits

/-!
# Texts of one digest

The sixty four digits show all eight words of the chain, and the bytes of a
text show the text. So texts of one digest are the same text, or else they are
two messages that the chain does not tell apart.
-/

set_option autoImplicit false

namespace TileGrammar

theorem byteArray_toList_loop (bs : ByteArray) (i : Nat) (r : List UInt8) :
    ByteArray.toList.loop bs i r = r.reverse ++ bs.data.toList.drop i := by
  induction i, r using ByteArray.toList.loop.induct bs with
  | case1 i r h ih =>
    have hi : i < bs.data.toList.length := h
    have hget : bs.get! i = bs.data.toList[i] := getElem!_pos bs.data i h
    rw [ByteArray.toList.loop, if_pos h, ih, List.reverse_cons, List.append_assoc,
      List.drop_eq_getElem_cons hi, hget]
    rfl
  | case2 i r h =>
    have hdrop : bs.data.toList.drop i = [] := List.drop_eq_nil_of_le (Nat.le_of_not_lt h)
    rw [ByteArray.toList.loop, if_neg h, hdrop, List.append_nil]

theorem byteArray_toList_injective : Function.Injective ByteArray.toList := by
  intro bs cs h
  rw [ByteArray.toList, ByteArray.toList, byteArray_toList_loop, byteArray_toList_loop] at h
  exact ByteArray.ext (Array.toList_inj.mp h)

namespace Sha256

def messageOf (s : String) : List UInt8 := s.toUTF8.toList

/-- Two messages with one chain. -/
def Collision (x y : List UInt8) : Prop := x ≠ y ∧ chainOf x = chainOf y

theorem messageOf_injective : Function.Injective messageOf := fun _ _ h =>
  String.toByteArray_inj.mp (byteArray_toList_injective h)

theorem Chain.words_injective : Function.Injective Chain.words := by
  rintro ⟨⟩ ⟨⟩ h
  simpa [words] using h

def Chain.digits (s : Chain) : List (List Char) := s.words.map fun w => (hexLower 8 w.toNat).toList

theorem Chain.digits_injective : Function.Injective digits := by
  have hword : Function.Injective fun w : UInt32 => (hexLower 8 w.toNat).toList := by
    intro w v h
    exact UInt32.toNat_inj.mp (hexLower_injective 8 (String.toList_inj.mp h))
  exact (List.map_injective_iff.mpr hword).comp words_injective

theorem Chain.map_length_digits (s : Chain) : s.digits.map List.length = List.replicate 8 8 := by
  have hword : ∀ w : UInt32, (hexLower 8 w.toNat).toList.length = 8 := fun w =>
    length_hexLower (by decide) w.toNat_lt
  simp [digits, words, hword]

theorem toList_digest (bytes : List UInt8) :
    (digest bytes).toList = (chainOf bytes).digits.flatten := by
  rw [digest, String.toList_join, List.flatMap_map]
  rfl

theorem digest_eq_iff (x y : List UInt8) : digest x = digest y ↔ chainOf x = chainOf y := by
  rw [← String.toList_inj, toList_digest, toList_digest]
  refine ⟨fun h => Chain.digits_injective ?_, fun h => by rw [h]⟩
  exact List.eq_iff_flatten_eq.mpr ⟨h, by rw [Chain.map_length_digits, Chain.map_length_digits]⟩

theorem digestText_eq_iff (s t : String) :
    digestText s = digestText t ↔ s = t ∨ Collision (messageOf s) (messageOf t) := by
  have hchain : digestText s = digestText t ↔ chainOf (messageOf s) = chainOf (messageOf t) :=
    digest_eq_iff _ _
  rw [hchain]
  constructor
  · intro h
    by_cases hst : s = t
    · exact .inl hst
    · exact .inr ⟨fun hm => hst (messageOf_injective hm), h⟩
  · rintro (rfl | h)
    · rfl
    · exact h.2

end Sha256

end TileGrammar
