import TileGrammar.Proofs.Json.Alike
import TileGrammar.Proofs.Json.Records

/-!
# Reading does not see the order of members

For each codec: alike values are read as the same, or both not at all. In a
record the names are as many on one side as on the other, and a field that is
not repeated is found on both sides or on none.
-/

set_option autoImplicit false

namespace TileGrammar

open Json (Alike AlikeItems AlikeMembers)

namespace Json

theorem AlikeMembers.names_perm : ∀ {ms ns : List (String × Json)}, AlikeMembers ms ns →
    (ms.map Prod.fst).Perm (ns.map Prod.fst)
  | [], _, h => by
    cases h
    exact .nil
  | (k, _) :: _, _, h => by
    cases h with
    | @cons _ _ y _ ns os _ hs =>
      have htail := hs.names_perm
      rw [List.map_append] at htail
      rw [List.map_append, List.map_cons, List.map_cons]
      exact (htail.cons k).trans List.perm_middle.symm

theorem AlikeMembers.eq_nil {ns : List (String × Json)} (h : AlikeMembers [] ns) : ns = [] := by
  cases h
  rfl

theorem AlikeMembers.lookupIn {name : String} : ∀ {ms ns : List (String × Json)},
    AlikeMembers ms ns → (ms.map Prod.fst).count name ≤ 1 →
    Option.Rel Alike (Dict.lookupIn name ms) (Dict.lookupIn name ns)
  | [], _, h, _ => by
    cases h
    exact .none
  | (k, x) :: ms, _, h, hcount => by
    have hperm := h.names_perm
    cases h with
    | @cons _ _ y _ ns os hx hs =>
      rw [Dict.lookupIn, Dict.lookupIn_append, Dict.lookupIn]
      split
      next hk =>
        -- The value found on the right is not shadowed by one in front of it.
        have hns : Dict.lookupIn name ns = none := by
          subst hk
          rw [hperm.count_eq, List.map_append, List.map_cons, List.count_append,
            List.count_cons_self] at hcount
          have hzero : (ns.map Prod.fst).count k = 0 := by omega
          exact Dict.lookupIn_eq_none (List.count_eq_zero.mp hzero)
        rw [hns]
        exact .some hx
      next hk =>
        rw [List.map_cons, List.count_cons_of_ne hk] at hcount
        rw [← Dict.lookupIn_append]
        exact hs.lookupIn hcount

theorem AlikeMembers.of_length_one {ms ns : List (String × Json)} (h : AlikeMembers ms ns)
    (hone : ms.length = 1) :
    ∃ k x y, ms = [(k, x)] ∧ ns = [(k, y)] ∧ Alike x y := by
  obtain ⟨⟨k, x⟩, rfl⟩ := List.length_eq_one_iff.mp hone
  cases h with
  | @cons _ _ y _ ns os hx hs =>
    obtain ⟨rfl, rfl⟩ := List.append_eq_nil_iff.mp hs.eq_nil
    exact ⟨k, x, y, rfl, rfl, hx⟩

end Json

namespace Codec

variable {α β : Type}

def OrderFree (c : Codec α) : Prop := ∀ j k : Json, Alike j k → c.decode j = c.decode k

theorem text_orderFree : text.OrderFree := by
  rintro _ _ ⟨⟩ <;> rfl

theorem flag_orderFree : flag.OrderFree := by
  rintro _ _ ⟨⟩ <;> rfl

theorem natBelow_orderFree (bound : Nat) : (natBelow bound).OrderFree := by
  rintro _ _ ⟨⟩ <;> rfl

theorem OrderFree.via {c : Codec α} (h : c.OrderFree) (write : β → α) (read : α → Option β) :
    (c.via write read).OrderFree := fun j k hjk => congrArg (Option.bind · read) (h j k hjk)

theorem word8_orderFree : word8.OrderFree := OrderFree.via (natBelow_orderFree _) _ _

theorem OrderFree.nullable {c : Codec α} (h : c.OrderFree) : (nullable c).OrderFree := by
  intro j k hjk
  have hmap := congrArg (Option.map some) (h j k hjk)
  cases hjk with
  | null => rfl
  | _ => exact hmap

theorem OrderFree.mapM {c : Codec α} (h : c.OrderFree) : ∀ {xs ys : List Json},
    AlikeItems xs ys → xs.mapM c.decode = ys.mapM c.decode
  | [], _, hs => by
    cases hs
    rfl
  | x :: xs, _, hs => by
    cases hs with
    | @cons _ y _ ys hx hxs => rw [List.mapM_cons, List.mapM_cons, h x y hx, h.mapM hxs]

theorem OrderFree.listOf {c : Codec α} (h : c.OrderFree) : (listOf c).OrderFree := by
  intro j k hjk
  cases hjk with
  | arr hs => exact h.mapM hs
  | _ => rfl

theorem named_decode_obj [BEq α] (all : List α) (name : α → String) {ms : List (String × Json)}
    (h : ms.length ≠ 1) : (named all name).decode (.obj ms) = none := by
  simp only [named]
  split
  next hms => cases hms
  next hms =>
    cases hms
    exact absurd rfl h
  next => rfl

theorem named_orderFree [BEq α] (all : List α) (name : α → String) :
    (named all name).OrderFree := by
  intro j k hjk
  cases hjk with
  | @obj ms ns h =>
    have hlength := h.names_perm.length_eq
    rw [List.length_map, List.length_map] at hlength
    by_cases hone : ms.length = 1
    · obtain ⟨s, x, y, rfl, rfl, hxy⟩ := h.of_length_one hone
      cases hxy <;> rfl
    · rw [named_decode_obj all name hone, named_decode_obj all name (hlength ▸ hone)]
  | _ => rfl

end Codec

namespace Field

variable {ρ β : Type}

def OrderFree (f : Field ρ) : Prop := ∀ j k : Json, Alike j k → f.read j = f.read k

theorem of_orderFree {c : Codec β} (h : c.OrderFree) (name : String) (p : Presence)
    (get : ρ → β) (set : ρ → β → ρ) : (Field.of name p c get set).OrderFree :=
  fun j k hjk => funext fun r => congrArg (Option.map (set r)) (h j k hjk)

end Field

namespace Schema

variable {ρ : Type} {ms ns : List (String × Json)}

theorem repeated_congr (h : AlikeMembers ms ns) (f : Field ρ) :
    repeated ms f = repeated ns f := by
  rw [repeated_eq, repeated_eq, h.names_perm.count_eq]

theorem readMember_congr (h : AlikeMembers ms ns) {f : Field ρ} (hf : f.OrderFree)
    (hone : repeated ms f = false) (r : ρ) : readMember ms r f = readMember ns r f := by
  rw [repeated_eq, decide_eq_false_iff_not, Nat.not_lt] at hone
  have hfound := h.lookupIn hone
  unfold readMember
  generalize Dict.lookupIn f.name ms = o, Dict.lookupIn f.name ns = p at hfound
  cases hfound with
  | none => rfl
  | @some j k hjk => exact congrFun (hf j k hjk) r

theorem readSequence_congr : ∀ {fs : List (Field ρ)}, (∀ f ∈ fs, f.OrderFree) →
    ∀ {js ks : List Json}, AlikeItems js ks → readSequence fs js = readSequence fs ks
  | [], _, js, _, h => by
    cases h <;> rfl
  | f :: fs, hfs, js, _, h => by
    obtain ⟨hf, hfs⟩ := List.forall_mem_cons.mp hfs
    cases h with
    | nil => rfl
    | @cons j k js ks hjk hs =>
      funext r
      rw [readSequence, readSequence, hf j k hjk, readSequence_congr hfs hs]

theorem codec_orderFree {s : Schema ρ} (h : ∀ f ∈ s.fields, f.OrderFree) : s.codec.OrderFree := by
  intro j k hjk
  cases hjk with
  | arr hs => exact congrFun (readSequence_congr h hs) s.blank
  | @obj ms ns hs =>
    have hrepeated : s.fields.any (repeated ms) = s.fields.any (repeated ns) :=
      congrArg s.fields.any (funext (repeated_congr hs))
    simp only [codec, decode, ← hrepeated]
    split
    next => rfl
    next hone =>
      rw [Bool.not_eq_true, List.any_eq_false] at hone
      refine foldlM_congr (fun f hf r => ?_) s.blank
      exact readMember_congr hs (h f hf) (Bool.not_eq_true _ ▸ hone f hf) r
  | _ => rfl

end Schema

end TileGrammar
