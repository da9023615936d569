import TileGrammar.Proofs.Codepoint.Allocation
import TileGrammar.Proofs.Order.Overlay

/-!
# What a request reads and writes

A request reads what its tile owns and where the counter of its band stands,
and writes nothing else. So requests for different tiles in different bands
are answered alike in either order and leave the same allocator. Counters
never move back: whoever is refused is refused again, unless the tile has come
by a codepoint of another band since.
-/

set_option autoImplicit false

namespace TileGrammar.Allocator

attribute [ext] Allocator

/-- Requests that share neither tile nor band. -/
def Apart (r q : Request) : Prop := r.1 ≠ q.1 ∧ r.2 ≠ q.2

theorem Apart.symm {r q : Request} (h : Apart r q) : Apart q r := ⟨h.1.symm, h.2.symm⟩

theorem answer_eq (a : Allocator) (r : Request) : a.answer r = match a.get? r.1 with
    | some c => .ok c
    | none =>
      if r.2.last < a.counter r.2 then .error (.bandExhausted r.2) else .ok (a.next r.2) := by
  rcases a.assign_cases r.1 r.2 with ⟨c, hid, h⟩ | ⟨hid, hb, h⟩ | ⟨hid, hb, h⟩
  · simp [answer, h, hid, Except.map]
  · simp [answer, h, hid, hb, Except.map]
  · simp [answer, h, hid, Nat.not_lt.mpr hb, Except.map]

theorem step_eq (a : Allocator) (r : Request) :
    a.step r = if a.get? r.1 = none ∧ a.counter r.2 ≤ r.2.last then a.give r.1 r.2 else a := by
  rcases a.assign_cases r.1 r.2 with ⟨c, hid, h⟩ | ⟨hid, hb, h⟩ | ⟨hid, hb, h⟩
  · simp [step, h, hid]
  · simp [step, h, Nat.not_le.mpr hb]
  · simp [step, h, hid, hb]

theorem answer_congr {a d : Allocator} {r : Request} (hid : d.get? r.1 = a.get? r.1)
    (hb : d.counter r.2 = a.counter r.2) : d.answer r = a.answer r := by
  rw [answer_eq, answer_eq, hid, next, next, hb]

theorem counter_step_of_ne (a : Allocator) {r : Request} {b : Band} (h : r.2 ≠ b) :
    (a.step r).counter b = a.counter b := by
  rcases a.step_cases r with hs | ⟨-, -, hs⟩
  · rw [hs]
  · rw [hs, counter_give, if_neg h]

theorem answer_step_of_apart (a : Allocator) {r q : Request} (h : Apart r q) :
    (a.step q).answer r = a.answer r :=
  answer_congr (a.get?_step_of_ne h.1.symm q.2) (a.counter_step_of_ne h.2.symm)

theorem give_comm (a : Allocator) {r q : Request} (h : Apart r q) :
    (a.give r.1 r.2).give q.1 q.2 = (a.give q.1 q.2).give r.1 r.2 := by
  have hr : (a.give q.1 q.2).counter r.2 = a.counter r.2 := by rw [counter_give, if_neg h.2.symm]
  have hq : (a.give r.1 r.2).counter q.2 = a.counter q.2 := by rw [counter_give, if_neg h.2]
  ext1
  · show (a.counters.set r.2.rank (a.counter r.2 + 1) r.2.rank_lt).set q.2.rank
        ((a.give r.1 r.2).counter q.2 + 1) q.2.rank_lt =
      (a.counters.set q.2.rank (a.counter q.2 + 1) q.2.rank_lt).set r.2.rank
        ((a.give q.1 q.2).counter r.2 + 1) r.2.rank_lt
    rw [hr, hq]
    exact Vector.set_comm _ _ fun e => h.2 (Band.rank_injective _ _ (Fin.ext e))
  · show (a.assigned.insert r.1 (a.next r.2)).insert q.1 ((a.give r.1 r.2).next q.2) =
      (a.assigned.insert q.1 (a.next q.2)).insert r.1 ((a.give q.1 q.2).next r.2)
    rw [next, next, next, next, hr, hq]
    exact a.assigned.insert_comm _ _ h.1

theorem step_comm (a : Allocator) {r q : Request} (h : Apart r q) :
    (a.step r).step q = (a.step q).step r := by
  have hr : (a.step q).get? r.1 = a.get? r.1 ∧ (a.step q).counter r.2 = a.counter r.2 :=
    ⟨a.get?_step_of_ne h.1.symm q.2, a.counter_step_of_ne h.2.symm⟩
  have hq : (a.step r).get? q.1 = a.get? q.1 ∧ (a.step r).counter q.2 = a.counter q.2 :=
    ⟨a.get?_step_of_ne h.1 r.2, a.counter_step_of_ne h.2⟩
  rw [step_eq (a.step r), step_eq (a.step q), hr.1, hr.2, hq.1, hq.2, a.step_eq r, a.step_eq q]
  by_cases hgr : a.get? r.1 = none ∧ a.counter r.2 ≤ r.2.last <;>
    by_cases hgq : a.get? q.1 = none ∧ a.counter q.2 ≤ q.2.last
  · simp only [if_pos hgr, if_pos hgq, a.give_comm h]
  all_goals simp only [hgr, hgq, if_false]

theorem counter_le_step (a : Allocator) (r : Request) (b : Band) :
    a.counter b ≤ (a.step r).counter b := by
  rcases a.step_cases r with hs | ⟨-, -, hs⟩
  · exact Nat.le_of_eq (by rw [hs])
  · rw [hs, counter_give]
    split
    next e =>
      subst e
      omega
    next => exact Nat.le_refl _

theorem counter_le_run (a : Allocator) (rs : List Request) (b : Band) :
    a.counter b ≤ (a.run rs).counter b := by
  induction rs generalizing a with
  | nil => exact Nat.le_refl _
  | cons r rs ih => exact Nat.le_trans (a.counter_le_step r b) (ih (a.step r))

theorem answer_of_get? {a : Allocator} {r : Request} {c : Codepoint} (h : a.get? r.1 = some c) :
    a.answer r = .ok c := by
  rw [answer_eq, h]

theorem get?_of_answer_error {a : Allocator} {r : Request} {e : Error} (h : a.answer r = .error e) :
    a.get? r.1 = none := by
  cases hid : a.get? r.1 with
  | none => rfl
  | some c => cases (answer_of_get? hid).symm.trans h

theorem step_of_answer_error {a : Allocator} {r : Request} {e : Error} (h : a.answer r = .error e) :
    a.step r = a := by
  rw [step_eq, if_neg]
  rintro ⟨hid, hb⟩
  rw [answer_eq, hid] at h
  simp only [if_neg (Nat.not_lt.mpr hb)] at h
  cases h

theorem answer_run_of_ok {a : Allocator} {r : Request} {c : Codepoint} (h : a.answer r = .ok c)
    (rs : List Request) : ((a.step r).run rs).answer r = .ok c :=
  answer_of_get? (get?_run ((a.answer_eq_ok_iff r c).mp h) rs)

theorem answer_run_of_error {a : Allocator} {r : Request} {e : Error} (h : a.answer r = .error e)
    {rs : List Request} (hn : (a.run rs).get? r.1 = none) : (a.run rs).answer r = .error e := by
  have hle := a.counter_le_run rs r.2
  have hid := get?_of_answer_error h
  rw [answer_eq, hid] at h
  rw [answer_eq, hn]
  by_cases hb : r.2.last < a.counter r.2
  · simp only [if_pos hb] at h
    simp only [if_pos (Nat.lt_of_lt_of_le hb hle), h]
  · simp only [if_neg hb] at h
    cases h

theorem step_run_step (a : Allocator) (r : Request) (rs : List Request) :
    ((a.step r).run rs).step r = (a.step r).run rs := by
  cases h : a.answer r with
  | ok c => exact step_of_get? (get?_run ((a.answer_eq_ok_iff r c).mp h) rs)
  | error e =>
    rw [step_of_answer_error h]
    cases hid : (a.run rs).get? r.1 with
    | some c => exact step_of_get? hid
    | none => exact step_of_answer_error (answer_run_of_error h hid)

end TileGrammar.Allocator
