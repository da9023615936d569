import Mathlib.Data.List.Induction
import Mathlib.Data.List.Nodup
import TileGrammar.Proofs.Codepoint.Interchange

/-!
# Bands are served apart

The tiles that ask for codepoints of a band stand in a queue, in the order of
their first requests. The place of a tile alone says what it is answered, as
often as it asks: the first 256 get the codepoints of the band in turn, and
whoever stands behind them is refused. What is asked of other bands, and when,
does not show, as long as the tiles of the band keep to it.
-/

set_option autoImplicit false

namespace TileGrammar

def Band.nth (b : Band) (n : Nat) : Codepoint := ⟨UInt32.ofNat (b.first + n)⟩

theorem Band.nth_number {b : Band} {n : Nat} (h : n < 256) :
    (b.nth n).value.toNat = b.first + n := by
  have hlast := b.last_lt
  rw [b.last_eq] at hlast
  exact UInt32.toNat_ofNat_of_lt' (by omega)

/-- What the tile behind `n` others in the queue of a band is answered. -/
def Band.share (b : Band) (n : Nat) : Except Error Codepoint :=
  if n < 256 then .ok (b.nth n) else .error (.bandExhausted b)

theorem Band.share_of_lt (b : Band) {n : Nat} (h : n < 256) : b.share n = .ok (b.nth n) := if_pos h

theorem Band.share_of_le (b : Band) {n : Nat} (h : 256 ≤ n) :
    b.share n = .error (.bandExhausted b) := if_neg (Nat.not_lt.mpr h)

namespace Allocator

def requestsFor (b : Band) (rs : List Request) : List Request := rs.filter fun r => r.2 = b

/-- The tiles that ask for a codepoint of a band, each once, in the order of their first
requests. -/
def queue (b : Band) (rs : List Request) : List String :=
  ((requestsFor b rs).map Prod.fst).eraseDups

theorem requestsFor_append (b : Band) (rs ss : List Request) :
    requestsFor b (rs ++ ss) = requestsFor b rs ++ requestsFor b ss := List.filter_append _ _

theorem mem_queue {b : Band} {rs : List Request} {id : String} :
    id ∈ queue b rs ↔ (id, b) ∈ rs := by
  simp [queue, requestsFor]

theorem queue_append (b : Band) (rs ss : List Request) :
    ∃ late, queue b (rs ++ ss) = queue b rs ++ late := by
  rw [queue, requestsFor_append, List.map_append, List.eraseDups_append]
  exact ⟨_, rfl⟩

theorem idxOf_queue_append {b : Band} {rs : List Request} {id : String} (h : id ∈ queue b rs)
    (ss : List Request) : (queue b (rs ++ ss)).idxOf id = (queue b rs).idxOf id := by
  obtain ⟨late, hq⟩ := queue_append b rs ss
  rw [hq, List.idxOf_append_of_mem h]

theorem queue_concat_of_ne (rs : List Request) {r : Request} {b : Band} (h : r.2 ≠ b) :
    queue b (rs ++ [r]) = queue b rs := by
  simp [queue, requestsFor, h]

theorem queue_concat (b : Band) (rs : List Request) (id : String) :
    queue b (rs ++ [(id, b)]) =
      if id ∈ queue b rs then queue b rs else queue b rs ++ [id] := by
  have hlast : requestsFor b [(id, b)] = [(id, b)] := by simp [requestsFor]
  rw [queue, requestsFor_append, List.map_append, List.eraseDups_append, ← queue, hlast]
  by_cases h : id ∈ queue b rs
  · have hasked : id ∈ (requestsFor b rs).map Prod.fst := List.mem_eraseDups.mp h
    simp [h, List.removeAll, hasked]
  · have hasked : id ∉ (requestsFor b rs).map Prod.fst := fun e => h (List.mem_eraseDups.mpr e)
    simp [h, List.removeAll, hasked, List.eraseDups_cons]

theorem nodup_queue (b : Band) (rs : List Request) : (queue b rs).Nodup := by
  induction rs using List.reverseRecOn with
  | nil => exact List.nodup_nil
  | append_singleton rs r ih =>
    obtain ⟨id, d⟩ := r
    by_cases hb : d = b
    · subst hb
      rw [queue_concat]
      split
      next => exact ih
      next h =>
        rw [← List.concat_eq_append]
        exact ih.concat h
    · rw [queue_concat_of_ne rs hb]
      exact ih

theorem idxOf_queue {b : Band} {rs : List Request} {id : String} {n : Nat}
    (h : (queue b rs)[n]? = some id) : (queue b rs).idxOf id = n := by
  obtain ⟨hlt, rfl⟩ := List.getElem?_eq_some_iff.mp h
  exact (nodup_queue b rs).idxOf_getElem n hlt

theorem idxOf_concat_self {ids : List String} {id : String} (h : id ∉ ids) :
    (ids ++ [id]).idxOf id = ids.length := by
  rw [List.idxOf_append_of_notMem h, List.idxOf_cons_self, Nat.add_zero]

/-- The band is handed out to the tiles of a list, in turn and as far as it goes. -/
structure Served (a : Allocator) (b : Band) (ids : List String) : Prop where
  counter_eq : a.counter b = b.first + min ids.length 256
  get?_eq : ∀ id ∈ ids, a.get? id = (b.share (ids.idxOf id)).toOption

theorem fresh_served (b : Band) : fresh.Served b [] where
  counter_eq := counter_fresh b
  get?_eq id h := by cases h

theorem get?_step_self (a : Allocator) (r : Request) :
    (a.step r).get? r.1 = (a.answer r).toOption := by
  apply Option.ext
  intro c
  rw [← a.answer_eq_ok_iff]
  cases a.answer r <;> simp [Except.toOption]

section

variable {a : Allocator} {b : Band} {ids : List String} {id : String}

theorem Served.answer_of_new (h : a.Served b ids) (hnone : a.get? id = none) :
    a.answer (id, b) = b.share ids.length := by
  have hcounter := h.counter_eq
  have hlast := b.last_eq
  rw [answer_eq, hnone]
  by_cases hn : ids.length < 256
  · have hnext : a.counter b = b.first + ids.length := by omega
    have hroom : ¬ b.last < b.first + ids.length := by omega
    simp [b.share_of_lt hn, next, Band.nth, hnext, hroom]
  · have hfull : b.last < a.counter b := by omega
    simp [b.share_of_le (Nat.not_lt.mp hn), hfull]

theorem Served.answer_of_mem (h : a.Served b ids) (hid : id ∈ ids) :
    a.answer (id, b) = b.share (ids.idxOf id) := by
  have hown := h.get?_eq id hid
  have hplace := List.idxOf_lt_length_of_mem hid
  by_cases hn : ids.idxOf id < 256
  · rw [b.share_of_lt hn] at hown ⊢
    exact answer_of_get? hown
  · -- The band was full before its turn came, so it owns nothing and asks as if it were new.
    have hbehind : 256 ≤ ids.idxOf id := Nat.not_lt.mp hn
    rw [b.share_of_le hbehind] at hown ⊢
    rw [h.answer_of_new hown, b.share_of_le (by omega)]

theorem Served.step_of_mem (h : a.Served b ids) (hid : id ∈ ids) : a.step (id, b) = a := by
  have hanswer := h.answer_of_mem hid
  have hown := h.get?_eq id hid
  rw [← hanswer] at hown
  cases he : a.answer (id, b) with
  | ok c =>
    rw [he] at hown
    exact step_of_get? hown
  | error e => exact step_of_answer_error he

theorem Served.step_of_new (h : a.Served b ids) (hid : id ∉ ids) (hnone : a.get? id = none) :
    (a.step (id, b)).Served b (ids ++ [id]) where
  counter_eq := by
    have hcounter := h.counter_eq
    have hlast := b.last_eq
    rw [step_eq, List.length_append, List.length_singleton]
    show (if a.get? id = none ∧ a.counter b ≤ b.last then a.give id b else a).counter b = _
    by_cases hroom : a.counter b ≤ b.last
    · rw [if_pos ⟨hnone, hroom⟩, counter_give, if_pos rfl]
      omega
    · rw [if_neg fun e => hroom e.2]
      omega
  get?_eq j hj := by
    by_cases hold : j ∈ ids
    · have hne : id ≠ j := fun e => hid (e ▸ hold)
      rw [a.get?_step_of_ne hne, List.idxOf_append_of_mem hold]
      exact h.get?_eq j hold
    · have he : j = id := by simpa [hold] using hj
      subst he
      rw [idxOf_concat_self hid, ← h.answer_of_new hnone]
      exact a.get?_step_self (j, b)

theorem Served.step_of_ne (h : a.Served b ids) {r : Request} (hb : r.2 ≠ b) (hid : r.1 ∉ ids) :
    (a.step r).Served b ids where
  counter_eq := (a.counter_step_of_ne hb).trans h.counter_eq
  get?_eq j hj := by
    have hne : r.1 ≠ j := fun e => hid (e ▸ hj)
    rw [a.get?_step_of_ne hne]
    exact h.get?_eq j hj

end

/-- The tiles of a band ask for codepoints of no other one. Where each tile asks in one band only,
this holds of every band. -/
def Loyal (b : Band) (rs : List Request) : Prop :=
  ∀ q ∈ rs, ∀ r ∈ rs, q.1 = r.1 → q.2 = b → r.2 = b

instance (b : Band) (rs : List Request) : Decidable (Loyal b rs) :=
  inferInstanceAs (Decidable (∀ q ∈ rs, ∀ r ∈ rs, q.1 = r.1 → q.2 = b → r.2 = b))

theorem Loyal.sublist {b : Band} {rs ss : List Request} (h : Loyal b ss) (hs : rs.Sublist ss) :
    Loyal b rs :=
  fun q hq r hr => h q (hs.subset hq) r (hs.subset hr)

theorem Loyal.get?_of_new {b : Band} {rs : List Request} {id : String}
    (h : Loyal b (rs ++ [(id, b)])) (hid : id ∉ queue b rs) : (fresh.run rs).get? id = none := by
  by_contra hne
  obtain ⟨c, hc⟩ := Option.ne_none_iff_exists'.mp hne
  obtain ⟨r, hr, rfl⟩ := requested_of_get?_run (get?_fresh id) hc
  have hb : r.2 = b := h (r.1, b) (by simp) r (by simp [hr]) rfl rfl
  subst hb
  exact hid (mem_queue.mpr hr)

/-- After every run of a fresh allocator a band is handed out to its queue. -/
theorem Loyal.run_served {b : Band} {rs : List Request} (h : Loyal b rs) :
    (fresh.run rs).Served b (queue b rs) := by
  -- The queue grows at its end, so the last request is split off.
  induction rs using List.reverseRecOn with
  | nil => exact fresh_served b
  | append_singleton rs r ih =>
    have hs := ih (h.sublist (List.sublist_append_left rs [r]))
    obtain ⟨id, d⟩ := r
    rw [run_append]
    show ((fresh.run rs).step (id, d)).Served b (queue b (rs ++ [(id, d)]))
    by_cases hb : d = b
    · subst hb
      rw [queue_concat]
      by_cases hid : id ∈ queue d rs
      · rw [if_pos hid, hs.step_of_mem hid]
        exact hs
      · rw [if_neg hid]
        exact hs.step_of_new hid (h.get?_of_new hid)
    · have hid : id ∉ queue b rs := fun hq =>
        hb (h (id, b) (by simp [mem_queue.mp hq]) (id, d) (by simp) rfl rfl)
      rw [queue_concat_of_ne rs hb]
      exact hs.step_of_ne hb hid

theorem Loyal.answer_run {b : Band} {rs : List Request} {id : String}
    (h : Loyal b (rs ++ [(id, b)])) :
    (fresh.run rs).answer (id, b) = b.share ((queue b (rs ++ [(id, b)])).idxOf id) := by
  have hs := (h.sublist (List.sublist_append_left rs _)).run_served
  rw [queue_concat]
  by_cases hid : id ∈ queue b rs
  · rw [if_pos hid]
    exact hs.answer_of_mem hid
  · rw [if_neg hid, idxOf_concat_self hid]
    exact hs.answer_of_new (h.get?_of_new hid)

theorem getElem?_answers (a : Allocator) (rs : List Request) (i : Nat) :
    (a.answers rs)[i]? = rs[i]?.map fun r => (a.run (rs.take i)).answer r := by
  induction rs generalizing a i with
  | nil => simp [answers]
  | cons r rs ih =>
    cases i with
    | zero => simp [answers, run]
    | succ i => exact ih (a.step r) i

theorem length_answers (a : Allocator) (rs : List Request) :
    (a.answers rs).length = rs.length := by
  induction rs generalizing a with
  | nil => rfl
  | cons r rs ih => simp [answers, ih]

theorem Loyal.getElem?_answers {b : Band} {rs : List Request} (h : Loyal b rs) {i : Nat}
    {id : String} (hi : rs[i]? = some (id, b)) :
    (fresh.answers rs)[i]? = some (b.share ((queue b rs).idxOf id)) := by
  have htake : rs.take (i + 1) = rs.take i ++ [(id, b)] := by
    rw [List.take_add_one, hi, Option.toList_some]
  have hloyal : Loyal b (rs.take i ++ [(id, b)]) := by
    rw [← htake]
    exact h.sublist (List.take_sublist (i + 1) rs)
  have hjoined : id ∈ queue b (rs.take i ++ [(id, b)]) := mem_queue.mpr (by simp)
  have hplace := idxOf_queue_append hjoined (rs.drop (i + 1))
  rw [← htake, List.take_append_drop, htake] at hplace
  rw [Allocator.getElem?_answers, hi, Option.map_some, hloyal.answer_run, hplace]

/-- The requests for a band and their answers, in a run of a fresh allocator. -/
def dealings (b : Band) (rs : List Request) : List (Request × Except Error Codepoint) :=
  (rs.zip (fresh.answers rs)).filter fun e => e.1.2 = b

theorem map_fst_dealings (b : Band) (rs : List Request) :
    (dealings b rs).map Prod.fst = requestsFor b rs := by
  have hzip : (rs.zip (fresh.answers rs)).map Prod.fst = rs :=
    List.map_fst_zip (Nat.le_of_eq (length_answers fresh rs).symm)
  calc (dealings b rs).map Prod.fst
      = ((rs.zip (fresh.answers rs)).map Prod.fst).filter fun r => r.2 = b := by
        rw [List.filter_map]
        rfl
    _ = requestsFor b rs := by rw [hzip, requestsFor]

theorem Loyal.eq_share {b : Band} {rs : List Request} (h : Loyal b rs)
    {e : Request × Except Error Codepoint} (he : e ∈ dealings b rs) :
    e = (e.1, b.share ((queue b rs).idxOf e.1.1)) := by
  obtain ⟨hmem, hb⟩ := List.mem_filter.mp he
  obtain ⟨i, hi⟩ := List.mem_iff_getElem?.mp hmem
  obtain ⟨hreq, hanswer⟩ := List.getElem?_zip_eq_some.mp hi
  have hfor : e.1 = (e.1.1, b) := Prod.ext rfl (of_decide_eq_true hb)
  rw [hfor] at hreq
  exact Prod.ext rfl (Option.some.inj (hanswer.symm.trans (h.getElem?_answers hreq)))

theorem Loyal.dealings_eq {b : Band} {rs : List Request} (h : Loyal b rs) :
    dealings b rs =
      (requestsFor b rs).map fun r => (r, b.share ((queue b rs).idxOf r.1)) := by
  rw [← map_fst_dealings, List.map_map]
  calc dealings b rs
      = (dealings b rs).map id := (List.map_id _).symm
    _ = _ := List.map_congr_left fun e he => h.eq_share he

/-- A band whose tiles ask in no other band answers alike in any two runs of a fresh allocator that
have the same requests for it, whatever requests for other bands come in between. The tile behind
`n` others in its queue gets the codepoint `n` places behind the first one if `n < 256`, and is
refused otherwise, each time it asks. -/
theorem bands_are_served_apart (b : Band) (rs : List Request) (h : Loyal b rs) :
    (∀ ss, Loyal b ss → requestsFor b ss = requestsFor b rs → dealings b ss = dealings b rs) ∧
    ∀ (i : Nat) (id : String), rs[i]? = some (id, b) → id ∈ queue b rs ∧
      ∀ n : Nat, (queue b rs)[n]? = some id →
      (n < 256 → ∃ c, (fresh.answers rs)[i]? = some (.ok c) ∧ c.value.toNat = b.first + n) ∧
      (256 ≤ n → (fresh.answers rs)[i]? = some (.error (.bandExhausted b))) := by
  constructor
  · intro ss hss hsame
    rw [hss.dealings_eq, h.dealings_eq, queue, queue, hsame]
  · intro i id hi
    have hid : id ∈ queue b rs := mem_queue.mpr (List.mem_of_getElem? hi)
    refine ⟨hid, fun n hn => ?_⟩
    rw [h.getElem?_answers hi, idxOf_queue hn]
    constructor
    · intro hlt
      rw [b.share_of_lt hlt]
      exact ⟨b.nth n, rfl, Band.nth_number hlt⟩
    · intro hge
      rw [b.share_of_le hge]

theorem bands_are_served_apart_brick :
    let rs : List Request :=
      [("moss", .wall), ("pond", .fluid), ("brick", .wall), ("moss", .wall)]
    let ss : List Request :=
      [("lava", .fluid), ("moss", .wall), ("lava", .door), ("brick", .wall), ("moss", .wall)]
    Loyal .wall rs ∧ Loyal .wall ss ∧ dealings .wall ss = dealings .wall rs ∧
      ∃ c, (fresh.answers rs)[2]? = some (.ok c) ∧ c.value.toNat = 0xE201 := by
  intro rs ss
  have hrs : Loyal .wall rs := by decide
  have hss : Loyal .wall ss := by decide
  obtain ⟨halike, hplaces⟩ := bands_are_served_apart .wall rs hrs
  have hbrick := (hplaces 2 "brick" (by decide)).2 1 (by decide)
  exact ⟨hrs, hss, halike ss hss (by decide), hbrick.1 (by decide)⟩

end Allocator

end TileGrammar
