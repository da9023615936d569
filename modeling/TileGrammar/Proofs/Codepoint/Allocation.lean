import Mathlib.Data.List.Perm.Subperm
import TileGrammar.Codepoint.Allocator

/-!
# Bands fill up from their first codepoint on

One invariant ties the counters to the tiles: the numbers from the start of a
band up to its counter are owned, each by one tile, and no other number is.
A counter that has run off its band is the first number of the next one, so
the invariant needs the guard of the full band. Every run from the fresh
allocator keeps it, and the use of each band is read off it.
-/

set_option autoImplicit false

namespace TileGrammar

namespace Band

theorem all_rank (b : Band) : all[b.rank.val]? = some b := by
  cases b <;> rfl

theorem mem_all (b : Band) : b ∈ all := List.mem_of_getElem? (all_rank b)

theorem rank_injective (b d : Band) (h : b.rank = d.rank) : b = d := by
  have hb := all_rank b
  rw [h, all_rank d] at hb
  exact (Option.some.inj hb).symm

theorem rank_lt (b : Band) : b.rank.val < 12 := b.rank.isLt

theorem last_eq (b : Band) : b.last = b.first + 255 := by
  simp only [last, width]
  omega

theorem first_le_last (b : Band) : b.first ≤ b.last := by
  rw [last_eq]
  omega

theorem last_lt (b : Band) : b.last + 1 < UInt32.size := by
  have hb := b.rank_lt
  rw [last_eq, show UInt32.size = 4294967296 from rfl]
  simp only [first, width]
  omega

theorem eq_of_mem {b d : Band} {n : Nat} (hb : b.first ≤ n) (hbl : n ≤ b.last)
    (hd : d.first ≤ n) (hdl : n ≤ d.last) : b = d := by
  rw [last_eq] at hbl hdl
  simp only [first, width] at hb hbl hd hdl
  exact rank_injective b d (Fin.ext (by omega))

theorem contains_iff (b : Band) (c : Codepoint) :
    b.contains c = true ↔ b.first ≤ c.value.toNat ∧ c.value.toNat ≤ b.last := by
  simp [contains]

end Band

theorem Codepoint.ext_number {c d : Codepoint} (h : c.value.toNat = d.value.toNat) : c = d := by
  obtain ⟨c⟩ := c
  obtain ⟨d⟩ := d
  exact congrArg Codepoint.mk (UInt32.toNat_inj.mp h)

namespace Allocator

def next (a : Allocator) (b : Band) : Codepoint := ⟨UInt32.ofNat (a.counter b)⟩

def give (a : Allocator) (id : String) (b : Band) : Allocator :=
  ⟨a.counters.set b.rank (a.counter b + 1) b.rank_lt, a.assigned.insert id (a.next b)⟩

theorem next_number {a : Allocator} {b : Band} (h : a.counter b ≤ b.last) :
    (a.next b).value.toNat = a.counter b := by
  have hb := b.last_lt
  exact UInt32.toNat_ofNat_of_lt' (by omega)

theorem counter_fresh (b : Band) : fresh.counter b = b.first := by
  simp [counter, fresh, Band.first]

theorem get?_fresh (id : String) : fresh.get? id = none := rfl

theorem counter_give (a : Allocator) (id : String) (b d : Band) :
    (a.give id b).counter d = if b = d then a.counter b + 1 else a.counter d := by
  by_cases h : b = d
  · subst h
    simp [counter, give]
  · have hr : b.rank.val ≠ d.rank.val := fun e => h (Band.rank_injective b d (Fin.ext e))
    simp [counter, give, h, hr]

theorem get?_give (a : Allocator) (id j : String) (b : Band) :
    (a.give id b).get? j = if id = j then some (a.next b) else a.get? j := by
  simp [get?, give]

/-- What a request does: a known tile gets its codepoint, a full band refuses, and otherwise the
next codepoint is given. -/
theorem assign_cases (a : Allocator) (id : String) (b : Band) :
    (∃ c, a.get? id = some c ∧ a.assign id b = .ok (c, a)) ∨
    (a.get? id = none ∧ b.last < a.counter b ∧ a.assign id b = .error (.bandExhausted b)) ∨
    (a.get? id = none ∧ a.counter b ≤ b.last ∧ a.assign id b = .ok (a.next b, a.give id b)) := by
  cases hid : a.get? id with
  | some c => exact .inl ⟨c, rfl, assign_of_get? hid b⟩
  | none =>
    by_cases hb : b.last < a.counter b
    · exact .inr (.inl ⟨rfl, hb, by simp [assign, hid, hb]⟩)
    · exact .inr (.inr ⟨rfl, by omega, by simp [assign, hid, hb, next, give]⟩)

theorem step_cases (a : Allocator) (r : Request) :
    a.step r = a ∨ (a.get? r.1 = none ∧ a.counter r.2 ≤ r.2.last ∧ a.step r = a.give r.1 r.2) := by
  rcases a.assign_cases r.1 r.2 with ⟨c, -, h⟩ | ⟨-, -, h⟩ | ⟨hid, hb, h⟩
  · exact .inl (by simp [step, h])
  · exact .inl (by simp [step, h])
  · exact .inr ⟨hid, hb, by simp [step, h]⟩

/-- The counters are within reach of their bands and tell which numbers are owned. -/
structure Sound (a : Allocator) : Prop where
  first_le : ∀ b, b.first ≤ a.counter b
  counter_le : ∀ b, a.counter b ≤ b.last + 1
  owned_iff : ∀ n, (∃ id c, a.get? id = some c ∧ c.value.toNat = n) ↔
    ∃ b : Band, b.first ≤ n ∧ n < a.counter b
  unique : ∀ id j c, a.get? id = some c → a.get? j = some c → id = j

theorem Sound.mem_band {a : Allocator} (h : a.Sound) {id : String} {c : Codepoint}
    (hc : a.get? id = some c) : ∃ b : Band, b.contains c ∧ c.value.toNat < a.counter b := by
  obtain ⟨b, hf, hn⟩ := (h.owned_iff _).mp ⟨id, c, hc, rfl⟩
  have hl := h.counter_le b
  exact ⟨b, (b.contains_iff c).mpr ⟨hf, by omega⟩, hn⟩

theorem Sound.lt_counter {a : Allocator} (h : a.Sound) {id : String} {c : Codepoint} {b : Band}
    (hc : a.get? id = some c) (hb : b.contains c) : c.value.toNat < a.counter b := by
  obtain ⟨d, hd, hn⟩ := h.mem_band hc
  rw [Band.contains_iff] at hb hd
  rwa [Band.eq_of_mem hb.1 hb.2 hd.1 hd.2]

/-- The number next in turn has no owner. A counter one past its band is owned by the next band
as soon as that one is in use, hence the guard. -/
theorem Sound.next_unowned {a : Allocator} (h : a.Sound) {b : Band} (hb : a.counter b ≤ b.last)
    (j : String) : a.get? j ≠ some (a.next b) := by
  intro hj
  have hc : b.contains (a.next b) := by
    rw [Band.contains_iff, next_number hb]
    exact ⟨h.first_le b, hb⟩
  have hlt := h.lt_counter hj hc
  rw [next_number hb] at hlt
  omega

theorem Sound.contains_of_given {a : Allocator} (h : a.Sound) {id : String} {b : Band}
    {c : Codepoint} (hn : a.get? id = none) (hc : (a.step (id, b)).get? id = some c) :
    b.contains c := by
  rcases a.step_cases (id, b) with hs | ⟨-, hb, hs⟩
  · rw [hs, hn] at hc
    cases hc
  · have hf := h.first_le b
    obtain rfl : a.next b = c := by simpa [hs, get?_give] using hc
    rw [Band.contains_iff, next_number hb]
    exact ⟨hf, hb⟩

theorem fresh_sound : fresh.Sound where
  first_le b := Nat.le_of_eq (counter_fresh b).symm
  counter_le b := by
    rw [counter_fresh, Band.last_eq]
    omega
  owned_iff n := by
    constructor
    · rintro ⟨id, c, hc, -⟩
      simp [get?_fresh] at hc
    · rintro ⟨b, hf, hn⟩
      rw [counter_fresh] at hn
      omega
  unique id j c hc := by simp [get?_fresh] at hc

theorem owned_give_iff {a : Allocator} {id : String} {b : Band} (hid : a.get? id = none)
    (hb : a.counter b ≤ b.last) (n : Nat) :
    (∃ j c, (a.give id b).get? j = some c ∧ c.value.toNat = n) ↔
      n = a.counter b ∨ ∃ j c, a.get? j = some c ∧ c.value.toNat = n := by
  constructor
  · rintro ⟨j, c, hc, rfl⟩
    rw [get?_give] at hc
    split at hc
    next =>
      obtain rfl : a.next b = c := by simpa using hc
      exact .inl (next_number hb)
    next => exact .inr ⟨j, c, hc, rfl⟩
  · rintro (rfl | ⟨j, c, hc, hn⟩)
    · exact ⟨id, a.next b, by rw [get?_give, if_pos rfl], next_number hb⟩
    · have hj : id ≠ j := by
        rintro rfl
        simp [hid] at hc
      exact ⟨j, c, by rwa [get?_give, if_neg hj], hn⟩

theorem reached_give_iff {a : Allocator} {id : String} {b : Band} (hf : b.first ≤ a.counter b)
    (n : Nat) : (∃ d : Band, d.first ≤ n ∧ n < (a.give id b).counter d) ↔
      n = a.counter b ∨ ∃ d : Band, d.first ≤ n ∧ n < a.counter d := by
  constructor
  · rintro ⟨d, hd, hn⟩
    rw [counter_give] at hn
    split at hn
    next e =>
      subst e
      by_cases he : n = a.counter b
      · exact .inl he
      · exact .inr ⟨b, hd, by omega⟩
    next => exact .inr ⟨d, hd, hn⟩
  · rintro (rfl | ⟨d, hd, hn⟩)
    · exact ⟨b, hf, by rw [counter_give, if_pos rfl]; omega⟩
    · refine ⟨d, hd, ?_⟩
      rw [counter_give]
      split
      next e =>
        subst e
        omega
      next => exact hn

theorem Sound.give {a : Allocator} (h : a.Sound) {id : String} {b : Band}
    (hid : a.get? id = none) (hb : a.counter b ≤ b.last) : (a.give id b).Sound where
  first_le d := by
    have hd := h.first_le d
    rw [counter_give]
    split
    next e =>
      subst e
      omega
    next => exact hd
  counter_le d := by
    have hd := h.counter_le d
    rw [counter_give]
    split
    next e =>
      subst e
      omega
    next => exact hd
  owned_iff n := by
    rw [owned_give_iff hid hb, reached_give_iff (h.first_le b), h.owned_iff]
  unique i j c hi hj := by
    have hfree := h.next_unowned hb
    rw [get?_give] at hi hj
    split at hi <;> split at hj
    next ei ej => exact ei.symm.trans ej
    next => exact absurd (hj.trans hi.symm) (hfree j)
    next => exact absurd (hi.trans hj.symm) (hfree i)
    next => exact h.unique i j c hi hj

theorem Sound.step {a : Allocator} (h : a.Sound) (r : Request) : (a.step r).Sound := by
  rcases a.step_cases r with hs | ⟨hid, hb, hs⟩
  · rwa [hs]
  · rw [hs]
    exact h.give hid hb

theorem Sound.run {a : Allocator} (h : a.Sound) (rs : List Request) : (a.run rs).Sound := by
  induction rs generalizing a with
  | nil => exact h
  | cons r rs ih => exact ih (h.step r)

theorem fresh_run_sound (rs : List Request) : (fresh.run rs).Sound := fresh_sound.run rs

theorem get?_step_of_ne (a : Allocator) {j id : String} (hne : j ≠ id) (b : Band) :
    (a.step (j, b)).get? id = a.get? id := by
  rcases a.step_cases (j, b) with hs | ⟨-, -, hs⟩
  · rw [hs]
  · rw [hs, get?_give, if_neg hne]

theorem get?_step {a : Allocator} {id : String} {c : Codepoint} (h : a.get? id = some c)
    (r : Request) : (a.step r).get? id = some c := by
  by_cases hr : r.1 = id
  · subst hr
    rwa [step_of_get? h]
  · rwa [a.get?_step_of_ne hr]

theorem get?_run {a : Allocator} {id : String} {c : Codepoint} (h : a.get? id = some c)
    (rs : List Request) : (a.run rs).get? id = some c := by
  induction rs generalizing a with
  | nil => exact h
  | cons r rs ih => exact ih (get?_step h r)

def answer (a : Allocator) (r : Request) : Except Error Codepoint :=
  (a.assign r.1 r.2).map Prod.fst

def answers (a : Allocator) : List Request → List (Except Error Codepoint)
  | [] => []
  | r :: rs => a.answer r :: (a.step r).answers rs

theorem answer_eq_ok_iff (a : Allocator) (r : Request) (c : Codepoint) :
    a.answer r = .ok c ↔ (a.step r).get? r.1 = some c := by
  rcases a.assign_cases r.1 r.2 with ⟨d, hd, h⟩ | ⟨hid, -, h⟩ | ⟨-, -, h⟩
  · simp [answer, step, h, hd, Except.map]
  · simp [answer, step, h, hid, Except.map]
  · simp [answer, step, h, get?_give, Except.map]

theorem assign_eq_ok {a d : Allocator} {id : String} {b : Band} {c : Codepoint}
    (h : a.assign id b = .ok (c, d)) : d = a.step (id, b) ∧ d.get? id = some c := by
  have hs : a.step (id, b) = d := by simp [step, h]
  have hc : a.answer (id, b) = .ok c := by simp [answer, h, Except.map]
  rw [answer_eq_ok_iff, hs] at hc
  exact ⟨hs.symm, hc⟩

theorem requested_of_get?_run {a : Allocator} {id : String} {c : Codepoint} {rs : List Request}
    (hn : a.get? id = none) (h : (a.run rs).get? id = some c) : ∃ r ∈ rs, r.1 = id := by
  induction rs generalizing a with
  | nil =>
    rw [show a.run [] = a from rfl, hn] at h
    cases h
  | cons r rs ih =>
    by_cases hr : r.1 = id
    · exact ⟨r, by simp, hr⟩
    · have hs : (a.step r).get? id = none := by rw [a.get?_step_of_ne hr, hn]
      obtain ⟨q, hq, e⟩ := ih hs h
      exact ⟨q, List.mem_cons_of_mem r hq, e⟩

theorem ok_mem_answers_iff (a : Allocator) (rs : List Request) (c : Codepoint) :
    .ok c ∈ a.answers rs ↔ ∃ r ∈ rs, (a.run rs).get? r.1 = some c := by
  induction rs generalizing a with
  | nil => simp [answers]
  | cons r rs ih =>
    rw [answers, List.mem_cons, ih, show a.run (r :: rs) = (a.step r).run rs from rfl]
    constructor
    · rintro (h | ⟨q, hq, h⟩)
      · exact ⟨r, by simp, get?_run ((a.answer_eq_ok_iff r c).mp h.symm) rs⟩
      · exact ⟨q, List.mem_cons_of_mem r hq, h⟩
    · rintro ⟨q, hq, h⟩
      rcases List.mem_cons.mp hq with rfl | hq
      · cases hs : (a.step q).get? q.1 with
        | some d =>
          have hd : some d = some c := (get?_run hs rs).symm.trans h
          rw [hd, ← answer_eq_ok_iff] at hs
          exact .inl hs.symm
        | none =>
          obtain ⟨p, hp, e⟩ := requested_of_get?_run hs h
          exact .inr ⟨p, hp, by rwa [e]⟩
      · exact .inr ⟨q, hq, h⟩

theorem ok_mem_answers_fresh_iff (rs : List Request) (c : Codepoint) :
    .ok c ∈ fresh.answers rs ↔ ∃ id, (fresh.run rs).get? id = some c := by
  rw [ok_mem_answers_iff]
  constructor
  · rintro ⟨r, -, h⟩
    exact ⟨r.1, h⟩
  · rintro ⟨id, h⟩
    obtain ⟨r, hr, rfl⟩ := requested_of_get?_run (get?_fresh id) h
    exact ⟨r, hr, h⟩

theorem mem_assignedIn (a : Allocator) (b : Band) (e : String × Codepoint) :
    e ∈ a.assignedIn b ↔ a.get? e.1 = some e.2 ∧ b.contains e.2 := by
  rw [assignedIn, List.mem_filter, get?, Dict.get?_eq_some_iff]

theorem assignedIn_ordered (a : Allocator) (b : Band) :
    (a.assignedIn b).Pairwise fun e f => e.1 < f.1 := a.assigned.ordered.filter _

theorem assignedIn_ids_nodup (a : Allocator) (b : Band) :
    ((a.assignedIn b).map Prod.fst).Nodup := by
  refine List.pairwise_map.mpr ((a.assignedIn_ordered b).imp fun {e f} hlt he => ?_)
  rw [he] at hlt
  exact String.lt_irrefl _ hlt

theorem Sound.assignedIn_numbers_nodup {a : Allocator} (h : a.Sound) (b : Band) :
    ((a.assignedIn b).map fun e => e.2.value.toNat).Nodup := by
  refine List.pairwise_map.mpr ((a.assignedIn_ordered b).imp_of_mem fun {e f} he hf hlt hn => ?_)
  obtain ⟨hge, -⟩ := (a.mem_assignedIn b e).mp he
  obtain ⟨hgf, -⟩ := (a.mem_assignedIn b f).mp hf
  rw [← Codepoint.ext_number hn] at hgf
  rw [h.unique _ _ _ hge hgf] at hlt
  exact String.lt_irrefl _ hlt

theorem Sound.length_assignedIn {a : Allocator} (h : a.Sound) (b : Band) :
    (a.assignedIn b).length = a.counter b - b.first := by
  have hf := h.first_le b
  have hl := h.counter_le b
  have hp : ((a.assignedIn b).map fun e => e.2.value.toNat).Perm
      (List.range' b.first (a.counter b - b.first)) := by
    apply (List.perm_ext_iff_of_nodup (h.assignedIn_numbers_nodup b) List.nodup_range').mpr
    intro n
    rw [List.mem_map, List.mem_range'_1]
    constructor
    · rintro ⟨e, he, rfl⟩
      obtain ⟨hg, hc⟩ := (a.mem_assignedIn b e).mp he
      have hlt := h.lt_counter hg hc
      rw [Band.contains_iff] at hc
      omega
    · rintro ⟨hfn, hnl⟩
      obtain ⟨id, c, hc, rfl⟩ := (h.owned_iff n).mpr ⟨b, hfn, by omega⟩
      have hb : b.contains c := (b.contains_iff c).mpr ⟨hfn, by omega⟩
      exact ⟨(id, c), (a.mem_assignedIn b (id, c)).mpr ⟨hc, hb⟩, rfl⟩
  simpa using hp.length_eq

theorem Sound.stats {a : Allocator} (h : a.Sound) {b : Band} {u : BandUse}
    (hu : (b, u) ∈ a.stats) :
    u.assigned = (a.assignedIn b).length ∧ u.assigned + u.remaining = u.total := by
  obtain ⟨d, -, e⟩ := List.mem_map.mp hu
  obtain ⟨rfl, rfl⟩ : d = b ∧ a.use d = u := by simpa using e
  have hf := h.first_le d
  have hl := h.counter_le d
  have hw := d.last_eq
  refine ⟨(h.length_assignedIn d).symm, ?_⟩
  simp only [use]
  omega

/-- After any run of requests: the numbers handed out in a band are those from its start up to its
counter, every codepoint handed out belongs to one tile and lies in a band, and the use of the
bands that is reported counts the tiles, without a difference that is cut off at nothing. -/
theorem run_fills_bands (rs : List Request) :
    let a := fresh.run rs
    (∀ b : Band, b.first ≤ b.last ∧ b.first ≤ a.counter b ∧ a.counter b ≤ b.last + 1 ∧
      ∀ n, (∃ c, .ok c ∈ fresh.answers rs ∧ b.contains c ∧ c.value.toNat = n) ↔
        b.first ≤ n ∧ n < a.counter b) ∧
    (∀ c, .ok c ∈ fresh.answers rs ↔ ∃! id, a.get? id = some c) ∧
    (∀ id j c, a.get? id = some c → a.get? j = some c → id = j) ∧
    (∀ id c, a.get? id = some c → ∃ b : Band, b.contains c) ∧
    a.stats.map Prod.fst = Band.all ∧ (∀ b, ∃ u, (b, u) ∈ a.stats) ∧
    (∀ b u, (b, u) ∈ a.stats →
      u.assigned = (a.assignedIn b).length ∧ u.assigned + u.remaining = u.total) := by
  intro a
  have h : a.Sound := fresh_run_sound rs
  refine ⟨fun b => ⟨b.first_le_last, h.first_le b, h.counter_le b, fun n => ?_⟩, fun c => ?_,
    h.unique, fun id c hc => ?_, ?_, fun b => ?_, fun b u hu => h.stats hu⟩
  · constructor
    · rintro ⟨c, hc, hb, rfl⟩
      obtain ⟨id, hid⟩ := (ok_mem_answers_fresh_iff rs c).mp hc
      exact ⟨((b.contains_iff c).mp hb).1, h.lt_counter hid hb⟩
    · rintro ⟨hf, hn⟩
      have hl := h.counter_le b
      obtain ⟨id, c, hc, rfl⟩ := (h.owned_iff n).mpr ⟨b, hf, hn⟩
      have hb : b.contains c := (b.contains_iff c).mpr ⟨hf, by omega⟩
      exact ⟨c, (ok_mem_answers_fresh_iff rs c).mpr ⟨id, hc⟩, hb, rfl⟩
  · rw [ok_mem_answers_fresh_iff]
    constructor
    · rintro ⟨id, hc⟩
      exact ⟨id, hc, fun j hj => h.unique j id c hj hc⟩
    · rintro ⟨id, hc, -⟩
      exact ⟨id, hc⟩
  · obtain ⟨b, hb, -⟩ := h.mem_band hc
    exact ⟨b, hb⟩
  · simp [stats, Function.comp_def]
  · exact ⟨a.use b, List.mem_map.mpr ⟨b, b.mem_all, rfl⟩⟩

end Allocator

end TileGrammar
