import TileGrammar.Proofs.Codepoint.Allocation

/-!
# Codepoints never move

What a tile owns it keeps through every later run, and asking for it again
changes nothing. A request fails exactly when the tile owns nothing and 256
tiles own codepoints of the band. Such a band stays full, and the failure
leaves the allocator as it was, also where the allocator is written to as the
request goes and a write stays when a later step fails.
-/

set_option autoImplicit false

namespace TileGrammar.Allocator

/-- Different tiles, 256 of them, own codepoints of the band. -/
def Full (a : Allocator) (b : Band) : Prop :=
  ∃ ids : List String, ids.Nodup ∧ ids.length = 256 ∧
    ∀ j ∈ ids, ∃ c, a.get? j = some c ∧ b.contains c

theorem Full.run {a : Allocator} {b : Band} (h : a.Full b) (rs : List Request) :
    (a.run rs).Full b := by
  obtain ⟨ids, hn, hl, ho⟩ := h
  refine ⟨ids, hn, hl, fun j hj => ?_⟩
  obtain ⟨c, hc, hb⟩ := ho j hj
  exact ⟨c, get?_run hc rs, hb⟩

theorem Sound.full_iff {a : Allocator} (h : a.Sound) (b : Band) :
    a.Full b ↔ b.last < a.counter b := by
  have hlast := b.last_eq
  have hle := h.counter_le b
  have hlen := h.length_assignedIn b
  constructor
  · rintro ⟨ids, hn, hl, ho⟩
    have hsub : ids ⊆ (a.assignedIn b).map Prod.fst := by
      intro j hj
      obtain ⟨c, hc, hb⟩ := ho j hj
      exact List.mem_map.mpr ⟨(j, c), (a.mem_assignedIn b (j, c)).mpr ⟨hc, hb⟩, rfl⟩
    have hmost := (List.subperm_of_subset hn hsub).length_le
    rw [List.length_map] at hmost
    omega
  · intro hfull
    refine ⟨(a.assignedIn b).map Prod.fst, a.assignedIn_ids_nodup b, ?_, fun j hj => ?_⟩
    · rw [List.length_map]
      omega
    · obtain ⟨e, he, rfl⟩ := List.mem_map.mp hj
      exact ⟨e.2, (a.mem_assignedIn b e).mp he⟩

theorem Sound.assign_fails_iff {a : Allocator} (h : a.Sound) (id : String) (b : Band) :
    (∃ e, a.assign id b = .error e) ↔ a.get? id = none ∧ a.Full b := by
  rw [h.full_iff]
  rcases a.assign_cases id b with ⟨c, hc, hs⟩ | ⟨hid, hb, hs⟩ | ⟨hid, hb, hs⟩
  · simp [hs, hc]
  · simp [hs, hid, hb]
  · simp [hs, hid, hb]

theorem assign_error {a : Allocator} {id : String} {b : Band} {e : Error}
    (h : a.assign id b = .error e) : e = .bandExhausted b ∧ a.step (id, b) = a := by
  rcases a.assign_cases id b with ⟨c, -, hs⟩ | ⟨-, -, hs⟩ | ⟨-, -, hs⟩
  · cases hs.symm.trans h
  · cases hs.symm.trans h
    exact ⟨rfl, by simp [step, hs]⟩
  · cases hs.symm.trans h

/-- Serves a request by writing to the allocator, the counter before the tile. -/
def assignInPlace (id : String) (b : Band) : EStateM Error Allocator Codepoint := do
  let a ← get
  match a.get? id with
  | some c => return c
  | none =>
    if b.last < a.counter b then throw (.bandExhausted b)
    modify fun d => { d with counters := d.counters.set b.rank (a.counter b + 1) b.rank_lt }
    modify fun d => { d with assigned := d.assigned.insert id (a.next b) }
    return a.next b

theorem assignInPlace_run (a : Allocator) (id : String) (b : Band) :
    (assignInPlace id b).run a = match a.assign id b with
      | .ok (c, d) => .ok c d
      | .error e => .error e a := by
  unfold assignInPlace
  rw [EStateM.run_bind, EStateM.run_get]
  rcases a.assign_cases id b with ⟨c, hc, hs⟩ | ⟨hid, hb, hs⟩ | ⟨hid, hb, hs⟩
  · simp only [hc, hs]
    rfl
  · simp only [hid, hs, if_pos hb]
    rfl
  · simp only [hid, hs, if_neg (Nat.not_lt.mpr hb)]
    rfl

/-- From any reachable allocator: codepoints are kept through every further run and answered
whatever the band, a request fails exactly when its tile owns nothing and the band is full, full
bands stay full, and a request that writes as it goes leaves nothing behind when it fails. -/
theorem run_keeps_codepoints (rs : List Request) :
    let a := fresh.run rs
    (∀ id c, a.get? id = some c → ∀ ss, (a.run ss).get? id = some c ∧
      ∀ b, (a.run ss).assign id b = .ok (c, a.run ss)) ∧
    (∀ id b, (∃ e, a.assign id b = .error e) ↔ a.get? id = none ∧ a.Full b) ∧
    (∀ b, a.Full b → ∀ ss, (a.run ss).Full b) ∧
    (∀ id b e, a.assign id b = .error e →
      e = .bandExhausted b ∧ a.step (id, b) = a ∧ (assignInPlace id b).run a = .error e a) ∧
    (∀ id b c d, a.assign id b = .ok (c, d) → (assignInPlace id b).run a = .ok c d) := by
  intro a
  have h : a.Sound := fresh_run_sound rs
  refine ⟨fun id c hc ss => ?_, h.assign_fails_iff, fun b hb ss => hb.run ss,
    fun id b e he => ?_, fun id b c d hd => ?_⟩
  · have hk : (a.run ss).get? id = some c := get?_run hc ss
    exact ⟨hk, assign_of_get? hk⟩
  · obtain ⟨hb, hs⟩ := assign_error he
    exact ⟨hb, hs, by rw [assignInPlace_run, he]⟩
  · rw [assignInPlace_run, hd]

end TileGrammar.Allocator
