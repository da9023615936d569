/-!
# Dictionaries and sorted lists

A dictionary from texts is its list of entries in increasing order of keys.
No key stands twice and the order is fixed, so two dictionaries that answer
every look-up alike are the same list. Main statements: look-up after
insertion and after removal, extensionality, and a dictionary put together
again from its entries. A sorted list without repetition stands for a finite
set in the same way. Its order is given by a key, so that one insertion serves
texts, which are compared by code points, and colours, compared as numbers.
-/

set_option autoImplicit false

namespace TileGrammar

structure Dict (α : Type) where
  entries : List (String × α)
  ordered : entries.Pairwise fun p q => p.1 < q.1

namespace Dict

variable {α β : Type}

def empty : Dict α := ⟨[], .nil⟩

instance : EmptyCollection (Dict α) := ⟨empty⟩

instance : Inhabited (Dict α) := ⟨empty⟩

def lookupIn (k : String) : List (String × α) → Option α
  | [] => none
  | (j, a) :: rest => if j = k then some a else lookupIn k rest

def insertIn (k : String) (a : α) : List (String × α) → List (String × α)
  | [] => [(k, a)]
  | (j, b) :: rest =>
    if k < j then (k, a) :: (j, b) :: rest
    else if k = j then (k, a) :: rest
    else (j, b) :: insertIn k a rest

theorem mem_insertIn {k : String} {a : α} {p : String × α} {es : List (String × α)}
    (h : p ∈ insertIn k a es) : p = (k, a) ∨ p ∈ es := by
  induction es with
  | nil => simpa [insertIn] using h
  | cons e es ih =>
    obtain ⟨j, b⟩ := e
    simp only [insertIn] at h
    split at h
    · simpa using h
    · split at h
      · rcases List.mem_cons.mp h with h | h
        · exact .inl h
        · exact .inr (List.mem_cons_of_mem _ h)
      · rcases List.mem_cons.mp h with h | h
        · exact .inr (by simp [h])
        · rcases ih h with h | h
          · exact .inl h
          · exact .inr (List.mem_cons_of_mem _ h)

theorem insertIn_ordered (k : String) (a : α) (es : List (String × α))
    (h : es.Pairwise fun p q => p.1 < q.1) :
    (insertIn k a es).Pairwise fun p q => p.1 < q.1 := by
  induction es with
  | nil => simp [insertIn]
  | cons e es ih =>
    obtain ⟨j, b⟩ := e
    obtain ⟨hj, hes⟩ := List.pairwise_cons.mp h
    simp only [insertIn]
    split
    next hk =>
      refine List.pairwise_cons.mpr ⟨fun q hq => ?_, h⟩
      rcases List.mem_cons.mp hq with rfl | hq
      · exact hk
      · exact String.lt_trans hk (hj q hq)
    next hk =>
      split
      next he =>
        subst he
        exact List.pairwise_cons.mpr ⟨hj, hes⟩
      next he =>
        refine List.pairwise_cons.mpr ⟨fun q hq => ?_, ih hes⟩
        rcases mem_insertIn hq with rfl | hq
        · rcases Std.lt_trichotomy k j with hl | hl | hl
          · exact absurd hl hk
          · exact absurd hl he
          · exact hl
        · exact hj q hq

def get? (d : Dict α) (k : String) : Option α := lookupIn k d.entries

def insert (d : Dict α) (k : String) (a : α) : Dict α :=
  ⟨insertIn k a d.entries, insertIn_ordered k a d.entries d.ordered⟩

def erase (d : Dict α) (k : String) : Dict α :=
  ⟨d.entries.filter fun e => e.1 ≠ k, d.ordered.filter _⟩

def keys (d : Dict α) : List String := d.entries.map Prod.fst

def values (d : Dict α) : List α := d.entries.map Prod.snd

def size (d : Dict α) : Nat := d.entries.length

def isEmpty (d : Dict α) : Bool := d.entries.isEmpty

def mapEntries (f : String → α → β) (d : Dict α) : Dict β :=
  ⟨d.entries.map fun e => (e.1, f e.1 e.2), by
    rw [List.pairwise_map]
    exact d.ordered⟩

/-- Entries put in one after the other, so that a later one wins. -/
def ofList (es : List (String × α)) : Dict α :=
  es.foldl (fun d e => d.insert e.1 e.2) empty

def insertAll (d : Dict α) (es : List (String × α)) : Dict α :=
  es.foldl (fun d e => d.insert e.1 e.2) d

theorem lookupIn_insertIn (k j : String) (a : α) (es : List (String × α)) :
    lookupIn j (insertIn k a es) = if k = j then some a else lookupIn j es := by
  induction es with
  | nil => simp [insertIn, lookupIn]
  | cons e es ih =>
    obtain ⟨i, b⟩ := e
    simp only [insertIn]
    split
    · simp [lookupIn]
    · split
      next he => subst he; by_cases h : k = j <;> simp [lookupIn, h]
      next he =>
        simp only [lookupIn, ih]
        by_cases h : k = j
        · subst h
          simp [Ne.symm he]
        · simp [h]

@[simp] theorem get?_empty (k : String) : (∅ : Dict α).get? k = none := rfl

@[simp] theorem get?_insert (d : Dict α) (k j : String) (a : α) :
    (d.insert k a).get? j = if k = j then some a else d.get? j :=
  lookupIn_insertIn k j a d.entries

@[simp] theorem get?_erase (d : Dict α) (k j : String) :
    (d.erase k).get? j = if k = j then none else d.get? j := by
  obtain ⟨es, h⟩ := d
  simp only [erase, get?]
  clear h
  induction es with
  | nil => simp [lookupIn]
  | cons e es ih =>
    obtain ⟨i, b⟩ := e
    by_cases hi : i = k
    · subst hi
      by_cases hj : i = j
      · subst hj
        simpa [lookupIn] using ih
      · simpa [lookupIn, hj] using ih
    · by_cases hj : i = j
      · subst hj
        simp [lookupIn, hi, Ne.symm hi]
      · simpa [lookupIn, hi, hj] using ih

theorem lookupIn_eq_some {k : String} {a : α} {es : List (String × α)}
    (h : lookupIn k es = some a) : (k, a) ∈ es := by
  induction es with
  | nil => simp [lookupIn] at h
  | cons e es ih =>
    obtain ⟨j, b⟩ := e
    simp only [lookupIn] at h
    split at h
    next hj => subst hj; simp_all
    next => exact List.mem_cons_of_mem _ (ih h)

theorem lookupIn_of_mem {k : String} {a : α} {es : List (String × α)}
    (ho : es.Pairwise fun p q => p.1 < q.1) (h : (k, a) ∈ es) : lookupIn k es = some a := by
  induction es with
  | nil => simp at h
  | cons e es ih =>
    obtain ⟨j, b⟩ := e
    obtain ⟨hj, hes⟩ := List.pairwise_cons.mp ho
    rcases List.mem_cons.mp h with h | h
    · simp_all [lookupIn]
    · have hlt : j < k := hj _ h
      have hne : j ≠ k := fun he => String.lt_irrefl k (he ▸ hlt)
      simp [lookupIn, hne, ih hes h]

theorem get?_eq_some_iff (d : Dict α) (k : String) (a : α) :
    d.get? k = some a ↔ (k, a) ∈ d.entries :=
  ⟨lookupIn_eq_some, lookupIn_of_mem d.ordered⟩

/-- Ordered entry lists with the same members are the same list. -/
theorem entries_ext {es fs : List (String × α)}
    (he : es.Pairwise fun p q => p.1 < q.1) (hf : fs.Pairwise fun p q => p.1 < q.1)
    (h : ∀ p, p ∈ es ↔ p ∈ fs) : es = fs := by
  induction es generalizing fs with
  | nil =>
    cases fs with
    | nil => rfl
    | cons f fs => exact absurd ((h f).mpr (by simp)) (by simp)
  | cons e es ih =>
    cases fs with
    | nil => exact absurd ((h e).mp (by simp)) (by simp)
    | cons f fs =>
      obtain ⟨he1, he2⟩ := List.pairwise_cons.mp he
      obtain ⟨hf1, hf2⟩ := List.pairwise_cons.mp hf
      have hef : e = f := by
        rcases List.mem_cons.mp ((h e).mp (by simp)) with hm | hm
        · exact hm
        rcases List.mem_cons.mp ((h f).mpr (by simp)) with hn | hn
        · exact hn.symm
        exact absurd (String.lt_trans (he1 f hn) (hf1 e hm)) (String.lt_irrefl _)
      subst hef
      congr 1
      refine ih he2 hf2 fun p => ⟨fun hp => ?_, fun hp => ?_⟩
      · rcases List.mem_cons.mp ((h p).mp (by simp [hp])) with rfl | hm
        · exact absurd (he1 _ hp) (String.lt_irrefl _)
        · exact hm
      · rcases List.mem_cons.mp ((h p).mpr (by simp [hp])) with rfl | hm
        · exact absurd (hf1 _ hp) (String.lt_irrefl _)
        · exact hm

theorem eq_of_entries_eq {d e : Dict α} (h : d.entries = e.entries) : d = e := by
  obtain ⟨es, _⟩ := d
  obtain ⟨fs, _⟩ := e
  cases h
  rfl

theorem ext_get? {d e : Dict α} (h : ∀ k, d.get? k = e.get? k) : d = e := by
  refine eq_of_entries_eq (entries_ext d.ordered e.ordered fun p => ?_)
  rw [← get?_eq_some_iff, ← get?_eq_some_iff, h]

theorem mem_entries_insertAll {d : Dict α} {es : List (String × α)} {p : String × α}
    (h : p ∈ (d.insertAll es).entries) : p ∈ d.entries ∨ p ∈ es := by
  induction es generalizing d with
  | nil => exact .inl h
  | cons e es ih =>
    rcases ih h with hd | hes
    · rcases mem_insertIn hd with rfl | hd
      · exact .inr List.mem_cons_self
      · exact .inl hd
    · exact .inr (List.mem_cons_of_mem e hes)

theorem mem_entries_ofList {es : List (String × α)} {p : String × α}
    (h : p ∈ (ofList es).entries) : p ∈ es :=
  (mem_entries_insertAll h).resolve_left (by simp [empty])

/-- A key behind all others goes to the end. -/
theorem insertIn_of_lt {k : String} {a : α} {es : List (String × α)}
    (h : ∀ e ∈ es, e.1 < k) : insertIn k a es = es ++ [(k, a)] := by
  induction es with
  | nil => rfl
  | cons e es ih =>
    obtain ⟨j, b⟩ := e
    obtain ⟨hj, hes⟩ := List.forall_mem_cons.mp h
    have hne : k ≠ j := fun he => String.lt_irrefl k (he ▸ hj)
    rw [insertIn, if_neg (String.lt_asymm hj), if_neg hne, ih hes, List.cons_append]

theorem entries_insertAll {d : Dict α} {es : List (String × α)}
    (h : (d.entries ++ es).Pairwise fun p q => p.1 < q.1) :
    (d.insertAll es).entries = d.entries ++ es := by
  induction es generalizing d with
  | nil => exact (List.append_nil _).symm
  | cons e es ih =>
    have hlast : (d.insert e.1 e.2).entries = d.entries ++ [e] :=
      insertIn_of_lt fun f hf => (List.pairwise_append.mp h).2.2 f hf e List.mem_cons_self
    have hrest : (d.insertAll (e :: es)) = (d.insert e.1 e.2).insertAll es := rfl
    rw [hrest, ih, hlast, List.append_assoc, List.singleton_append]
    rwa [hlast, List.append_assoc, List.singleton_append]

theorem ofList_entries (d : Dict α) : ofList d.entries = d :=
  eq_of_entries_eq (entries_insertAll d.ordered)

end Dict

section SortedSet

variable {α κ : Type} [LT κ] [DecidableLT κ]

def insertBy (key : α → κ) (x : α) : List α → List α
  | [] => [x]
  | y :: ys =>
    if key x < key y then x :: y :: ys
    else if key y < key x then y :: insertBy key x ys
    else y :: ys

def sortedSetBy (key : α → κ) (xs : List α) : List α :=
  xs.foldl (fun set x => insertBy key x set) []

def sortedTexts (xs : List String) : List String := sortedSetBy id xs

end SortedSet

end TileGrammar
