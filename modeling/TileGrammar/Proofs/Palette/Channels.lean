import Mathlib.Data.List.Basic
import TileGrammar.Palette.Color
import TileGrammar.Proofs.Text.Bytes
import TileGrammar.Proofs.Text.Hexadecimal

/-!
# Channels and their digits

A channel is read from a pair of characters as a word is: from two digits in
base sixteen, or from a plus mark and one digit. It is written with two small
digits. A list of channels is read pair by pair, and whether the pairs are of
characters or of bytes makes no difference, for what is read has no character
of more than one byte.
-/

set_option autoImplicit false

namespace TileGrammar.Color

/-- Two digits, or a plus mark and one digit. -/
def IsPair (p : Char × Char) : Prop := (p.1 ∈ hexDigits ∨ p.1 = '+') ∧ p.2 ∈ hexDigits

/-- A digit as it is written. A plus mark stands for no sixteens. -/
def smallDigit (c : Char) : Char := if c = '+' then '0' else c.toLower

def channelDigits (v : UInt8) : List Char := (hexLower 2 v.toNat).toList

inductive ReadsAs : List Char → List UInt8 → Prop where
  | nil : ReadsAs [] []
  | cons {high low : Char} {v : UInt8} {cs : List Char} {vs : List UInt8} :
      readChannel? high low = some v → ReadsAs cs vs → ReadsAs (high :: low :: cs) (v :: vs)

def ChannelAt (cs : List Char) (start : Nat) (v : UInt8) : Prop :=
  ∃ ds, TakesBytes start 2 cs ds ∧ readHexWord? 8 ds = some v.toNat

/-- Each two bytes of a text are read as a channel, whatever characters they are of. -/
def ReadsBytes (cs : List Char) (vs : List UInt8) : Prop :=
  byteLength cs = 2 * vs.length ∧ ∀ (i : Nat) (v : UInt8), vs[i]? = some v → ChannelAt cs (2 * i) v

theorem smallDigit_of_mem : ∀ c ∈ hexDigits, smallDigit c = c.toLower :=
  forall_hexDigits (by decide)

theorem readChannel?_eq_some_iff {high low : Char} {v : UInt8} :
    readChannel? high low = some v ↔ SpellsHex [high, low] v.toNat := by
  rw [readChannel?, Option.map_eq_some_iff]
  constructor
  · rintro ⟨n, hn, rfl⟩
    obtain ⟨hspells, hlt⟩ := readHexWord?_eq_some_iff.mp hn
    rwa [UInt8.toNat_ofNat_of_lt' hlt]
  · intro h
    exact ⟨v.toNat, readHexWord?_eq_some_iff.mpr ⟨h, v.toNat_lt⟩, UInt8.ofNat_toNat⟩

theorem of_spellsHex {high low : Char} {n : Nat} (h : SpellsHex [high, low] n) :
    IsPair (high, low) ∧ (hexLower 2 n).toList = [smallDigit high, smallDigit low] := by
  obtain ⟨ds, rfl | heq, ⟨-, hsub⟩, rfl⟩ := h
  · have hhigh : high ∈ hexDigits := hsub (by simp)
    have hlow : low ∈ hexDigits := hsub (by simp)
    rw [smallDigit_of_mem high hhigh, smallDigit_of_mem low hlow]
    exact ⟨⟨.inl hhigh, hlow⟩, toList_hexLower_hexNumber hhigh hlow⟩
  · cases heq
    have hlow : low ∈ hexDigits := hsub (by simp)
    have hzero : hexNumber [low] = hexNumber ['0', low] := by
      rw [hexNumber_pair, show hexValue '0' = 0 from rfl, hexNumber_single, Nat.zero_mul,
        Nat.zero_add]
    rw [smallDigit_of_mem low hlow, hzero]
    exact ⟨⟨.inr rfl, hlow⟩, toList_hexLower_hexNumber (by decide) hlow⟩

theorem spellsHex_of_isPair {high low : Char} (h : IsPair (high, low)) :
    ∃ n < 256, SpellsHex [high, low] n := by
  obtain ⟨hhigh | hhigh, hlow⟩ := h
  · have hsixteens := hexValue_lt high hhigh
    have hones := hexValue_lt low hlow
    have hsub : [high, low] ⊆ hexDigits := by simp [hhigh, hlow]
    refine ⟨hexNumber [high, low], ?_, [high, low], .inl rfl, ⟨by simp, hsub⟩, rfl⟩
    rw [hexNumber_pair]
    omega
  · simp only at hhigh hlow
    have hones := hexValue_lt low hlow
    have hsub : [low] ⊆ hexDigits := by simp [hlow]
    refine ⟨hexNumber [low], ?_, [low], .inr (by rw [hhigh]), ⟨by simp, hsub⟩, rfl⟩
    rw [hexNumber_single]
    omega

theorem of_readChannel? {high low : Char} {v : UInt8} (h : readChannel? high low = some v) :
    IsPair (high, low) ∧ channelDigits v = [smallDigit high, smallDigit low] :=
  of_spellsHex (readChannel?_eq_some_iff.mp h)

theorem exists_readChannel? {high low : Char} (h : IsPair (high, low)) :
    ∃ v, readChannel? high low = some v := by
  obtain ⟨n, hn, hspells⟩ := spellsHex_of_isPair h
  refine ⟨UInt8.ofNat n, readChannel?_eq_some_iff.mpr ?_⟩
  rw [UInt8.toNat_ofNat_of_lt' hn]
  exact hspells

theorem channelDigits_injective : Function.Injective channelDigits := by
  intro v w h
  exact UInt8.toNat_inj.mp (hexLower_injective 2 (String.toList_inj.mp h))

theorem exists_channelDigits_eq (v : UInt8) :
    ∃ high low, channelDigits v = [high, low] ∧ readChannel? high low = some v := by
  have hdigits := toList_hexLower_two v.toNat_lt
  have hread : readHexWord? 8 (hexLower 2 v.toNat).toList = some v.toNat := by
    apply readHexWord?_eq_some
    · simp [hdigits]
    · exact foldDigits_hexLower 2 v.toNat
    · exact v.toNat_lt
  rw [hdigits] at hread
  refine ⟨_, _, hdigits, ?_⟩
  rw [readChannel?, hread, Option.map_some, UInt8.ofNat_toNat]

theorem length_channelDigits (v : UInt8) : (channelDigits v).length = 2 := by
  obtain ⟨high, low, h, -⟩ := exists_channelDigits_eq v
  rw [h]
  rfl

theorem readsAs_channelDigits (vs : List UInt8) : ReadsAs (vs.flatMap channelDigits) vs := by
  induction vs with
  | nil => exact .nil
  | cons v vs ih =>
    obtain ⟨high, low, hdigits, hread⟩ := exists_channelDigits_eq v
    rw [List.flatMap_cons, hdigits]
    exact .cons hread ih

theorem ReadsAs.digits {cs : List Char} {vs : List UInt8} (h : ReadsAs cs vs) :
    vs.flatMap channelDigits = cs.map smallDigit := by
  induction h with
  | nil => rfl
  | cons hv _ ih =>
    rw [List.flatMap_cons, ih, (of_readChannel? hv).2]
    rfl

theorem ReadsAs.pairs {cs : List Char} {vs : List UInt8} (h : ReadsAs cs vs) :
    ∃ pairs : List (Char × Char), pairs.length = vs.length ∧ (∀ p ∈ pairs, IsPair p) ∧
      cs = pairs.flatMap fun p => [p.1, p.2] := by
  induction h with
  | nil => exact ⟨[], rfl, nofun, rfl⟩
  | @cons high low v cs vs hv _ ih =>
    obtain ⟨pairs, hlength, hpairs, rfl⟩ := ih
    refine ⟨(high, low) :: pairs, by simp [hlength], ?_, rfl⟩
    exact List.forall_mem_cons.mpr ⟨(of_readChannel? hv).1, hpairs⟩

theorem exists_readsAs {pairs : List (Char × Char)} (h : ∀ p ∈ pairs, IsPair p) :
    ∃ vs, vs.length = pairs.length ∧ ReadsAs (pairs.flatMap fun p => [p.1, p.2]) vs := by
  induction pairs with
  | nil => exact ⟨[], rfl, .nil⟩
  | cons p pairs ih =>
    obtain ⟨hp, hpairs⟩ := List.forall_mem_cons.mp h
    obtain ⟨v, hv⟩ := exists_readChannel? hp
    obtain ⟨vs, hlength, hvs⟩ := ih hpairs
    exact ⟨v :: vs, by simp [hlength], .cons hv hvs⟩

theorem mem_of_isPair {pairs : List (Char × Char)} (h : ∀ p ∈ pairs, IsPair p) {c : Char}
    (hc : c ∈ pairs.flatMap fun p => [p.1, p.2]) : c ∈ hexDigits ∨ c = '+' := by
  obtain ⟨p, hp, hcp⟩ := List.mem_flatMap.mp hc
  obtain ⟨hfirst, hsecond⟩ := h p hp
  rcases List.mem_pair.mp hcp with rfl | rfl
  · exact hfirst
  · exact .inl hsecond

theorem ReadsAs.mark_notMem {cs : List Char} {vs : List UInt8} (h : ReadsAs cs vs) :
    '#' ∉ cs := by
  obtain ⟨pairs, -, hpairs, rfl⟩ := h.pairs
  intro hmark
  exact absurd (mem_of_isPair hpairs hmark) (by decide)

theorem byteLength_of_spellsHex {cs : List Char} {n : Nat} (h : SpellsHex cs n) :
    byteLength cs = cs.length := by
  have hdigit : ∀ c ∈ hexDigits, c.utf8Size = 1 := forall_hexDigits (by decide)
  apply byteLength_eq_length
  intro c hc
  obtain ⟨ds, rfl | rfl, hds, -⟩ := h
  · exact hdigit c (hds.2 hc)
  · rcases List.mem_cons.mp hc with rfl | hc
    · rfl
    · exact hdigit c (hds.2 hc)

theorem byteLength_of_readChannel? {high low : Char} {v : UInt8}
    (h : readChannel? high low = some v) : byteLength [high, low] = 2 :=
  byteLength_of_spellsHex (readChannel?_eq_some_iff.mp h)

/-- Two bytes that are read as a channel are two characters. -/
theorem channelAt_append_iff {front rest : List Char} {v : UInt8} :
    ChannelAt (front ++ rest) (byteLength front) v ↔
      ∃ high low back, rest = high :: low :: back ∧ readChannel? high low = some v := by
  constructor
  · rintro ⟨ds, htakes, hread⟩
    obtain ⟨hbytes, back, rfl⟩ := takesBytes_append_iff.mp htakes
    obtain ⟨hspells, -⟩ := readHexWord?_eq_some_iff.mp hread
    rw [byteLength_of_spellsHex hspells] at hbytes
    obtain ⟨high, low, rfl⟩ := List.length_eq_two.mp hbytes
    exact ⟨high, low, back, rfl, readChannel?_eq_some_iff.mpr hspells⟩
  · rintro ⟨high, low, back, rfl, hread⟩
    have hspells := readChannel?_eq_some_iff.mp hread
    refine ⟨[high, low], takesBytes_append_iff.mpr ?_, readHexWord?_eq_some_iff.mpr ?_⟩
    · exact ⟨byteLength_of_readChannel? hread, back, rfl⟩
    · exact ⟨hspells, v.toNat_lt⟩

/-- What is read behind a pair is read where the pair belongs to the front. -/
theorem channelAt_behind_pair {front cs : List Char} {high low : Char} {v : UInt8}
    (hpair : byteLength [high, low] = 2) (i : Nat) :
    ChannelAt (front ++ high :: low :: cs) (byteLength front + 2 * (i + 1)) v ↔
      ChannelAt (front ++ [high, low] ++ cs) (byteLength (front ++ [high, low]) + 2 * i) v := by
  have hplace : byteLength front + 2 * (i + 1) = byteLength (front ++ [high, low]) + 2 * i := by
    rw [byteLength_append, hpair]
    omega
  rw [hplace, List.append_assoc]
  rfl

theorem readsAs_iff_channelAt (front : List Char) {rest : List Char} {vs : List UInt8} :
    ReadsAs rest vs ↔ byteLength rest = 2 * vs.length ∧
      ∀ (i : Nat) (v : UInt8), vs[i]? = some v →
        ChannelAt (front ++ rest) (byteLength front + 2 * i) v := by
  induction vs generalizing front rest with
  | nil =>
    constructor
    · intro h
      cases h
      exact ⟨rfl, nofun⟩
    · rintro ⟨hbytes, -⟩
      rw [eq_nil_of_byteLength hbytes]
      exact .nil
  | cons v vs ih =>
    -- The first pair is taken to the front, and the places of the others begin behind it.
    have hshift : ∀ high low cs, byteLength [high, low] = 2 →
        (ReadsAs cs vs ↔ byteLength (high :: low :: cs) = 2 * (v :: vs).length ∧
          ∀ (i : Nat) (w : UInt8), vs[i]? = some w →
            ChannelAt (front ++ high :: low :: cs) (byteLength front + 2 * (i + 1)) w) := by
      intro high low cs hpair
      have hbytes : byteLength (high :: low :: cs) = 2 + byteLength cs := by
        rw [← hpair, ← byteLength_append]
        rfl
      rw [ih (front ++ [high, low]), hbytes, List.length_cons]
      simp only [channelAt_behind_pair hpair]
      constructor
      · rintro ⟨hlength, hchannels⟩
        exact ⟨by omega, hchannels⟩
      · rintro ⟨hlength, hchannels⟩
        exact ⟨by omega, hchannels⟩
    constructor
    · intro h
      cases h with
      | @cons high low _ cs _ hread hreads =>
        obtain ⟨hbytes, hchannels⟩ :=
          (hshift high low cs (byteLength_of_readChannel? hread)).mp hreads
        refine ⟨hbytes, fun i w hw => ?_⟩
        cases i with
        | zero =>
          obtain rfl : v = w := by simpa using hw
          exact channelAt_append_iff.mpr ⟨high, low, cs, rfl, hread⟩
        | succ i => exact hchannels i w hw
    · rintro ⟨hbytes, hchannels⟩
      obtain ⟨high, low, cs, rfl, hread⟩ := channelAt_append_iff.mp (hchannels 0 v rfl)
      refine .cons hread ((hshift high low cs (byteLength_of_readChannel? hread)).mpr ?_)
      exact ⟨hbytes, fun i w hw => hchannels (i + 1) w hw⟩

theorem readsBytes_iff {cs : List Char} {vs : List UInt8} : ReadsBytes cs vs ↔ ReadsAs cs vs := by
  rw [readsAs_iff_channelAt []]
  simp only [ReadsBytes, byteLength_nil, Nat.zero_add, List.nil_append]

end TileGrammar.Color
