import TileGrammar.Text.CaseTable
import TileGrammar.Text.Quoted

/-!
# Letter case

Full case mappings: one character may become several. A lower case sigma has
its final form where it ends a word, that is, where a cased character stands
before it and none after it, characters without weight for case apart.
-/

set_option autoImplicit false

namespace TileGrammar

def shiftIn : List CaseRun → Nat → Option Nat
  | [], _ => none
  | r :: rs, n =>
    if r.first ≤ n ∧ n ≤ r.last ∧ (n - r.first) % r.step = 0 then
      some (Int.toNat (n + r.shift))
    else shiftIn rs n

def sequenceIn : List (Nat × List Nat) → Nat → Option (List Nat)
  | [], _ => none
  | (m, cs) :: rest, n => if m = n then some cs else sequenceIn rest n

def mapCase (runs : List CaseRun) (sequences : List (Nat × List Nat)) (c : Char) : List Char :=
  match sequenceIn sequences c.toNat with
  | some cs => cs.map Char.ofNat
  | none => match shiftIn runs c.toNat with
    | some n => [Char.ofNat n]
    | none => [c]

def lowerChar (c : Char) : List Char := mapCase lowerRuns lowerSequences c

def upperChar (c : Char) : List Char := mapCase upperRuns upperSequences c

def isCased (c : Char) : Bool := inRanges casedRanges c.toNat

def isCaseIgnorable (c : Char) : Bool := inRanges caseIgnorableRanges c.toNat

/-- The next character that counts for case is cased. -/
def meetsCased (cs : List Char) : Bool :=
  match cs.dropWhile isCaseIgnorable with
  | [] => false
  | c :: _ => isCased c

/-- Lower case of a text, given what stands before it from the nearest character on. -/
def lowerAfter : List Char → List Char → List Char
  | _, [] => []
  | before, c :: after =>
    let lowered :=
      if c = 'Σ' then [if meetsCased before && !meetsCased after then 'ς' else 'σ']
      else lowerChar c
    lowered ++ lowerAfter (c :: before) after

def lowerText (s : String) : String := String.ofList (lowerAfter [] s.toList)

theorem mem_lowerAfter {c : Char} (hc : c ≠ 'Σ') (hl : c ∈ lowerChar c) {cs : List Char}
    (h : c ∈ cs) (before : List Char) : c ∈ lowerAfter before cs := by
  induction cs generalizing before with
  | nil => cases h
  | cons d cs ih =>
    rw [lowerAfter, List.mem_append]
    rcases List.mem_cons.mp h with rfl | hd
    · exact .inl (by rwa [if_neg hc])
    · exact .inr (ih hd _)

/-- A character that is its own lower case stays in a text. -/
theorem mem_lowerText {c : Char} (hc : c ≠ 'Σ') (hl : c ∈ lowerChar c) {s : String}
    (h : c ∈ s.toList) : c ∈ (lowerText s).toList := by
  rw [lowerText, String.toList_ofList]
  exact mem_lowerAfter hc hl h []

/-- The first character in upper case and each later one in lower case by itself. -/
def capitalize (s : String) : String :=
  match s.toList with
  | [] => ""
  | c :: cs => String.ofList (upperChar c ++ cs.flatMap lowerChar)

end TileGrammar
