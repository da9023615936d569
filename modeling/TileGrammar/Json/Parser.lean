import TileGrammar.Decimal.Scaled
import TileGrammar.Json.Basic

/-!
# Reading JSON text

The strict grammar: no comments, no comma before a closing bracket, no raw
control in a string, no leading zero, nothing after the value. Readers take
the text from its first character and give back the rest. What is well formed
and yet no value is read as `unreadable`, so that a field nobody asks for may
hold it.
-/

set_option autoImplicit false

namespace TileGrammar.Json

def isSpace (c : Char) : Bool := c = ' ' || c = '\n' || c = '\t' || c = '\r'

def skipSpaces (cs : List Char) : List Char := cs.dropWhile isSpace

def plainEscape? : Char → Option Char
  | '"' => some '"'
  | '\\' => some '\\'
  | '/' => some '/'
  | 'b' => some '\x08'
  | 'f' => some '\x0c'
  | 'n' => some '\n'
  | 'r' => some '\r'
  | 't' => some '\t'
  | _ => none

/-- The code units of a string up to its closing mark, the last one first. An
escape by number may give a unit that is no character. -/
def readUnits : List Char → List Nat → Option (List Nat × List Char)
  | [], _ => none
  | '"' :: r, units => some (units, r)
  | '\\' :: 'u' :: a :: b :: c :: d :: r, units =>
    match readHex? [a, b, c, d] with
    | some n => readUnits r (n :: units)
    | none => none
  | '\\' :: c :: r, units =>
    match plainEscape? c with
    | some e => readUnits r (e.toNat :: units)
    | none => none
  | c :: r, units => if c < ' ' then none else readUnits r (c.toNat :: units)

/-- Characters of units given last first. A low half stands after its high half. -/
def joinUnits : List Nat → List Char → Option (List Char)
  | [], out => some out
  | u :: units, out =>
    if 0xDC00 ≤ u ∧ u ≤ 0xDFFF then match units with
      | h :: units =>
        if 0xD800 ≤ h ∧ h ≤ 0xDBFF then
          joinUnits units (Char.ofNat (0x10000 + (h - 0xD800) * 0x400 + (u - 0xDC00)) :: out)
        else none
      | [] => none
    else if 0xD800 ≤ u ∧ u ≤ 0xDBFF then none
    else joinUnits units (Char.ofNat u :: out)

def textOfUnits (units : List Nat) : Option String := (joinUnits units []).map String.ofList

def isDigit (c : Char) : Bool := '0' ≤ c && c ≤ '9'

def readWhole : List Char → Option (List Char × List Char)
  | '0' :: r => some (['0'], r)
  | cs => match cs.span isDigit with
    | ([], _) => none
    | (ds, r) => some (ds, r)

/-- A fraction is absent or has at least one digit. -/
def readFraction : List Char → Option (List Char × List Char)
  | '.' :: cs => match cs.span isDigit with
    | ([], _) => none
    | (ds, r) => some (ds, r)
  | cs => some ([], cs)

def readPower (negative : Bool) (cs : List Char) : Option (Int × List Char) :=
  match cs.span isDigit with
  | ([], _) => none
  | (ds, r) =>
    let n : Int := ds.foldl (fun v c => v * 10 + digitValue c) 0
    some (if negative then -n else n, r)

def readExponent : List Char → Option (Option Int × List Char)
  | c :: cs =>
    if c = 'e' || c = 'E' then
      let power := match cs with
        | '+' :: r => readPower false r
        | '-' :: r => readPower true r
        | _ => readPower false cs
      power.map fun p => (some p.1, p.2)
    else some (none, c :: cs)
  | [] => some (none, [])

def readNumeral (cs : List Char) : Option (Numeral × List Char) :=
  let (negative, cs) := match cs with
    | '-' :: r => (true, r)
    | _ => (false, cs)
  (readWhole cs).bind fun (whole, cs) =>
  (readFraction cs).bind fun (fraction, cs) =>
  (readExponent cs).map fun (exponent, cs) =>
  (⟨negative, whole, fraction, exponent.getD 0, fraction.isEmpty && exponent.isNone⟩, cs)

def ofNumeral (n : Numeral) : Json :=
  match n.toInt? with
  | some i => .int i
  | none => match n.toFloat? with
    | some x => .float x
    | none => .unreadable

/-- Lists and objects that enclose a value before it counts as too deep. -/
def depthLimit : Nat := 127

def atDepth (depth : Nat) (j : Json) : Json := if depth < depthLimit then j else .unreadable

/-- An object with a name that is no text cannot be read at all. -/
def ofMembers (ms : List (Option String × Json)) : Json :=
  match ms.mapM fun m => m.1.map fun k => (k, m.2) with
  | some ms => .obj ms
  | none => .unreadable

mutual

def readValue : Nat → Nat → List Char → Option (Json × List Char)
  | 0, _, _ => none
  | fuel + 1, depth, cs => match cs with
    | 'n' :: 'u' :: 'l' :: 'l' :: r => some (.null, r)
    | 't' :: 'r' :: 'u' :: 'e' :: r => some (.bool true, r)
    | 'f' :: 'a' :: 'l' :: 's' :: 'e' :: r => some (.bool false, r)
    | '"' :: r => (readUnits r []).map fun (units, r) =>
      (match textOfUnits units with
        | some s => .str s
        | none => .unreadable, r)
    | '[' :: r => match skipSpaces r with
      | ']' :: r => some (atDepth depth (.arr []), r)
      | r => (readItems fuel (depth + 1) r).map fun (xs, r) => (atDepth depth (.arr xs), r)
    | '{' :: r => match skipSpaces r with
      | '}' :: r => some (atDepth depth (.obj []), r)
      | r => (readMembers fuel (depth + 1) r).map fun (ms, r) => (atDepth depth (ofMembers ms), r)
    | cs => (readNumeral cs).map fun (n, r) => (ofNumeral n, r)

def readItems : Nat → Nat → List Char → Option (List Json × List Char)
  | 0, _, _ => none
  | fuel + 1, depth, cs => match readValue fuel depth cs with
    | none => none
    | some (x, r) => match skipSpaces r with
      | ',' :: r => (readItems fuel depth (skipSpaces r)).map fun (xs, r) => (x :: xs, r)
      | ']' :: r => some ([x], r)
      | _ => none

def readMembers : Nat → Nat → List Char → Option (List (Option String × Json) × List Char)
  | 0, _, _ => none
  | fuel + 1, depth, '"' :: cs => match readUnits cs [] with
    | none => none
    | some (units, r) => match skipSpaces r with
      | ':' :: r => match readValue fuel depth (skipSpaces r) with
        | none => none
        | some (x, r) => match skipSpaces r with
          | ',' :: r => (readMembers fuel depth (skipSpaces r)).map fun (ms, r) =>
            ((textOfUnits units, x) :: ms, r)
          | '}' :: r => some ([(textOfUnits units, x)], r)
          | _ => none
      | _ => none
  | _ + 1, _, _ => none

end

/-- Every step takes a character, and two steps stand for one at most. -/
def ofText? (s : String) : Option Json :=
  let cs := skipSpaces s.toList
  match readValue (2 * cs.length + 2) 0 cs with
  | some (j, r) => if (skipSpaces r).isEmpty then some j else none
  | none => none

end TileGrammar.Json
