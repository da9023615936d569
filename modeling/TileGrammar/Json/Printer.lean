import TileGrammar.Decimal.Shortest
import TileGrammar.Json.Basic

/-!
# JSON text

Two layouts: without any space, and with one item a line, indented by two
spaces. A writer puts its text in front of a given rest. In a string the mark,
the back slash and the controls below the space are escaped, and nothing else.
-/

set_option autoImplicit false

namespace TileGrammar.Json

def escapedChar (c : Char) : List Char :=
  if c = '"' then ['\\', '"']
  else if c = '\\' then ['\\', '\\']
  else if c = '\n' then ['\\', 'n']
  else if c = '\r' then ['\\', 'r']
  else if c = '\t' then ['\\', 't']
  else if c = '\x08' then ['\\', 'b']
  else if c = '\x0c' then ['\\', 'f']
  else if c.toNat < 0x20 then
    ['\\', 'u', '0', '0', Nat.digitChar (c.toNat / 16), Nat.digitChar (c.toNat % 16)]
  else [c]

def writeText (s : String) (rest : List Char) : List Char :=
  '"' :: s.toList.foldr (fun c r => escapedChar c ++ r) ('"' :: rest)

def intText (i : Int) : List Char :=
  if i < 0 then '-' :: Nat.toDigits 10 i.natAbs else Nat.toDigits 10 i.natAbs

def nullText : List Char := ['n', 'u', 'l', 'l']

/-- The text of a value without parts. A double that is not finite has none. -/
def writeLeaf (rest : List Char) : Json → List Char
  | .bool true => 't' :: 'r' :: 'u' :: 'e' :: rest
  | .bool false => 'f' :: 'a' :: 'l' :: 's' :: 'e' :: rest
  | .int i => intText i ++ rest
  | .float x => (if x.isFinite then floatText x else nullText) ++ rest
  | .str s => writeText s rest
  | _ => nullText ++ rest

mutual

def write : Json → List Char → List Char
  | .arr [], rest => '[' :: ']' :: rest
  | .arr (x :: xs), rest => '[' :: write x (writeItems xs (']' :: rest))
  | .obj [], rest => '{' :: '}' :: rest
  | .obj ((k, x) :: ms), rest =>
    '{' :: writeText k (':' :: write x (writeMembers ms ('}' :: rest)))
  | leaf, rest => writeLeaf rest leaf

def writeItems : List Json → List Char → List Char
  | [], rest => rest
  | x :: xs, rest => ',' :: write x (writeItems xs rest)

def writeMembers : List (String × Json) → List Char → List Char
  | [], rest => rest
  | (k, x) :: ms, rest => ',' :: writeText k (':' :: write x (writeMembers ms rest))

end

def lineBreak (depth : Nat) (rest : List Char) : List Char :=
  '\n' :: (List.replicate (2 * depth) ' ' ++ rest)

mutual

def writeLines : Nat → Json → List Char → List Char
  | _, .arr [], rest => '[' :: ']' :: rest
  | d, .arr (x :: xs), rest =>
    '[' :: lineBreak (d + 1) (writeLines (d + 1) x
      (writeItemLines (d + 1) xs (lineBreak d (']' :: rest))))
  | _, .obj [], rest => '{' :: '}' :: rest
  | d, .obj ((k, x) :: ms), rest =>
    '{' :: lineBreak (d + 1) (writeText k (':' :: ' ' :: writeLines (d + 1) x
      (writeMemberLines (d + 1) ms (lineBreak d ('}' :: rest)))))
  | _, leaf, rest => writeLeaf rest leaf

def writeItemLines : Nat → List Json → List Char → List Char
  | _, [], rest => rest
  | d, x :: xs, rest => ',' :: lineBreak d (writeLines d x (writeItemLines d xs rest))

def writeMemberLines : Nat → List (String × Json) → List Char → List Char
  | _, [], rest => rest
  | d, (k, x) :: ms, rest =>
    ',' :: lineBreak d (writeText k (':' :: ' ' :: writeLines d x (writeMemberLines d ms rest)))

end

def compact (j : Json) : String := String.ofList (j.write [])

def pretty (j : Json) : String := String.ofList (writeLines 0 j [])

/-- One text for all orders of members: sorted at every depth, without spaces. -/
def canonical (j : Json) : String := j.sorted.compact

end TileGrammar.Json
