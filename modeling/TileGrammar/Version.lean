import TileGrammar.Text.Basic

/-!
# Semantic versions

Three numbers of 64 bits, then identifiers of a pre-release and of a build.
The order is total: a pre-release stands before its release, identifiers made
of digits stand before others, and builds are told apart last.
-/

set_option autoImplicit false

namespace TileGrammar

structure Version where
  major : Nat
  minor : Nat
  patch : Nat
  pre : List (List Char)
  build : List (List Char)
  deriving DecidableEq

namespace Version

def isDigitChar (c : Char) : Bool := '0' ≤ c && c ≤ '9'

def isIdentifierChar (c : Char) : Bool :=
  isDigitChar c || ('a' ≤ c && c ≤ 'z') || ('A' ≤ c && c ≤ 'Z') || c = '-'

def isNumeric (cs : List Char) : Bool := cs.all isDigitChar

/-- No zero in front of other digits. -/
def isPlainNumeral : List Char → Bool
  | '0' :: _ :: _ => false
  | _ => true

def readNumber (cs : List Char) : Option (Nat × List Char) :=
  let (ds, rest) := cs.span isDigitChar
  if isPlainNumeral ds then
    ((readDecimal? ds).filter (· < UInt64.size)).map fun n => (n, rest)
  else none

def expect (c : Char) : List Char → Option (List Char)
  | d :: cs => if d = c then some cs else none
  | [] => none

/-- Identifiers between dots, none of them empty. -/
def readIdentifiers (cs : List Char) : Option (List (List Char) × List Char) :=
  let (text, rest) := cs.span fun c => isIdentifierChar c || c = '.'
  let parts := splitAtChar '.' text
  if parts.any List.isEmpty then none else some (parts, rest)

def readPre : List Char → Option (List (List Char) × List Char)
  | '-' :: cs => (readIdentifiers cs).filter fun p =>
    p.1.all fun i => !isNumeric i || isPlainNumeral i
  | cs => some ([], cs)

def readBuild : List Char → Option (List (List Char) × List Char)
  | '+' :: cs => readIdentifiers cs
  | cs => some ([], cs)

def ofText? (s : String) : Option Version := do
  let (major, cs) ← readNumber s.toList
  let (minor, cs) ← readNumber (← expect '.' cs)
  let (patch, cs) ← readNumber (← expect '.' cs)
  let (pre, cs) ← readPre cs
  let (build, cs) ← readBuild cs
  if cs.isEmpty then some ⟨major, minor, patch, pre, build⟩ else none

def compareText (a b : List Char) : Ordering := compare (String.ofList a) (String.ofList b)

/-- Numerals by value, written without zeros in front. -/
def compareNumerals (a b : List Char) : Ordering :=
  (compare a.length b.length).then (compareText a b)

/-- Identifiers of digits stand before all others. -/
def compareIdentifiers (numerals : List Char → List Char → Ordering) (a b : List Char) : Ordering :=
  match isNumeric a, isNumeric b with
  | true, true => numerals a b
  | true, false => .lt
  | false, true => .gt
  | false, false => compareText a b

def compareLists (identifiers : List Char → List Char → Ordering) :
    List (List Char) → List (List Char) → Ordering
  | [], [] => .eq
  | [], _ :: _ => .lt
  | _ :: _, [] => .gt
  | a :: as, b :: bs => (identifiers a b).then (compareLists identifiers as bs)

def comparePre : List (List Char) → List (List Char) → Ordering
  | [], [] => .eq
  | [], _ :: _ => .gt
  | _ :: _, [] => .lt
  | as, bs => compareLists (compareIdentifiers compareNumerals) as bs

/-- Numerals of a build: by value, then by the number of zeros in front. -/
def comparePadded (a b : List Char) : Ordering :=
  (compareNumerals (a.dropWhile (· = '0')) (b.dropWhile (· = '0'))).then
    (compare a.length b.length)

/-- A version without a build stands for one whose only identifier is empty. -/
def compareBuild (a b : List (List Char)) : Ordering :=
  let parts (i : List (List Char)) := if i.isEmpty then [[]] else i
  compareLists (compareIdentifiers comparePadded) (parts a) (parts b)

def compareTotal (a b : Version) : Ordering :=
  (compare a.major b.major).then <| (compare a.minor b.minor).then <|
    (compare a.patch b.patch).then <| (comparePre a.pre b.pre).then (compareBuild a.build b.build)

end Version

end TileGrammar
