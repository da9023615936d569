/-!
# Characters and numerals

The characters of the Unicode property White_Space, where a field that holds
nothing else counts as not filled in. Parts of a text between separators:
there is one part more than there are separators, and parts may be empty.
Numerals in base ten and base sixteen, over lists of characters. A reader
gives no number for an empty numeral. Words in base sixteen may carry one
leading plus mark, as colours and codepoints are read with it.
-/

set_option autoImplicit false

namespace TileGrammar

def isBlank (c : Char) : Bool :=
  let n := c.toNat
  (0x09 ≤ n && n ≤ 0x0D) || n == 0x20 || n == 0x85 || n == 0xA0 || n == 0x1680 ||
  (0x2000 ≤ n && n ≤ 0x200A) || n == 0x2028 || n == 0x2029 || n == 0x202F ||
  n == 0x205F || n == 0x3000

def blankText (s : String) : Bool := s.toList.all isBlank

def splitAtChar (sep : Char) : List Char → List (List Char)
  | [] => [[]]
  | c :: cs =>
    if c = sep then [] :: splitAtChar sep cs
    else match splitAtChar sep cs with
      | part :: parts => (c :: part) :: parts
      | [] => [[c]]

theorem splitAtChar_ne_nil (sep : Char) (cs : List Char) : splitAtChar sep cs ≠ [] := by
  cases cs with
  | nil => simp [splitAtChar]
  | cons c cs =>
    simp only [splitAtChar]
    split
    · simp
    · split <;> simp

def decimalDigit? (c : Char) : Option Nat :=
  if '0' ≤ c ∧ c ≤ '9' then some (c.toNat - '0'.toNat) else none

def hexDigit? (c : Char) : Option Nat :=
  if '0' ≤ c ∧ c ≤ '9' then some (c.toNat - '0'.toNat)
  else if 'a' ≤ c ∧ c ≤ 'f' then some (c.toNat - 'a'.toNat + 10)
  else if 'A' ≤ c ∧ c ≤ 'F' then some (c.toNat - 'A'.toNat + 10)
  else none

/-- Value of a digit list read after the digits already worth `n`. -/
def foldDigits (digit? : Char → Option Nat) (base : Nat) : Nat → List Char → Option Nat
  | n, [] => some n
  | n, c :: cs => (digit? c).bind fun d => foldDigits digit? base (n * base + d) cs

def readDecimal? : List Char → Option Nat
  | [] => none
  | cs => foldDigits decimalDigit? 10 0 cs

def readHex? : List Char → Option Nat
  | [] => none
  | cs => foldDigits hexDigit? 16 0 cs

/-- A word below `2 ^ bits` in base sixteen, with or without one plus mark. -/
def readHexWord? (bits : Nat) (cs : List Char) : Option Nat :=
  let digits := match cs with
    | '+' :: r => r
    | _ => cs
  (readHex? digits).filter (· < Nat.pow 2 bits)

def decimal (n : Nat) : String := String.ofList (Nat.toDigits 10 n)

/-- Lower case, padded with zeros to `width`. -/
def hexLower (width n : Nat) : String :=
  String.ofList ((Nat.toDigits 16 n).leftpad width '0')

/-- Upper case, padded with zeros to `width`. -/
def hexUpper (width n : Nat) : String :=
  String.ofList (((Nat.toDigits 16 n).map Char.toUpper).leftpad width '0')

end TileGrammar
