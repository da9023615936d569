/-!
# Base64

Bytes written as groups of four letters of six bits each. Only the written
form of a byte string is read: the last group is filled up with padding marks
and its unused bits are zero.
-/

set_option autoImplicit false

namespace TileGrammar.Base64

def sextet? (c : Char) : Option Nat :=
  if 'A' ≤ c ∧ c ≤ 'Z' then some (c.toNat - 'A'.toNat)
  else if 'a' ≤ c ∧ c ≤ 'z' then some (c.toNat - 'a'.toNat + 26)
  else if '0' ≤ c ∧ c ≤ '9' then some (c.toNat - '0'.toNat + 52)
  else if c = '+' then some 62
  else if c = '/' then some 63
  else none

/-- Three bytes of twenty four bits. -/
def pushThree (bytes : Array UInt8) (n : Nat) : Array UInt8 :=
  ((bytes.push (UInt8.ofNat (n / 65536))).push (UInt8.ofNat (n / 256))).push (UInt8.ofNat n)

def readGroups : List Char → Array UInt8 → Option (Array UInt8)
  | [], bytes => some bytes
  | [a, b, '=', '='], bytes => do
    let n := (← sextet? a) * 64 + (← sextet? b)
    if n % 16 = 0 then some (bytes.push (UInt8.ofNat (n / 16))) else none
  | [a, b, c, '='], bytes => do
    let n := ((← sextet? a) * 64 + (← sextet? b)) * 64 + (← sextet? c)
    if n % 4 = 0 then some ((bytes.push (UInt8.ofNat (n / 1024))).push (UInt8.ofNat (n / 4)))
    else none
  | a :: b :: c :: d :: rest, bytes =>
    match sextet? a, sextet? b, sextet? c, sextet? d with
    | some a, some b, some c, some d =>
      readGroups rest (pushThree bytes (((a * 64 + b) * 64 + c) * 64 + d))
    | _, _, _, _ => none
  | _, _ => none

def decode? (s : String) : Option (List UInt8) := (readGroups s.toList #[]).map Array.toList

end TileGrammar.Base64
