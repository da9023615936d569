import TileGrammar.Text.Basic

/-!
# SHA-256

The digest of a byte string as sixty four hexadecimal digits. Words are of 32
bits and wrap. The message is closed by one set bit, zeros, and its length in
bits, and is taken in blocks of sixteen words, the first byte of a word being
the highest.
-/

set_option autoImplicit false

namespace TileGrammar.Sha256

/-- Thirty two bits of the fractional parts of the cube roots of the first primes. -/
def roundConstants : List UInt32 := [
  0x428a2f98, 0x71374491, 0xb5c0fbcf, 0xe9b5dba5, 0x3956c25b, 0x59f111f1, 0x923f82a4, 0xab1c5ed5,
  0xd807aa98, 0x12835b01, 0x243185be, 0x550c7dc3, 0x72be5d74, 0x80deb1fe, 0x9bdc06a7, 0xc19bf174,
  0xe49b69c1, 0xefbe4786, 0x0fc19dc6, 0x240ca1cc, 0x2de92c6f, 0x4a7484aa, 0x5cb0a9dc, 0x76f988da,
  0x983e5152, 0xa831c66d, 0xb00327c8, 0xbf597fc7, 0xc6e00bf3, 0xd5a79147, 0x06ca6351, 0x14292967,
  0x27b70a85, 0x2e1b2138, 0x4d2c6dfc, 0x53380d13, 0x650a7354, 0x766a0abb, 0x81c2c92e, 0x92722c85,
  0xa2bfe8a1, 0xa81a664b, 0xc24b8b70, 0xc76c51a3, 0xd192e819, 0xd6990624, 0xf40e3585, 0x106aa070,
  0x19a4c116, 0x1e376c08, 0x2748774c, 0x34b0bcb5, 0x391c0cb3, 0x4ed8aa4a, 0x5b9cca4f, 0x682e6ff3,
  0x748f82ee, 0x78a5636f, 0x84c87814, 0x8cc70208, 0x90befffa, 0xa4506ceb, 0xbef9a3f7, 0xc67178f2]

structure Chain where
  a : UInt32
  b : UInt32
  c : UInt32
  d : UInt32
  e : UInt32
  f : UInt32
  g : UInt32
  h : UInt32

/-- The same of the square roots of the first eight. -/
def start : Chain := ⟨
  0x6a09e667, 0xbb67ae85, 0x3c6ef372, 0xa54ff53a, 0x510e527f, 0x9b05688c, 0x1f83d9ab, 0x5be0cd19⟩

def rotateRight (x : UInt32) (n : UInt32) : UInt32 := (x >>> n) ||| (x <<< (32 - n))

def choose (x y z : UInt32) : UInt32 := (x &&& y) ^^^ (~~~x &&& z)

def majority (x y z : UInt32) : UInt32 := (x &&& y) ^^^ (x &&& z) ^^^ (y &&& z)

def upperSigma0 (x : UInt32) : UInt32 := rotateRight x 2 ^^^ rotateRight x 13 ^^^ rotateRight x 22

def upperSigma1 (x : UInt32) : UInt32 := rotateRight x 6 ^^^ rotateRight x 11 ^^^ rotateRight x 25

def lowerSigma0 (x : UInt32) : UInt32 := rotateRight x 7 ^^^ rotateRight x 18 ^^^ (x >>> 3)

def lowerSigma1 (x : UInt32) : UInt32 := rotateRight x 17 ^^^ rotateRight x 19 ^^^ (x >>> 10)

/-- Zeros after the closing bit fill the last block up to the eight bytes of the length. -/
def paddingLength (n : Nat) : Nat := (119 - n % 64) % 64

def lengthBytes (n : Nat) : List UInt8 :=
  (List.range 8).map fun i => UInt8.ofNat (n * 8 / Nat.pow 256 (7 - i))

def pad (bytes : List UInt8) : List UInt8 :=
  bytes ++ 0x80 :: List.replicate (paddingLength bytes.length) 0 ++ lengthBytes bytes.length

def wordOf (a b c d : UInt8) : UInt32 :=
  (a.toUInt32 <<< 24) ||| (b.toUInt32 <<< 16) ||| (c.toUInt32 <<< 8) ||| d.toUInt32

/-- Words of four bytes each, after those already there. -/
def wordsFrom : List UInt8 → Array UInt32 → Array UInt32
  | a :: b :: c :: d :: rest, words => wordsFrom rest (words.push (wordOf a b c d))
  | _, words => words

def nextWord (w : Array UInt32) : UInt32 :=
  let t := w.size
  lowerSigma1 (w.getD (t - 2) 0) + w.getD (t - 7) 0 + lowerSigma0 (w.getD (t - 15) 0) +
    w.getD (t - 16) 0

def schedule (block : Array UInt32) : Array UInt32 :=
  (List.range 48).foldl (fun w _ => w.push (nextWord w)) block

def round (s : Chain) (k w : UInt32) : Chain :=
  let t := s.h + upperSigma1 s.e + choose s.e s.f s.g + k + w
  let u := upperSigma0 s.a + majority s.a s.b s.c
  ⟨t + u, s.a, s.b, s.c, s.d + t, s.e, s.f, s.g⟩

def rounds : List UInt32 → List UInt32 → Chain → Chain
  | k :: ks, w :: ws, s => rounds ks ws (round s k w)
  | _, _, s => s

def compress (s : Chain) (block : Array UInt32) : Chain :=
  let r := rounds roundConstants (schedule block).toList s
  ⟨s.a + r.a, s.b + r.b, s.c + r.c, s.d + r.d, s.e + r.e, s.f + r.f, s.g + r.g, s.h + r.h⟩

def chainOf (bytes : List UInt8) : Chain :=
  let words := wordsFrom (pad bytes) #[]
  (List.range (words.size / 16)).foldl
    (fun s i => compress s (words.extract (16 * i) (16 * i + 16))) start

def Chain.words (s : Chain) : List UInt32 := [s.a, s.b, s.c, s.d, s.e, s.f, s.g, s.h]

def digest (bytes : List UInt8) : String :=
  String.join ((chainOf bytes).words.map fun w => hexLower 8 w.toNat)

def digestText (s : String) : String := digest s.toUTF8.toList

end TileGrammar.Sha256
