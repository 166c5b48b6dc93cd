import CircuitWitness.Digest.BigEndian

/-! # SHA-256

    The 256-bit hash of the Secure Hash Standard.  A message is padded to whole
    blocks of sixteen words.  Each block is compressed into a chaining value of
    eight words in sixty-four rounds, one for each round constant.  The message
    schedule is a window of the sixteen words that come next: a round uses the
    first of them and the window moves on by one.
-/

namespace CircuitWitness.Digest.Sha256

/-- A chaining value. -/
structure Chaining where
  a : UInt32
  b : UInt32
  c : UInt32
  d : UInt32
  e : UInt32
  f : UInt32
  g : UInt32
  h : UInt32

/-- The chaining value before the first block. -/
def initial : Chaining :=
  ⟨0x6a09e667, 0xbb67ae85, 0x3c6ef372, 0xa54ff53a,
   0x510e527f, 0x9b05688c, 0x1f83d9ab, 0x5be0cd19⟩

/-- One constant for each round. -/
def roundConstants : List UInt32 :=
  [0x428a2f98, 0x71374491, 0xb5c0fbcf, 0xe9b5dba5, 0x3956c25b, 0x59f111f1, 0x923f82a4, 0xab1c5ed5,
   0xd807aa98, 0x12835b01, 0x243185be, 0x550c7dc3, 0x72be5d74, 0x80deb1fe, 0x9bdc06a7, 0xc19bf174,
   0xe49b69c1, 0xefbe4786, 0x0fc19dc6, 0x240ca1cc, 0x2de92c6f, 0x4a7484aa, 0x5cb0a9dc, 0x76f988da,
   0x983e5152, 0xa831c66d, 0xb00327c8, 0xbf597fc7, 0xc6e00bf3, 0xd5a79147, 0x06ca6351, 0x14292967,
   0x27b70a85, 0x2e1b2138, 0x4d2c6dfc, 0x53380d13, 0x650a7354, 0x766a0abb, 0x81c2c92e, 0x92722c85,
   0xa2bfe8a1, 0xa81a664b, 0xc24b8b70, 0xc76c51a3, 0xd192e819, 0xd6990624, 0xf40e3585, 0x106aa070,
   0x19a4c116, 0x1e376c08, 0x2748774c, 0x34b0bcb5, 0x391c0cb3, 0x4ed8aa4a, 0x5b9cca4f, 0x682e6ff3,
   0x748f82ee, 0x78a5636f, 0x84c87814, 0x8cc70208, 0x90befffa, 0xa4506ceb, 0xbef9a3f7, 0xc67178f2]

/-! ## Padding -/

/-- The message, a one bit, zero bits, and the length of the message in bits. -/
def pad (message : List UInt8) : List UInt8 :=
  -- the one bit takes a byte and the length takes eight of the last block
  message ++ 0x80 :: (List.replicate ((119 - message.length % 64) % 64) 0
    ++ bytes64 (8 * message.length))

/-! ## Compression -/

/-- Rotates a word to the right. -/
def rotate (x : UInt32) (n : UInt32) : UInt32 := x >>> n ||| x <<< (32 - n)

/-- Moves the window of the message schedule on by one word. -/
def advance (window : List UInt32) : List UInt32 :=
  let w := fun i => window.getD i 0
  let σ₀ := rotate (w 1) 7 ^^^ rotate (w 1) 18 ^^^ w 1 >>> 3
  let σ₁ := rotate (w 14) 17 ^^^ rotate (w 14) 19 ^^^ w 14 >>> 10
  window.drop 1 ++ [w 0 + σ₀ + w 9 + σ₁]

/-- One round with a round constant and a word of the schedule. -/
def round (s : Chaining) (constant word : UInt32) : Chaining :=
  let e₁ := rotate s.e 6 ^^^ rotate s.e 11 ^^^ rotate s.e 25
  let choice := s.e &&& s.f ^^^ ~~~s.e &&& s.g
  let t₁ := s.h + e₁ + choice + constant + word
  let e₀ := rotate s.a 2 ^^^ rotate s.a 13 ^^^ rotate s.a 22
  let majority := s.a &&& s.b ^^^ s.a &&& s.c ^^^ s.b &&& s.c
  ⟨t₁ + (e₀ + majority), s.a, s.b, s.c, s.d + t₁, s.e, s.f, s.g⟩

/-- The rounds of a list of constants, from a window of the schedule. -/
def rounds : List UInt32 → List UInt32 → Chaining → Chaining
  | [], _, s => s
  | constant :: rest, window, s =>
    rounds rest (advance window) (round s constant (window.getD 0 0))

/-- Compresses a block of sixteen words into a chaining value. -/
def compress (s : Chaining) (block : List UInt32) : Chaining :=
  let t := rounds roundConstants block s
  ⟨s.a + t.a, s.b + t.b, s.c + t.c, s.d + t.d, s.e + t.e, s.f + t.f, s.g + t.g, s.h + t.h⟩

/-- Compresses `n` blocks. -/
def compressAll : (n : Nat) → List UInt32 → Chaining → Chaining
  | 0, _, s => s
  | n + 1, words, s => compressAll n (words.drop 16) (compress s (words.take 16))

/-- The digest of a message, as eight words. -/
def digest (message : List UInt8) : Chaining :=
  let words := words32 (pad message)
  compressAll (words.length / 16) words initial

end CircuitWitness.Digest.Sha256
