import LendingRelay.Bytes

/-!
# SHA-256

The hash that addresses and selectors are made of. A block of sixteen words is stretched to the
sixty-four words of the rounds by a window that moves one word a round.

* `length_sha256`: a digest has 32 bytes.
-/

namespace LendingRelay.Sha256

/-- The eight working words. -/
structure State where
  a : UInt32
  b : UInt32
  c : UInt32
  d : UInt32
  e : UInt32
  f : UInt32
  g : UInt32
  h : UInt32
  deriving DecidableEq

/-- The fractional parts of the square roots of the first eight primes. -/
def State.initial : State :=
  ⟨0x6a09e667, 0xbb67ae85, 0x3c6ef372, 0xa54ff53a, 0x510e527f, 0x9b05688c, 0x1f83d9ab, 0x5be0cd19⟩

/-- The fractional parts of the cube roots of the first sixty-four primes, one a round. -/
def roundConstants : List UInt32 :=
  [0x428a2f98, 0x71374491, 0xb5c0fbcf, 0xe9b5dba5, 0x3956c25b, 0x59f111f1, 0x923f82a4, 0xab1c5ed5,
   0xd807aa98, 0x12835b01, 0x243185be, 0x550c7dc3, 0x72be5d74, 0x80deb1fe, 0x9bdc06a7, 0xc19bf174,
   0xe49b69c1, 0xefbe4786, 0x0fc19dc6, 0x240ca1cc, 0x2de92c6f, 0x4a7484aa, 0x5cb0a9dc, 0x76f988da,
   0x983e5152, 0xa831c66d, 0xb00327c8, 0xbf597fc7, 0xc6e00bf3, 0xd5a79147, 0x06ca6351, 0x14292967,
   0x27b70a85, 0x2e1b2138, 0x4d2c6dfc, 0x53380d13, 0x650a7354, 0x766a0abb, 0x81c2c92e, 0x92722c85,
   0xa2bfe8a1, 0xa81a664b, 0xc24b8b70, 0xc76c51a3, 0xd192e819, 0xd6990624, 0xf40e3585, 0x106aa070,
   0x19a4c116, 0x1e376c08, 0x2748774c, 0x34b0bcb5, 0x391c0cb3, 0x4ed8aa4a, 0x5b9cca4f, 0x682e6ff3,
   0x748f82ee, 0x78a5636f, 0x84c87814, 0x8cc70208, 0x90befffa, 0xa4506ceb, 0xbef9a3f7, 0xc67178f2]

def rotateRight (x n : UInt32) : UInt32 :=
  (x >>> n) ||| (x <<< (32 - n))

/-- One round with its constant and its word. -/
def State.round (s : State) (constant word : UInt32) : State :=
  let sumE := rotateRight s.e 6 ^^^ rotateRight s.e 11 ^^^ rotateRight s.e 25
  let choice := (s.e &&& s.f) ^^^ (~~~s.e &&& s.g)
  let sumA := rotateRight s.a 2 ^^^ rotateRight s.a 13 ^^^ rotateRight s.a 22
  let majority := (s.a &&& s.b) ^^^ (s.a &&& s.c) ^^^ (s.b &&& s.c)
  let mixed := s.h + sumE + choice + constant + word
  { a := mixed + (sumA + majority), b := s.a, c := s.b, d := s.c
    e := s.d + mixed, f := s.e, g := s.f, h := s.g }

/-- The word sixteen rounds after the first word of the window. -/
def nextWord (window : List UInt32) : UInt32 :=
  let x := window.getD 1 0
  let y := window.getD 14 0
  let small := rotateRight x 7 ^^^ rotateRight x 18 ^^^ (x >>> 3)
  let large := rotateRight y 17 ^^^ rotateRight y 19 ^^^ (y >>> 10)
  window.getD 0 0 + small + window.getD 9 0 + large

/-- Sixty-four rounds over one block of sixteen words, added to the state before. -/
def State.compress (s : State) (block : List UInt32) : State :=
  -- The window starts with this round's word and ends with the newest one.
  let (t, _) := roundConstants.foldl
    (fun (t, window) constant =>
      (t.round constant (window.getD 0 0), window.drop 1 ++ [nextWord window]))
    (s, block)
  { a := s.a + t.a, b := s.b + t.b, c := s.c + t.c, d := s.d + t.d
    e := s.e + t.e, f := s.f + t.f, g := s.g + t.g, h := s.h + t.h }

/-- The big-endian bytes of a word. -/
def wordBytes (w : UInt32) : Bytes :=
  [(w >>> 24).toUInt8, (w >>> 16).toUInt8, (w >>> 8).toUInt8, w.toUInt8]

def State.bytes (s : State) : Bytes :=
  wordBytes s.a ++ wordBytes s.b ++ wordBytes s.c ++ wordBytes s.d ++
    (wordBytes s.e ++ wordBytes s.f ++ wordBytes s.g ++ wordBytes s.h)

/-- The big-endian words of a string; fewer than four bytes at the end make no word. -/
def words : Bytes → List UInt32
  | b₀ :: b₁ :: b₂ :: b₃ :: rest =>
    ((b₀.toUInt32 <<< 24) ||| (b₁.toUInt32 <<< 16) ||| (b₂.toUInt32 <<< 8) ||| b₃.toUInt32) ::
      words rest
  | _ => []

/-- The message, the bit 1, zeros, and the length in bits: a whole number of 64-byte blocks. -/
def pad (message : Bytes) : Bytes :=
  -- With nine bytes for the bit and the length, this many zeros complete a block.
  message ++ 0x80 :: List.replicate ((119 - message.length % 64) % 64) 0 ++
    (Bytes.le 8 (8 * message.length)).reverse

end LendingRelay.Sha256

namespace LendingRelay

open Sha256

/-- The SHA-256 digest of a message. -/
def sha256 (message : Bytes) : Bytes :=
  let padded := pad message
  let blocks := (List.range (padded.length / 64)).map fun i =>
    words ((padded.drop (64 * i)).take 64)
  (blocks.foldl State.compress State.initial).bytes

@[simp] theorem length_sha256 (message : Bytes) : (sha256 message).length = 32 := rfl

end LendingRelay
