import LendingRelay.Bytes

/-!
# Base 58 text

A byte string is a big-endian number written with 58 digits that cannot be mistaken for one
another. Zero bytes in front do not change the number, so each is kept as a digit `1` in front.
-/

namespace LendingRelay.Base58

def alphabet : List Char :=
  "123456789ABCDEFGHJKLMNPQRSTUVWXYZabcdefghijkmnopqrstuvwxyz".toList

/-- The digits of `n` to `base`, least significant first, at most `fuel` of them. -/
def digits (base : Nat) : (fuel : Nat) → (n : Nat) → List Nat
  | 0, _ => []
  | fuel + 1, n => if n = 0 then [] else n % base :: digits base fuel (n / base)

/-- Two digits hold more than a byte, so twice the length of the string bounds their number. -/
def encodeChars (bytes : Bytes) : List Char :=
  let zeros := bytes.takeWhile (· == 0)
  let figures := (digits 58 (2 * bytes.length) (Bytes.beValue bytes)).reverse
  zeros.map (fun _ => '1') ++ figures.map (fun d => alphabet.getD d '1')

def encode (bytes : Bytes) : String :=
  String.ofList (encodeChars bytes)

/-- The number a digit list stands for, most significant digit first. -/
def value? (chars : List Char) : Option Nat :=
  chars.foldlM (fun n c => (alphabet.idxOf? c).map (n * 58 + ·)) 0

/-- The byte string with the given text; a foreign character has none. -/
def decode? (text : String) : Option Bytes := do
  let chars := text.toList
  let n ← value? chars
  let zeros := chars.takeWhile (· == '1')
  pure (zeros.map (fun _ => 0) ++ ((digits 256 chars.length n).reverse.map UInt8.ofNat))

end LendingRelay.Base58
