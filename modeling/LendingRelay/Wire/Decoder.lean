import LendingRelay.Bytes

/-!
# Reading values from the front of a byte string

A decoder takes a value from the front and leaves the rest. Class `Wire` pairs the form in which a
type is written with the decoder that reads it back.
-/

namespace LendingRelay

/-- Why bytes are not the form of a value. -/
inductive DecodeError
  | unexpectedLength
  | variantIndex (index : UInt8)
  | boolRepresentation (byte : UInt8)
  | bytesLeft
  deriving DecidableEq, Repr

/-- Bytes that do not start with a value are bad input; bytes behind a value are bad data. -/
def DecodeError.kind : DecodeError → String
  | bytesLeft => "InvalidData"
  | _ => "InvalidInput"

def DecodeError.message : DecodeError → String
  | unexpectedLength => "Unexpected length of input"
  | variantIndex index => s!"Unexpected variant index: {index}"
  | boolRepresentation byte => s!"Invalid bool representation: {byte}"
  | bytesLeft => "Not all bytes read"

abbrev Decoder := StateT Bytes (Except DecodeError)

namespace Decoder

/-- The next `n` bytes. -/
def take (n : Nat) : Decoder { bytes : Bytes // bytes.length = n } := fun input =>
  if h : n ≤ input.length then
    .ok (⟨input.take n, by rw [List.length_take, Nat.min_eq_left h]⟩, input.drop n)
  else .error .unexpectedLength

/-- The next `width` bytes as a little-endian number. -/
def number (width : Nat) : Decoder Nat := do
  let bytes ← take width
  pure (Bytes.leValue bytes.val)

def byte : Decoder UInt8 := do
  let n ← number 1
  pure (UInt8.ofNat n)

/-- A tag byte that counts the members of a list. -/
def member (members : List α) : Decoder α := do
  let index ← byte
  match members[index.toNat]? with
  | some value => pure value
  | none => throw (.variantIndex index)

/-- Reads one value and refuses bytes after it. -/
def whole (decoder : Decoder α) (input : Bytes) : Except DecodeError α :=
  match decoder input with
  | .error e => .error e
  | .ok (value, []) => .ok value
  | .ok (_, _ :: _) => .error .bytesLeft

end Decoder

/-- The form in which values of a type travel. -/
class Wire (α : Type) where
  encode : α → Bytes
  decode : Decoder α

instance : Wire UInt8 where
  encode byte := [byte]
  decode := Decoder.byte

instance : Wire UInt16 where
  encode n := Bytes.le 2 n.toNat
  decode := do return UInt16.ofNat (← Decoder.number 2)

instance : Wire UInt64 where
  encode n := Bytes.le 8 n.toNat
  decode := do return UInt64.ofNat (← Decoder.number 8)

/-- Signed numbers travel in two's complement. -/
instance : Wire Int32 where
  encode n := Bytes.le 4 n.toUInt32.toNat
  decode := do return (UInt32.ofNat (← Decoder.number 4)).toInt32

instance : Wire Int64 where
  encode n := Bytes.le 8 n.toUInt64.toNat
  decode := do return (UInt64.ofNat (← Decoder.number 8)).toInt64

instance : Wire Bool where
  encode b := [if b then 1 else 0]
  decode := do
    let byte ← Decoder.byte
    if byte = 0 then pure false
    else if byte = 1 then pure true
    else throw (.boolRepresentation byte)

end LendingRelay
