import LendingRelay.Fault.Relay
import LendingRelay.Wire.Decoder

/-!
# Fields of account data

Account data starts with an eight-byte tag. A field lies at a fixed offset behind it and is read in
place; a field that reaches past the end of the data cannot be read.
-/

namespace LendingRelay

/-- The length of the tag in front of every layout. -/
def layoutTagLength : Nat := 8

/-- A value of type `α` at an offset behind the tag. -/
structure Field (α : Type) where
  offset : Nat
  deriving DecidableEq, Repr

namespace Field

/-- The position of the field in the account's data. -/
def start (field : Field α) : Nat :=
  layoutTagLength + field.offset

def read [Wire α] (field : Field α) (data : Bytes) : Except RelayError α :=
  match (Wire.decode : Decoder α) (data.drop field.start) with
  | .ok (value, _) => .ok value
  | .error _ => .error .invalidAccountLayout

/-- The data with the field set to a value. -/
def write [Wire α] (field : Field α) (data : Bytes) (value : α) : Bytes :=
  Bytes.overwrite data field.start (Wire.encode value)

end Field

/-- Refuses data that is too short for a layout of the given length behind the tag. -/
def requireLayout (length : Nat) (data : Bytes) : Except RelayError Unit :=
  if layoutTagLength + length ≤ data.length then .ok () else .error .invalidAccountLayout

end LendingRelay
