import LendingRelay.Fault.Program
import LendingRelay.Wire.Decoder

/-!
# Token accounts

The token program's accounts have 165 bytes and no tag in front. Only the balance is used; the
markers of the optional fields and the state have to be ones that the token program writes.
-/

namespace LendingRelay

structure TokenAccount where
  amount : UInt64
  deriving DecidableEq, Repr

namespace TokenAccount

def layoutLength : Nat := 165

def amountOffset : Nat := 64

def stateOffset : Nat := 108

/-- Where the four-byte markers of the optional fields lie. -/
def optionOffsets : List Nat := [72, 109, 129]

/-- A marker says 0 or 1 in little-endian. -/
def isOptionMarker (bytes : Bytes) : Bool :=
  bytes == [0, 0, 0, 0] || bytes == [1, 0, 0, 0]

/-- Reads an account in use; state 0 stands for an account that was never set up. -/
def unpack? (data : Bytes) : Except ProgramError TokenAccount :=
  let state := data.getD stateOffset 0
  let markersValid := optionOffsets.all fun offset => isOptionMarker ((data.drop offset).take 4)
  if data.length = layoutLength ∧ markersValid ∧ state ≤ 2 then
    if state = 0 then .error .uninitializedAccount
    else .ok ⟨UInt64.ofNat (Bytes.leValue ((data.drop amountOffset).take 8))⟩
  else .error .invalidAccountData

end TokenAccount

end LendingRelay
