import LendingRelay.Layout.Field
import LendingRelay.Number
import LendingRelay.Wire.Keys

/-!
# Obligation accounts

An obligation keeps up to sixteen collateral positions and sixteen loan positions of one owner. A
slot is in use when its account key is not all zero; its other fields mean nothing otherwise.
-/

namespace LendingRelay

structure Position where
  account : Pubkey
  amount : Number
  reserveIndex : UInt16
  deriving DecidableEq

inductive PositionSide
  | collateral
  | loan
  deriving DecidableEq, Repr

/-- The data of an obligation account, which `ofData?` found long enough for its layout. -/
structure ObligationView where
  data : Bytes
  deriving DecidableEq

namespace ObligationView

/-- The length of the layout behind the tag. -/
def layoutLength : Nat := 5632

/-- The number of slots on each side. -/
def maxPositions : Nat := 16

def ofData? (data : Bytes) : Except RelayError ObligationView := do
  requireLayout layoutLength data
  return ⟨data⟩

/-- The offset of a slot. -/
def slotOffset (side : PositionSide) (slot : Nat) : Nat :=
  match side with
  | .collateral => 512 + slot * 160
  | .loan => 3072 + slot * 160

def marketField : Field Pubkey := ⟨8⟩
def ownerField : Field Pubkey := ⟨40⟩
def accountField (side : PositionSide) (slot : Nat) : Field Pubkey := ⟨slotOffset side slot⟩
def amountField (side : PositionSide) (slot : Nat) : Field Number := ⟨slotOffset side slot + 32⟩
def indexField (side : PositionSide) (slot : Nat) : Field UInt16 := ⟨slotOffset side slot + 84⟩

def market (view : ObligationView) : Except RelayError Pubkey :=
  marketField.read view.data

def owner (view : ObligationView) : Except RelayError Pubkey :=
  ownerField.read view.data

/-- The first of the given slots that is in use for a reserve. -/
def positionAmong (view : ObligationView) (side : PositionSide) (reserveIndex : UInt16) :
    (slots : List Nat) → Except RelayError (Option Position)
  | [] => .ok none
  | slot :: rest => do
    let account ← (accountField side slot).read view.data
    if account = .zero then view.positionAmong side reserveIndex rest
    else
      let index ← (indexField side slot).read view.data
      if index = reserveIndex then
        let amount ← (amountField side slot).read view.data
        return some { account, amount, reserveIndex }
      else view.positionAmong side reserveIndex rest

/-- The first position on a side for the reserve at an index. -/
def position (view : ObligationView) (side : PositionSide) (reserveIndex : UInt16) :
    Except RelayError (Option Position) :=
  view.positionAmong side reserveIndex (List.range maxPositions)

end ObligationView

end LendingRelay
