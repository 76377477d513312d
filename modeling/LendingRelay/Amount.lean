import LendingRelay.Wire.Decoder

/-!
# Amounts

A quantity together with the unit the caller counted in. The lending program converts between notes
and tokens at its own rates, so the relay forwards both parts as they are.
-/

namespace LendingRelay

inductive AmountUnits
  | tokens
  | depositNotes
  | loanNotes
  deriving DecidableEq, Repr

namespace AmountUnits

def all : List AmountUnits :=
  [tokens, depositNotes, loanNotes]

def name : AmountUnits → String
  | tokens => "Tokens"
  | depositNotes => "DepositNotes"
  | loanNotes => "LoanNotes"

/-- The number of the unit in instruction data. -/
def tag : AmountUnits → UInt8
  | tokens => 0
  | depositNotes => 1
  | loanNotes => 2

end AmountUnits

structure Amount where
  units : AmountUnits
  value : UInt64
  deriving DecidableEq, Repr

/-- The form of an amount in instruction data: the unit's number, then the value in eight bytes. -/
def Amount.toWire (amount : Amount) : Bytes :=
  amount.units.tag :: Bytes.le 8 amount.value.toNat

/-- The length of every amount in instruction data. -/
def Amount.wireLength : Nat := 9

instance : Wire AmountUnits where
  encode units := [UInt8.ofNat (AmountUnits.all.idxOf units)]
  decode := Decoder.member AmountUnits.all

instance : Wire Amount where
  encode amount := Wire.encode amount.units ++ Wire.encode amount.value
  decode := do
    let units ← Wire.decode
    let value ← Wire.decode
    pure { units, value }

end LendingRelay
