import LendingRelay.Layout.Field
import LendingRelay.Rates
import LendingRelay.Wire.Keys

/-!
# Reserve accounts

The fields of a reserve that the reports need. The lending program writes them; here they are only
read.
-/

namespace LendingRelay

/-- The data of a reserve account, which `ofData?` found long enough for its layout. -/
structure ReserveView where
  data : Bytes
  deriving DecidableEq

namespace ReserveView

/-- The length of the layout behind the tag. -/
def layoutLength : Nat := 5184

def ofData? (data : Bytes) : Except RelayError ReserveView := do
  requireLayout layoutLength data
  return ⟨data⟩

def indexField : Field UInt16 := ⟨2⟩
def exponentField : Field Int32 := ⟨4⟩
def marketField : Field Pubkey := ⟨8⟩
def vaultField : Field Pubkey := ⟨200⟩
def utilizationRate1Field : Field UInt16 := ⟨768⟩
def utilizationRate2Field : Field UInt16 := ⟨770⟩
def borrowRate0Field : Field UInt16 := ⟨772⟩
def borrowRate1Field : Field UInt16 := ⟨774⟩
def borrowRate2Field : Field UInt16 := ⟨776⟩
def borrowRate3Field : Field UInt16 := ⟨778⟩
def loanOriginationFeeField : Field UInt16 := ⟨794⟩
def psyfiVaultField : Field Pubkey := ⟨832⟩
def accruedUntilField : Field Int64 := ⟨1600⟩
def outstandingDebtField : Field Number := ⟨1608⟩
def uncollectedFeesField : Field Number := ⟨1632⟩
def totalDepositsField : Field UInt64 := ⟨1656⟩
def totalDepositNotesField : Field UInt64 := ⟨1664⟩
def totalLoanNotesField : Field UInt64 := ⟨1672⟩

/-- The place of the reserve in its market. -/
def index (view : ReserveView) : Except RelayError UInt16 :=
  indexField.read view.data

/-- Ten to this power is the smallest unit of the token. -/
def exponent (view : ReserveView) : Except RelayError Int32 :=
  exponentField.read view.data

def market (view : ReserveView) : Except RelayError Pubkey :=
  marketField.read view.data

def vault (view : ReserveView) : Except RelayError Pubkey :=
  vaultField.read view.data

/-- The wrapped vault; an all-zero key stands for none. -/
def psyfiVault (view : ReserveView) : Except RelayError (Option Pubkey) := do
  let key ← psyfiVaultField.read view.data
  return if key = .zero then none else some key

def rateCurve (view : ReserveView) : Except RelayError RateCurve := do
  let utilizationRate1 ← utilizationRate1Field.read view.data
  let utilizationRate2 ← utilizationRate2Field.read view.data
  let borrowRate0 ← borrowRate0Field.read view.data
  let borrowRate1 ← borrowRate1Field.read view.data
  let borrowRate2 ← borrowRate2Field.read view.data
  let borrowRate3 ← borrowRate3Field.read view.data
  return { utilizationRate1, utilizationRate2, borrowRate0, borrowRate1, borrowRate2, borrowRate3 }

def loanOriginationFeeBps (view : ReserveView) : Except RelayError UInt16 :=
  loanOriginationFeeField.read view.data

/-- The time of the last accrual, which may lie far back. -/
def accruedUntil (view : ReserveView) : Except RelayError Int64 :=
  accruedUntilField.read view.data

def outstandingDebt (view : ReserveView) : Except RelayError Number :=
  outstandingDebtField.read view.data

def uncollectedFees (view : ReserveView) : Except RelayError Number :=
  uncollectedFeesField.read view.data

def totalDeposits (view : ReserveView) : Except RelayError UInt64 :=
  totalDepositsField.read view.data

def totalDepositNotes (view : ReserveView) : Except RelayError UInt64 :=
  totalDepositNotesField.read view.data

def totalLoanNotes (view : ReserveView) : Except RelayError UInt64 :=
  totalLoanNotesField.read view.data

end ReserveView

end LendingRelay
