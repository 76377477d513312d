import LendingRelay.Wire.Decoder

/-!
# Relayed operations

Every event names the relay instruction that caused it. The number of an operation on the wire is
its place in `RelayOperation.all`.
-/

namespace LendingRelay

inductive RelayOperation
  | initObligation
  | closeObligation
  | initDepositAccount
  | closeDepositAccount
  | deposit
  | depositTokens
  | withdraw
  | withdrawTokens
  | initCollateralAccount
  | closeCollateralAccount
  | depositCollateral
  | withdrawCollateral
  | initLoanAccount
  | closeLoanAccount
  | borrow
  | repay
  | accrueDeposit
  | accrueWithdraw
  | accrueDepositTokens
  | accrueWithdrawTokens
  deriving DecidableEq, Repr

namespace RelayOperation

def all : List RelayOperation :=
  [initObligation, closeObligation, initDepositAccount, closeDepositAccount, deposit,
   depositTokens, withdraw, withdrawTokens, initCollateralAccount, closeCollateralAccount,
   depositCollateral, withdrawCollateral, initLoanAccount, closeLoanAccount, borrow, repay,
   accrueDeposit, accrueWithdraw, accrueDepositTokens, accrueWithdrawTokens]

def name : RelayOperation → String
  | initObligation => "InitObligation"
  | closeObligation => "CloseObligation"
  | initDepositAccount => "InitDepositAccount"
  | closeDepositAccount => "CloseDepositAccount"
  | deposit => "Deposit"
  | depositTokens => "DepositTokens"
  | withdraw => "Withdraw"
  | withdrawTokens => "WithdrawTokens"
  | initCollateralAccount => "InitCollateralAccount"
  | closeCollateralAccount => "CloseCollateralAccount"
  | depositCollateral => "DepositCollateral"
  | withdrawCollateral => "WithdrawCollateral"
  | initLoanAccount => "InitLoanAccount"
  | closeLoanAccount => "CloseLoanAccount"
  | borrow => "Borrow"
  | repay => "Repay"
  | accrueDeposit => "AccrueDeposit"
  | accrueWithdraw => "AccrueWithdraw"
  | accrueDepositTokens => "AccrueDepositTokens"
  | accrueWithdrawTokens => "AccrueWithdrawTokens"

end RelayOperation

instance : Wire RelayOperation where
  encode operation := [UInt8.ofNat (RelayOperation.all.idxOf operation)]
  decode := Decoder.member RelayOperation.all

end LendingRelay
