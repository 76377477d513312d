import LendingRelay.Amount
import LendingRelay.Wire.Selector

/-!
# Calls of the lending program

What the relay can ask of the lending program, with the arguments of each request. A call's data is
the selector of its name followed by its arguments.
-/

namespace LendingRelay

inductive Direction
  | deposit
  | withdraw
  deriving DecidableEq, Repr

/-- Tokens moved in or out against deposit notes. With a bump the notes lie in the depositor's own
deposit account; without one they lie in any note account that the caller names. -/
structure Custody where
  direction : Direction
  bump : Option UInt8
  amount : Amount
  deriving DecidableEq, Repr

inductive LendingCall
  | refreshReserve
  | refreshPsyfiReserve
  | accrueInterest
  | initObligation (bump : UInt8)
  | closeObligation
  | initDepositAccount (bump : UInt8)
  | closeDepositAccount
  | custody (move : Custody)
  | initCollateralAccount (bump : UInt8)
  | closeCollateralAccount
  /-- Notes moved from the deposit account to the collateral account of an owner, or back. -/
  | transferCollateral (direction : Direction) (collateralBump depositBump : UInt8)
      (amount : Amount)
  | initLoanAccount (bump : UInt8)
  | closeLoanAccount
  | borrow (bump : UInt8) (amount : Amount)
  | repay (amount : Amount)
  deriving DecidableEq, Repr

/-- The name that the lending program knows the movement by. -/
def Custody.name (move : Custody) : String :=
  match move.direction, move.bump with
  | .deposit, some _ => "deposit"
  | .deposit, none => "deposit_tokens"
  | .withdraw, some _ => "withdraw"
  | .withdraw, none => "withdraw_tokens"

/-- The bump, if there is one, and the amount. -/
def Custody.arguments (move : Custody) : Bytes :=
  move.bump.toList ++ move.amount.toWire

namespace LendingCall

/-- The names of all calls. Selectors are hashes of names, so none of them can change. -/
def names : List String :=
  ["refresh_reserve", "refresh_psyfi_reserve", "accrue_interest", "init_obligation",
   "close_obligation", "init_deposit_account", "close_deposit_account", "deposit",
   "deposit_tokens", "withdraw", "withdraw_tokens", "init_collateral_account",
   "close_collateral_account", "deposit_collateral", "withdraw_collateral", "init_loan_account",
   "close_loan_account", "borrow", "repay"]

def name : LendingCall → String
  | refreshReserve => "refresh_reserve"
  | refreshPsyfiReserve => "refresh_psyfi_reserve"
  | accrueInterest => "accrue_interest"
  | initObligation _ => "init_obligation"
  | closeObligation => "close_obligation"
  | initDepositAccount _ => "init_deposit_account"
  | closeDepositAccount => "close_deposit_account"
  | custody move => move.name
  | initCollateralAccount _ => "init_collateral_account"
  | closeCollateralAccount => "close_collateral_account"
  | transferCollateral .deposit _ _ _ => "deposit_collateral"
  | transferCollateral .withdraw _ _ _ => "withdraw_collateral"
  | initLoanAccount _ => "init_loan_account"
  | closeLoanAccount => "close_loan_account"
  | borrow _ _ => "borrow"
  | repay _ => "repay"

/-- The arguments in the order in which they are written: bumps, then the amount. -/
def arguments : LendingCall → Bytes
  | initObligation bump => [bump]
  | initDepositAccount bump => [bump]
  | custody move => move.arguments
  | initCollateralAccount bump => [bump]
  | transferCollateral _ collateralBump depositBump amount =>
    [collateralBump, depositBump] ++ amount.toWire
  | initLoanAccount bump => [bump]
  | borrow bump amount => bump :: amount.toWire
  | repay amount => amount.toWire
  | _ => []

def data (call : LendingCall) : Bytes :=
  Selector.instruction call.name ++ call.arguments

end LendingCall

end LendingRelay
