import LendingRelay.Address.Kind
import LendingRelay.Event
import LendingRelay.Lending.Call
import LendingRelay.Role

/-!
# What a call has to pass

Before a call goes out, the derived addresses among its accounts are checked in order and the
account that gives the order has to authorise it. After the call, what happened is announced.
-/

namespace LendingRelay

/-- A supplied account that has to be the derived one, and the bump that was given with it. -/
structure AddressCheck where
  kind : AddressKind Role
  supplied : Role
  bump : Option UInt8
  deriving DecidableEq

namespace AddressCheck

def marketAuthority : AddressCheck :=
  { kind := .marketAuthority .market, supplied := .marketAuthority, bump := none }

def obligation (holder : Role) (bump : Option UInt8) : AddressCheck :=
  { kind := .obligation .market holder, supplied := .obligation, bump }

def deposit (holder : Role) (bump : Option UInt8) : AddressCheck :=
  { kind := .deposit .reserve holder, supplied := .depositAccount, bump }

def collateral (holder : Role) (bump : Option UInt8) : AddressCheck :=
  { kind := .collateral .reserve .obligation holder, supplied := .collateralAccount, bump }

def loan (holder : Role) (bump : Option UInt8) : AddressCheck :=
  { kind := .loan .reserve .obligation holder, supplied := .loanAccount, bump }

end AddressCheck

/-- The checks of a custody movement: the deposit account counts only when a bump comes with it,
since the notes otherwise lie in an account of the caller's choice. -/
def Custody.addressChecks (bump : Option UInt8) : List AddressCheck :=
  .marketAuthority ::
    match bump with
    | some b => [.deposit .depositor (some b)]
    | none => []

/-- What is announced after a call. The market, and the reserve of an amount, are always the
accounts in those parts. -/
inductive Notice
  | amount (operation : RelayOperation) (holder : Role) (amount : Amount)
  | lifecycle (operation : RelayOperation) (holder account : Role)
  deriving DecidableEq

def Custody.operation (move : Custody) : RelayOperation :=
  match move.direction, move.bump with
  | .deposit, some _ => .deposit
  | .deposit, none => .depositTokens
  | .withdraw, some _ => .withdraw
  | .withdraw, none => .withdrawTokens

namespace LendingCall

open AddressCheck in
/-- The checks in the order in which they are done. -/
def addressChecks : LendingCall → List AddressCheck
  | refreshReserve => []
  | refreshPsyfiReserve => []
  | accrueInterest => [marketAuthority]
  | initObligation bump => [marketAuthority, obligation .borrower (some bump)]
  | closeObligation => [marketAuthority, obligation .owner none]
  | initDepositAccount bump => [marketAuthority, deposit .depositor (some bump)]
  | closeDepositAccount => [marketAuthority, deposit .depositor none]
  | custody move => Custody.addressChecks move.bump
  | initCollateralAccount bump =>
    [marketAuthority, obligation .owner none, collateral .owner (some bump)]
  | closeCollateralAccount =>
    [marketAuthority, obligation .owner none, collateral .owner none, deposit .owner none]
  | transferCollateral _ collateralBump depositBump _ =>
    [marketAuthority, obligation .owner none, deposit .owner (some depositBump),
     collateral .owner (some collateralBump)]
  | initLoanAccount bump => [marketAuthority, obligation .owner none, loan .owner (some bump)]
  | closeLoanAccount => [marketAuthority, obligation .owner none, loan .owner none]
  | borrow bump _ => [marketAuthority, obligation .borrower none, loan .borrower (some bump)]
  | repay _ =>
    [marketAuthority, obligation .obligationOwner none, loan .obligationOwner none]

/-- The account that has to authorise the call. Upkeep of a reserve needs nobody's consent. -/
def ownerRole? : LendingCall → Option Role
  | refreshReserve => none
  | refreshPsyfiReserve => none
  | accrueInterest => none
  | initObligation _ => some .borrower
  | closeObligation => some .owner
  | initDepositAccount _ => some .payer
  | closeDepositAccount => some .depositor
  | custody _ => some .depositor
  | initCollateralAccount _ => some .owner
  | closeCollateralAccount => some .owner
  | transferCollateral _ _ _ _ => some .owner
  | initLoanAccount _ => some .owner
  | closeLoanAccount => some .owner
  | borrow _ _ => some .borrower
  | repay _ => some .payer

def notice? : LendingCall → Option Notice
  | refreshReserve => none
  | refreshPsyfiReserve => none
  | accrueInterest => none
  | initObligation _ => some (.lifecycle .initObligation .borrower .obligation)
  | closeObligation => some (.lifecycle .closeObligation .owner .obligation)
  | initDepositAccount _ => some (.lifecycle .initDepositAccount .depositor .depositAccount)
  | closeDepositAccount => some (.lifecycle .closeDepositAccount .depositor .depositAccount)
  | custody move => some (.amount move.operation .depositor move.amount)
  | initCollateralAccount _ => some (.lifecycle .initCollateralAccount .owner .collateralAccount)
  | closeCollateralAccount => some (.lifecycle .closeCollateralAccount .owner .collateralAccount)
  | transferCollateral .deposit _ _ amount => some (.amount .depositCollateral .owner amount)
  | transferCollateral .withdraw _ _ amount => some (.amount .withdrawCollateral .owner amount)
  | initLoanAccount _ => some (.lifecycle .initLoanAccount .owner .loanAccount)
  | closeLoanAccount => some (.lifecycle .closeLoanAccount .owner .loanAccount)
  | borrow _ amount => some (.amount .borrow .borrower amount)
  | repay amount => some (.amount .repay .payer amount)

end LendingCall

end LendingRelay
