import LendingRelay.Lending.Call
import LendingRelay.Seating

/-!
# Accounts declared for a call

The accounts that the relay takes for each call of the lending program. They are the accounts of
the call with the lending program added, and sometimes an account that only serves as a seed.
-/

namespace LendingRelay

def Direction.counterpart : Direction → Role
  | deposit => .depositSource
  | withdraw => .withdrawAccount

namespace LendingCall

def slots : LendingCall → List Slot
  | refreshReserve =>
    [.written .market, .readOnly .reserve, .readOnly .pythOraclePrice, .lendingProgram]
  | refreshPsyfiReserve =>
    [.written .market, .readOnly .reserve, .readOnly .psyfiVault, .readOnly .pythOraclePrice,
     .lendingProgram]
  | accrueInterest =>
    [.written .market, .readOnly .marketAuthority, .written .reserve,
     .written .feeNoteVault, .written .depositNoteMint, .lendingProgram,
     .tokenProgram]
  | initObligation _ =>
    [.readOnly .market, .readOnly .marketAuthority, .written .borrower,
     .written .obligation, .lendingProgram, .tokenProgram, .systemProgram]
  | closeObligation =>
    [.readOnly .market, .readOnly .marketAuthority, .written .owner,
     .written .obligation, .lendingProgram]
  | initDepositAccount _ =>
    [.readOnly .market, .readOnly .marketAuthority, .readOnly .reserve, .readOnly .depositNoteMint,
     .readOnly .depositor, .written .payer, .written .depositAccount,
     .lendingProgram, .tokenProgram, .systemProgram, .rent]
  | closeDepositAccount =>
    [.readOnly .market, .readOnly .marketAuthority, .written .reserve,
     .written .vault, .written .depositNoteMint, .written .depositor,
     .written .depositAccount, .written .receiverAccount, .lendingProgram,
     .tokenProgram]
  | custody move =>
    [.readOnly .market, .readOnly .marketAuthority, .written .reserve,
     .written .vault, .written .depositNoteMint, .readOnly .depositor,
     .written .depositAccount, .written move.direction.counterpart,
     .lendingProgram, .tokenProgram]
  | initCollateralAccount _ =>
    [.readOnly .market, .readOnly .marketAuthority, .written .obligation,
     .readOnly .reserve, .readOnly .depositNoteMint, .written .owner,
     .written .collateralAccount, .lendingProgram, .tokenProgram, .systemProgram, .rent]
  | closeCollateralAccount =>
    [.readOnly .market, .readOnly .marketAuthority, .written .obligation,
     .written .owner, .written .collateralAccount,
     .written .depositAccount, .lendingProgram, .tokenProgram, .readOnly .reserve]
  | transferCollateral _ _ _ _ =>
    [.readOnly .market, .readOnly .marketAuthority, .readOnly .reserve,
     .written .obligation, .readOnly .owner, .written .depositAccount,
     .written .collateralAccount, .lendingProgram, .tokenProgram]
  | initLoanAccount _ =>
    [.readOnly .market, .readOnly .marketAuthority, .written .obligation,
     .readOnly .reserve, .readOnly .loanNoteMint, .written .owner,
     .written .loanAccount, .lendingProgram, .tokenProgram, .systemProgram, .rent]
  | closeLoanAccount =>
    [.readOnly .market, .readOnly .marketAuthority, .written .obligation,
     .written .owner, .written .loanAccount, .lendingProgram, .tokenProgram,
     .readOnly .reserve]
  | borrow _ _ =>
    [.readOnly .market, .readOnly .marketAuthority, .written .obligation,
     .written .reserve, .written .vault, .written .loanNoteMint,
     .readOnly .borrower, .written .loanAccount, .written .receiverAccount,
     .lendingProgram, .tokenProgram]
  | repay _ =>
    [.readOnly .market, .readOnly .marketAuthority, .written .obligation,
     .written .reserve, .written .vault, .written .loanNoteMint,
     .written .loanAccount, .written .payerAccount, .readOnly .payer,
     .lendingProgram, .tokenProgram, .readOnly .obligationOwner]

/-- The declared accounts that only serve as seeds and are not passed on. -/
def seedRoles : LendingCall → List Role
  | closeCollateralAccount => [.reserve]
  | closeLoanAccount => [.reserve]
  | repay _ => [.obligationOwner]
  | _ => []

/-- The accounts that are passed along with a call: the declared ones in order without those that
only serve as seeds, the lending program last. -/
def infos (call : LendingCall) : List Role :=
  (call.slots.map Slot.role).filter (fun role => role ≠ .lendingProgram ∧ role ∉ call.seedRoles) ++
    [.lendingProgram]

end LendingCall

end LendingRelay
