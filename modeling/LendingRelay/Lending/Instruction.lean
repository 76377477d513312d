import LendingRelay.Instruction
import LendingRelay.Lending.Call
import LendingRelay.Role

/-!
# Instructions for the lending program

The accounts of each call in the order, and with the flags, that the lending program expects. An
instruction is made from addresses alone: no account is read.
-/

namespace LendingRelay

/-- What an instruction names an account by. -/
inductive Target
  /-- The account in a part. -/
  | role (role : Role)
  /-- An account that is the same in every call. -/
  | fixed (key : Pubkey)
  /-- The called program itself. -/
  | callee
  deriving DecidableEq

/-- An account of a call with its flags. -/
structure CallAccount where
  target : Target
  writable : Bool
  signer : Bool
  deriving DecidableEq

namespace CallAccount

def readOnly (role : Role) : CallAccount :=
  { target := .role role, writable := false, signer := false }

def written (role : Role) : CallAccount :=
  { target := .role role, writable := true, signer := false }

def signing (role : Role) : CallAccount :=
  { target := .role role, writable := false, signer := true }

def signingWritten (role : Role) : CallAccount :=
  { target := .role role, writable := true, signer := true }

def fixed (key : Pubkey) : CallAccount :=
  { target := .fixed key, writable := false, signer := false }

def callee : CallAccount :=
  { target := .callee, writable := false, signer := false }

end CallAccount

def Target.key (program : Pubkey) (keys : Role → Pubkey) : Target → Pubkey
  | role r => keys r
  | fixed key => key
  | callee => program

open CallAccount in
/-- The accounts of a custody movement. `withdraw` takes the lending program among its accounts. -/
def Custody.accounts (move : Custody) : List CallAccount :=
  let shared := [readOnly .market, readOnly .marketAuthority, written .reserve, written .vault,
    written .depositNoteMint, signing .depositor, written .depositAccount]
  match move.direction, move.bump with
  | .deposit, _ => shared ++ [written .depositSource, fixed .tokenProgram]
  | .withdraw, some _ => shared ++ [written .withdrawAccount, callee, fixed .tokenProgram]
  | .withdraw, none => shared ++ [written .withdrawAccount, fixed .tokenProgram]

namespace LendingCall

open CallAccount in
def accounts : LendingCall → List CallAccount
  | refreshReserve => [written .market, readOnly .reserve, readOnly .pythOraclePrice]
  | refreshPsyfiReserve =>
    [written .market, readOnly .reserve, readOnly .psyfiVault, readOnly .pythOraclePrice]
  | accrueInterest =>
    [written .market, readOnly .marketAuthority, written .reserve, written .feeNoteVault,
     written .depositNoteMint, fixed .tokenProgram]
  | initObligation _ =>
    [readOnly .market, readOnly .marketAuthority, signingWritten .borrower, written .obligation,
     fixed .tokenProgram, fixed .systemProgram]
  | closeObligation =>
    [readOnly .market, readOnly .marketAuthority, signingWritten .owner, written .obligation]
  | initDepositAccount _ =>
    [readOnly .market, readOnly .marketAuthority, readOnly .reserve, readOnly .depositNoteMint,
     readOnly .depositor, signingWritten .payer, written .depositAccount, fixed .tokenProgram,
     fixed .systemProgram, fixed .rentSysvar]
  | closeDepositAccount =>
    [readOnly .market, readOnly .marketAuthority, written .reserve, written .vault,
     written .depositNoteMint, signingWritten .depositor, written .depositAccount,
     written .receiverAccount, fixed .tokenProgram]
  | custody move => move.accounts
  | initCollateralAccount _ =>
    [readOnly .market, readOnly .marketAuthority, written .obligation, readOnly .reserve,
     readOnly .depositNoteMint, signingWritten .owner, written .collateralAccount,
     fixed .tokenProgram, fixed .systemProgram, fixed .rentSysvar]
  | closeCollateralAccount =>
    [readOnly .market, readOnly .marketAuthority, written .obligation, signingWritten .owner,
     written .collateralAccount, written .depositAccount, fixed .tokenProgram]
  | transferCollateral _ _ _ _ =>
    [readOnly .market, readOnly .marketAuthority, readOnly .reserve, written .obligation,
     signing .owner, written .depositAccount, written .collateralAccount, fixed .tokenProgram]
  | initLoanAccount _ =>
    [readOnly .market, readOnly .marketAuthority, written .obligation, readOnly .reserve,
     readOnly .loanNoteMint, signingWritten .owner, written .loanAccount, fixed .tokenProgram,
     fixed .systemProgram, fixed .rentSysvar]
  | closeLoanAccount =>
    [readOnly .market, readOnly .marketAuthority, written .obligation, signingWritten .owner,
     written .loanAccount, fixed .tokenProgram]
  | borrow _ _ =>
    [readOnly .market, readOnly .marketAuthority, written .obligation, written .reserve,
     written .vault, written .loanNoteMint, signing .borrower, written .loanAccount,
     written .receiverAccount, fixed .tokenProgram]
  | repay _ =>
    [readOnly .market, readOnly .marketAuthority, written .obligation, written .reserve,
     written .vault, written .loanNoteMint, written .loanAccount, written .payerAccount,
     signing .payer, fixed .tokenProgram]

/-- The instruction of a call, given the key in each part. -/
def instruction (call : LendingCall) (program : Pubkey) (keys : Role → Pubkey) : Instruction :=
  { program
    accounts := call.accounts.map fun account =>
      { key := account.target.key program keys, signer := account.signer
        writable := account.writable }
    data := call.data }

end LendingCall

end LendingRelay
