/-!
# Roles

The parts that accounts play in an instruction. An instruction gives each part once, so a role names
an account within an instruction.
-/

namespace LendingRelay

inductive Role
  | market
  | marketAuthority
  | reserve
  | vault
  | depositNoteMint
  | loanNoteMint
  | feeNoteVault
  | depositor
  | borrower
  | owner
  | payer
  | obligationOwner
  | obligation
  | depositAccount
  | collateralAccount
  | loanAccount
  | depositSource
  | withdrawAccount
  | receiverAccount
  | payerAccount
  | depositNoteAccount
  | pythOraclePrice
  | psyfiVault
  | lendingProgram
  | tokenProgram
  | systemProgram
  | rent
  | dummyAcc
  | dummyProgram
  deriving DecidableEq, Repr

/-- The name of the part in error lines. -/
def Role.name : Role → String
  | market => "market"
  | marketAuthority => "market_authority"
  | reserve => "reserve"
  | vault => "vault"
  | depositNoteMint => "deposit_note_mint"
  | loanNoteMint => "loan_note_mint"
  | feeNoteVault => "fee_note_vault"
  | depositor => "depositor"
  | borrower => "borrower"
  | owner => "owner"
  | payer => "payer"
  | obligationOwner => "obligation_owner"
  | obligation => "obligation"
  | depositAccount => "deposit_account"
  | collateralAccount => "collateral_account"
  | loanAccount => "loan_account"
  | depositSource => "deposit_source"
  | withdrawAccount => "withdraw_account"
  | receiverAccount => "receiver_account"
  | payerAccount => "payer_account"
  | depositNoteAccount => "deposit_note_account"
  | pythOraclePrice => "pyth_oracle_price"
  | psyfiVault => "psyfi_vault"
  | lendingProgram => "lending_program"
  | tokenProgram => "token_program"
  | systemProgram => "system_program"
  | rent => "rent"
  | dummyAcc => "dummy_acc"
  | dummyProgram => "dummy_program"

end LendingRelay
