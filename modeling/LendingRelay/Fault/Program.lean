import LendingRelay.Text.Quoted

/-!
# Results of failed calls

A failed call ends with one of these. A called program's own failures are `custom` codes, and the
others are those of the chain's runtime.
-/

namespace LendingRelay

inductive ProgramError
  | custom (code : UInt32)
  | invalidArgument
  | invalidInstructionData
  | invalidAccountData
  | accountDataTooSmall
  | insufficientFunds
  | incorrectProgramId
  | missingRequiredSignature
  | accountAlreadyInitialized
  | uninitializedAccount
  | notEnoughAccountKeys
  | accountBorrowFailed
  | maxSeedLengthExceeded
  | invalidSeeds
  /-- A failure to read or write the wire form, with its text. -/
  | borshIoError (text : String)
  | accountNotRentExempt
  | unsupportedSysvar
  | illegalOwner
  | maxAccountsDataAllocationsExceeded
  | invalidRealloc
  | maxInstructionTraceLengthExceeded
  | builtinProgramsMustConsumeComputeUnits
  | invalidAccountOwner
  | arithmeticOverflow
  | immutable
  | incorrectAuthority
  deriving DecidableEq, Repr

namespace ProgramError

/-- The kinds of failure that carry neither a code nor a text: all but `custom`
and `borshIoError`. -/
def builtins : List ProgramError :=
  [invalidArgument, invalidInstructionData, invalidAccountData, accountDataTooSmall,
   insufficientFunds, incorrectProgramId, missingRequiredSignature, accountAlreadyInitialized,
   uninitializedAccount, notEnoughAccountKeys, accountBorrowFailed, maxSeedLengthExceeded,
   invalidSeeds, accountNotRentExempt, unsupportedSysvar, illegalOwner,
   maxAccountsDataAllocationsExceeded, invalidRealloc, maxInstructionTraceLengthExceeded,
   builtinProgramsMustConsumeComputeUnits, invalidAccountOwner, arithmeticOverflow, immutable,
   incorrectAuthority]

/-- The word for the kind of failure. -/
def kind : ProgramError → String
  | custom _ => "Custom"
  | invalidArgument => "InvalidArgument"
  | invalidInstructionData => "InvalidInstructionData"
  | invalidAccountData => "InvalidAccountData"
  | accountDataTooSmall => "AccountDataTooSmall"
  | insufficientFunds => "InsufficientFunds"
  | incorrectProgramId => "IncorrectProgramId"
  | missingRequiredSignature => "MissingRequiredSignature"
  | accountAlreadyInitialized => "AccountAlreadyInitialized"
  | uninitializedAccount => "UninitializedAccount"
  | notEnoughAccountKeys => "NotEnoughAccountKeys"
  | accountBorrowFailed => "AccountBorrowFailed"
  | maxSeedLengthExceeded => "MaxSeedLengthExceeded"
  | invalidSeeds => "InvalidSeeds"
  | borshIoError _ => "BorshIoError"
  | accountNotRentExempt => "AccountNotRentExempt"
  | unsupportedSysvar => "UnsupportedSysvar"
  | illegalOwner => "IllegalOwner"
  | maxAccountsDataAllocationsExceeded => "MaxAccountsDataAllocationsExceeded"
  | invalidRealloc => "InvalidRealloc"
  | maxInstructionTraceLengthExceeded => "MaxInstructionTraceLengthExceeded"
  | builtinProgramsMustConsumeComputeUnits => "BuiltinProgramsMustConsumeComputeUnits"
  | invalidAccountOwner => "InvalidAccountOwner"
  | arithmeticOverflow => "ArithmeticOverflow"
  | immutable => "Immutable"
  | incorrectAuthority => "IncorrectAuthority"

/-- The failure as error lines name it: its `kind`, with a custom code or a quoted text in
parentheses. -/
def name : ProgramError → String
  | custom code => s!"Custom({code})"
  | borshIoError text => s!"BorshIoError({Quoted.ofText text})"
  | e => e.kind

/-- Kinds are numbered in the upper half of a 64-bit word and custom codes are the lower half; the
custom code zero is moved up, so that no number is zero. -/
def number : ProgramError → Nat
  | custom code => if code = 0 then 1 <<< 32 else code.toNat
  | invalidArgument => 2 <<< 32
  | invalidInstructionData => 3 <<< 32
  | invalidAccountData => 4 <<< 32
  | accountDataTooSmall => 5 <<< 32
  | insufficientFunds => 6 <<< 32
  | incorrectProgramId => 7 <<< 32
  | missingRequiredSignature => 8 <<< 32
  | accountAlreadyInitialized => 9 <<< 32
  | uninitializedAccount => 10 <<< 32
  | notEnoughAccountKeys => 11 <<< 32
  | accountBorrowFailed => 12 <<< 32
  | maxSeedLengthExceeded => 13 <<< 32
  | invalidSeeds => 14 <<< 32
  | borshIoError _ => 15 <<< 32
  | accountNotRentExempt => 16 <<< 32
  | unsupportedSysvar => 17 <<< 32
  | illegalOwner => 18 <<< 32
  | maxAccountsDataAllocationsExceeded => 19 <<< 32
  | invalidRealloc => 20 <<< 32
  | maxInstructionTraceLengthExceeded => 21 <<< 32
  | builtinProgramsMustConsumeComputeUnits => 22 <<< 32
  | invalidAccountOwner => 23 <<< 32
  | arithmeticOverflow => 24 <<< 32
  | immutable => 25 <<< 32
  | incorrectAuthority => 26 <<< 32

def message : ProgramError → String
  | custom code => "Custom program error: 0x" ++ String.ofList (Nat.toDigits 16 code.toNat)
  | invalidArgument => "The arguments provided to a program instruction were invalid"
  | invalidInstructionData => "An instruction's data contents was invalid"
  | invalidAccountData => "An account's data contents was invalid"
  | accountDataTooSmall => "An account's data was too small"
  | insufficientFunds => "An account's balance was too small to complete the instruction"
  | incorrectProgramId => "The account did not have the expected program id"
  | missingRequiredSignature => "A signature was required but not found"
  | accountAlreadyInitialized =>
    "An initialize instruction was sent to an account that has already been initialized"
  | uninitializedAccount =>
    "An attempt to operate on an account that hasn't been initialized"
  | notEnoughAccountKeys => "The instruction expected additional account keys"
  | accountBorrowFailed => "Failed to borrow a reference to account data, already borrowed"
  | maxSeedLengthExceeded => "Length of the seed is too long for address generation"
  | invalidSeeds => "Provided seeds do not result in a valid address"
  | borshIoError text => "IO Error: " ++ text
  | accountNotRentExempt => "An account does not have enough lamports to be rent-exempt"
  | unsupportedSysvar => "Unsupported sysvar"
  | illegalOwner => "Provided owner is not allowed"
  | maxAccountsDataAllocationsExceeded =>
    "Accounts data allocations exceeded the maximum allowed per transaction"
  | invalidRealloc => "Account data reallocation was invalid"
  | maxInstructionTraceLengthExceeded =>
    "Instruction trace length exceeded the maximum allowed per transaction"
  | builtinProgramsMustConsumeComputeUnits => "Builtin programs must consume compute units"
  | invalidAccountOwner => "Invalid account owner"
  | arithmeticOverflow => "Program arithmetic overflowed"
  | immutable => "Account is immutable"
  | incorrectAuthority => "Incorrect authority provided"

end ProgramError

end LendingRelay
