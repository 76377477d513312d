/-!
# Failures of the relay

The failures that the relay raises itself. A failing call of another program is none of them: it is
passed on unchanged. Codes count from 6000 in the order of `RelayError.all`.
-/

namespace LendingRelay

inductive RelayError
  | seedDerivationExhausted
  | accountMismatch
  | invalidLendingProgram
  | invalidDummyProgram
  | missingOwnerSignature
  | invalidAccountLayout
  | mathOverflow
  deriving DecidableEq, Repr

namespace RelayError

def all : List RelayError :=
  [seedDerivationExhausted, accountMismatch, invalidLendingProgram, invalidDummyProgram,
   missingOwnerSignature, invalidAccountLayout, mathOverflow]

def name : RelayError → String
  | seedDerivationExhausted => "SeedDerivationExhausted"
  | accountMismatch => "AccountMismatch"
  | invalidLendingProgram => "InvalidLendingProgram"
  | invalidDummyProgram => "InvalidDummyProgram"
  | missingOwnerSignature => "MissingOwnerSignature"
  | invalidAccountLayout => "InvalidAccountLayout"
  | mathOverflow => "MathOverflow"

def code : RelayError → Nat
  | seedDerivationExhausted => 6000
  | accountMismatch => 6001
  | invalidLendingProgram => 6002
  | invalidDummyProgram => 6003
  | missingOwnerSignature => 6004
  | invalidAccountLayout => 6005
  | mathOverflow => 6006

def message : RelayError → String
  | seedDerivationExhausted =>
    "No bump seed produced a valid program address for the supplied seeds"
  | accountMismatch => "Supplied account or bump does not match the derived program address"
  | invalidLendingProgram => "Lending program account does not match the configured network"
  | invalidDummyProgram => "Dummy program account does not match the configured network"
  | missingOwnerSignature =>
    "Owner account neither signed nor is the relay authority for the market"
  | invalidAccountLayout => "Account data is shorter than the expected layout"
  | mathOverflow => "Math overflow"

end RelayError

end LendingRelay
