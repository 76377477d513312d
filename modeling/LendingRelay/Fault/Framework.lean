/-!
# Failures around the handlers

What can go wrong before an instruction's own checks start: the call is not addressed to this
program, its data names no instruction, or an account is not what the instruction declares.
-/

namespace LendingRelay

inductive FrameworkError
  | instructionMissing
  | instructionFallbackNotFound
  | instructionDidNotDeserialize
  | idlInstructionStub
  | eventInstructionStub
  | constraintMut
  | accountNotEnoughKeys
  | accountOwnedByWrongProgram
  | invalidProgramId
  | invalidProgramExecutable
  | accountNotInitialized
  | accountSysvarMismatch
  | declaredProgramIdMismatch
  deriving DecidableEq, Repr

namespace FrameworkError

def name : FrameworkError → String
  | instructionMissing => "InstructionMissing"
  | instructionFallbackNotFound => "InstructionFallbackNotFound"
  | instructionDidNotDeserialize => "InstructionDidNotDeserialize"
  | idlInstructionStub => "IdlInstructionStub"
  | eventInstructionStub => "EventInstructionStub"
  | constraintMut => "ConstraintMut"
  | accountNotEnoughKeys => "AccountNotEnoughKeys"
  | accountOwnedByWrongProgram => "AccountOwnedByWrongProgram"
  | invalidProgramId => "InvalidProgramId"
  | invalidProgramExecutable => "InvalidProgramExecutable"
  | accountNotInitialized => "AccountNotInitialized"
  | accountSysvarMismatch => "AccountSysvarMismatch"
  | declaredProgramIdMismatch => "DeclaredProgramIdMismatch"

def code : FrameworkError → Nat
  | instructionMissing => 100
  | instructionFallbackNotFound => 101
  | instructionDidNotDeserialize => 102
  | idlInstructionStub => 1000
  | eventInstructionStub => 1500
  | constraintMut => 2000
  | accountNotEnoughKeys => 3005
  | accountOwnedByWrongProgram => 3007
  | invalidProgramId => 3008
  | invalidProgramExecutable => 3009
  | accountNotInitialized => 3012
  | accountSysvarMismatch => 3015
  | declaredProgramIdMismatch => 4100

def message : FrameworkError → String
  | instructionMissing => "8 byte instruction identifier not provided"
  | instructionFallbackNotFound => "Fallback functions are not supported"
  | instructionDidNotDeserialize => "The program could not deserialize the given instruction"
  | idlInstructionStub => "The program was compiled without idl instructions"
  | eventInstructionStub => "The program was compiled without `event-cpi` feature"
  | constraintMut => "A mut constraint was violated"
  | accountNotEnoughKeys => "Not enough account keys given to the instruction"
  | accountOwnedByWrongProgram =>
    "The given account is owned by a different program than expected"
  | invalidProgramId => "Program ID was not as expected"
  | invalidProgramExecutable => "Program account is not executable"
  | accountNotInitialized => "The program expected this account to be already initialized"
  | accountSysvarMismatch => "The given public key does not match the required sysvar"
  | declaredProgramIdMismatch => "The declared program id does not match the actual program id"

end FrameworkError

end LendingRelay
