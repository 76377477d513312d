import LendingRelay.Invoke
import LendingRelay.Lending.Instruction

/-!
# Two calls in a row

A reserve's interest is brought up to date before an action on it. The pair is handed to the caller
as two instructions, or run here as two calls; both ways carry the same instructions.
-/

namespace LendingRelay

structure TwoStep where
  precondition : Instruction
  action : Instruction
  deriving DecidableEq

namespace TwoStep

def accrueThen (program : Pubkey) (keys : Role → Pubkey) (action : Instruction) : TwoStep :=
  { precondition := LendingCall.accrueInterest.instruction program keys, action }

/-- The instructions in the order in which they have to be submitted. -/
def instructions (steps : TwoStep) : List Instruction :=
  [steps.precondition, steps.action]

/-- Calls one after the other. Only the action is signed. -/
def execute (steps : TwoStep) (infos : List Account) (authority : Option RelayAuthority) :
    Run Unit := do
  invoke steps.precondition infos none
  invoke steps.action infos authority

end TwoStep

end LendingRelay
