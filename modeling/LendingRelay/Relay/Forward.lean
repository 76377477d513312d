import LendingRelay.Lending.Slots
import LendingRelay.Relay.Authorize
import LendingRelay.TwoStep

/-!
# Passing calls on

An authorised call goes to the lending program with the accounts that were supplied for it, and is
announced once it succeeded.
-/

namespace LendingRelay

/-- The supplied accounts that are passed along with a call. -/
def LendingCall.passedAlong (call : LendingCall) (seating : Seating) : List Account :=
  call.infos.map seating.account

def LendingCall.forward (call : LendingCall) (seating : Seating) : Run Unit := do
  let authority ← call.authorize seating
  invoke (call.instruction lendingProgram seating.key) (call.passedAlong seating) authority
  match call.notice? with
  | some notice => notice.announce seating authority
  | none => pure ()

/-- The operation that a custody movement is part of when the reserve is accrued first. -/
def Custody.accruedOperation (move : Custody) : RelayOperation :=
  match move.direction, move.bump with
  | .deposit, some _ => .accrueDeposit
  | .deposit, none => .accrueDepositTokens
  | .withdraw, some _ => .accrueWithdraw
  | .withdraw, none => .accrueWithdrawTokens

/-- Accrues the reserve and then moves tokens, as two calls. Both halves name their accounts in
full, so they have to agree on the market and on the reserve. -/
def Custody.forwardAccrued (move : Custody) (accrual action : Seating) : Run Unit := do
  Run.requireKeysEq (accrual.key .market) (action.key .market) .accountMismatch
  Run.requireKeysEq (accrual.key .reserve) (action.key .reserve) .accountMismatch
  -- Accruing needs no consent, so only the checks of addresses matter here.
  let _ ← LendingCall.accrueInterest.authorize accrual
  let call := LendingCall.custody move
  let authority ← call.authorize action
  let steps := TwoStep.accrueThen lendingProgram accrual.key
    (call.instruction lendingProgram action.key)
  steps.execute
    (LendingCall.accrueInterest.passedAlong accrual ++ call.passedAlong action) authority
  (Notice.amount move.accruedOperation .depositor move.amount).announce action authority

end LendingRelay
