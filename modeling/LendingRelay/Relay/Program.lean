import LendingRelay.Relay.Forward
import LendingRelay.Relay.Request

/-!
# The relay

The relay takes the accounts that a request declares, and then serves the request.
-/

namespace LendingRelay.Relay

/-- Takes accounts for one group of slots. -/
def takeSeats (slots : List Slot) (accounts : List Account) : Run (Seating × List Account) :=
  Run.ofExcept (Seating.take relayProgram slots accounts)

def callDummy (seating : Seating) : Run Unit :=
  invoke (Dummy.message dummyProgram (seating.key .dummyAcc))
    [seating.account .dummyAcc, seating.account .dummyProgram] none

/-- Serves a request. The second half of an accrued movement takes its accounts only after the first
half passed its checks. -/
def serve (request : Request) (accounts : List Account) : Run Unit := do
  match request with
  | .forward call =>
    let (seating, _) ← takeSeats call.slots accounts
    call.forward seating
  | .accrueThen move =>
    let (accrual, rest) ← takeSeats LendingCall.accrueInterest.slots accounts
    let (action, _) ← takeSeats (LendingCall.custody move).slots rest
    move.forwardAccrued accrual action
  | .report report =>
    let (seating, _) ← takeSeats report.slots accounts
    report.write seating
  | .callDummy =>
    let (seating, _) ← takeSeats [.readOnly .dummyAcc, .dummyProgram] accounts
    callDummy seating

def program : Program Request where
  id := relayProgram
  forms := Request.forms
  run := serve

end LendingRelay.Relay
