import LendingRelay.Address.Authority
import LendingRelay.Lending.Policy
import LendingRelay.Run
import LendingRelay.Seating

/-!
# Authorising a call

A call goes out when its derived addresses are right and its owner consents. An owner consents by
signing, or by being the market's relay authority, which the relay then signs for.
-/

namespace LendingRelay

/-- Why an owner did not authorise a call. -/
inductive OwnerFault
  | exhausted
  | unsigned (owner : Pubkey)
  deriving DecidableEq

namespace OwnerFault

def error : OwnerFault → RelayError
  | exhausted => .seedDerivationExhausted
  | unsigned _ => .missingOwnerSignature

/-- The log line that names the account. -/
def note? : OwnerFault → Option String
  | exhausted => none
  | unsigned owner => some s!"authority:unsigned owner={owner}"

end OwnerFault

/-- How an owner authorises a call: `none` by a signature of its own, otherwise by the seeds of the
market's relay authority. -/
def authorizeOwner (owner : Account) (market : Pubkey) :
    Except OwnerFault (Option RelayAuthority) :=
  if owner.signer then .ok none
  else
    match RelayAuthority.derive market with
    | .error _ => .error .exhausted
    | .ok authority =>
      if owner.key = authority.address then .ok (some authority)
      else .error (.unsigned owner.key)

namespace Run

/-- Logs a note, if there is one, and raises the error. -/
def refuse (note : Option String) (error : RelayError) : Run α := do
  match note with
  | some line => log line
  | none => pure ()
  raise error

end Run

/-- The bump of a supplied address, which has to be the derived one. -/
def requireAddress (kind : AddressKind Pubkey) (program supplied : Pubkey)
    (bump : Option UInt8) : Run UInt8 :=
  match kind.verify program supplied bump with
  | .ok canonical => pure canonical
  | .error fault => Run.refuse fault.note? fault.error

def requireOwner (owner : Account) (market : Pubkey) : Run (Option RelayAuthority) :=
  match authorizeOwner owner market with
  | .ok authority => pure authority
  | .error fault => Run.refuse fault.note? fault.error

def AddressCheck.require (check : AddressCheck) (seating : Seating) : Run Unit := do
  let _ ← requireAddress (check.kind.map seating.key) lendingProgram (seating.key check.supplied)
    check.bump
  pure ()

/-- Does the checks in order, then asks the owner, if the call has one. -/
def authorize (checks : List AddressCheck) (owner : Option Role) (seating : Seating) :
    Run (Option RelayAuthority) := do
  checks.forM fun check => check.require seating
  match owner with
  | none => pure none
  | some role => requireOwner (seating.account role) (seating.key .market)

def Custody.authorize (bump : Option UInt8) (seating : Seating) : Run (Option RelayAuthority) :=
  LendingRelay.authorize (Custody.addressChecks bump) (some .depositor) seating

def LendingCall.authorize (call : LendingCall) (seating : Seating) :
    Run (Option RelayAuthority) :=
  LendingRelay.authorize call.addressChecks call.ownerRole? seating

/-- The event of a notice. -/
def Notice.event (notice : Notice) (seating : Seating) (authority : Option RelayAuthority) :
    Event :=
  match notice with
  | .amount operation holder quantity =>
    .amountRelayed
      { operation
        amount := quantity
        market := seating.key .market
        reserve := seating.key .reserve
        owner := seating.key holder
        signedByRelay := authority.isSome }
  | .lifecycle operation holder subject =>
    .accountLifecycle
      { operation
        market := seating.key .market
        owner := seating.key holder
        account := seating.key subject }

def Notice.announce (notice : Notice) (seating : Seating) (authority : Option RelayAuthority) :
    Run Unit :=
  Run.emit (.data [(notice.event seating authority).data])

end LendingRelay
