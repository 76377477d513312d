import LendingRelay.Fault.Framework
import LendingRelay.Fault.Program
import LendingRelay.Fault.Relay
import LendingRelay.Pubkey

/-!
# Faults

A fault ends an instruction. It has a cause, and may know which account is to blame and which two
keys were compared. It is reported as the last lines of the log.
-/

namespace LendingRelay

inductive Cause
  | relay (error : RelayError)
  | framework (error : FrameworkError)
  | program (error : ProgramError)
  deriving DecidableEq, Repr

/-- Where a fault arose. -/
inductive FaultOrigin
  | occurred
  | thrown
  | account (name : String)
  deriving DecidableEq, Repr

structure Fault where
  cause : Cause
  origin : FaultOrigin := .occurred
  compared : Option (Pubkey × Pubkey) := none
  deriving DecidableEq

namespace Cause

/-- Failures with a code of this program, and failures of the calling convention. -/
def kind : Cause → String
  | relay _ => "AnchorError"
  | framework _ => "AnchorError"
  | program _ => "ProgramError"

def name : Cause → String
  | relay e => e.name
  | framework e => e.name
  | program e => e.name

def number : Cause → Nat
  | relay e => e.code
  | framework e => e.code
  | program e => e.number

def message : Cause → String
  | relay e => e.message
  | framework e => e.message
  | program e => e.message

end Cause

/-- How an error line tells the origin. A failure that a handler raises is logged with the place in
the source as well, as `thrown in` a file and a line; the place is left out here. -/
def FaultOrigin.text : FaultOrigin → String
  | occurred => "occurred"
  | thrown => "thrown"
  | account name => s!"caused by account: {name}"

namespace Fault

/-- A failure that the relay raises in a handler. -/
def thrown (error : RelayError) : Fault :=
  { cause := .relay error, origin := .thrown }

/-- Two keys that the relay requires to be equal. -/
def keysDiffer (error : RelayError) (left right : Pubkey) : Fault :=
  { cause := .relay error, origin := .thrown, compared := some (left, right) }

/-- A failure of the framework that no account is to blame for. -/
def framework (error : FrameworkError) : Fault :=
  { cause := .framework error }

/-- A failure of the framework at an account. -/
def account (error : FrameworkError) (name : String) : Fault :=
  { cause := .framework error, origin := .account name }

/-- The log lines that report a fault. -/
def lines (fault : Fault) : List String :=
  let cause := fault.cause
  let head :=
    s!"{cause.kind} {fault.origin.text}. Error Code: {cause.name}. " ++
      s!"Error Number: {cause.number}. Error Message: {cause.message}."
  match fault.compared with
  | none => [head]
  | some (left, right) => [head, "Left:", left.toBase58, "Right:", right.toBase58]

/-- What the caller of the instruction gets. Failures of this program become custom codes. -/
def result (fault : Fault) : ProgramError :=
  match fault.cause with
  | .program e => e
  | .relay e => .custom (UInt32.ofNat e.code)
  | .framework e => .custom (UInt32.ofNat e.code)

end Fault

end LendingRelay
