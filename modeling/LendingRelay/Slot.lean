import LendingRelay.Account
import LendingRelay.Fault
import LendingRelay.Layout.TokenAccount
import LendingRelay.Network
import LendingRelay.Role

/-!
# Declared accounts

An instruction declares the accounts that it takes: the role of each, whether it has to be writable,
and what else has to hold of it.
-/

namespace LendingRelay

/-- What has to hold of an account before the instruction's own checks. -/
inductive SlotKind
  /-- Nothing. -/
  | unchecked
  /-- It has a fixed key, which is compared after all accounts were taken. -/
  | pinned (key : Pubkey) (error : RelayError)
  /-- It is a given program. -/
  | program (key : Pubkey)
  /-- It is the account with the rent parameters. -/
  | rent
  /-- It is a token account, or left out by naming the running program instead. -/
  | optionalTokens
  deriving DecidableEq

structure Slot where
  role : Role
  writable : Bool
  kind : SlotKind
  deriving DecidableEq

namespace Slot

def readOnly (role : Role) : Slot :=
  { role, writable := false, kind := .unchecked }

def written (role : Role) : Slot :=
  { role, writable := true, kind := .unchecked }

def lendingProgram : Slot :=
  { role := .lendingProgram, writable := false
    kind := .pinned LendingRelay.lendingProgram .invalidLendingProgram }

def dummyProgram : Slot :=
  { role := .dummyProgram, writable := false
    kind := .pinned LendingRelay.dummyProgram .invalidDummyProgram }

def tokenProgram : Slot :=
  { role := .tokenProgram, writable := false, kind := .program .tokenProgram }

def systemProgram : Slot :=
  { role := .systemProgram, writable := false, kind := .program .systemProgram }

def rent : Slot :=
  { role := .rent, writable := false, kind := .rent }

def optionalTokens (role : Role) : Slot :=
  { role, writable := false, kind := .optionalTokens }

/-- The rent parameters take at least this many bytes. -/
def rentLength : Nat := 17

/-- The balance of the token account in an optional slot, if one was given. -/
def readTokens (program : Pubkey) (role : Role) (account : Account) :
    Except Fault (Option TokenAccount) :=
  if account.key = program then .ok none
  -- An address that nothing was ever created at looks like this.
  else if account.owner = .systemProgram ∧ account.lamports = 0 then
    .error (.account .accountNotInitialized role.name)
  else if account.owner ≠ .tokenProgram then
    .error { Fault.account .accountOwnedByWrongProgram role.name with
      compared := some (account.owner, .tokenProgram) }
  else
    match TokenAccount.unpack? account.data with
    | .ok tokens => .ok (some tokens)
    | .error e => .error { cause := .program e, origin := .account role.name }

/-- What is checked when an account is taken for the slot. The answer is the token account that it
holds, which only an optional token account has. -/
def accept (program : Pubkey) (slot : Slot) (account : Account) :
    Except Fault (Option TokenAccount) :=
  match slot.kind with
  | .unchecked => .ok none
  | .pinned _ _ => .ok none
  | .program key =>
    if account.key ≠ key then
      .error { Fault.account .invalidProgramId slot.role.name with
        compared := some (account.key, key) }
    else if account.executable then .ok none
    else .error (.account .invalidProgramExecutable slot.role.name)
  | .rent =>
    if account.key = .rentSysvar ∧ rentLength ≤ account.data.length then .ok none
    else .error (.account .accountSysvarMismatch slot.role.name)
  | .optionalTokens => readTokens program slot.role account

/-- What is checked after all accounts were taken. -/
def constrain (slot : Slot) (account : Account) : Except Fault Unit :=
  if slot.writable ∧ ¬account.writable then .error (.account .constraintMut slot.role.name)
  else
    match slot.kind with
    | .pinned key error =>
      if account.key = key then .ok ()
      else
        .error { cause := .relay error, origin := .account slot.role.name
                 compared := some (account.key, key) }
    | _ => .ok ()

end Slot

end LendingRelay
