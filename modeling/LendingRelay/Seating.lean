import LendingRelay.Slot

/-!
# Taking accounts

The accounts of a call are taken for the declared slots in order. First every slot takes its account
and checks what it is; then every slot checks writability and fixed keys. Accounts that are left
over are not looked at.
-/

namespace LendingRelay

/-- An account in the part it plays. -/
structure Seat where
  slot : Slot
  account : Account
  tokens : Option TokenAccount
  deriving DecidableEq

/-- The accounts of an instruction in their parts, in the declared order. -/
abbrev Seating := List Seat

namespace Seating

/-- The account that plays a part. An instruction asks only for parts that it declares. -/
def account (seating : Seating) (role : Role) : Account :=
  match seating.find? (fun seat => seat.slot.role = role) with
  | some seat => seat.account
  | none => default

def key (seating : Seating) (role : Role) : Pubkey :=
  (seating.account role).key

/-- The token account in a part, if one was given. -/
def tokens? (seating : Seating) (role : Role) : Option TokenAccount :=
  (seating.find? (fun seat => seat.slot.role = role)).bind Seat.tokens

/-- One account for each slot, each checked as it is taken, and the accounts left over. -/
def acceptAll (program : Pubkey) : List Slot → List Account → Except Fault (Seating × List Account)
  | [], accounts => .ok ([], accounts)
  | slot :: _, [] => .error (.account .accountNotEnoughKeys slot.role.name)
  | slot :: slots, account :: accounts => do
    let tokens ← slot.accept program account
    let (seating, rest) ← acceptAll program slots accounts
    return ({ slot, account, tokens } :: seating, rest)

/-- The checks that follow once every slot has its account. -/
def constrainAll : Seating → Except Fault Unit
  | [] => .ok ()
  | seat :: seating => do
    seat.slot.constrain seat.account
    constrainAll seating

/-- Takes accounts for the slots and does all checks. Accounts left over come with the seating. -/
def take (program : Pubkey) (slots : List Slot) (accounts : List Account) :
    Except Fault (Seating × List Account) := do
  let (seating, rest) ← acceptAll program slots accounts
  seating.constrainAll
  return (seating, rest)

end Seating

end LendingRelay
