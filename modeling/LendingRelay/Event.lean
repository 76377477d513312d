import LendingRelay.Amount
import LendingRelay.Operation
import LendingRelay.Wire.Keys
import LendingRelay.Wire.Selector

/-!
# Events

What the relay announces after a successful call. Indexers read the fields in the order in which
they are written, so that order is fixed.
-/

namespace LendingRelay

/-- An amount was passed on. -/
structure AmountRelayed where
  operation : RelayOperation
  market : Pubkey
  reserve : Pubkey
  owner : Pubkey
  amount : Amount
  /-- The call was signed with the seeds of the market's relay authority. -/
  signedByRelay : Bool
  deriving DecidableEq

/-- An account was opened or closed. -/
structure AccountLifecycle where
  operation : RelayOperation
  market : Pubkey
  owner : Pubkey
  account : Pubkey
  deriving DecidableEq

def AmountRelayed.fields : List String :=
  ["operation", "market", "reserve", "owner", "amount", "signed_by_relay"]

def AccountLifecycle.fields : List String :=
  ["operation", "market", "owner", "account"]

instance : Wire AmountRelayed where
  encode event :=
    Wire.encode event.operation ++ Wire.encode event.market ++ Wire.encode event.reserve ++
      Wire.encode event.owner ++ Wire.encode event.amount ++ Wire.encode event.signedByRelay
  decode := do
    let operation ← Wire.decode
    let market ← Wire.decode
    let reserve ← Wire.decode
    let owner ← Wire.decode
    let amount ← Wire.decode
    let signedByRelay ← Wire.decode
    pure { operation, market, reserve, owner, amount, signedByRelay }

instance : Wire AccountLifecycle where
  encode event :=
    Wire.encode event.operation ++ Wire.encode event.market ++ Wire.encode event.owner ++
      Wire.encode event.account
  decode := do
    let operation ← Wire.decode
    let market ← Wire.decode
    let owner ← Wire.decode
    let account ← Wire.decode
    pure { operation, market, owner, account }

inductive Event
  | amountRelayed (event : AmountRelayed)
  | accountLifecycle (event : AccountLifecycle)
  deriving DecidableEq

/-- The announced bytes: the selector of the event's kind, then its fields. -/
def Event.data : Event → Bytes
  | amountRelayed event => Selector.event "AmountRelayed" ++ Wire.encode event
  | accountLifecycle event => Selector.event "AccountLifecycle" ++ Wire.encode event

end LendingRelay
