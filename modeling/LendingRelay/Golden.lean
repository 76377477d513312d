import LendingRelay.Address.Authority
import LendingRelay.Address.Kind
import LendingRelay.Lending.Call
import LendingRelay.Text.Hex
import LendingRelay.Text.Json

/-!
# Golden vectors

Selectors, amounts and derived addresses of the active network, for clients in other languages to
test themselves against.
-/

namespace LendingRelay.Golden

/-- The owner in the examples, a key that is easy to write down. -/
def owner : Pubkey :=
  ⟨List.replicate 32 7, by decide⟩

def selectorCase (name : String) : Json :=
  .record
    [("name", .text name),
     ("discriminator_hex", .text (Hex.encode (Selector.instruction name)))]

/-- Amounts in every unit, with the smallest and the largest value among them. -/
def amounts : List Amount :=
  [⟨.tokens, 0⟩, ⟨.tokens, 1000000⟩, ⟨.depositNotes, 42⟩, ⟨.loanNotes, 18446744073709551615⟩]

def amountCase (amount : Amount) : Json :=
  .record
    [("units", .number amount.units.tag.toNat),
     ("value", .number amount.value.toNat),
     ("encoded_hex", .text (Hex.encode amount.toWire))]

def addressCase (kind : String) (seeds : List Bytes) (program address : Pubkey) (bump : UInt8) :
    Json :=
  .record
    [("kind", .text kind),
     ("seeds_hex", .list (seeds.map fun seed => .text (Hex.encode seed))),
     ("program_id", .text program.toBase58),
     ("expected_address", .text address.toBase58),
     ("expected_bump", .number bump.toNat)]

def kindCase (program : Pubkey) (kind : AddressKind Pubkey) : Except RelayError Json := do
  let (address, bump) ← (kind.derive program).result
  return addressCase kind.name kind.seeds program address bump

/-- The vectors of a network for one of its reserves. -/
def vectors (network : Network) (reserve : Pubkey) : Except RelayError Json := do
  let program := network.lendingProgram
  let market := network.mainMarket
  let (obligation, _) ← ((AddressKind.obligation market owner).derive program).result
  let kinds : List (AddressKind Pubkey) :=
    [.marketAuthority market, .obligation market owner, .deposit reserve owner,
     .collateral reserve obligation owner, .loan reserve obligation owner]
  let addresses ← kinds.mapM (kindCase program)
  let authority ← RelayAuthority.derive market
  return .record
    [("network", .text network.name),
     ("lending_program", .text program.toBase58),
     ("main_market", .text market.toBase58),
     ("discriminators", .list (LendingCall.names.map selectorCase)),
     ("amounts", .list (amounts.map amountCase)),
     ("pdas", .list addresses),
     ("relay_authority",
      addressCase "relay_authority" (authority.signerSeeds.take 2) relayProgram authority.address
        authority.bump)]

/-- The vectors of the active network for the first reserve it lists. -/
def activeVectors : Except RelayError Json :=
  vectors .active ((Network.active.reserves.map ListedReserve.reserve).headD .zero)

end LendingRelay.Golden
