import LendingRelay.Address.ProgramAddress
import LendingRelay.Network

/-!
# The relay's signing authority

For every market the relay has one address of its own. Pooled accounts name it as their owner, and
the relay signs for it with the seeds instead of a private key.
-/

namespace LendingRelay

/-- The relay's address for one market with the bump that makes it. -/
structure RelayAuthority where
  market : Pubkey
  address : Pubkey
  bump : UInt8
  deriving DecidableEq

namespace RelayAuthority

def label : Bytes :=
  Bytes.ofText "relay_authority"

def derive (market : Pubkey) : Except RelayError RelayAuthority :=
  match search [label, market.bytes] relayProgram with
  | .found address bump => .ok { market, address, bump }
  | .exhausted => .error .seedDerivationExhausted

/-- The seeds that a signed call carries. -/
def signerSeeds (authority : RelayAuthority) : List Bytes :=
  [label, authority.market.bytes, [authority.bump]]

end RelayAuthority

end LendingRelay
