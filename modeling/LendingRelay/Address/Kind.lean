import LendingRelay.Address.ProgramAddress

/-!
# Accounts at derived addresses

The lending program keeps its per-user accounts, and the signing authority of a market, at program
addresses. Each kind of account has a fixed list of seeds. A supplied address is never trusted: it
is derived again and compared.
-/

namespace LendingRelay

/-- A kind of account with what its seeds are made of: keys, or the parts that accounts play. -/
inductive AddressKind (κ : Type)
  /-- Signing authority of a market; the market is the only seed. -/
  | marketAuthority (market : κ)
  | obligation (market owner : κ)
  | deposit (reserve depositor : κ)
  | collateral (reserve obligation owner : κ)
  | loan (reserve obligation owner : κ)
  deriving DecidableEq

namespace AddressKind

def map (f : κ → ν) : AddressKind κ → AddressKind ν
  | marketAuthority market => .marketAuthority (f market)
  | obligation market owner => .obligation (f market) (f owner)
  | deposit reserve depositor => .deposit (f reserve) (f depositor)
  | collateral reserve obl owner => .collateral (f reserve) (f obl) (f owner)
  | loan reserve obl owner => .loan (f reserve) (f obl) (f owner)

/-- The word that stands for the kind in log lines. -/
def name : AddressKind κ → String
  | marketAuthority _ => "market_authority"
  | obligation _ _ => "obligation"
  | deposit _ _ => "deposit_account"
  | collateral _ _ _ => "collateral_account"
  | loan _ _ _ => "loan_account"

/-- The seeds without the bump. Every kind but the market authority starts with a label. -/
def seeds : AddressKind Pubkey → List Bytes
  | marketAuthority market => [market.bytes]
  | obligation market owner => [Bytes.ofText "obligation", market.bytes, owner.bytes]
  | deposit reserve depositor => [Bytes.ofText "deposits", reserve.bytes, depositor.bytes]
  | collateral reserve obl owner =>
    [Bytes.ofText "collateral", reserve.bytes, obl.bytes, owner.bytes]
  | loan reserve obl owner =>
    [Bytes.ofText "loan", reserve.bytes, obl.bytes, owner.bytes]

def derive (kind : AddressKind Pubkey) (program : Pubkey) : Derivation :=
  search kind.seeds program

end AddressKind

/-- Why a supplied address was not accepted. -/
inductive AddressFault
  | exhausted
  | wrongAddress (kind : String) (expected supplied : Pubkey)
  | wrongBump (kind : String) (expected supplied : UInt8)
  deriving DecidableEq

namespace AddressFault

def error : AddressFault → RelayError
  | exhausted => .seedDerivationExhausted
  | wrongAddress _ _ _ => .accountMismatch
  | wrongBump _ _ _ => .accountMismatch

/-- The log line that tells what was expected. -/
def note? : AddressFault → Option String
  | exhausted => none
  | wrongAddress kind expected supplied =>
    some s!"pda:mismatch kind={kind} expected={expected} got={supplied}"
  | wrongBump kind expected supplied =>
    some s!"pda:bump kind={kind} expected={expected} got={supplied}"

end AddressFault

/-- Derives the address again and compares it with the supplied one; a supplied bump must be the one
that the search found. The answer is that bump. -/
def AddressKind.verify (kind : AddressKind Pubkey) (program supplied : Pubkey)
    (bump : Option UInt8) : Except AddressFault UInt8 :=
  match kind.derive program with
  | .exhausted => .error .exhausted
  | .found expected canonical =>
    if expected ≠ supplied then .error (.wrongAddress kind.name expected supplied)
    else
      match bump with
      | none => .ok canonical
      | some given =>
        if given = canonical then .ok canonical
        else .error (.wrongBump kind.name canonical given)

end LendingRelay
