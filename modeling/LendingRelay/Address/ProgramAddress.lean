import LendingRelay.Curve.Edwards25519
import LendingRelay.Fault.Relay
import LendingRelay.Hash.Sha256
import LendingRelay.Pubkey

/-!
# Program addresses

A program owns addresses that nobody has a private key for. Such an address is the hash of a list of
seeds and the program's id, provided that the hash is not a point of the curve. A last seed of one
byte, the bump, is searched from 255 down until the hash qualifies.

* `createProgramAddress?`: the address of one list of seeds, if it has one.
* `search`: the first bump that works, with its address.
-/

namespace LendingRelay

/-- A list of seeds has at most this many members, the bump included. -/
def maxSeeds : Nat := 16

/-- A seed has at most this many bytes. -/
def maxSeedLength : Nat := 32

/-- What is hashed: the seeds without separators, the program's id and a fixed marker. -/
def addressPreimage (seeds : List Bytes) (program : Pubkey) : Bytes :=
  seeds.flatten ++ program.bytes ++ Bytes.ofText "ProgramDerivedAddress"

/-- The address of a list of seeds under a program; none for too many seeds, for an oversized seed
and for a hash that is a point. -/
def createProgramAddress? (seeds : List Bytes) (program : Pubkey) : Option Pubkey :=
  if seeds.length > maxSeeds ∨ seeds.any (fun seed => seed.length > maxSeedLength) then none
  else
    let digest := sha256 (addressPreimage seeds program)
    if Edwards25519.isPoint digest then none else some ⟨digest, length_sha256 _⟩

/-- Outcome of a bump search. -/
inductive Derivation
  | found (address : Pubkey) (bump : UInt8)
  | exhausted
  deriving DecidableEq

def Derivation.result : Derivation → Except RelayError (Pubkey × UInt8)
  | found address bump => .ok (address, bump)
  | exhausted => .error .seedDerivationExhausted

/-- The bump seeds in the order in which they are tried. -/
def bumps : List UInt8 :=
  (List.range 256).reverse.map UInt8.ofNat

/-- The first of `candidates` that gives an address together with `seeds`. -/
def searchAmong (candidates : List UInt8) (seeds : List Bytes) (program : Pubkey) : Derivation :=
  match candidates with
  | [] => .exhausted
  | bump :: rest =>
    match createProgramAddress? (seeds ++ [[bump]]) program with
    | some address => .found address bump
    | none => searchAmong rest seeds program

/-- Walks the bumps from 255 down to 0. Seeds that leave no room for a bump, and oversized seeds,
are refused before the walk. -/
def search (seeds : List Bytes) (program : Pubkey) : Derivation :=
  if seeds.length ≥ maxSeeds ∨ seeds.any (fun seed => seed.length > maxSeedLength) then .exhausted
  else searchAmong bumps seeds program

end LendingRelay
