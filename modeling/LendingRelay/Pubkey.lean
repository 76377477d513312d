import LendingRelay.Text.Base58

/-!
# Public keys

A key is 32 bytes and is written in base 58. The keys with a fixed meaning in every deployment are
named here.
-/

namespace LendingRelay

/-- The address of an account or a program. -/
structure Pubkey where
  bytes : Bytes
  length_bytes : bytes.length = 32
  deriving DecidableEq

namespace Pubkey

/-- The key with the big-endian bytes of `n`. -/
def ofNat (n : Nat) : Pubkey :=
  ⟨(Bytes.le 32 n).reverse, by simp⟩

def ofBytes? (bytes : Bytes) : Option Pubkey :=
  if h : bytes.length = 32 then some ⟨bytes, h⟩ else none

def toBase58 (key : Pubkey) : String :=
  Base58.encode key.bytes

def ofBase58? (text : String) : Option Pubkey :=
  (Base58.decode? text).bind ofBytes?

instance : ToString Pubkey := ⟨toBase58⟩

@[ext] theorem ext {k l : Pubkey} (h : k.bytes = l.bytes) : k = l := by
  cases k
  cases l
  cases h
  rfl

/-- The program that owns every account without data; its key is all zero. -/
def systemProgram : Pubkey :=
  ofNat 0

/-- The key that marks an unused entry in account data, all zero. -/
def zero : Pubkey :=
  ofNat 0

/-- The token program, `TokenkegQfeZyiNwAJbNbGKPFXCWuBvf9Ss623VQ5DA`. -/
def tokenProgram : Pubkey :=
  ofNat 0x06ddf6e1d765a193d9cbe146ceeb79ac1cb485ed5f5b37913a8cf5857eff00a9

/-- The account with the rent parameters, `SysvarRent111111111111111111111111111111111`. -/
def rentSysvar : Pubkey :=
  ofNat 0x06a7d517192c5c51218cc94c3d4af17f58daee089ba1fd44e3dbd98a00000000

end Pubkey

end LendingRelay
