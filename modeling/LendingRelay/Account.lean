import LendingRelay.Pubkey

/-!
# Accounts

An account as it is supplied with a call.
-/

namespace LendingRelay

structure Account where
  key : Pubkey
  signer : Bool := false
  writable : Bool := false
  executable : Bool := false
  owner : Pubkey := .systemProgram
  lamports : UInt64 := 1
  data : Bytes := []
  deriving DecidableEq

instance : Inhabited Account := ⟨{ key := .zero }⟩

/-- An account as an instruction names it. -/
structure AccountMeta where
  key : Pubkey
  signer : Bool
  writable : Bool
  deriving DecidableEq

/-- The key of an account with the flags it was supplied with. -/
def Account.toMeta (account : Account) : AccountMeta :=
  { key := account.key, signer := account.signer, writable := account.writable }

end LendingRelay
