import LendingRelay.Pubkey
import LendingRelay.Wire.Decoder

/-!
# Keys on the wire

A key is written as its 32 bytes.
-/

namespace LendingRelay

instance : Wire Pubkey where
  encode key := key.bytes
  decode := do
    let bytes ← Decoder.take 32
    pure ⟨bytes.val, bytes.property⟩

end LendingRelay
