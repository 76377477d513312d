import LendingRelay.Layout.Field
import LendingRelay.Number
import LendingRelay.Wire.Keys

/-!
# Market accounts

A market lists its reserves in a table of thirty-two entries, each with the key of the reserve and
the exchange rates cached for it.
-/

namespace LendingRelay

/-- The exchange rates of one reserve, in tokens per note. -/
structure NoteRates where
  depositNoteRate : Number
  loanNoteRate : Number
  deriving DecidableEq, Repr

/-- The data of a market account, which `ofData?` found long enough for its layout. -/
structure MarketView where
  data : Bytes
  deriving DecidableEq

namespace MarketView

/-- The length of the layout behind the tag. -/
def layoutLength : Nat := 16544

/-- The number of entries in the table of reserves. -/
def maxReserves : Nat := 32

def ofData? (data : Bytes) : Except RelayError MarketView := do
  requireLayout layoutLength data
  return ⟨data⟩

/-- The offset of the table entry with an index. -/
def entryOffset (index : UInt16) : Nat :=
  672 + index.toNat * 496

def reserveField (index : UInt16) : Field Pubkey := ⟨entryOffset index⟩
def depositNoteRateField (index : UInt16) : Field Number := ⟨entryOffset index + 304⟩
def loanNoteRateField (index : UInt16) : Field Number := ⟨entryOffset index + 328⟩

/-- Refuses an index behind the end of the table. -/
def requireEntry (index : UInt16) : Except RelayError Unit :=
  if index.toNat < maxReserves then .ok () else .error .invalidAccountLayout

/-- The key of the reserve listed at an index. -/
def reserveAt (view : MarketView) (index : UInt16) : Except RelayError Pubkey := do
  requireEntry index
  (reserveField index).read view.data

/-- The cached rates, whatever their age. -/
def noteRates (view : MarketView) (index : UInt16) : Except RelayError NoteRates := do
  requireEntry index
  let depositNoteRate ← (depositNoteRateField index).read view.data
  let loanNoteRate ← (loanNoteRateField index).read view.data
  return { depositNoteRate, loanNoteRate }

end MarketView

end LendingRelay
