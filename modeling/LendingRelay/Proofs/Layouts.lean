import LendingRelay.Layout.Market
import LendingRelay.Layout.Obligation
import LendingRelay.Layout.Reserve
import LendingRelay.Proofs.Reading

/-!
# Reading accounts of the lending program

A view of account data is there exactly when the data is long enough for its layout. From then on no
field is missing: a value of fixed width is read from any bytes that are there.

* `MarketView.ofData?_eq_ok_iff` and its siblings: when there is a view.
* `MarketView.reserveAt_eq_ok_iff`: what is listed at a place of a market.
* `MarketView.exists_noteRates`, `ReserveView.exists_rateCurve`: rates and points that are read
  together are what their fields hold.
* `ReserveView.exists_holds`: a reserve of the length of its layout has a debt, deposits and a
  curve.
-/

namespace LendingRelay

/-! ## Views -/

/-- A view is there when the data is long enough for `requireLayout`, and it is what the data makes
it. -/
theorem requireLayout_bind_pure_eq_ok_iff (length : Nat) (data : Bytes) (a view : α) :
    (requireLayout length data >>= fun _ => pure a) = .ok view ↔
      layoutTagLength + length ≤ data.length ∧ view = a := by
  unfold requireLayout
  split
  · next hlength =>
    show Except.ok a = .ok view ↔ _
    rw [Except.ok.injEq, eq_comm]
    exact (and_iff_right hlength).symm
  · next hshort => exact iff_of_false nofun fun h => hshort h.1

theorem MarketView.ofData?_eq_ok_iff (data : Bytes) (view : MarketView) :
    ofData? data = .ok view ↔ layoutTagLength + layoutLength ≤ data.length ∧ view = ⟨data⟩ :=
  requireLayout_bind_pure_eq_ok_iff ..

theorem ReserveView.ofData?_eq_ok_iff (data : Bytes) (view : ReserveView) :
    ofData? data = .ok view ↔ layoutTagLength + layoutLength ≤ data.length ∧ view = ⟨data⟩ :=
  requireLayout_bind_pure_eq_ok_iff ..

theorem ObligationView.ofData?_eq_ok_iff (data : Bytes) (view : ObligationView) :
    ofData? data = .ok view ↔ layoutTagLength + layoutLength ≤ data.length ∧ view = ⟨data⟩ :=
  requireLayout_bind_pure_eq_ok_iff ..

theorem MarketView.reserveAt_eq_ok_iff (market : MarketView) (index : UInt16) (key : Pubkey) :
    market.reserveAt index = .ok key ↔
      index.toNat < maxReserves ∧ (reserveField index).read market.data = .ok key := by
  unfold reserveAt requireEntry
  split
  · next hindex => exact ⟨fun h => ⟨hindex, h⟩, And.right⟩
  · next hindex => exact ⟨nofun, fun h => absurd h.1 hindex⟩

/-! ## Reading long enough data

Amounts, numbers and the points of a curve have a fixed width, and no bytes of that width are
refused. -/

namespace Decoder

/-- The decoder reads a value from all bytes of a given length. `Decoder.Exact` says which value,
and this that there is one. -/
def Total (width : Nat) (decoder : Decoder α) : Prop :=
  ∀ input : Bytes, width ≤ input.length → ∃ a tail, decoder input = .ok (a, tail)

theorem total_take (n : Nat) : Total n (take n) :=
  fun _ hlength => ⟨_, _, dif_pos hlength⟩

theorem Total.bind_pure {width : Nat} {decoder : Decoder α} (htotal : Total width decoder)
    (f : α → β) : Total width (decoder >>= fun a => pure (f a)) := by
  intro input hlength
  obtain ⟨a, tail, hread⟩ := htotal input hlength
  exact ⟨f a, tail, (bind_eq_ok_iff ..).mpr ⟨a, tail, hread, rfl⟩⟩

theorem total_uint16 : Total 2 (Wire.decode : Decoder UInt16) :=
  ((total_take 2).bind_pure _).bind_pure _

theorem total_uint64 : Total 8 (Wire.decode : Decoder UInt64) :=
  ((total_take 8).bind_pure _).bind_pure _

theorem total_number : Total 24 (Wire.decode : Decoder Number) :=
  (total_take 24).bind_pure _

end Decoder

theorem Field.exists_read [Wire α] (field : Field α) {width : Nat} {data : Bytes}
    (htotal : Decoder.Total width (Wire.decode : Decoder α))
    (hlength : field.start + width ≤ data.length) : ∃ a, field.read data = .ok a := by
  have hrest : width ≤ (data.drop field.start).length := by
    rw [List.length_drop]
    omega
  obtain ⟨a, tail, hread⟩ := htotal _ hrest
  exact ⟨a, by rw [Field.read, hread]⟩

namespace MarketView

/-- An entry of the table ends within `MarketView.layoutLength`. -/
theorem entryOffset_add_le {data : Bytes} (hlength : layoutTagLength + layoutLength ≤ data.length)
    {index : UInt16} (hindex : index.toNat < maxReserves) :
    layoutTagLength + entryOffset index + 496 ≤ data.length := by
  unfold maxReserves at hindex
  unfold layoutTagLength layoutLength at hlength
  unfold layoutTagLength entryOffset
  omega

/-- The entries of the table have the rates that their fields hold. `MarketView.noteRates` reads
both, so neither of them may be missing. -/
theorem exists_noteRates {data : Bytes} (hlength : layoutTagLength + layoutLength ≤ data.length)
    {index : UInt16} (hindex : index.toNat < maxReserves) :
    ∃ rates, noteRates ⟨data⟩ index = .ok rates ∧
      (depositNoteRateField index).read data = .ok rates.depositNoteRate ∧
      (loanNoteRateField index).read data = .ok rates.loanNoteRate := by
  have hread : ∀ column, column + 24 ≤ 496 →
      ∃ rate : Number, (⟨entryOffset index + column⟩ : Field Number).read data = .ok rate := by
    intro column hcolumn
    have hend := entryOffset_add_le hlength hindex
    refine Field.exists_read _ Decoder.total_number (Nat.le_trans ?_ hend)
    rw [Field.start, ← Nat.add_assoc, Nat.add_assoc]
    exact Nat.add_le_add_left hcolumn _
  -- The two rates, by their places in the entry.
  obtain ⟨deposit, hdeposit⟩ := hread 304 (by decide)
  obtain ⟨loan, hloan⟩ := hread 328 (by decide)
  refine ⟨⟨deposit, loan⟩, ?_, hdeposit, hloan⟩
  unfold noteRates requireEntry
  rw [if_pos hindex, depositNoteRateField, hdeposit, loanNoteRateField, hloan]
  rfl

end MarketView

/-- One of the six points that make up a curve. -/
inductive CurvePoint
  | utilizationRate1
  | utilizationRate2
  | borrowRate0
  | borrowRate1
  | borrowRate2
  | borrowRate3
  deriving DecidableEq

/-- Where a reserve keeps a point: one of the fields that `ReserveView.rateCurve` reads. -/
def CurvePoint.field : CurvePoint → Field UInt16
  | utilizationRate1 => ReserveView.utilizationRate1Field
  | utilizationRate2 => ReserveView.utilizationRate2Field
  | borrowRate0 => ReserveView.borrowRate0Field
  | borrowRate1 => ReserveView.borrowRate1Field
  | borrowRate2 => ReserveView.borrowRate2Field
  | borrowRate3 => ReserveView.borrowRate3Field

def CurvePoint.of : CurvePoint → RateCurve → UInt16
  | utilizationRate1 => RateCurve.utilizationRate1
  | utilizationRate2 => RateCurve.utilizationRate2
  | borrowRate0 => RateCurve.borrowRate0
  | borrowRate1 => RateCurve.borrowRate1
  | borrowRate2 => RateCurve.borrowRate2
  | borrowRate3 => RateCurve.borrowRate3

namespace ReserveView

/-- The curve of a reserve has the points that its fields hold, each at its
own `CurvePoint.field`. -/
theorem exists_rateCurve {data : Bytes} (hlength : layoutTagLength + layoutLength ≤ data.length) :
    ∃ curve, rateCurve ⟨data⟩ = .ok curve ∧
      ∀ point : CurvePoint, point.field.read data = .ok (point.of curve) := by
  have hpoint : ∀ point : CurvePoint, ∃ n, point.field.read data = .ok n := by
    intro point
    have hstop : point.field.start + 2 ≤ layoutTagLength + layoutLength := by
      cases point <;> decide
    exact point.field.exists_read Decoder.total_uint16 (Nat.le_trans hstop hlength)
  -- The curve is read in one go, from six fields that are all there.
  obtain ⟨utilization1, hutilization1⟩ := hpoint .utilizationRate1
  obtain ⟨utilization2, hutilization2⟩ := hpoint .utilizationRate2
  obtain ⟨borrow0, hborrow0⟩ := hpoint .borrowRate0
  obtain ⟨borrow1, hborrow1⟩ := hpoint .borrowRate1
  obtain ⟨borrow2, hborrow2⟩ := hpoint .borrowRate2
  obtain ⟨borrow3, hborrow3⟩ := hpoint .borrowRate3
  refine ⟨⟨utilization1, utilization2, borrow0, borrow1, borrow2, borrow3⟩, ?_, ?_⟩
  · unfold CurvePoint.field at *
    unfold rateCurve
    rw [hutilization1, hutilization2, hborrow0, hborrow1, hborrow2, hborrow3]
    rfl
  · intro point
    cases point <;> assumption

/-- What the data of a reserve says about its debt, its deposits and its curve, which is all that
`RateCurve.interestRate` needs. -/
structure Holds (reserve : ReserveView) (debt : Number) (deposits : UInt64) (curve : RateCurve) :
    Prop where
  debt : reserve.outstandingDebt = .ok debt
  deposits : reserve.totalDeposits = .ok deposits
  curve : reserve.rateCurve = .ok curve

/-- All that a reserve says by `Holds` is there when its data has the length of the layout. -/
theorem exists_holds {data : Bytes} (hlength : layoutTagLength + layoutLength ≤ data.length) :
    ∃ debt deposits curve, Holds ⟨data⟩ debt deposits curve := by
  obtain ⟨curve, hcurve, -⟩ := exists_rateCurve hlength
  obtain ⟨debt, hdebt⟩ := outstandingDebtField.exists_read Decoder.total_number
    (Nat.le_trans (by decide) hlength)
  obtain ⟨deposits, hdeposits⟩ := totalDepositsField.exists_read Decoder.total_uint64
    (Nat.le_trans (by decide) hlength)
  exact ⟨debt, deposits, curve, hdebt, hdeposits, hcurve⟩

end ReserveView

end LendingRelay
