import LendingRelay.Proofs.FieldRuns
import Mathlib.Data.List.FinRange
import Mathlib.Data.List.Pairwise
import Mathlib.Tactic.Choose

/-!
# Account layouts

The three layouts lay out about two hundred items: the fields of a reserve, the entries of a market
with a key and two rates each, and the slots of an obligation with a key, an amount and an index.
They all lie within the length that is checked once and apart from each other. So from then on none
of them is missing, an item that is overwritten reads as what was written, every other item reads as
before, and what is behind the layout does not matter.

* `lossless_of_apart`: what follows from items that lie apart.
* `ReserveItem.item`, `MarketItem.item`, `ObligationItem.item`: the items and their readers.
* `ObligationView.position_of_holds`: the position for a reserve, by what the slots hold.
* `layouts_lossless`: the three layouts are lossless.
-/

namespace LendingRelay

/-! ## Items -/

/-- What a layout keeps in one place: a `Field`, and what the reader of the item makes of the value
in it. -/
structure Item (View : Type) where
  Value : Type
  Shown : Type
  [wire : Wire Value]
  [packed : Packed Value]
  field : Field Value
  shown : Value → Shown
  reader : View → Except RelayError Shown

attribute [instance] Item.wire Item.packed

/-- An item that is read as it is. -/
def Item.plain {View α : Type} [Wire α] [Packed α] (field : Field α)
    (reader : View → Except RelayError α) : Item View :=
  { Value := α, Shown := α, field, shown := id, reader }

variable {ι View : Type}

/-- A layout keeps what is written. Its items are named by an index type, with one `Item`
for each. -/
structure Lossless (ofData? : Bytes → Except RelayError View) (length : Nat)
    (item : ι → Item View) : Prop where
  /-- The data has to be as long as the layout, behind the tag. -/
  opens_iff : ∀ data, (∃ view, ofData? data = .ok view) ↔ layoutTagLength + length ≤ data.length
  refuses_iff : ∀ data,
    ofData? data = .error .invalidAccountLayout ↔ data.length < layoutTagLength + length
  total : ∀ data view, ofData? data = .ok view → ∀ i, ∃ shown, (item i).reader view = .ok shown
  apart : ∀ i j, i ≠ j → (item i).field.Apart (item j).field
  written : ∀ data view, ofData? data = .ok view → ∀ i (value : (item i).Value),
    ∃ view', ofData? ((item i).field.write data value) = .ok view' ∧
      (item i).reader view' = .ok ((item i).shown value) ∧
      ∀ j, j ≠ i → (item j).reader view' = (item j).reader view
  /-- What is behind the layout does not matter. -/
  within : ∀ data data' view view', ofData? data = .ok view → ofData? data' = .ok view' →
    data.take (layoutTagLength + length) = data'.take (layoutTagLength + length) →
      ∀ i, (item i).reader view = (item i).reader view'

/-- **Items that lie apart are kept**, when each is read from its own field. `Field.read_write` and
`Field.read_write_of_apart` say this of the fields, and the readers follow them. -/
theorem lossless_of_apart {ofData? : Bytes → Except RelayError View} {length : Nat}
    {item : ι → Item View} (make : Bytes → View)
    (hopens : ∀ data, ofData? data = requireLayout length data >>= fun _ => pure (make data))
    (hreader : ∀ data, layoutTagLength + length ≤ data.length → ∀ i,
      (item i).reader (make data) = (item i).shown <$> (item i).field.read data)
    (hfits : ∀ i, (item i).field.stop ≤ layoutTagLength + length)
    (hapart : ∀ i j, i ≠ j → (item i).field.Apart (item j).field) :
    Lossless ofData? length item := by
  -- Data and view determine each other, so everything below is said about fields of the data.
  have hview : ∀ data view, ofData? data = .ok view ↔
      layoutTagLength + length ≤ data.length ∧ view = make data := by
    intro data view
    rw [hopens, requireLayout_bind_pure_eq_ok_iff]
  refine ⟨fun data => ?_, fun data => ?_, fun data view hdata i => ?_, hapart,
    fun data view hdata i value => ?_, fun data data' view view' hdata hdata' htake i => ?_⟩
  · simp only [hview]
    exact ⟨fun ⟨_, hlength, _⟩ => hlength, fun hlength => ⟨_, hlength, rfl⟩⟩
  · -- Data that is too short is refused by the check of the length, and by nothing else.
    rw [hopens, requireLayout]
    split
    · next hlength => exact iff_of_false (fun herror => by cases herror) (Nat.not_lt.mpr hlength)
    · next hshort => exact iff_of_true rfl (Nat.lt_of_not_le hshort)
  · obtain ⟨hlength, rfl⟩ := (hview ..).mp hdata
    have hstop := Nat.le_trans (hfits i) hlength
    obtain ⟨value, hvalue⟩ := (item i).field.exists_read Packed.total hstop
    exact ⟨_, by rw [hreader data hlength, hvalue]; rfl⟩
  · obtain ⟨hlength, rfl⟩ := (hview ..).mp hdata
    have hstop := Nat.le_trans (hfits i) hlength
    -- Writing does not change the length, so the written data still opens.
    have hwritten : layoutTagLength + length ≤ ((item i).field.write data value).length := by
      rw [Field.length_write _ value hstop]
      exact hlength
    refine ⟨_, (hview ..).mpr ⟨hwritten, rfl⟩, ?_, fun j hj => ?_⟩
    · rw [hreader _ hwritten, Field.read_write _ value hstop]
      rfl
    · rw [hreader _ hwritten, hreader data hlength,
        Field.read_write_of_apart _ _ value hstop (hapart i j hj.symm)]
  · obtain ⟨hlength, rfl⟩ := (hview ..).mp hdata
    obtain ⟨hlength', rfl⟩ := (hview ..).mp hdata'
    rw [hreader data hlength, hreader data' hlength', Field.read_eq_of_take _ (hfits i) htake]

/-- Items that are listed in the order of their places lie apart. One place has to be compared with
the next ones only, and `Field.Apart` is symmetric. -/
theorem apart_of_sorted {item : ι → Item View} {all : List ι} (hall : ∀ i, i ∈ all)
    (hsorted : all.Pairwise fun i j => (item i).field.stop ≤ (item j).field.start) (i j : ι)
    (hne : i ≠ j) : (item i).field.Apart (item j).field := by
  have hapart : all.Pairwise fun i j => (item i).field.Apart (item j).field :=
    hsorted.imp Or.inl
  have hsymm : Std.Symm fun i j => (item i).field.Apart (item j).field :=
    ⟨fun _ _ => Field.Apart.symm⟩
  exact hapart.forall (hall i) (hall j) hne

/-! ## Reserves -/

inductive ReserveItem
  | index
  | exponent
  | market
  | vault
  | psyfiVault
  | curve (point : CurvePoint)
  | loanOriginationFee
  | accruedUntil
  | outstandingDebt
  | uncollectedFees
  | totalDeposits
  | totalDepositNotes
  | totalLoanNotes
  deriving DecidableEq

namespace ReserveItem

open ReserveView

/-- The fields of a reserve and their readers. `ReserveView.psyfiVault` is none when its key is
zero, and the points of the curve are read together. -/
def item : ReserveItem → Item ReserveView
  | index => .plain indexField ReserveView.index
  | exponent => .plain exponentField ReserveView.exponent
  | market => .plain marketField ReserveView.market
  | vault => .plain vaultField ReserveView.vault
  | psyfiVault =>
    { Value := Pubkey
      Shown := Option Pubkey
      field := psyfiVaultField
      shown := fun key => if key = .zero then none else some key
      reader := ReserveView.psyfiVault }
  | curve point => .plain point.field fun reserve => point.of <$> reserve.rateCurve
  | loanOriginationFee => .plain loanOriginationFeeField loanOriginationFeeBps
  | accruedUntil => .plain accruedUntilField ReserveView.accruedUntil
  | outstandingDebt => .plain outstandingDebtField ReserveView.outstandingDebt
  | uncollectedFees => .plain uncollectedFeesField ReserveView.uncollectedFees
  | totalDeposits => .plain totalDepositsField ReserveView.totalDeposits
  | totalDepositNotes => .plain totalDepositNotesField ReserveView.totalDepositNotes
  | totalLoanNotes => .plain totalLoanNotesField ReserveView.totalLoanNotes

def all : List ReserveItem :=
  [index, exponent, market, vault, curve .utilizationRate1, curve .utilizationRate2,
   curve .borrowRate0, curve .borrowRate1, curve .borrowRate2, curve .borrowRate3,
   loanOriginationFee, psyfiVault, accruedUntil, outstandingDebt, uncollectedFees, totalDeposits,
   totalDepositNotes, totalLoanNotes]

theorem mem_all (i : ReserveItem) : i ∈ all := by
  cases i with
  | curve point => cases point <;> decide
  | _ => decide

theorem sorted_all : all.Pairwise fun i j => i.item.field.stop ≤ j.item.field.start := by
  decide

theorem stop_le (i : ReserveItem) : i.item.field.stop ≤ layoutTagLength + layoutLength := by
  cases i with
  | curve point => cases point <;> decide
  | _ => decide

/-- Each item is read from its own field. For the points that is `ReserveView.exists_rateCurve`. -/
theorem reader_eq {data : Bytes} (hlength : layoutTagLength + layoutLength ≤ data.length)
    (i : ReserveItem) : i.item.reader ⟨data⟩ = i.item.shown <$> i.item.field.read data := by
  cases i with
  | curve point =>
    obtain ⟨curve, hcurve, hpoints⟩ := exists_rateCurve hlength
    show point.of <$> rateCurve ⟨data⟩ = id <$> point.field.read data
    rw [hcurve, hpoints point]
    rfl
  | psyfiVault => rfl
  | _ => exact (id_map _).symm

theorem lossless : Lossless ReserveView.ofData? layoutLength item :=
  lossless_of_apart ReserveView.mk (fun _ => rfl) (fun _ => reader_eq) stop_le
    (apart_of_sorted mem_all sorted_all)

end ReserveItem

/-! ## Markets -/

/-- The index of an entry in the table of reserves. -/
abbrev TableIndex := { index : UInt16 // index.toNat < MarketView.maxReserves }

/-- What a market keeps in an entry. -/
inductive MarketColumn
  | reserve
  | depositNoteRate
  | loanNoteRate
  deriving DecidableEq

structure MarketItem where
  index : TableIndex
  column : MarketColumn
  deriving DecidableEq

namespace MarketColumn

def offset : MarketColumn → Nat
  | reserve => 0
  | depositNoteRate => 304
  | loanNoteRate => 328

def width : MarketColumn → Nat
  | reserve => 32
  | depositNoteRate | loanNoteRate => 24

theorem offset_add_width_le (column : MarketColumn) : column.offset + column.width ≤ 496 := by
  cases column <;> decide

theorem apart {column column' : MarketColumn} (hne : column ≠ column') :
    column.offset + column.width ≤ column'.offset ∨
      column'.offset + column'.width ≤ column.offset := by
  cases column <;> cases column' <;> first | exact absurd rfl hne | decide

end MarketColumn

namespace MarketItem

open MarketView

/-- The fields of the entries and their readers. `MarketView.noteRates` reads both
rates together. -/
def item : MarketItem → Item MarketView
  | ⟨index, .reserve⟩ => .plain (reserveField index) fun market => market.reserveAt index
  | ⟨index, .depositNoteRate⟩ =>
    .plain (depositNoteRateField index) fun market =>
      NoteRates.depositNoteRate <$> market.noteRates index
  | ⟨index, .loanNoteRate⟩ =>
    .plain (loanNoteRateField index) fun market =>
      NoteRates.loanNoteRate <$> market.noteRates index

theorem offset_eq (i : MarketItem) :
    i.item.field.offset = 672 + i.index.val.toNat * 496 + i.column.offset := by
  obtain ⟨index, column⟩ := i
  cases column <;> rfl

theorem width_eq (i : MarketItem) : Packed.width i.item.Value = i.column.width := by
  obtain ⟨index, column⟩ := i
  cases column <;> rfl

theorem stop_le (i : MarketItem) : i.item.field.stop ≤ layoutTagLength + layoutLength := by
  have hindex : i.index.val.toNat < 32 := i.index.property
  have hcolumn := i.column.offset_add_width_le
  unfold Field.stop Field.start layoutLength
  rw [offset_eq, width_eq]
  omega

theorem apart (i j : MarketItem) (hne : i ≠ j) : i.item.field.Apart j.item.field := by
  -- Different items are in different rows or in different columns of the table.
  have hcells : i.index.val.toNat ≠ j.index.val.toNat ∨ i.column ≠ j.column := by
    by_contra hsame
    obtain ⟨hindex, hcolumn⟩ := not_or.mp hsame
    apply hne
    obtain ⟨index, column⟩ := i
    obtain ⟨index', column'⟩ := j
    simp only [not_not] at hindex hcolumn
    rw [hcolumn, Subtype.ext (UInt16.toNat_inj.mp hindex)]
  apply Field.apart_of_rows i.offset_eq j.offset_eq
  · rw [width_eq]
    exact i.column.offset_add_width_le
  · rw [width_eq]
    exact j.column.offset_add_width_le
  · rw [width_eq, width_eq]
    exact hcells.imp_right MarketColumn.apart

/-- An item of an entry is read from its own field, since `requireEntry` lets the entries of the
table pass. -/
theorem reader_eq {data : Bytes} (hlength : layoutTagLength + layoutLength ≤ data.length)
    (i : MarketItem) : i.item.reader ⟨data⟩ = i.item.shown <$> i.item.field.read data := by
  obtain ⟨index, column⟩ := i
  cases column with
  | reserve =>
    show reserveAt ⟨data⟩ index = id <$> (reserveField index).read data
    rw [reserveAt, requireEntry, if_pos index.property, id_map]
    rfl
  | depositNoteRate =>
    obtain ⟨rates, hrates, hdeposit, -⟩ := exists_noteRates hlength index.property
    show NoteRates.depositNoteRate <$> noteRates ⟨data⟩ index =
      id <$> (depositNoteRateField index).read data
    rw [hrates, hdeposit]
    rfl
  | loanNoteRate =>
    obtain ⟨rates, hrates, -, hloan⟩ := exists_noteRates hlength index.property
    show NoteRates.loanNoteRate <$> noteRates ⟨data⟩ index =
      id <$> (loanNoteRateField index).read data
    rw [hrates, hloan]
    rfl

theorem lossless : Lossless MarketView.ofData? layoutLength item :=
  lossless_of_apart MarketView.mk (fun _ => rfl) (fun _ => reader_eq) stop_le apart

end MarketItem

namespace MarketView

/-- The readers of an entry serve the indices below `MarketView.maxReserves` and refuse
all others. -/
def ServesTable (market : MarketView) (index : UInt16) : Prop :=
  if index.toNat < maxReserves then
    (∃ key, market.reserveAt index = .ok key) ∧ ∃ rates, market.noteRates index = .ok rates
  else
    market.reserveAt index = .error .invalidAccountLayout ∧
      market.noteRates index = .error .invalidAccountLayout

theorem servesTable {data : Bytes} (hlength : layoutTagLength + layoutLength ≤ data.length)
    (index : UInt16) : ServesTable ⟨data⟩ index := by
  unfold ServesTable
  split
  · next hindex =>
    obtain ⟨rates, hrates, -⟩ := exists_noteRates hlength hindex
    obtain ⟨key, hkey⟩ := (reserveField index).exists_read Packed.total
      (Nat.le_trans (MarketItem.stop_le ⟨⟨index, hindex⟩, .reserve⟩) hlength)
    exact ⟨⟨key, (reserveAt_eq_ok_iff ..).mpr ⟨hindex, hkey⟩⟩, rates, hrates⟩
  · next hindex =>
    unfold reserveAt noteRates requireEntry
    rw [if_neg hindex]
    exact ⟨rfl, rfl⟩

end MarketView

/-! ## Obligations -/

/-- What an obligation keeps in a slot. -/
inductive SlotColumn
  | account
  | amount
  | reserveIndex
  deriving DecidableEq

inductive ObligationItem
  | market
  | owner
  | position (side : PositionSide) (slot : Fin ObligationView.maxPositions) (column : SlotColumn)
  deriving DecidableEq

/-- The slots of both sides are the rows of one table, since the loans follow the collateral. -/
def PositionSide.row (side : PositionSide) (slot : Fin ObligationView.maxPositions) : Nat :=
  match side with
  | collateral => slot
  | loan => 16 + slot

theorem PositionSide.row_lt (side : PositionSide) (slot : Fin ObligationView.maxPositions) :
    side.row slot < 32 := by
  have hslot : slot.val < 16 := slot.isLt
  unfold row
  cases side <;> dsimp only <;> omega

/-- A row is the row of one slot. -/
theorem PositionSide.row_inj {side side' : PositionSide}
    {slot slot' : Fin ObligationView.maxPositions} (hrow : side.row slot = side'.row slot') :
    side = side' ∧ slot = slot' := by
  have hslot : slot.val < 16 := slot.isLt
  have hslot' : slot'.val < 16 := slot'.isLt
  unfold row at hrow
  -- Rows of collateral are below sixteen, and those of loans are not.
  cases side <;> cases side' <;> dsimp only at hrow
  · exact ⟨rfl, Fin.ext hrow⟩
  · omega
  · omega
  · exact ⟨rfl, Fin.ext (by omega)⟩

namespace SlotColumn

def offset : SlotColumn → Nat
  | account => 0
  | amount => 32
  | reserveIndex => 84

def width : SlotColumn → Nat
  | account => 32
  | amount => 24
  | reserveIndex => 2

theorem offset_add_width_le (column : SlotColumn) : column.offset + column.width ≤ 160 := by
  cases column <;> decide

theorem apart {column column' : SlotColumn} (hne : column ≠ column') :
    column.offset + column.width ≤ column'.offset ∨
      column'.offset + column'.width ≤ column.offset := by
  cases column <;> cases column' <;> first | exact absurd rfl hne | decide

end SlotColumn

namespace ObligationItem

open ObligationView

/-- The fields of an obligation and their readers. No reader shows a slot alone, and those of its
fields are the reads of `ObligationView.positionAmong`. -/
def item : ObligationItem → Item ObligationView
  | market => .plain marketField ObligationView.market
  | owner => .plain ownerField ObligationView.owner
  | position side slot .account =>
    .plain (accountField side slot) fun view => (accountField side slot).read view.data
  | position side slot .amount =>
    .plain (amountField side slot) fun view => (amountField side slot).read view.data
  | position side slot .reserveIndex =>
    .plain (indexField side slot) fun view => (indexField side slot).read view.data

theorem slotOffset_eq (side : PositionSide) (slot : Fin maxPositions) :
    slotOffset side slot = 512 + side.row slot * 160 := by
  cases side with
  | collateral => rfl
  | loan =>
    unfold slotOffset PositionSide.row
    dsimp only
    omega

theorem offset_position (side : PositionSide) (slot : Fin maxPositions) (column : SlotColumn) :
    (position side slot column).item.field.offset =
      512 + side.row slot * 160 + column.offset := by
  rw [← slotOffset_eq]
  cases column <;> rfl

theorem width_position (side : PositionSide) (slot : Fin maxPositions) (column : SlotColumn) :
    Packed.width (position side slot column).item.Value = column.width := by
  cases column <;> rfl

theorem stop_le (i : ObligationItem) : i.item.field.stop ≤ layoutTagLength + layoutLength := by
  cases i with
  | market => decide
  | owner => decide
  | position side slot column =>
    have hrow := side.row_lt slot
    have hcolumn := column.offset_add_width_le
    unfold Field.stop Field.start layoutLength
    rw [offset_position, width_position]
    omega

theorem le_start_position (side : PositionSide) (slot : Fin maxPositions) (column : SlotColumn) :
    520 ≤ (position side slot column).item.field.start := by
  unfold Field.start layoutTagLength
  rw [offset_position]
  omega

theorem apart_position {side side' : PositionSide} {slot slot' : Fin maxPositions}
    {column column' : SlotColumn} (hne : position side slot column ≠ position side' slot' column') :
    (position side slot column).item.field.Apart (position side' slot' column').item.field := by
  have hcells : side.row slot ≠ side'.row slot' ∨ column ≠ column' := by
    by_contra hsame
    obtain ⟨hrow, hcolumn⟩ := not_or.mp hsame
    obtain ⟨rfl, rfl⟩ := PositionSide.row_inj (not_not.mp hrow)
    exact hne (congrArg _ (not_not.mp hcolumn))
  apply Field.apart_of_rows (offset_position ..) (offset_position ..)
  · rw [width_position]
    exact column.offset_add_width_le
  · rw [width_position]
    exact column'.offset_add_width_le
  · rw [width_position, width_position]
    exact hcells.imp_right SlotColumn.apart

theorem apart : ∀ i j : ObligationItem, i ≠ j → i.item.field.Apart j.item.field
  | market, market, hne | owner, owner, hne => absurd rfl hne
  | market, owner, _ => .inl (by decide)
  | owner, market, _ => .inr (by decide)
  | market, position side slot column, _ =>
    .inl (Nat.le_trans (by decide) (le_start_position side slot column))
  | owner, position side slot column, _ =>
    .inl (Nat.le_trans (by decide) (le_start_position side slot column))
  | position side slot column, market, _ =>
    .inr (Nat.le_trans (by decide) (le_start_position side slot column))
  | position side slot column, owner, _ =>
    .inr (Nat.le_trans (by decide) (le_start_position side slot column))
  | position _ _ _, position _ _ _, hne => apart_position hne

theorem reader_eq (data : Bytes) (i : ObligationItem) :
    i.item.reader ⟨data⟩ = i.item.shown <$> i.item.field.read data := by
  cases i with
  | market => exact (id_map _).symm
  | owner => exact (id_map _).symm
  | position side slot column => cases column <;> exact (id_map _).symm

theorem lossless : Lossless ObligationView.ofData? layoutLength item :=
  lossless_of_apart ObligationView.mk (fun _ => rfl) (fun data _ => reader_eq data) stop_le apart

end ObligationItem

/-! ### The lookup of a position -/

/-- The slot with the position is in use, and for the reserve at an index. -/
def Position.IsFor (position : Position) (index : UInt16) : Prop :=
  position.account ≠ .zero ∧ position.reserveIndex = index

instance (position : Position) (index : UInt16) : Decidable (position.IsFor index) :=
  inferInstanceAs (Decidable (_ ∧ _))

namespace ObligationView

/-- What the data of an obligation says about its slots. -/
structure Holds (obligation : ObligationView)
    (slots : PositionSide → Fin maxPositions → Position) : Prop where
  account : ∀ side (slot : Fin maxPositions),
    (accountField side slot).read obligation.data = .ok (slots side slot).account
  amount : ∀ side (slot : Fin maxPositions),
    (amountField side slot).read obligation.data = .ok (slots side slot).amount
  reserveIndex : ∀ side (slot : Fin maxPositions),
    (indexField side slot).read obligation.data = .ok (slots side slot).reserveIndex

/-- All that an obligation says about its slots is there when it has the length of the layout. A
position is put together from the three `ObligationItem`s of a slot. -/
theorem exists_holds {data : Bytes} (hlength : layoutTagLength + layoutLength ≤ data.length) :
    ∃ slots, Holds ⟨data⟩ slots := by
  -- Each field of each slot has a value, and a position is put together from the three of a slot.
  have hread : ∀ i : ObligationItem, ∃ value, i.item.field.read data = .ok value := fun i =>
    i.item.field.exists_read Packed.total (Nat.le_trans i.stop_le hlength)
  choose account haccount using fun side slot => hread (.position side slot .account)
  choose amount hamount using fun side slot => hread (.position side slot .amount)
  choose index hindex using fun side slot => hread (.position side slot .reserveIndex)
  exact ⟨fun side slot => ⟨account side slot, amount side slot, index side slot⟩,
    haccount, hamount, hindex⟩

/-- What is behind the layout does not matter to the slots, by `Field.read_eq_of_take`. -/
theorem Holds.of_take {data data' : Bytes} {slots : PositionSide → Fin maxPositions → Position}
    (hholds : Holds ⟨data⟩ slots)
    (htake : data.take (layoutTagLength + layoutLength) =
      data'.take (layoutTagLength + layoutLength)) : Holds ⟨data'⟩ slots := by
  have hread : ∀ i : ObligationItem, i.item.field.read data' = i.item.field.read data := fun i =>
    (i.item.field.read_eq_of_take i.stop_le htake).symm
  refine ⟨fun side slot => ?_, fun side slot => ?_, fun side slot => ?_⟩
  · exact (hread (.position side slot .account)).trans (hholds.account side slot)
  · exact (hread (.position side slot .amount)).trans (hholds.amount side slot)
  · exact (hread (.position side slot .reserveIndex)).trans (hholds.reserveIndex side slot)

variable {obligation : ObligationView} {slots : PositionSide → Fin maxPositions → Position}

/-- A slot with `Position.IsFor` is the answer, and any other is passed over. An empty slot is
passed over whatever its index is. -/
theorem positionAmong_cons (hholds : obligation.Holds slots) (side : PositionSide) (index : UInt16)
    (slot : Fin maxPositions) (rest : List Nat) :
    obligation.positionAmong side index (slot :: rest) =
      if (slots side slot).IsFor index then .ok (some (slots side slot))
      else obligation.positionAmong side index rest := by
  rw [positionAmong, hholds.account, hholds.reserveIndex, hholds.amount]
  show (if (slots side slot).account = .zero then obligation.positionAmong side index rest
    else if (slots side slot).reserveIndex = index then
      .ok (some ⟨(slots side slot).account, (slots side slot).amount, index⟩)
    else obligation.positionAmong side index rest) = _
  -- A slot is empty, or for another reserve, or the answer.
  by_cases haccount : (slots side slot).account = .zero
  · rw [if_pos haccount, if_neg fun hfor => hfor.1 haccount]
  · rw [if_neg haccount]
    by_cases hindex : (slots side slot).reserveIndex = index
    · rw [if_pos hindex, if_pos ⟨haccount, hindex⟩, ← hindex]
    · rw [if_neg hindex, if_neg fun hfor => hindex hfor.2]

theorem positionAmong_of_holds (hholds : obligation.Holds slots) (side : PositionSide)
    (index : UInt16) (among : List (Fin maxPositions)) :
    obligation.positionAmong side index (among.map Fin.val) =
      .ok ((among.map (slots side)).find? fun position => position.IsFor index) := by
  induction among with
  | nil => rfl
  | cons slot rest ih =>
    rw [List.map_cons, List.map_cons, positionAmong_cons hholds, List.find?_cons, ih]
    by_cases hfor : (slots side slot).IsFor index
    · rw [if_pos hfor, decide_eq_true hfor]
    · rw [if_neg hfor, decide_eq_false hfor]

/-- **The position for a reserve** is the first slot of the side that is in use for it.
`positionAmong_of_holds` is the scan over any slots, by induction on them. -/
theorem position_of_holds (hholds : obligation.Holds slots) (side : PositionSide)
    (index : UInt16) :
    obligation.position side index =
      .ok (((List.finRange maxPositions).map (slots side)).find? fun position =>
        position.IsFor index) := by
  rw [position, ← List.map_coe_finRange_eq_range]
  exact positionAmong_of_holds hholds ..

end ObligationView

/-! ## The three layouts -/

/-- **The layouts are lossless.** Beyond the single items, the curve of a reserve and the position
for a reserve are always there, the latter by the slots of its side and whatever is behind the
layout, and the table of a market serves exactly its thirty-two indices. Each layout has its own
instance of `lossless_of_apart`; the curve, the table and the lookup are read from several items at
once, and come after them. -/
theorem layouts_lossless :
    Lossless ReserveView.ofData? 5184 ReserveItem.item ∧
    Lossless MarketView.ofData? 16544 MarketItem.item ∧
    Lossless ObligationView.ofData? 5632 ObligationItem.item ∧
    (∀ data reserve, ReserveView.ofData? data = .ok reserve →
      ∃ curve, reserve.rateCurve = .ok curve) ∧
    (∀ data market, MarketView.ofData? data = .ok market → ∀ index, market.ServesTable index) ∧
    (∀ data obligation, ObligationView.ofData? data = .ok obligation →
      ∃ slots, obligation.Holds slots ∧
        (∀ side index, obligation.position side index =
          .ok (((List.finRange 16).map (slots side)).find? fun position =>
            position.IsFor index)) ∧
        ∀ data' obligation', ObligationView.ofData? data' = .ok obligation' →
          data.take (layoutTagLength + 5632) = data'.take (layoutTagLength + 5632) →
            ∀ side index, obligation'.position side index = obligation.position side index) := by
  refine ⟨ReserveItem.lossless, MarketItem.lossless, ObligationItem.lossless,
    fun data reserve hreserve => ?_, fun data market hmarket => ?_,
    fun data obligation hobligation => ?_⟩
  · obtain ⟨hlength, rfl⟩ := (ReserveView.ofData?_eq_ok_iff ..).mp hreserve
    obtain ⟨curve, hcurve, -⟩ := ReserveView.exists_rateCurve hlength
    exact ⟨curve, hcurve⟩
  · obtain ⟨hlength, rfl⟩ := (MarketView.ofData?_eq_ok_iff ..).mp hmarket
    exact MarketView.servesTable hlength
  · obtain ⟨hlength, rfl⟩ := (ObligationView.ofData?_eq_ok_iff ..).mp hobligation
    obtain ⟨slots, hslots⟩ := ObligationView.exists_holds hlength
    refine ⟨slots, hslots, ObligationView.position_of_holds hslots,
      fun data' obligation' hobligation' htake side index => ?_⟩
    obtain ⟨-, rfl⟩ := (ObligationView.ofData?_eq_ok_iff ..).mp hobligation'
    rw [ObligationView.position_of_holds (hslots.of_take htake),
      ObligationView.position_of_holds hslots]

end LendingRelay
