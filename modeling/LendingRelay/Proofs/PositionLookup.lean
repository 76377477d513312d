import LendingRelay.Proofs.Lossless

/-!
# Looking up positions

The sixteen slots of a side are searched from the first on, and a slot counts when it has an account
and its index is the one asked for. Slots may be empty anywhere, and an empty slot still carries an
index, mostly zero, which is the index of a real reserve. So what the search gives is said here by
slots alone: it is the lowest slot that counts, and nothing that is not looked at has a say in it.

* `ObligationView.FirstFrom`: the lowest slot that counts, from a given one on.
* `ObligationView.position_eq_some_iff`, `ObligationView.position_eq_none_iff`: the two answers.
* `ObligationView.position_congr`: what the answer depends on.
* `ObligationView.exists_emptied`: the slots after one of them was emptied.
* `ObligationView.position_lookup`: all of it, for every obligation that opens.
-/

namespace LendingRelay

/-- The two slots count alike for a reserve: if either has `Position.IsFor`, they hold the same
position. Slots without an account all count alike, whatever else is stored in them. -/
def Position.CountsAs (index : UInt16) (position position' : Position) : Prop :=
  position.IsFor index ∨ position'.IsFor index → position = position'

theorem Position.CountsAs.isFor_iff {index : UInt16} {position position' : Position}
    (hcounts : Position.CountsAs index position position') :
    position.IsFor index ↔ position'.IsFor index := by
  refine ⟨fun hfor => ?_, fun hfor => ?_⟩
  · rw [← hcounts (.inl hfor)]
    exact hfor
  · rw [hcounts (.inr hfor)]
    exact hfor

namespace ObligationView

/-- The positions in the slots of both sides. -/
abbrev Slots := PositionSide → Fin maxPositions → Position

/-- What is read in a slot is what the slot holds, so `Holds` determines the slots. -/
theorem Holds.eq_of_read {view : ObligationView} {slots : Slots} (hholds : view.Holds slots)
    {side : PositionSide} {slot : Fin maxPositions} {position : Position}
    (haccount : (accountField side slot).read view.data = .ok position.account)
    (hamount : (amountField side slot).read view.data = .ok position.amount)
    (hindex : (indexField side slot).read view.data = .ok position.reserveIndex) :
    slots side slot = position := by
  have haccount' := Except.ok.inj ((hholds.account side slot).symm.trans haccount)
  have hamount' := Except.ok.inj ((hholds.amount side slot).symm.trans hamount)
  have hindex' := Except.ok.inj ((hholds.reserveIndex side slot).symm.trans hindex)
  cases hslot : slots side slot with
  | mk account amount reserveIndex =>
    rw [hslot] at haccount' hamount' hindex'
    cases haccount'
    cases hamount'
    cases hindex'
    rfl

/-! ## The lowest slot -/

/-- From a number on, this is the lowest slot with `Position.IsFor` an index. -/
structure FirstFrom (positions : Fin maxPositions → Position) (index : UInt16) (start : Nat)
    (slot : Fin maxPositions) : Prop where
  isFor : (positions slot).IsFor index
  behind : start ≤ slot.val
  lowest : ∀ lower : Fin maxPositions, start ≤ lower.val → lower < slot →
    ¬(positions lower).IsFor index

variable {view view' : ObligationView} {slots slots' : Slots} {side : PositionSide}
  {index : UInt16} {slot : Fin maxPositions}

/-- **What is found** is the lowest slot that is in use for the reserve. `position_of_holds` makes
the lookup a `List.find?` over the slots in order. -/
theorem position_eq_some_iff (hholds : view.Holds slots) (side : PositionSide) (index : UInt16)
    (position : Position) :
    view.position side index = .ok (some position) ↔
      ∃ slot, FirstFrom (slots side) index 0 slot ∧ slots side slot = position := by
  rw [position_of_holds hholds, Except.ok.injEq, List.find?_eq_some_iff_getElem]
  simp only [List.getElem_map, List.getElem_finRange, List.length_map, List.length_finRange]
  refine ⟨?_, ?_⟩
  · rintro ⟨hfor, i, hi, rfl, hlowest⟩
    refine ⟨⟨i, hi⟩, ⟨of_decide_eq_true hfor, Nat.zero_le _, fun lower _ hlower => ?_⟩, rfl⟩
    -- Places of the list are slots, so what is said of the one is said of the other.
    have hnot := hlowest lower.val hlower
    simpa using hnot
  · rintro ⟨slot, hfirst, rfl⟩
    refine ⟨decide_eq_true hfirst.isFor, slot.val, slot.isLt, rfl, fun j hj => ?_⟩
    have hnot := hfirst.lowest ⟨j, Nat.lt_trans hj slot.isLt⟩ (Nat.zero_le _) hj
    simpa using hnot

/-- **Nothing is found** exactly when no slot is in use for the reserve. -/
theorem position_eq_none_iff (hholds : view.Holds slots) (side : PositionSide) (index : UInt16) :
    view.position side index = .ok none ↔ ∀ slot, ¬(slots side slot).IsFor index := by
  rw [position_of_holds hholds, Except.ok.injEq, List.find?_eq_none]
  simp only [List.forall_mem_map, List.mem_finRange, forall_const, decide_eq_true_eq]

theorem exists_position (hholds : view.Holds slots) (side : PositionSide) (index : UInt16) :
    ∃ found, view.position side index = .ok found :=
  ⟨_, position_of_holds hholds side index⟩

/-! ## What the answer depends on -/

/-- **Only the slots up to the answer matter**, and of those only what they count for by
`Position.CountsAs`. -/
theorem position_congr (hholds : view.Holds slots) (hholds' : view'.Holds slots')
    (hcounts : ∀ slot, (∀ lower < slot, ¬(slots side lower).IsFor index) →
      Position.CountsAs index (slots side slot) (slots' side slot)) :
    view'.position side index = view.position side index := by
  obtain ⟨found, hfound⟩ := exists_position hholds side index
  rw [hfound]
  cases found with
  | none =>
    have hnone := (position_eq_none_iff hholds side index).mp hfound
    refine (position_eq_none_iff hholds' side index).mpr fun slot hfor => hnone slot ?_
    exact (hcounts slot fun lower _ => hnone lower).isFor_iff.mpr hfor
  | some position =>
    obtain ⟨slot, hfirst, rfl⟩ := (position_eq_some_iff hholds side index position).mp hfound
    -- No slot below the answer is in use for the reserve, so each of them has been looked at.
    have hbelow : ∀ lower ≤ slot,
        Position.CountsAs index (slots side lower) (slots' side lower) := fun lower hle =>
      hcounts lower fun lower' hlt =>
        hfirst.lowest lower' (Nat.zero_le _) (Fin.lt_of_lt_of_le hlt hle)
    have hsame := hbelow slot (Fin.le_refl slot)
    refine (position_eq_some_iff hholds' side index _).mpr ⟨slot, ?_, ?_⟩
    · refine ⟨hsame.isFor_iff.mp hfirst.isFor, Nat.zero_le _, fun lower hstart hlower hfor => ?_⟩
      have hcount := hbelow lower (Fin.le_of_lt hlower)
      exact hfirst.lowest lower hstart hlower (hcount.isFor_iff.mpr hfor)
    · exact (hsame (.inl hfirst.isFor)).symm

theorem FirstFrom.index_eq {positions : Fin maxPositions → Position} {index index' : UInt16}
    {start start' : Nat} {slot : Fin maxPositions} (hfirst : FirstFrom positions index start slot)
    (hfirst' : FirstFrom positions index' start' slot) : index = index' :=
  hfirst.isFor.2.symm.trans hfirst'.isFor.2

/-! ## Emptying a slot -/

/-- The slots with the account of one of them set to zero, as a closed position leaves it. -/
def emptied (slots : Slots) (side : PositionSide) (slot : Fin maxPositions) : Slots :=
  fun side' slot' =>
    if side' = side ∧ slot' = slot then { slots side slot with account := .zero }
    else slots side' slot'

theorem emptied_of_ne {side' : PositionSide} {slot' : Fin maxPositions}
    (hne : ¬(side' = side ∧ slot' = slot)) :
    emptied slots side slot side' slot' = slots side' slot' :=
  if_neg hne

theorem amount_emptied {side' : PositionSide} {slot' : Fin maxPositions} :
    (emptied slots side slot side' slot').amount = (slots side' slot').amount := by
  unfold emptied
  split
  · next hsame => rw [hsame.1, hsame.2]
  · rfl

theorem reserveIndex_emptied {side' : PositionSide} {slot' : Fin maxPositions} :
    (emptied slots side slot side' slot').reserveIndex = (slots side' slot').reserveIndex := by
  unfold emptied
  split
  · next hsame => rw [hsame.1, hsame.2]
  · rfl

/-- The emptied slot is in use for nothing, and the others are in use as before. The index in it
stays, but `Position.IsFor` asks for an account first. -/
theorem isFor_emptied_iff {side' : PositionSide} {slot' : Fin maxPositions} :
    (emptied slots side slot side' slot').IsFor index ↔
      ¬(side' = side ∧ slot' = slot) ∧ (slots side' slot').IsFor index := by
  by_cases hsame : side' = side ∧ slot' = slot
  · unfold emptied
    rw [if_pos hsame]
    exact iff_of_false (fun hfor => hfor.1 rfl) fun hboth => hboth.1 hsame
  · rw [emptied_of_ne hsame, and_iff_right hsame]

/-- When the account of a slot is set to zero, the data holds the `emptied` slots. By
`ObligationItem.lossless` the write is read in that field and in no other. -/
theorem exists_emptied {data : Bytes} (hopens : ofData? data = .ok view) (hholds : view.Holds slots)
    (side : PositionSide) (slot : Fin maxPositions) :
    ∃ view', ofData? ((accountField side slot).write data .zero) = .ok view' ∧
      view'.Holds (emptied slots side slot) := by
  obtain ⟨view', hopens', hzero, hkept⟩ := ObligationItem.lossless.written data view hopens
    (.position side slot .account) Pubkey.zero
  refine ⟨view', hopens', fun side' slot' => ?_, fun side' slot' => ?_, fun side' slot' => ?_⟩
  · by_cases hsame : side' = side ∧ slot' = slot
    · obtain ⟨rfl, rfl⟩ := hsame
      rw [emptied, if_pos ⟨rfl, rfl⟩]
      exact hzero
    · rw [emptied_of_ne hsame, ← hholds.account]
      -- The account of another slot is another item.
      refine hkept (.position side' slot' .account) fun heq => hsame ?_
      cases heq
      exact ⟨rfl, rfl⟩
  · rw [amount_emptied, ← hholds.amount]
    exact hkept (.position side' slot' .amount) nofun
  · rw [reserveIndex_emptied, ← hholds.reserveIndex]
    exact hkept (.position side' slot' .reserveIndex) nofun

/-- When the lowest slot is emptied, the slots behind it are those left for the reserve. -/
theorem isFor_emptied_lowest_iff (hfirst : FirstFrom (slots side) index 0 slot)
    (other : Fin maxPositions) :
    (emptied slots side slot side other).IsFor index ↔
      slot < other ∧ (slots side other).IsFor index := by
  rw [isFor_emptied_iff]
  refine and_congr_left fun hfor => ?_
  have hle : slot ≤ other := by
    by_contra hbelow
    exact hfirst.lowest other (Nat.zero_le _) (by omega) hfor
  rw [and_iff_right rfl]
  omega

/-- Once the lowest slot is emptied, the lowest one is the next behind it, by
`isFor_emptied_lowest_iff` on either side. -/
theorem firstFrom_emptied_iff (hfirst : FirstFrom (slots side) index 0 slot)
    (next : Fin maxPositions) :
    FirstFrom (emptied slots side slot side) index 0 next ↔
      FirstFrom (slots side) index (slot + 1) next := by
  have hleft := isFor_emptied_lowest_iff hfirst
  refine ⟨fun hnext => ?_, fun hnext => ?_⟩
  · obtain ⟨hbehind, hfor⟩ := (hleft next).mp hnext.isFor
    refine ⟨hfor, hbehind, fun lower hstart hlower hfor' => ?_⟩
    exact hnext.lowest lower (Nat.zero_le _) hlower ((hleft lower).mpr ⟨hstart, hfor'⟩)
  · refine ⟨(hleft next).mpr ⟨hnext.behind, hnext.isFor⟩, Nat.zero_le _, ?_⟩
    intro lower _ hlower hfor
    obtain ⟨hstart, hfor'⟩ := (hleft lower).mp hfor
    exact hnext.lowest lower hstart hlower hfor'

/-- What becomes of the lookups when a slot of a side is emptied. Those that gave the position in it
go on to the next slot in use for the reserve, and all others give what they gave before. -/
structure Uncovers (slots : Slots) (side : PositionSide) (slot : Fin maxPositions)
    (view view' : ObligationView) : Prop where
  some_iff : ∀ index, FirstFrom (slots side) index 0 slot → ∀ position,
    view'.position side index = .ok (some position) ↔
      ∃ next, FirstFrom (slots side) index (slot + 1) next ∧ slots side next = position
  none_iff : ∀ index, FirstFrom (slots side) index 0 slot →
    (view'.position side index = .ok none ↔ ∀ next, slot < next → ¬(slots side next).IsFor index)
  others : ∀ side' index, ¬(side' = side ∧ FirstFrom (slots side) index 0 slot) →
    view'.position side' index = view.position side' index

theorem uncovers (hholds : view.Holds slots) (hemptied : view'.Holds (emptied slots side slot)) :
    Uncovers slots side slot view view' where
  some_iff index hfirst position := by
    rw [position_eq_some_iff hemptied]
    refine exists_congr fun next => ?_
    rw [firstFrom_emptied_iff hfirst]
    refine and_congr_right fun hnext => ?_
    have hbehind := hnext.behind
    rw [emptied_of_ne (by omega)]
  none_iff index hfirst := by
    rw [position_eq_none_iff hemptied]
    simp only [isFor_emptied_lowest_iff hfirst, not_and]
  others side' index hother := by
    refine position_congr hholds hemptied fun slot' hvisited hfor => ?_
    by_cases hsame : side' = side ∧ slot' = slot
    · obtain ⟨rfl, rfl⟩ := hsame
      -- The emptied slot was no answer, so it did not count before, as it does not count now.
      rw [isFor_emptied_iff] at hfor
      obtain hfor | hfor := hfor
      · exact absurd ⟨rfl, hfor, Nat.zero_le _, fun lower _ => hvisited lower⟩ hother
      · exact absurd ⟨rfl, rfl⟩ hfor.1
    · exact (emptied_of_ne hsame).symm

/-! ## All lookups of an obligation -/

/-- The lookups of an obligation, by what its slots hold in the sense of `Holds`. -/
structure Lookups (data : Bytes) (view : ObligationView) (slots : Slots) : Prop where
  some_iff : ∀ side index position, view.position side index = .ok (some position) ↔
    ∃ slot, FirstFrom (slots side) index 0 slot ∧ slots side slot = position
  none_iff : ∀ side index,
    view.position side index = .ok none ↔ ∀ slot, ¬(slots side slot).IsFor index
  total : ∀ side index, ∃ found, view.position side index = .ok found
  /-- Another obligation gives the same answer when, up to the answer, the slots of the one side
  count alike for the reserve. -/
  depends : ∀ data' view' slots', ofData? data' = .ok view' → view'.Holds slots' →
    ∀ side index,
      (∀ slot, (∀ lower < slot, ¬(slots side lower).IsFor index) →
        Position.CountsAs index (slots side slot) (slots' side slot)) →
      view'.position side index = view.position side index
  emptied : ∀ side (slot : Fin maxPositions),
    ∃ view', ofData? ((accountField side slot).write data .zero) = .ok view' ∧
      Uncovers slots side slot view view'
  /-- Lookups for different reserves never give the same slot. -/
  distinct : ∀ side index index' slot slot', FirstFrom (slots side) index 0 slot →
    FirstFrom (slots side) index' 0 slot' → index ≠ index' → slot ≠ slot'

/-- **The lookup of a position.** Every obligation that opens has slots, and its lookups are those
of the slots. The parts are `position_eq_some_iff`, `position_eq_none_iff`, `position_congr` and
`uncovers`. -/
theorem position_lookup {data : Bytes} {view : ObligationView} (hopens : ofData? data = .ok view) :
    ∃ slots, view.Holds slots ∧ Lookups data view slots := by
  obtain ⟨hlength, rfl⟩ := (ofData?_eq_ok_iff ..).mp hopens
  obtain ⟨slots, hholds⟩ := exists_holds hlength
  refine ⟨slots, hholds, ?_⟩
  exact
    { some_iff := position_eq_some_iff hholds
      none_iff := position_eq_none_iff hholds
      total := exists_position hholds
      depends := fun _ _ _ _ hholds' _ _ hcounts => position_congr hholds hholds' hcounts
      emptied := fun side slot => by
        obtain ⟨view', hopens', hemptied⟩ := exists_emptied hopens hholds side slot
        exact ⟨view', hopens', uncovers hholds hemptied⟩
      distinct := fun side index index' slot slot' hfirst hfirst' hne hsame => by
        subst hsame
        exact hne (hfirst.index_eq hfirst') }

/-- The bytes of a slot, with its fields at the places of `SlotColumn.offset`. -/
def slotBytes (position : Position) : Bytes :=
  position.account.bytes ++ Wire.encode position.amount ++ List.replicate 28 0 ++
    Wire.encode position.reserveIndex ++ List.replicate 74 0

/-- What is left of a position whose account was set to zero. -/
def leftover : Position :=
  { account := .zero, amount := .ofUInt64 5, reserveIndex := 2 }

def listedFirst : Position :=
  { account := .ofNat 7, amount := .ofUInt64 9, reserveIndex := 2 }

def listedSecond : Position :=
  { account := .ofNat 8, amount := .ofUInt64 4, reserveIndex := 2 }

/-- An obligation with two collateral positions for one reserve, `listedFirst` and `listedSecond`,
and empty slots in front of each that carry the index of the same reserve. -/
def listedTwice : Bytes :=
  List.replicate 520 0 ++ slotBytes leftover ++ slotBytes listedFirst ++ slotBytes leftover ++
    slotBytes listedSecond ++ List.replicate 4480 0

/-- The lookup gives `listedFirst`, and `listedSecond` once the slot of the first is emptied. -/
theorem position_lookup_listedTwice :
    ofData? listedTwice = .ok ⟨listedTwice⟩ ∧
      position ⟨listedTwice⟩ .collateral 2 = .ok (some listedFirst) ∧
      ∃ view', ofData? ((accountField .collateral 1).write listedTwice .zero) = .ok view' ∧
        view'.position .collateral 2 = .ok (some listedSecond) := by
  have hopens : ofData? listedTwice = .ok ⟨listedTwice⟩ := by
    refine (ofData?_eq_ok_iff ..).mpr ⟨?_, rfl⟩
    unfold listedTwice slotBytes
    simp only [List.length_append, List.length_replicate, Pubkey.length_bytes,
      Packed.length_encode]
    decide
  obtain ⟨slots, hholds, hlookups⟩ := position_lookup hopens
  -- What the four slots hold is read off the bytes.
  have hslot0 : slots .collateral ⟨0, by decide⟩ = leftover :=
    hholds.eq_of_read (by decide +kernel) (by decide +kernel) (by decide +kernel)
  have hslot1 : slots .collateral ⟨1, by decide⟩ = listedFirst :=
    hholds.eq_of_read (by decide +kernel) (by decide +kernel) (by decide +kernel)
  have hslot2 : slots .collateral ⟨2, by decide⟩ = leftover :=
    hholds.eq_of_read (by decide +kernel) (by decide +kernel) (by decide +kernel)
  have hslot3 : slots .collateral ⟨3, by decide⟩ = listedSecond :=
    hholds.eq_of_read (by decide +kernel) (by decide +kernel) (by decide +kernel)
  have hfirst : FirstFrom (slots .collateral) 2 0 ⟨1, by decide⟩ := by
    refine ⟨by rw [hslot1]; decide, Nat.zero_le _, fun lower _ hlower => ?_⟩
    obtain rfl : lower = ⟨0, by decide⟩ := Fin.ext (Nat.lt_one_iff.mp hlower)
    rw [hslot0]
    decide
  have hnext : FirstFrom (slots .collateral) 2 2 ⟨3, by decide⟩ := by
    refine ⟨by rw [hslot3]; decide, by decide, fun lower hbehind hlower => ?_⟩
    have hle : lower.val ≤ 2 := Nat.le_of_lt_succ hlower
    obtain rfl : lower = ⟨2, by decide⟩ := Fin.ext (Nat.le_antisymm hle hbehind)
    rw [hslot2]
    decide
  obtain ⟨view', hopens', huncovers⟩ := hlookups.emptied .collateral ⟨1, by decide⟩
  refine ⟨hopens, (hlookups.some_iff ..).mpr ⟨_, hfirst, hslot1⟩, view', hopens', ?_⟩
  exact (huncovers.some_iff 2 hfirst listedSecond).mpr ⟨_, hnext, hslot3⟩

end ObligationView

end LendingRelay
