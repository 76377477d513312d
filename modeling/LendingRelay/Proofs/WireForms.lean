import LendingRelay.Proofs.FieldRuns

/-!
# Wire forms

What travels has a fixed length. A few of its bytes are tags, each of which counts the members of a
list or says no or yes, and every other byte is free. So the look of the bytes decides whether they
are read: a string is the form of a value exactly when its length is right and its tags are in
bounds, and then it is the form of that value only. Forms of fields are put together to forms of
records by putting one behind the other.

* `WireForm.fits_append_iff`: a string has the look of two forms in a row when it splits into them.
* `WireForm.Describes.append`: forms of two fields describe the fields in a row.
* `WireForm.canonical_of_exact`: what is read exactly is canonical in the form that describes it.
* `WireForm.canonical_forms`: amounts, operations and events are canonical.
-/

namespace LendingRelay

/-- The look of a written value: the number of its bytes, and the tags among them, each with its
position and the number of values that it takes. -/
structure WireForm where
  length : Nat
  tags : List (Nat × Nat)
  tags_lt : ∀ tag ∈ tags, tag.1 < length := by decide

namespace WireForm

/-- The bytes are as many as the form has, and its tags are in bounds. All other bytes are free. -/
structure Fits (form : WireForm) (bytes : Bytes) : Prop where
  length : bytes.length = form.length
  tags : ∀ tag ∈ form.tags, ∀ byte, bytes[tag.1]? = some byte → byte.toNat < tag.2

/-- A run of bytes that are all free. -/
def free (length : Nat) : WireForm :=
  { length, tags := [], tags_lt := by simp }

def tag (count : Nat) : WireForm :=
  { length := 1, tags := [(0, count)], tags_lt := by simp }

/-- Two forms, one behind the other. The tags of the second one move by the length of the first. -/
def append (first second : WireForm) : WireForm where
  length := first.length + second.length
  tags := first.tags ++ second.tags.map fun tag => (first.length + tag.1, tag.2)
  tags_lt := by
    intro tag htag
    rcases List.mem_append.mp htag with hfirst | hsecond
    · exact Nat.lt_of_lt_of_le (first.tags_lt tag hfirst) (Nat.le_add_right _ _)
    · obtain ⟨tag, hmem, rfl⟩ := List.mem_map.mp hsecond
      exact Nat.add_lt_add_left (second.tags_lt tag hmem) _

/-! ## Strings that fit -/

theorem fits_free_iff (length : Nat) (bytes : Bytes) :
    (free length).Fits bytes ↔ bytes.length = length :=
  ⟨Fits.length, fun hlength => ⟨hlength, fun _ htag => nomatch htag⟩⟩

theorem fits_tag_iff (count : Nat) (bytes : Bytes) :
    (tag count).Fits bytes ↔ ∃ byte : UInt8, bytes = [byte] ∧ byte.toNat < count := by
  refine ⟨fun hfits => ?_, fun hbyte => ?_⟩
  · obtain ⟨byte, rfl⟩ := List.length_eq_one_iff.mp hfits.length
    exact ⟨byte, rfl, hfits.tags (0, count) List.mem_cons_self byte rfl⟩
  · obtain ⟨byte, rfl, hlt⟩ := hbyte
    refine ⟨rfl, fun tag htag read hread => ?_⟩
    cases List.mem_singleton.mp htag
    cases hread
    exact hlt

/-- **A string fits two forms in a row** exactly when it splits into a string for each. -/
theorem fits_append_iff (first second : WireForm) (bytes : Bytes) :
    (first.append second).Fits bytes ↔
      ∃ front back, front ++ back = bytes ∧ first.Fits front ∧ second.Fits back := by
  refine ⟨fun hfits => ?_, fun hsplit => ?_⟩
  · -- The cut is where the first form ends; the tags of the second one are counted from there.
    have hlength : bytes.length = first.length + second.length := hfits.length
    refine ⟨bytes.take first.length, bytes.drop first.length, List.take_append_drop _ _, ?_, ?_⟩
    · refine ⟨by rw [List.length_take]; omega, fun tag htag byte hbyte => ?_⟩
      rw [List.getElem?_take_of_lt (first.tags_lt tag htag)] at hbyte
      exact hfits.tags tag (List.mem_append_left _ htag) byte hbyte
    · refine ⟨by rw [List.length_drop]; omega, fun tag htag byte hbyte => ?_⟩
      rw [List.getElem?_drop] at hbyte
      exact hfits.tags _ (List.mem_append_right _ (List.mem_map_of_mem htag)) byte hbyte
  · obtain ⟨front, back, rfl, hfront, hback⟩ := hsplit
    refine ⟨?_, fun tag htag byte hbyte => ?_⟩
    · rw [List.length_append, hfront.length, hback.length]
      rfl
    -- A tag of the first form is found in the front, one of the second form behind it.
    rcases List.mem_append.mp htag with hfirst | hsecond
    · have hlt := first.tags_lt tag hfirst
      rw [List.getElem?_append_left (by rw [hfront.length]; exact hlt)] at hbyte
      exact hfront.tags tag hfirst byte hbyte
    · obtain ⟨tag, hmem, rfl⟩ := List.mem_map.mp hsecond
      rw [List.getElem?_append_right (by rw [hfront.length]; exact Nat.le_add_right _ _),
        hfront.length, Nat.add_sub_cancel_left] at hbyte
      exact hback.tags tag hmem byte hbyte

/-! ## Forms of fields and of records -/

/-- The strings that fit are the written values, all of them and nothing else. -/
def Describes (form : WireForm) (written : α → Bytes) : Prop :=
  ∀ bytes, form.Fits bytes ↔ ∃ a, written a = bytes

/-- Fields that are written one behind the other have the forms one behind the other, by
`fits_append_iff`. -/
theorem Describes.append {first second : WireForm} {front : α → Bytes} {back : β → Bytes}
    (hfirst : first.Describes front) (hsecond : second.Describes back) :
    (first.append second).Describes fun pair : α × β => front pair.1 ++ back pair.2 := by
  intro bytes
  rw [fits_append_iff]
  simp only [hfirst _, hsecond _]
  refine ⟨fun hsplit => ?_, fun hwritten => ?_⟩
  · obtain ⟨_, _, rfl, ⟨a, rfl⟩, ⟨b, rfl⟩⟩ := hsplit
    exact ⟨(a, b), rfl⟩
  · obtain ⟨⟨a, b⟩, rfl⟩ := hwritten
    exact ⟨_, _, rfl, ⟨a, rfl⟩, ⟨b, rfl⟩⟩

/-- A record has the form of its fields when every choice of fields makes a record. This leads from
nested pairs, which `Describes.append` leaves, to the record. -/
theorem Describes.record {form : WireForm} {written : β → Bytes} {record : α → Bytes}
    (hform : form.Describes written) (fields : α → β) (make : β → α)
    (hmake : ∀ b, fields (make b) = b) (hrecord : ∀ a, record a = written (fields a)) :
    form.Describes record := by
  intro bytes
  rw [hform bytes]
  refine ⟨fun hwritten => ?_, fun hwritten => ?_⟩
  · obtain ⟨b, rfl⟩ := hwritten
    exact ⟨make b, by rw [hrecord, hmake]⟩
  · obtain ⟨a, rfl⟩ := hwritten
    exact ⟨fields a, (hrecord a).symm⟩

/-- Every byte of a value of a fixed width is free, by `Packed.exists_encode`. -/
theorem describes_packed {α : Type} [Wire α] [Packed α] :
    (free (Packed.width α)).Describes (Wire.encode : α → Bytes) := by
  intro bytes
  rw [fits_free_iff]
  refine ⟨Packed.exists_encode, fun hwritten => ?_⟩
  obtain ⟨a, rfl⟩ := hwritten
  exact Packed.length_encode a

theorem describes_pubkey : (free 32).Describes (Wire.encode : Pubkey → Bytes) :=
  describes_packed

theorem describes_uint64 : (free 8).Describes (Wire.encode : UInt64 → Bytes) :=
  describes_packed

/-- A member of a list is written as a tag that counts the list, so `List.idxOf` and the place undo
each other. -/
theorem describes_member [DecidableEq α] (members : List α) (hnodup : members.Nodup)
    (hall : ∀ a, a ∈ members) (hlength : members.length ≤ 256) :
    (tag members.length).Describes fun a => [UInt8.ofNat (members.idxOf a)] := by
  intro bytes
  rw [fits_tag_iff]
  refine ⟨fun htag => ?_, fun hwritten => ?_⟩
  · obtain ⟨byte, rfl, hlt⟩ := htag
    refine ⟨members[byte.toNat], ?_⟩
    show [UInt8.ofNat (members.idxOf members[byte.toNat])] = [byte]
    rw [hnodup.idxOf_getElem, UInt8.ofNat_toNat]
  · obtain ⟨a, rfl⟩ := hwritten
    have hplace := List.idxOf_lt_length_of_mem (hall a)
    refine ⟨_, rfl, ?_⟩
    rw [UInt8.toNat_ofNat']
    omega

theorem describes_units : (tag 3).Describes (Wire.encode : AmountUnits → Bytes) :=
  describes_member AmountUnits.all (by decide)
    (fun units => by cases units <;> decide) (by decide)

theorem describes_operation : (tag 20).Describes (Wire.encode : RelayOperation → Bytes) :=
  describes_member RelayOperation.all (by decide)
    (fun operation => by cases operation <;> decide) (by decide)

theorem describes_bool : (tag 2).Describes (Wire.encode : Bool → Bytes) := by
  have hmember : (tag 2).Describes fun flag => [UInt8.ofNat ([false, true].idxOf flag)] :=
    describes_member [false, true] (by decide) (by decide) (by decide)
  exact hmember.record id id (fun _ => rfl) fun flag => by cases flag <;> rfl

theorem describes_amount : ((tag 3).append (free 8)).Describes (Wire.encode : Amount → Bytes) :=
  (describes_units.append describes_uint64).record (fun amount => (amount.units, amount.value))
    (fun fields => ⟨fields.1, fields.2⟩) (fun _ => rfl) fun _ => rfl

/-- The form of an `AmountRelayed`, field by field. -/
def amountRelayed : WireForm :=
  (tag 20).append <| (free 32).append <| (free 32).append <| (free 32).append <|
    ((tag 3).append (free 8)).append (tag 2)

/-- The form of an `AccountLifecycle`, field by field. -/
def accountLifecycle : WireForm :=
  (tag 20).append <| (free 32).append <| (free 32).append (free 32)

theorem describes_amountRelayed :
    amountRelayed.Describes (Wire.encode : AmountRelayed → Bytes) := by
  have hfields := describes_operation.append <| describes_pubkey.append <|
    describes_pubkey.append <| describes_pubkey.append <| describes_amount.append describes_bool
  -- From fields in nested pairs to the record.
  refine hfields.record
    (fun event => (event.operation, event.market, event.reserve, event.owner, event.amount,
      event.signedByRelay))
    (fun fields => ⟨fields.1, fields.2.1, fields.2.2.1, fields.2.2.2.1, fields.2.2.2.2.1,
      fields.2.2.2.2.2⟩) (fun _ => rfl) fun event => ?_
  show _ ++ _ ++ _ ++ _ ++ _ ++ _ = _
  simp only [List.append_assoc]

theorem describes_accountLifecycle :
    accountLifecycle.Describes (Wire.encode : AccountLifecycle → Bytes) := by
  have hfields := describes_operation.append <| describes_pubkey.append <|
    describes_pubkey.append describes_pubkey
  refine hfields.record
    (fun event => (event.operation, event.market, event.owner, event.account))
    (fun fields => ⟨fields.1, fields.2.1, fields.2.2.1, fields.2.2.2⟩) (fun _ => rfl)
    fun event => ?_
  show _ ++ _ ++ _ ++ _ = _
  simp only [List.append_assoc]

/-! ## Canonical forms -/

/-- Values have one written form each. A byte string is read by `Decoder.whole` as a value exactly
when it is the form of that value, and it is refused exactly when it does not have the look of a
form. -/
structure Canonical (α : Type) [Wire α] (form : WireForm) : Prop where
  read_iff : ∀ bytes (a : α), Decoder.whole Wire.decode bytes = .ok a ↔ bytes = Wire.encode a
  accepted_iff : ∀ bytes, (∃ a : α, Decoder.whole Wire.decode bytes = .ok a) ↔ form.Fits bytes
  refused_iff : ∀ bytes,
    (∃ e, Decoder.whole (Wire.decode : Decoder α) bytes = .error e) ↔ ¬form.Fits bytes

/-- **What is read exactly is canonical** in the form that describes it. `Decoder.Exact` gives the
one value, `Describes` the strings that have one. -/
theorem canonical_of_exact [Wire α] {form : WireForm}
    (hexact : Decoder.Exact (Wire.decode : Decoder α) Wire.encode)
    (hform : form.Describes (Wire.encode : α → Bytes)) : Canonical α form := by
  have haccepted : ∀ bytes,
      (∃ a : α, Decoder.whole Wire.decode bytes = .ok a) ↔ form.Fits bytes := by
    intro bytes
    rw [hform bytes]
    exact exists_congr fun a => (hexact.whole_eq_ok_iff bytes a).trans eq_comm
  refine ⟨hexact.whole_eq_ok_iff, haccepted, fun bytes => ?_⟩
  rw [← haccepted]
  -- A decoder either gives a value or refuses, so the two conditions exclude each other.
  cases Decoder.whole (Wire.decode : Decoder α) bytes with
  | ok a => simp
  | error e => simp

theorem exact_encode_amount : Decoder.Exact (Wire.decode : Decoder Amount) Wire.encode := by
  intro input amount tail
  rw [Decoder.encode_amount]
  exact Decoder.exact_amount input amount tail

/-- **The wire formats are canonical.** An amount has one form in calls and in events, and is read
from the front of any bytes that start with it, which leaves the bytes behind it. Amounts,
operations and the two records are read from exactly the strings that are their forms: of nine, one,
107 and 97 bytes, with tags below three for units, below twenty for operations and below two for
flags. The forms are written out here; they are the ones put together in `amountRelayed` and
`accountLifecycle`. -/
theorem canonical_forms :
    (∀ (amount : Amount) (rest : Bytes),
      amount.toWire = Wire.encode amount ∧ amount.toWire.length = 9 ∧
        (Wire.decode : Decoder Amount) (amount.toWire ++ rest) = .ok (amount, rest)) ∧
    Canonical Amount { length := 9, tags := [(0, 3)] } ∧
    Canonical RelayOperation { length := 1, tags := [(0, 20)] } ∧
    Canonical AmountRelayed { length := 107, tags := [(0, 20), (97, 3), (106, 2)] } ∧
    Canonical AccountLifecycle { length := 97, tags := [(0, 20)] } := by
  refine ⟨fun amount rest => ⟨?_, amount.length_toWire, ?_⟩, ?_, ?_, ?_, ?_⟩
  · exact (Decoder.encode_amount amount).symm
  · exact (Decoder.exact_amount ..).mpr rfl
  · exact canonical_of_exact exact_encode_amount describes_amount
  · exact canonical_of_exact Decoder.exact_operation describes_operation
  · exact canonical_of_exact Decoder.exact_amountRelayed describes_amountRelayed
  · exact canonical_of_exact Decoder.exact_accountLifecycle describes_accountLifecycle

end WireForm

end LendingRelay
