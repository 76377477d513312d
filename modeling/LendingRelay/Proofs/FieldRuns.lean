import LendingRelay.Proofs.Layouts
import LendingRelay.Proofs.Records

/-!
# Fields as runs of bytes

Every field of an account holds a value of a fixed width, and its reading depends on the run of
bytes where it lies and on nothing else. So a field that is overwritten reads as the new value, a
field that lies apart from it reads as before, and what is behind the end of a field does not
matter to it.

* `Decoder.exact_uint16` and its siblings: numbers are read back from their little-endian bytes.
* `Packed`: values of a fixed width.
* `Field.read_eq_ok_iff`: a field reads as a value exactly when its run is the form of the value.
* `Field.Apart`, `Field.apart_of_rows`: fields without a common byte, as in the rows of a table.
* `Field.read_write`, `Field.read_write_of_apart`, `Field.read_eq_of_take`: what a field reads.
-/

namespace LendingRelay

/-! ## Little-endian numbers -/

namespace Decoder

theorem exact_uint16 : Exact (Wire.decode : Decoder UInt16) Wire.encode := by
  refine exact_of_number UInt16.ofNat UInt16.toNat (fun n hn => ?_) UInt16.toNat_lt
    fun a => UInt16.ofNat_toNat
  rw [UInt16.toNat_ofNat']
  exact Nat.mod_eq_of_lt hn

/-- Numbers with a sign are read back from their two's complement, by way of `UInt32`. -/
theorem exact_int32 : Exact (Wire.decode : Decoder Int32) Wire.encode := by
  refine exact_of_number (fun n => (UInt32.ofNat n).toInt32) (fun a => a.toUInt32.toNat)
    (fun n hn => ?_) (fun a => a.toUInt32.toNat_lt) fun a => ?_
  · rw [UInt32.toUInt32_toInt32, UInt32.toNat_ofNat']
    exact Nat.mod_eq_of_lt hn
  · rw [UInt32.ofNat_toNat, Int32.toInt32_toUInt32]

theorem exact_int64 : Exact (Wire.decode : Decoder Int64) Wire.encode := by
  refine exact_of_number (fun n => (UInt64.ofNat n).toInt64) (fun a => a.toUInt64.toNat)
    (fun n hn => ?_) (fun a => a.toUInt64.toNat_lt) fun a => ?_
  · rw [UInt64.toUInt64_toInt64, UInt64.toNat_ofNat']
    exact Nat.mod_eq_of_lt hn
  · rw [UInt64.ofNat_toNat, Int64.toInt64_toUInt64]

/-- A number of 192 bits is read back from its twenty-four bytes. Its bound comes from the length of
the bytes, so its decoder does not have the shape of `exact_of_number`. -/
theorem exact_fixedPoint : Exact (Wire.decode : Decoder Number) Wire.encode := by
  intro input n tail
  show (take Number.encodedLength >>= fun bytes => pure (Number.mk (Bytes.leValue bytes.val) _))
    input = _ ↔ input = Bytes.le Number.encodedLength n.raw ++ tail
  simp only [bind_eq_ok_iff, pure_eq_ok_iff, exact_take Number.encodedLength input]
  refine ⟨fun hread => ?_, fun hwritten => ?_⟩
  · obtain ⟨bytes, rest, rfl, rfl, rfl⟩ := hread
    have hbytes := Bytes.le_leValue bytes.val
    rw [bytes.property] at hbytes
    rw [hbytes]
  · subst hwritten
    have hread : Bytes.leValue (Bytes.le Number.encodedLength n.raw) = n.raw := by
      rw [Bytes.leValue_le]
      exact Nat.mod_eq_of_lt n.raw_lt
    refine ⟨⟨_, Bytes.length_le _ _⟩, tail, rfl, ?_, rfl⟩
    cases n
    congr

end Decoder

/-! ## Values of a fixed width -/

/-- Values of the type are written in a fixed number of bytes, and every string of that length is
read as one of them. So `Decoder.Exact` and `Decoder.Total` both hold. -/
class Packed (α : Type) [Wire α] where
  width : Nat
  length_encode : ∀ a : α, (Wire.encode a).length = width
  exact : Decoder.Exact (Wire.decode : Decoder α) Wire.encode
  total : Decoder.Total width (Wire.decode : Decoder α)

instance : Packed UInt16 where
  width := 2
  length_encode _ := Bytes.length_le 2 _
  exact := Decoder.exact_uint16
  total := Decoder.total_uint16

instance : Packed UInt64 where
  width := 8
  length_encode _ := Bytes.length_le 8 _
  exact := Decoder.exact_uint64
  total := Decoder.total_uint64

instance : Packed Int32 where
  width := 4
  length_encode _ := Bytes.length_le 4 _
  exact := Decoder.exact_int32
  total := ((Decoder.total_take 4).bind_pure _).bind_pure _

instance : Packed Int64 where
  width := 8
  length_encode _ := Bytes.length_le 8 _
  exact := Decoder.exact_int64
  total := ((Decoder.total_take 8).bind_pure _).bind_pure _

instance : Packed Number where
  width := 24
  length_encode _ := Bytes.length_le 24 _
  exact := Decoder.exact_fixedPoint
  total := Decoder.total_number

instance : Packed Pubkey where
  width := 32
  length_encode key := key.length_bytes
  exact := Decoder.exact_pubkey
  total := (Decoder.total_take 32).bind_pure _

/-- Every string of the right length is the form of a value: it is read as one, with
nothing left. -/
theorem Packed.exists_encode {α : Type} [Wire α] [Packed α] {bytes : Bytes}
    (hlength : bytes.length = Packed.width α) : ∃ a : α, Wire.encode a = bytes := by
  obtain ⟨a, tail, hread⟩ := Packed.total (α := α) bytes (Nat.le_of_eq hlength.symm)
  have hwritten : bytes = Wire.encode a ++ tail := (Packed.exact (α := α) ..).mp hread
  -- A value takes up the whole length, so nothing is left behind it.
  have htail : tail = [] := by
    rw [hwritten, List.length_append, Packed.length_encode, Nat.add_eq_left] at hlength
    exact List.eq_nil_of_length_eq_zero hlength
  exact ⟨a, by rw [hwritten, htail, List.append_nil]⟩

/-! ## Fields -/

namespace Field

/-- A field that can not be read is missing. -/
theorem read_cases [Wire α] (field : Field α) (data : Bytes) :
    (∃ value, field.read data = .ok value) ∨ field.read data = .error .invalidAccountLayout := by
  unfold read
  split
  · exact .inl ⟨_, rfl⟩
  · exact .inr rfl

variable {α β : Type} [Wire α] [Packed α] [Wire β] [Packed β]

/-- The position behind the field, `Packed.width` after its start. -/
def stop (field : Field α) : Nat :=
  field.start + Packed.width α

/-- One of the fields ends before the other starts. -/
def Apart (field : Field α) (other : Field β) : Prop :=
  field.stop ≤ other.start ∨ other.stop ≤ field.start

theorem Apart.symm {field : Field α} {other : Field β} (hapart : field.Apart other) :
    other.Apart field :=
  Or.symm hapart

/-- Fields in the rows of a table lie apart when they are in different rows or in columns that lie
apart. Both tables of the layouts, that of a market and that of an obligation, have this shape. -/
theorem apart_of_rows {field : Field α} {other : Field β}
    {base stride row row' column column' : Nat}
    (hoffset : field.offset = base + row * stride + column)
    (hoffset' : other.offset = base + row' * stride + column')
    (hfits : column + Packed.width α ≤ stride) (hfits' : column' + Packed.width β ≤ stride)
    (hcells : row ≠ row' ∨ column + Packed.width α ≤ column' ∨ column' + Packed.width β ≤ column) :
    field.Apart other := by
  unfold Apart stop start
  rw [hoffset, hoffset']
  -- Different rows do not meet, whatever the columns are; within a row the columns decide.
  obtain hbefore | rfl | hbehind := Nat.lt_trichotomy row row'
  · have hrow : row * stride + stride ≤ row' * stride := by
      rw [← Nat.succ_mul]
      exact Nat.mul_le_mul_right stride hbefore
    omega
  · obtain hrow | hcolumns := hcells
    · exact absurd rfl hrow
    · omega
  · have hrow : row' * stride + stride ≤ row * stride := by
      rw [← Nat.succ_mul]
      exact Nat.mul_le_mul_right stride hbehind
    omega

def run (field : Field α) (data : Bytes) : Bytes :=
  (data.drop field.start).take (Packed.width α)

/-- **A field reads as a value** exactly when its bytes are the form of the value, `Wire.encode`. -/
theorem read_eq_ok_iff (field : Field α) (data : Bytes) (value : α) :
    field.read data = .ok value ↔ field.run data = Wire.encode value := by
  have hexact := Packed.exact (α := α) (data.drop field.start)
  unfold read run
  constructor
  · intro hread
    split at hread
    · next tail hdecode =>
      cases hread
      rw [(hexact ..).mp hdecode]
      exact List.take_left' (Packed.length_encode value)
    · cases hread
  · intro hrun
    -- The run is in front of what the decoder gets.
    have hsplit : data.drop field.start =
        Wire.encode value ++ (data.drop field.start).drop (Packed.width α) := by
      rw [← hrun, List.take_append_drop]
    rw [(hexact ..).mpr hsplit]

/-- **The reading depends on the bytes of the field** and on nothing else. -/
theorem read_congr (field : Field α) {data data' : Bytes}
    (hrun : field.run data = field.run data') : field.read data = field.read data' := by
  -- A value on either side is carried over by the run; otherwise the field is missing on both.
  obtain ⟨value, hvalue⟩ | hmissing := field.read_cases data
  · have hread := (field.read_eq_ok_iff data value).mp hvalue
    rw [hvalue, (field.read_eq_ok_iff data' value).mpr (hrun ▸ hread)]
  · obtain ⟨value, hvalue⟩ | hmissing' := field.read_cases data'
    · have hread := (field.read_eq_ok_iff data' value).mp hvalue
      rw [hvalue, (field.read_eq_ok_iff data value).mpr (hrun ▸ hread)]
    · rw [hmissing, hmissing']

theorem length_write (field : Field α) {data : Bytes} (value : α)
    (hfits : field.stop ≤ data.length) : (field.write data value).length = data.length := by
  apply Bytes.length_overwrite
  rw [Packed.length_encode]
  exact hfits

/-- A field that is overwritten reads as the new value, since its run is what was written. -/
theorem read_write (field : Field α) {data : Bytes} (value : α)
    (hfits : field.stop ≤ data.length) : field.read (field.write data value) = .ok value := by
  have hlength := Packed.length_encode value
  rw [read_eq_ok_iff]
  unfold run write
  rw [← hlength]
  apply Bytes.take_drop_overwrite
  rw [hlength]
  exact hfits

/-- A field that lies apart from the overwritten one reads as before: `read_congr`, with a run that
was not touched. -/
theorem read_write_of_apart (field : Field α) (other : Field β) {data : Bytes} (value : α)
    (hfits : field.stop ≤ data.length)
    (hapart : field.Apart other) : other.read (field.write data value) = other.read data := by
  have hlength := Packed.length_encode value
  apply read_congr
  apply Bytes.take_drop_overwrite_of_apart
  · rw [hlength]
    exact hfits
  · rw [hlength]
    exact hapart.symm

theorem read_eq_of_take (field : Field α) {data data' : Bytes} {count : Nat}
    (hstop : field.stop ≤ count) (htake : data.take count = data'.take count) :
    field.read data = field.read data' := by
  have hrun : ∀ bytes : Bytes, field.run (bytes.take count) = field.run bytes := by
    intro bytes
    unfold run
    unfold stop at hstop
    rw [List.drop_take, List.take_take, Nat.min_eq_left (by omega)]
  apply read_congr
  rw [← hrun data, htake, hrun data']

end Field

end LendingRelay
