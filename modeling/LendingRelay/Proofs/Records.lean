import LendingRelay.Event
import LendingRelay.Instruction
import LendingRelay.Proofs.Reading

/-!
# Reading events back

The fields of an event are keys, an operation, an amount and a flag, each of which is read exactly.
So an event is read exactly as well, and an indexer gets from the announced bytes the very record
that was announced.

* `Decoder.exact_pubkey`, `Decoder.exact_bool`, `Decoder.exact_operation`: the fields.
* `Decoder.exact_amountRelayed`, `Decoder.exact_accountLifecycle`: the events.
* `Decoder.Exact.whole_eq_ok_iff`: a byte string that is read as a whole is the form of its value.
* `Event.reads_amountRelayed`, `Event.reads_accountLifecycle`: the announced bytes, as they are
  read.
* `Event.DifferInOperation`: two announcements compared by what is read from them.
-/

namespace LendingRelay

theorem Amount.length_toWire (amount : Amount) : amount.toWire.length = Amount.wireLength := by
  simp [Amount.toWire, Amount.wireLength]

namespace Decoder

/-! ## Fields -/

theorem exact_pubkey : Exact (Wire.decode : Decoder Pubkey) Wire.encode := by
  intro input key tail
  show (take 32 >>= fun bytes => pure (Pubkey.mk bytes.val bytes.property)) input = _ ↔
    input = key.bytes ++ tail
  -- Any thirty-two bytes are a key, so only their number counts.
  simp only [bind_eq_ok_iff, pure_eq_ok_iff, exact_take 32 input]
  refine ⟨fun hread => ?_, fun hwritten => ?_⟩
  · obtain ⟨bytes, rest, rfl, rfl, rfl⟩ := hread
    rfl
  · exact ⟨⟨key.bytes, key.length_bytes⟩, tail, hwritten, rfl, rfl⟩

/-- A flag is a zero or a one; any other byte is a `boolRepresentation` error. -/
theorem exact_bool : Exact (Wire.decode : Decoder Bool) Wire.encode := by
  intro input flag tail
  show (byte >>= fun b =>
    if b = 0 then pure false
    else if b = 1 then pure true
    else throw (.boolRepresentation b)) input = _ ↔ input = [if flag then 1 else 0] ++ tail
  simp only [bind_eq_ok_iff, exact_byte input]
  refine ⟨fun hread => ?_, fun hwritten => ?_⟩
  · obtain ⟨b, rest, rfl, hread⟩ := hread
    by_cases hzero : b = 0
    · rw [if_pos hzero, pure_eq_ok_iff] at hread
      obtain ⟨rfl, rfl⟩ := hread
      rw [hzero]
      rfl
    · rw [if_neg hzero] at hread
      by_cases hone : b = 1
      · rw [if_pos hone, pure_eq_ok_iff] at hread
        obtain ⟨rfl, rfl⟩ := hread
        rw [hone]
        rfl
      · rw [if_neg hone] at hread
        cases hread
  · refine ⟨_, tail, hwritten, ?_⟩
    cases flag <;> rfl

theorem exact_operation : Exact (Wire.decode : Decoder RelayOperation) Wire.encode :=
  exact_member (by decide) (fun operation => by cases operation <;> decide) (by decide)

/-- An amount has the same form in events as `Amount.toWire` gives it in calls. -/
theorem encode_amount (amount : Amount) : Wire.encode amount = amount.toWire := by
  obtain ⟨units, value⟩ := amount
  cases units <;> rfl

/-! ## Events -/

/-- The fields are read one behind the other, each with the lemma of its own type. -/
theorem exact_amountRelayed : Exact (Wire.decode : Decoder AmountRelayed) Wire.encode := by
  intro input event tail
  show ((Wire.decode : Decoder RelayOperation) >>= fun operation =>
    (Wire.decode : Decoder Pubkey) >>= fun market =>
    (Wire.decode : Decoder Pubkey) >>= fun reserve =>
    (Wire.decode : Decoder Pubkey) >>= fun owner =>
    (Wire.decode : Decoder Amount) >>= fun amount =>
    (Wire.decode : Decoder Bool) >>= fun signedByRelay =>
      pure (AmountRelayed.mk operation market reserve owner amount signedByRelay)) input = _ ↔
    input = Wire.encode event.operation ++ Wire.encode event.market ++ Wire.encode event.reserve ++
      Wire.encode event.owner ++ Wire.encode event.amount ++ Wire.encode event.signedByRelay ++ tail
  simp only [bind_eq_ok_iff, pure_eq_ok_iff, exact_operation _, exact_pubkey _, exact_amount _,
    exact_bool _, encode_amount, List.append_assoc]
  -- Each step of the reading pins the bytes of one field; together they are the whole form.
  refine ⟨fun hread => ?_, fun hwritten => ?_⟩
  · obtain ⟨_, _, rfl, _, _, rfl, _, _, rfl, _, _, rfl, _, _, rfl, _, _, rfl, rfl, rfl⟩ := hread
    rfl
  · exact ⟨_, _, hwritten, _, _, rfl, _, _, rfl, _, _, rfl, _, _, rfl, _, _, rfl, rfl, rfl⟩

theorem exact_accountLifecycle : Exact (Wire.decode : Decoder AccountLifecycle) Wire.encode := by
  intro input event tail
  show ((Wire.decode : Decoder RelayOperation) >>= fun operation =>
    (Wire.decode : Decoder Pubkey) >>= fun market =>
    (Wire.decode : Decoder Pubkey) >>= fun owner =>
    (Wire.decode : Decoder Pubkey) >>= fun account =>
      pure (AccountLifecycle.mk operation market owner account)) input = _ ↔
    input = Wire.encode event.operation ++ Wire.encode event.market ++ Wire.encode event.owner ++
      Wire.encode event.account ++ tail
  simp only [bind_eq_ok_iff, pure_eq_ok_iff, exact_operation _, exact_pubkey _, List.append_assoc]
  refine ⟨fun hread => ?_, fun hwritten => ?_⟩
  · obtain ⟨_, _, rfl, _, _, rfl, _, _, rfl, _, _, rfl, rfl, rfl⟩ := hread
    rfl
  · exact ⟨_, _, hwritten, _, _, rfl, _, _, rfl, _, _, rfl, rfl, rfl⟩

/-- **Reading the whole of a byte string** gives a value exactly when the string is the form of that
value, with nothing behind it. -/
theorem Exact.whole_eq_ok_iff {decoder : Decoder α} {written : α → Bytes}
    (hexact : Exact decoder written) (input : Bytes) (a : α) :
    whole decoder input = .ok a ↔ input = written a := by
  have hread := hexact input a []
  rw [List.append_nil] at hread
  rw [← hread]
  unfold whole
  -- What is left decides: nothing is accepted, and anything else is refused.
  rcases decoder input with e | ⟨value, _ | ⟨byte, rest⟩⟩ <;> simp

end Decoder

/-! ## Announced bytes -/

namespace Event

/-- The bytes announce a record under a name: `Selector.event` of the name, and then the record and
nothing else. This is how an indexer gets at the record, so events are compared by it and not by the
bytes that `Event.data` makes. -/
def Reads [Wire α] (name : String) (bytes : Bytes) (record : α) : Prop :=
  bytes.take Selector.length = Selector.event name ∧
    Decoder.whole Wire.decode (bytes.drop Selector.length) = .ok record

/-- Behind a selector of full length there is what was written,
by `Decoder.Exact.whole_eq_ok_iff`. -/
theorem reads_written [Wire α] {name : String}
    (hexact : Decoder.Exact (Wire.decode : Decoder α) Wire.encode)
    (hlength : (Selector.event name).length = Selector.length) (record : α) :
    Reads name (Selector.event name ++ Wire.encode record) record := by
  unfold Reads
  rw [List.take_left' hlength, List.drop_left' hlength]
  exact ⟨rfl, (hexact.whole_eq_ok_iff ..).mpr rfl⟩

theorem reads_amountRelayed (record : AmountRelayed) :
    Reads "AmountRelayed" (amountRelayed record).data record :=
  reads_written Decoder.exact_amountRelayed (by decide +kernel) record

theorem reads_accountLifecycle (record : AccountLifecycle) :
    Reads "AccountLifecycle" (accountLifecycle record).data record :=
  reads_written Decoder.exact_accountLifecycle (by decide +kernel) record

/-- Two traces announce one amount each, under two operations. An indexer that `Reads` both records
gets the same market, reserve, owner, amount and mark of the signature from them. -/
def DifferInOperation (operation operation' : RelayOperation) (trace trace' : Trace) : Prop :=
  ∃ (bytes bytes' : Bytes) (record : AmountRelayed),
    Trace.events trace = [[bytes]] ∧ Trace.events trace' = [[bytes']] ∧
      Reads "AmountRelayed" bytes { record with operation := operation } ∧
      Reads "AmountRelayed" bytes' { record with operation := operation' } ∧
      operation ≠ operation'

/-- Records that are announced as `Event.data` writes them are read as they are written, by
`reads_amountRelayed`. -/
theorem differInOperation_of_events {operation operation' : RelayOperation} {trace trace' : Trace}
    (record : AmountRelayed)
    (hevents : Trace.events trace =
      [[(amountRelayed { record with operation := operation }).data]])
    (hevents' : Trace.events trace' =
      [[(amountRelayed { record with operation := operation' }).data]])
    (hne : operation ≠ operation') : DifferInOperation operation operation' trace trace' :=
  ⟨_, _, record, hevents, hevents', reads_amountRelayed _, reads_amountRelayed _, hne⟩

end Event

end LendingRelay
