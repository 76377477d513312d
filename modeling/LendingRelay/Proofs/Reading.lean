import LendingRelay.Relay.Program

/-!
# Reading back what was written

A decoder is *exact* for a written form when it succeeds on precisely the byte strings that start
with the form of a value, returns that value, and leaves precisely the bytes behind it. Exactness is
one equivalence, so it says at once that everything written is read back and that nothing else is
read.

* `Decoder.exact_amount`: amounts are read exactly.
* `Request.sound_forms`: whatever an instruction reads is a written request of its name.
* `Request.form_mem_forms`, `Request.decoder_arguments`: every written request is read by an
  instruction of its name.
-/

namespace LendingRelay

namespace Decoder

/-! ## Decoders in a row -/

theorem bind_eq_ok_iff (decoder : Decoder α) (next : α → Decoder β) (input : Bytes) (b : β)
    (tail : Bytes) :
    (decoder >>= next) input = .ok (b, tail) ↔
      ∃ a rest, decoder input = .ok (a, rest) ∧ next a rest = .ok (b, tail) := by
  show (decoder input >>= fun (a, rest) => next a rest) = _ ↔ _
  cases decoder input with
  | error e =>
    refine ⟨fun h => ?_, fun hwritten => ?_⟩
    · cases h
    · obtain ⟨a, rest, h, _⟩ := hwritten
      cases h
  | ok pair =>
    obtain ⟨a, rest⟩ := pair
    refine ⟨fun h => ?_, fun hwritten => ?_⟩
    · exact ⟨a, rest, rfl, h⟩
    · obtain ⟨a', rest', hpair, h⟩ := hwritten
      cases hpair
      exact h

theorem pure_eq_ok_iff (a b : α) (input tail : Bytes) :
    (pure a : Decoder α) input = .ok (b, tail) ↔ a = b ∧ input = tail := by
  show Except.ok (a, input) = .ok (b, tail) ↔ _
  rw [Except.ok.injEq, Prod.mk.injEq]

theorem map_eq_ok_iff (f : α → β) (decoder : Decoder α) (input : Bytes) (b : β) (tail : Bytes) :
    (f <$> decoder) input = .ok (b, tail) ↔ ∃ a, decoder input = .ok (a, tail) ∧ f a = b := by
  rw [map_eq_pure_bind, bind_eq_ok_iff]
  simp only [pure_eq_ok_iff]
  refine ⟨fun hread => ?_, fun hwritten => ?_⟩
  · obtain ⟨a, rest, hread, hf, rfl⟩ := hread
    exact ⟨a, hread, hf⟩
  · obtain ⟨a, hread, hf⟩ := hwritten
    exact ⟨a, tail, hread, hf, rfl⟩

/-! ## Exact decoders -/

/-- The decoder takes the written form of a value from the front, and nothing else. With
`bind_eq_ok_iff` exact decoders in a row are read as one equation between byte strings. -/
def Exact (decoder : Decoder α) (written : α → Bytes) : Prop :=
  ∀ input a tail, decoder input = .ok (a, tail) ↔ input = written a ++ tail

theorem exact_take (n : Nat) : Exact (take n) Subtype.val := by
  intro input bytes tail
  unfold take
  refine ⟨fun h => ?_, fun hwritten => ?_⟩
  · split at h
    · cases h
      exact (List.take_append_drop n input).symm
    · cases h
  · subst hwritten
    have hlength : n ≤ (bytes.val ++ tail).length := by
      rw [List.length_append, bytes.property]
      omega
    have htake : (bytes.val ++ tail).take n = bytes.val := List.take_left' bytes.property
    have hdrop : (bytes.val ++ tail).drop n = tail := List.drop_left' bytes.property
    rw [dif_pos hlength]
    congr 2
    exact Subtype.ext htake

theorem number_eq_ok_iff (width : Nat) (input : Bytes) (n : Nat) (tail : Bytes) :
    number width input = .ok (n, tail) ↔
      ∃ bytes : Bytes, bytes.length = width ∧ input = bytes ++ tail ∧ Bytes.leValue bytes = n := by
  unfold number
  simp only [bind_eq_ok_iff, pure_eq_ok_iff, exact_take width input]
  refine ⟨fun hread => ?_, fun hwritten => ?_⟩
  · obtain ⟨bytes, rest, hinput, hvalue, rfl⟩ := hread
    exact ⟨bytes.val, bytes.property, hinput, hvalue⟩
  · obtain ⟨bytes, hlength, hinput, hvalue⟩ := hwritten
    exact ⟨⟨bytes, hlength⟩, tail, hinput, hvalue, rfl⟩

theorem exact_byte : Exact byte (fun b => [b]) := by
  intro input b tail
  unfold byte
  simp only [bind_eq_ok_iff, pure_eq_ok_iff, number_eq_ok_iff]
  refine ⟨fun hread => ?_, fun hwritten => ?_⟩
  · obtain ⟨n, rest, ⟨bytes, hlength, rfl, rfl⟩, rfl, rfl⟩ := hread
    obtain ⟨c, rfl⟩ := List.length_eq_one_iff.mp hlength
    simp [Bytes.leValue]
  · subst hwritten
    exact ⟨b.toNat, tail, ⟨[b], rfl, rfl, by simp [Bytes.leValue]⟩, by simp, rfl⟩

/-- A tag byte stands for the member at its place, `List.idxOf` in `members`. -/
theorem exact_member [DecidableEq α] {members : List α} (hnodup : members.Nodup)
    (hall : ∀ a, a ∈ members) (hlength : members.length ≤ 256) :
    Exact (member members) (fun a => [UInt8.ofNat (members.idxOf a)]) := by
  intro input a tail
  have hplace : ∀ a, members.idxOf a < members.length :=
    fun a => List.idxOf_lt_length_of_mem (hall a)
  unfold member
  simp only [bind_eq_ok_iff, exact_byte input]
  refine ⟨fun hread => ?_, fun hwritten => ?_⟩
  · -- The byte that was read is the place of the member that it led to.
    obtain ⟨index, rest, rfl, hread⟩ := hread
    cases hget : members[index.toNat]? with
    | none => rw [hget] at hread; cases hread
    | some value =>
      rw [hget] at hread
      obtain ⟨rfl, rfl⟩ := (pure_eq_ok_iff ..).mp hread
      obtain ⟨hlt, hvalue⟩ := List.getElem?_eq_some_iff.mp hget
      rw [← hvalue, hnodup.idxOf_getElem, UInt8.ofNat_toNat]
  · subst hwritten
    -- Places fit into a byte, since there are at most 256 of them.
    have htag : (UInt8.ofNat (members.idxOf a)).toNat = members.idxOf a := by
      have := hplace a
      rw [UInt8.toNat_ofNat']
      omega
    refine ⟨_, tail, rfl, ?_⟩
    rw [htag, List.getElem?_eq_getElem (hplace a), List.getElem_idxOf (hplace a)]
    rfl

/-- **Numbers of a fixed width are read exactly**, whatever type they are made into.
`Bytes.le_leValue` and `Bytes.leValue_le` undo each other as long as the number fits the width. -/
theorem exact_of_number {width : Nat} (make : Nat → α) (value : α → Nat)
    (hmake : ∀ n < 1 <<< (8 * width), value (make n) = n)
    (hvalue : ∀ a, value a < 1 <<< (8 * width)) (hback : ∀ a, make (value a) = a) :
    Exact (number width >>= fun n => pure (make n)) fun a => Bytes.le width (value a) := by
  intro input a tail
  simp only [bind_eq_ok_iff, pure_eq_ok_iff, number_eq_ok_iff]
  refine ⟨fun hread => ?_, fun hwritten => ?_⟩
  · obtain ⟨n, rest, ⟨bytes, rfl, rfl, rfl⟩, rfl, rfl⟩ := hread
    rw [hmake _ (Bytes.leValue_lt bytes), Bytes.le_leValue]
  · subst hwritten
    have hread : Bytes.leValue (Bytes.le width (value a)) = value a := by
      rw [Bytes.leValue_le]
      exact Nat.mod_eq_of_lt (hvalue a)
    exact ⟨_, tail, ⟨_, Bytes.length_le width _, rfl, hread⟩, hback a, rfl⟩

theorem exact_uint64 : Exact (Wire.decode : Decoder UInt64) Wire.encode := by
  refine exact_of_number UInt64.ofNat UInt64.toNat (fun n hn => ?_) UInt64.toNat_lt
    fun a => UInt64.ofNat_toNat
  rw [UInt64.toNat_ofNat']
  exact Nat.mod_eq_of_lt hn

theorem exact_units : Exact (Wire.decode : Decoder AmountUnits) (fun units => [units.tag]) := by
  have hmember : Exact (member AmountUnits.all)
      (fun units => [UInt8.ofNat (AmountUnits.all.idxOf units)]) :=
    exact_member (by decide) (fun units => by cases units <;> decide) (by decide)
  have htag : (fun units : AmountUnits => [units.tag]) =
      fun units => [UInt8.ofNat (AmountUnits.all.idxOf units)] := by
    funext units
    cases units <;> rfl
  rw [htag]
  exact hmember

/-- Amounts are read exactly in the form in which calls carry them, `Amount.toWire`. -/
theorem exact_amount : Exact (Wire.decode : Decoder Amount) Amount.toWire := by
  intro input amount tail
  show ((Wire.decode : Decoder AmountUnits) >>= fun units =>
    (Wire.decode : Decoder UInt64) >>= fun value => pure (Amount.mk units value)) input = _ ↔ _
  simp only [bind_eq_ok_iff, pure_eq_ok_iff, exact_units input]
  refine ⟨fun hread => ?_, fun hwritten => ?_⟩
  · obtain ⟨units, rest, rfl, value, rest', hvalue, rfl, rfl⟩ := hread
    rw [(exact_uint64 ..).mp hvalue]
    rfl
  · subst hwritten
    exact ⟨amount.units, _, rfl, amount.value, tail, (exact_uint64 ..).mpr rfl, rfl, rfl⟩

end Decoder

/-! ## The arguments of the relay's instructions

The shapes of arguments first, then the table of instructions: whatever one of them reads is a
request of its own name with its written arguments in front. -/

namespace Request

/-- What the form reads is a request of its name, with `Request.arguments` at the front. -/
def Sound (form : InstructionForm Request) : Prop :=
  ∀ input request tail, form.arguments input = .ok (request, tail) →
    request.name = form.name ∧ input = request.arguments ++ tail

theorem sound_pure (request : Request) (harguments : request.arguments = []) :
    Sound ⟨request.name, pure request⟩ := by
  intro input read tail hread
  obtain ⟨rfl, rfl⟩ := (Decoder.pure_eq_ok_iff ..).mp hread
  rw [harguments]
  exact ⟨rfl, rfl⟩

theorem bumpOnly_eq_ok_iff (make : UInt8 → LendingCall) (input : Bytes) (request : Request)
    (tail : Bytes) :
    bumpOnly make input = .ok (request, tail) ↔
      ∃ bump, request = .forward (make bump) ∧ input = bump :: tail := by
  show ((Wire.decode : Decoder UInt8) >>= fun bump =>
    pure (Request.forward (make bump))) input = _ ↔ _
  simp only [Decoder.bind_eq_ok_iff, Decoder.pure_eq_ok_iff]
  refine ⟨fun hread => ?_, fun hwritten => ?_⟩
  · obtain ⟨bump, rest, hread, rfl, rfl⟩ := hread
    exact ⟨bump, rfl, (Decoder.exact_byte ..).mp hread⟩
  · obtain ⟨bump, rfl, rfl⟩ := hwritten
    exact ⟨bump, tail, (Decoder.exact_byte ..).mpr rfl, rfl, rfl⟩

theorem sound_bumpOnly {name : String} (make : UInt8 → LendingCall)
    (hname : ∀ bump, (make bump).name = name)
    (harguments : ∀ bump, (make bump).arguments = [bump]) :
    Sound ⟨name, bumpOnly make⟩ := by
  intro input request tail hread
  obtain ⟨bump, rfl, rfl⟩ := (bumpOnly_eq_ok_iff ..).mp hread
  refine ⟨hname bump, ?_⟩
  show bump :: tail = (make bump).arguments ++ tail
  rw [harguments]
  rfl

/-- `movement` reads a move in its direction, with a bump exactly when one is expected. -/
theorem movement_eq_ok_iff (direction : Direction) (withBump : Bool) (input : Bytes)
    (move : Custody) (tail : Bytes) :
    movement direction withBump input = .ok (move, tail) ↔
      move.direction = direction ∧ move.bump.isSome = withBump ∧
        input = move.arguments ++ tail := by
  obtain ⟨direction', bump, amount⟩ := move
  -- The decoder is a different one with a bump and without, so the cases come before the steps.
  cases withBump with
  | true =>
    show ((some <$> (Wire.decode : Decoder UInt8)) >>= fun bump =>
      (Wire.decode : Decoder Amount) >>= fun amount =>
        pure (Custody.mk direction bump amount)) input = _ ↔ _
    simp only [Decoder.bind_eq_ok_iff, Decoder.map_eq_ok_iff, Decoder.pure_eq_ok_iff,
      Decoder.exact_amount _]
    refine ⟨fun hread => ?_, fun hwritten => ?_⟩
    · obtain ⟨_, rest, ⟨b, hread, rfl⟩, amount', rest', rfl, hmove, rfl⟩ := hread
      cases hmove
      exact ⟨rfl, rfl, (Decoder.exact_byte ..).mp hread⟩
    · obtain ⟨rfl, hbump, rfl⟩ := hwritten
      obtain ⟨b, rfl⟩ := Option.isSome_iff_exists.mp hbump
      exact ⟨some b, _, ⟨b, (Decoder.exact_byte ..).mpr rfl, rfl⟩, amount, tail, rfl, rfl, rfl⟩
  | false =>
    show ((pure none : Decoder (Option UInt8)) >>= fun bump =>
      (Wire.decode : Decoder Amount) >>= fun amount =>
        pure (Custody.mk direction bump amount)) input = _ ↔ _
    simp only [Decoder.bind_eq_ok_iff, Decoder.pure_eq_ok_iff, Decoder.exact_amount _]
    refine ⟨fun hread => ?_, fun hwritten => ?_⟩
    · obtain ⟨_, rest, ⟨rfl, rfl⟩, amount', rest', rfl, hmove, rfl⟩ := hread
      cases hmove
      exact ⟨rfl, rfl, rfl⟩
    · obtain ⟨rfl, hbump, rfl⟩ := hwritten
      rw [Option.isSome_eq_false_iff, Option.isNone_iff_eq_none] at hbump
      subst hbump
      exact ⟨none, _, ⟨rfl, rfl⟩, amount, tail, rfl, rfl, rfl⟩

theorem transfer_eq_ok_iff (direction : Direction) (input : Bytes) (request : Request)
    (tail : Bytes) :
    transfer direction input = .ok (request, tail) ↔
      ∃ collateralBump depositBump amount,
        request = .forward (.transferCollateral direction collateralBump depositBump amount) ∧
          input = request.arguments ++ tail := by
  show ((Wire.decode : Decoder UInt8) >>= fun collateralBump =>
    (Wire.decode : Decoder UInt8) >>= fun depositBump =>
      (Wire.decode : Decoder Amount) >>= fun amount =>
        pure (Request.forward
          (.transferCollateral direction collateralBump depositBump amount))) input = _ ↔ _
  simp only [Decoder.bind_eq_ok_iff, Decoder.pure_eq_ok_iff, Decoder.exact_amount _]
  refine ⟨fun hread => ?_, fun hwritten => ?_⟩
  · obtain ⟨b, rest, hfirst, c, rest', hsecond, amount, _, rfl, rfl, rfl⟩ := hread
    refine ⟨b, c, amount, rfl, ?_⟩
    rw [(Decoder.exact_byte ..).mp hfirst, (Decoder.exact_byte ..).mp hsecond]
    rfl
  · obtain ⟨b, c, amount, rfl, rfl⟩ := hwritten
    exact ⟨b, _, (Decoder.exact_byte ..).mpr rfl, c, _, (Decoder.exact_byte ..).mpr rfl, amount,
      tail, rfl, rfl, rfl⟩

theorem borrowing_eq_ok_iff (input : Bytes) (request : Request) (tail : Bytes) :
    borrowing input = .ok (request, tail) ↔
      ∃ bump amount, request = .forward (.borrow bump amount) ∧
        input = request.arguments ++ tail := by
  show ((Wire.decode : Decoder UInt8) >>= fun bump =>
    (Wire.decode : Decoder Amount) >>= fun amount =>
      pure (Request.forward (.borrow bump amount))) input = _ ↔ _
  simp only [Decoder.bind_eq_ok_iff, Decoder.pure_eq_ok_iff, Decoder.exact_amount _]
  refine ⟨fun hread => ?_, fun hwritten => ?_⟩
  · obtain ⟨b, rest, hread, amount, _, rfl, rfl, rfl⟩ := hread
    exact ⟨b, amount, rfl, (Decoder.exact_byte ..).mp hread⟩
  · obtain ⟨b, amount, rfl, rfl⟩ := hwritten
    exact ⟨b, _, (Decoder.exact_byte ..).mpr rfl, amount, tail, rfl, rfl, rfl⟩

/-- Every instruction that moves tokens reads its movement by `movement`, whatever it is for. -/
theorem sound_movement {name : String} {direction : Direction} {withBump : Bool}
    (make : Custody → Request)
    (hname : ∀ move, move.direction = direction → move.bump.isSome = withBump →
      (make move).name = name)
    (harguments : ∀ move, (make move).arguments = move.arguments) :
    Sound ⟨name, make <$> movement direction withBump⟩ := by
  intro input request tail hread
  obtain ⟨move, hmove, rfl⟩ := (Decoder.map_eq_ok_iff ..).mp hread
  obtain ⟨hdirection, hbump, hinput⟩ := (movement_eq_ok_iff ..).mp hmove
  refine ⟨hname move hdirection hbump, ?_⟩
  rw [harguments]
  exact hinput

theorem repayment_eq_ok_iff (input : Bytes) (request : Request) (tail : Bytes) :
    repayment input = .ok (request, tail) ↔
      ∃ amount, request = .forward (.repay amount) ∧ input = request.arguments ++ tail := by
  show ((Wire.decode : Decoder Amount) >>= fun amount =>
    pure (Request.forward (.repay amount))) input = _ ↔ _
  simp only [Decoder.bind_eq_ok_iff, Decoder.pure_eq_ok_iff, Decoder.exact_amount _]
  refine ⟨fun hread => ?_, fun hwritten => ?_⟩
  · obtain ⟨amount, _, rfl, rfl, rfl⟩ := hread
    exact ⟨amount, rfl, rfl⟩
  · obtain ⟨amount, rfl, rfl⟩ := hwritten
    exact ⟨amount, tail, rfl, rfl, rfl⟩

/-- The name of the movements in a direction, with or without a bump. It is `Custody.name`, as
`custody_name` shows, without an amount to look at. -/
def movementName : Direction → Bool → String
  | .deposit, true => "deposit"
  | .deposit, false => "deposit_tokens"
  | .withdraw, true => "withdraw"
  | .withdraw, false => "withdraw_tokens"

theorem custody_name {move : Custody} {direction : Direction} {withBump : Bool}
    (hdirection : move.direction = direction) (hbump : move.bump.isSome = withBump) :
    move.name = movementName direction withBump := by
  subst hdirection
  subst hbump
  obtain ⟨direction, bump, amount⟩ := move
  cases direction <;> cases bump <;> rfl

/-- **Nothing else is read.** Whatever an instruction takes for its arguments is the written form of
a request of its own name. `forms` is a table of six shapes of arguments, each with its lemma from
above. -/
theorem sound_forms : ∀ form ∈ forms, Sound form := by
  have htransfer : ∀ direction name,
      (∀ collateralBump depositBump amount,
        (LendingCall.transferCollateral direction collateralBump depositBump amount).name = name) →
      Sound ⟨name, transfer direction⟩ := by
    intro direction name hname input request tail hread
    obtain ⟨collateralBump, depositBump, amount, rfl, hinput⟩ := (transfer_eq_ok_iff ..).mp hread
    exact ⟨hname .., hinput⟩
  have hborrow : Sound ⟨"borrow", borrowing⟩ := by
    intro input request tail hread
    obtain ⟨bump, amount, rfl, hinput⟩ := (borrowing_eq_ok_iff ..).mp hread
    exact ⟨rfl, hinput⟩
  have hrepay : Sound ⟨"repay", repayment⟩ := by
    intro input request tail hread
    obtain ⟨amount, rfl, hinput⟩ := (repayment_eq_ok_iff ..).mp hread
    exact ⟨rfl, hinput⟩
  have hcustody : ∀ direction withBump name,
      (∀ move : Custody, move.direction = direction → move.bump.isSome = withBump →
        move.name = name) →
      Sound ⟨name, (.forward ∘ .custody) <$> movement direction withBump⟩ := fun _ _ _ hname =>
    sound_movement (.forward ∘ .custody) hname fun _ => rfl
  have haccrue : ∀ direction withBump name,
      (∀ move : Custody, move.direction = direction → move.bump.isSome = withBump →
        "accrue_" ++ move.name = name) →
      Sound ⟨name, .accrueThen <$> movement direction withBump⟩ := fun _ _ _ hname =>
    sound_movement .accrueThen hname fun _ => rfl
  simp only [forms, List.forall_mem_cons, List.not_mem_nil, false_implies, implies_true, and_true]
  -- The table, line by line.
  refine ⟨sound_pure (.forward .refreshReserve) rfl,
    sound_pure (.forward .refreshPsyfiReserve) rfl, sound_pure (.forward .accrueInterest) rfl,
    sound_bumpOnly .initObligation (fun _ => rfl) (fun _ => rfl),
    sound_pure (.forward .closeObligation) rfl,
    sound_bumpOnly .initDepositAccount (fun _ => rfl) (fun _ => rfl),
    sound_pure (.forward .closeDepositAccount) rfl,
    hcustody _ _ _ fun _ => custody_name, hcustody _ _ _ fun _ => custody_name,
    hcustody _ _ _ fun _ => custody_name, hcustody _ _ _ fun _ => custody_name,
    sound_bumpOnly .initCollateralAccount (fun _ => rfl) (fun _ => rfl),
    sound_pure (.forward .closeCollateralAccount) rfl,
    htransfer _ _ fun _ _ _ => rfl, htransfer _ _ fun _ _ _ => rfl,
    sound_bumpOnly .initLoanAccount (fun _ => rfl) (fun _ => rfl),
    sound_pure (.forward .closeLoanAccount) rfl, hborrow, hrepay, ?_, ?_, ?_, ?_,
    sound_pure (.report .currentInterest) rfl, sound_pure (.report .reserveBalance) rfl,
    sound_pure (.report .userBalance) rfl, sound_pure .callDummy rfl⟩
  -- The names of the composed instructions are put together, so they are compared as texts.
  all_goals
    apply haccrue
    intro move hdirection hbump
    rw [custody_name hdirection hbump]
    decide

/-- How the arguments of a request are read: the decoder that `forms` has for its name. -/
def decoder : Request → Decoder Request
  | forward (.initObligation _) => bumpOnly .initObligation
  | forward (.initDepositAccount _) => bumpOnly .initDepositAccount
  | forward (.initCollateralAccount _) => bumpOnly .initCollateralAccount
  | forward (.initLoanAccount _) => bumpOnly .initLoanAccount
  | forward (.custody move) =>
    (.forward ∘ .custody) <$> movement move.direction move.bump.isSome
  | forward (.transferCollateral direction _ _ _) => transfer direction
  | forward (.borrow _ _) => borrowing
  | forward (.repay _) => repayment
  | accrueThen move => .accrueThen <$> movement move.direction move.bump.isSome
  | request => pure request

/-- Every request is among `forms` under its name. -/
theorem form_mem_forms (request : Request) : ⟨request.name, request.decoder⟩ ∈ forms := by
  -- A name is known once the direction and the presence of a bump are.
  cases request with
  | forward call =>
    cases call with
    | custody move =>
      obtain ⟨direction, bump, amount⟩ := move
      cases direction <;> cases bump <;>
        simp [forms, name, decoder, LendingCall.name, Custody.name]
    | transferCollateral direction collateralBump depositBump amount =>
      cases direction <;> simp [forms, name, decoder, LendingCall.name]
    | _ => simp [forms, name, decoder, LendingCall.name]
  | accrueThen move =>
    obtain ⟨direction, bump, amount⟩ := move
    cases direction <;> cases bump <;> simp [forms, name, decoder, Custody.name]
  | report report => cases report <;> simp [forms, name, decoder, Report.name]
  | callDummy => simp [forms, name, decoder]

/-- **Everything written is read back**, whatever comes behind it. Again one case for each shape of
arguments. -/
theorem decoder_arguments (request : Request) (tail : Bytes) :
    request.decoder (request.arguments ++ tail) = .ok (request, tail) := by
  cases request with
  | forward call =>
    cases call with
    | initObligation bump => exact (bumpOnly_eq_ok_iff ..).mpr ⟨bump, rfl, rfl⟩
    | initDepositAccount bump => exact (bumpOnly_eq_ok_iff ..).mpr ⟨bump, rfl, rfl⟩
    | initCollateralAccount bump => exact (bumpOnly_eq_ok_iff ..).mpr ⟨bump, rfl, rfl⟩
    | initLoanAccount bump => exact (bumpOnly_eq_ok_iff ..).mpr ⟨bump, rfl, rfl⟩
    | custody move =>
      have hmove : movement move.direction move.bump.isSome (move.arguments ++ tail) =
          .ok (move, tail) := (movement_eq_ok_iff ..).mpr ⟨rfl, rfl, rfl⟩
      exact (Decoder.map_eq_ok_iff ..).mpr ⟨move, hmove, rfl⟩
    | transferCollateral direction collateralBump depositBump amount =>
      exact (transfer_eq_ok_iff ..).mpr ⟨collateralBump, depositBump, amount, rfl, rfl⟩
    | borrow bump amount => exact (borrowing_eq_ok_iff ..).mpr ⟨bump, amount, rfl, rfl⟩
    | repay amount => exact (repayment_eq_ok_iff ..).mpr ⟨amount, rfl, rfl⟩
    | _ => rfl
  | accrueThen move =>
    have hmove : movement move.direction move.bump.isSome (move.arguments ++ tail) =
        .ok (move, tail) := (movement_eq_ok_iff ..).mpr ⟨rfl, rfl, rfl⟩
    exact (Decoder.map_eq_ok_iff ..).mpr ⟨move, hmove, rfl⟩
  | report report => rfl
  | callDummy => rfl

end Request

end LendingRelay
