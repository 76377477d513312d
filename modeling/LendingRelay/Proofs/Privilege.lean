import LendingRelay.Proofs.Serving

/-!
# No call has more privileges than were given

A call that goes out may mark accounts as signers and as writable, and it may carry seeds that sign
for the relay's own addresses. All of this has to come from the caller: a signature from the owner
of the call, or the relay's authority of the very market that the call is for, and writability from
the supplied accounts.

* `Invocation.SignedFor`, `Invocation.Unsigned`: what a call may be signed with.
* `LendingCall.Issued.signedAs`: calls of the lending program are signed for their owner only.
* `LendingCall.Issued.exists_supplied`: whatever a call names was supplied for it.
* `Relay.confined_of_call`: no call of the relay has privileges that were not given.
-/

namespace LendingRelay

/-! ## Signatures of a call -/

namespace Invocation

/-- The accounts that the call marks as signers by `AccountMeta.signer`. -/
def signers (invocation : Invocation) : List Pubkey :=
  (invocation.instruction.accounts.filter AccountMeta.signer).map AccountMeta.key

/-- Nobody signs: no account is among `signers`, and there are no seeds. -/
structure Unsigned (invocation : Invocation) : Prop where
  signers : invocation.signers = []
  seeds : invocation.seeds = []

/-- The owner is the only one of `signers`, and either signed for itself or is the relay's authority
of the market. In the second case the call carries the one list of seeds from which
`createProgramAddress?` makes the owner's address. -/
structure SignedFor (invocation : Invocation) (owner : Account) (market : Pubkey) : Prop where
  signers : invocation.signers = [owner.key]
  market_first : invocation.instruction.accounts.head?.map AccountMeta.key = some market
  consent :
    (owner.signer = true ∧ invocation.seeds = []) ∨
      (owner.signer = false ∧ ∃ bump : UInt8,
        invocation.seeds = [[Bytes.ofText "relay_authority", market.bytes, [bump]]] ∧
          createProgramAddress? [Bytes.ofText "relay_authority", market.bytes, [bump]]
            relayProgram = some owner.key)

end Invocation

/-- How a call of the lending program is signed: for the account in its `LendingCall.ownerRole?`, if
it has one. -/
def LendingCall.SignedAs (call : LendingCall) (own : List Account) (invocation : Invocation) :
    Prop :=
  match call.ownerRole? with
  | none => invocation.Unsigned
  | some role =>
    role ∈ [Role.owner, .borrower, .depositor, .payer] ∧ (call.seats own).account role ∈ own ∧
      invocation.SignedFor ((call.seats own).account role) ((call.seats own).key .market)

theorem LendingCall.ownerRole_mem {call : LendingCall} {role : Role}
    (hrole : call.ownerRole? = some role) :
    role ∈ [Role.owner, .borrower, .depositor, .payer] := by
  cases call <;> cases hrole <;> decide

/-- The two ways of `Consents` leave the two kinds of seeds that `Invocation.SignedFor` allows. The
second comes with the address, by `RelayAuthority.of_derive`. -/
theorem Consents.seeds {owner : Account} {market : Pubkey} {authority : Option RelayAuthority}
    (hconsents : Consents owner market authority) :
    (owner.signer = true ∧ authority.toList.map RelayAuthority.signerSeeds = []) ∨
      (owner.signer = false ∧ ∃ bump : UInt8,
        authority.toList.map RelayAuthority.signerSeeds =
            [[Bytes.ofText "relay_authority", market.bytes, [bump]]] ∧
          createProgramAddress? [Bytes.ofText "relay_authority", market.bytes, [bump]]
            relayProgram = some owner.key) := by
  cases hconsents with
  | signed hsigner => exact .inl ⟨hsigner, rfl⟩
  | @relay derived hunsigned hderive hkey =>
    obtain ⟨hmarket, haddress⟩ := RelayAuthority.of_derive hderive
    have hseeds : derived.signerSeeds =
        [Bytes.ofText "relay_authority", market.bytes, [derived.bump]] := by
      rw [← hmarket]
      rfl
    refine .inr ⟨hunsigned, derived.bump, ?_, ?_⟩
    · show [derived.signerSeeds] = _
      rw [hseeds]
    · rw [← hseeds, haddress, hkey]

namespace LendingCall.Issued

variable {call : LendingCall} {own accounts : List Account} {authority : Option RelayAuthority}
  {invocation : Invocation}

/-- A call of the lending program is signed for its owner and for nobody else.
`LendingCall.signers_eq_supplied` gives the signer, `Consents.seeds` the seeds. -/
theorem signedAs (hissued : call.Issued own authority accounts invocation) :
    call.SignedAs own invocation := by
  have hsigners : invocation.signers = call.ownerRole?.toList.map (call.seats own).key := by
    rw [Invocation.signers, hissued.instruction]
    exact call.signers_eq_supplied _ _
  have howner := hissued.admits.authorized.owner
  unfold LendingCall.SignedAs
  -- Without an owner nobody has to consent, and then `authority` is `none`.
  cases hrole : call.ownerRole? with
  | none =>
    rw [hrole] at howner hsigners
    refine ⟨hsigners, ?_⟩
    rw [hissued.seeds, howner]
    rfl
  | some role =>
    rw [hrole] at howner hsigners
    obtain ⟨slot, hslot, hslotRole⟩ := call.owner_mem_slots hrole
    refine ⟨ownerRole_mem hrole, ?_, hsigners, ?_, ?_⟩
    · rw [← hslotRole]
      exact account_mem hissued.admits.fits hslot
    · rw [hissued.instruction]
      exact call.market_head _ _
    · rw [hissued.seeds]
      exact howner.seeds

/-! ## Accounts of a call -/

/-- Whatever the call names was supplied for one of its declared accounts, and is writable in the
call exactly when `Slot.writable` says so. `LendingCall.metas_eq_supplied` compares the
two lists. -/
theorem exists_supplied (hissued : call.Issued own authority accounts invocation)
    {named : AccountMeta} (hnamed : named ∈ invocation.instruction.accounts) :
    ∃ slot account, (slot, account) ∈ call.supplied own ∧
      account.key = named.key ∧ slot.writable = named.writable := by
  -- Named and supplied accounts are equal as lists of keys and flags, so membership carries over.
  have hmem : (named.key, named.writable) ∈
      (call.supplied own).map fun pair => (pair.2.key, pair.1.writable) := by
    rw [← metas_eq_supplied hissued.admits.fits, ← hissued.instruction]
    exact List.mem_map_of_mem (f := fun named : AccountMeta => (named.key, named.writable)) hnamed
  obtain ⟨⟨slot, account⟩, hpair, heq⟩ := List.mem_map.mp hmem
  rw [Prod.mk.injEq] at heq
  exact ⟨slot, account, hpair, heq.1, heq.2⟩

/-- A writable account of the call was supplied as writable, since a supplied account fits its slot
by `Slot.Fits.writable`. -/
theorem writable (hissued : call.Issued own authority accounts invocation) {named : AccountMeta}
    (hnamed : named ∈ invocation.instruction.accounts) (hwritable : named.writable = true) :
    ∃ account ∈ accounts, account.key = named.key ∧ account.writable = true := by
  obtain ⟨slot, account, hpair, hkey, hslot⟩ := hissued.exists_supplied hnamed
  have hzip := (List.mem_filter.mp hpair).1
  have hfit := hissued.admits.fits.each slot account hzip
  refine ⟨account, hissued.own_subset account (List.of_mem_zip hzip).2, hkey, ?_⟩
  exact hfit.writable (hslot.trans hwritable)

/-- Every account of the call is passed along with it, by `LendingCall.mem_passedAlong`. -/
theorem named_mem_infos (hissued : call.Issued own authority accounts invocation)
    {named : AccountMeta} (hnamed : named ∈ invocation.instruction.accounts) :
    ∃ info ∈ invocation.infos, info.key = named.key := by
  obtain ⟨slot, account, hpair, hkey, -⟩ := hissued.exists_supplied hnamed
  have hpassed := mem_passedAlong hissued.admits.fits hpair
  exact ⟨account.toMeta, hissued.passed account hpassed, hkey⟩

/-- The called program is passed along as well, under `Role.lendingProgram`. -/
theorem callee_mem_infos (hissued : call.Issued own authority accounts invocation) :
    ∃ info ∈ invocation.infos, info.key = invocation.instruction.program := by
  have hpassed : (call.seats own).account .lendingProgram ∈ call.passedAlong (call.seats own) :=
    List.mem_map_of_mem call.lendingProgram_mem_infos
  refine ⟨_, hissued.passed _ hpassed, ?_⟩
  rw [hissued.instruction]
  exact lendingProgram_key hissued.admits.fits

end LendingCall.Issued

/-! ## Calls of the relay -/

/-- The calls, by request and place, that need nobody's consent: refreshing a reserve, accruing its
interest, alone or ahead of a movement, and `Request.callDummy`. -/
def Request.Upkeep : Request → Nat → Prop
  | .forward .refreshReserve, _ => True
  | .forward .refreshPsyfiReserve, _ => True
  | .forward .accrueInterest, _ => True
  | .accrueThen _, 0 => True
  | .callDummy, _ => True
  | _, _ => False

namespace Relay

/-- The call at place `i` has no privileges but those that the caller gave. This is about flags,
keys and seeds only; what the call says is `Forwards`. -/
structure Confined (request : Request) (accounts : List Account) (i : Nat)
    (invocation : Invocation) : Prop where
  /-- Only the owner signs, and only by its own consent. -/
  signed :
    match request.callAt? accounts i with
    | some (call, own) => (∀ account ∈ own, account ∈ accounts) ∧ call.SignedAs own invocation
    | none => invocation.Unsigned
  /-- Nobody signs for upkeep. -/
  upkeep : request.Upkeep i → invocation.Unsigned
  /-- What the call may write was supplied as writable. -/
  writable : ∀ named ∈ invocation.instruction.accounts, named.writable = true →
    ∃ account ∈ accounts, account.key = named.key ∧ account.writable = true
  /-- What the call names is passed along. -/
  named : ∀ named ∈ invocation.instruction.accounts, ∃ info ∈ invocation.infos, info.key = named.key
  /-- The called program is passed along. -/
  callee : ∃ info ∈ invocation.infos, info.key = invocation.instruction.program
  /-- What is passed along was supplied, and is passed as it was supplied. -/
  infos : ∀ info ∈ invocation.infos, ∃ account ∈ accounts, info = account.toMeta

/-- `Request.Upkeep` is about calls without a `LendingCall.ownerRole?`. -/
theorem ownerRole_of_upkeep {request : Request} {accounts own : List Account} {i : Nat}
    {call : LendingCall} (hcall : request.callAt? accounts i = some (call, own))
    (hupkeep : request.Upkeep i) : call.ownerRole? = none := by
  -- At the place of a composed movement itself there is no upkeep, and elsewhere the call is known.
  match request, i with
  | .forward lending, 0 =>
    cases hcall
    cases call <;> first | rfl | exact hupkeep.elim
  | .accrueThen _, 0 =>
    cases hcall
    rfl
  | .accrueThen _, i + 1 => exact hupkeep.elim

/-- A call of the lending program is `Confined`: the facts about `LendingCall.Issued` one by one. -/
theorem confined_of_issued {request : Request} {accounts own : List Account} {i : Nat}
    {call : LendingCall} {authority : Option RelayAuthority} {invocation : Invocation}
    (hcall : request.callAt? accounts i = some (call, own))
    (hissued : call.Issued own authority accounts invocation) :
    Confined request accounts i invocation where
  signed := by
    rw [hcall]
    exact ⟨hissued.own_subset, hissued.signedAs⟩
  upkeep := by
    intro hupkeep
    have hsigned := hissued.signedAs
    rw [LendingCall.SignedAs, ownerRole_of_upkeep hcall hupkeep] at hsigned
    exact hsigned
  writable := fun _ hnamed hwritable => hissued.writable hnamed hwritable
  named := fun _ hnamed => hissued.named_mem_infos hnamed
  callee := hissued.callee_mem_infos
  infos := hissued.infos_subset

/-- The call of the dummy program names one account, unsigned and read-only, and passes along that
account and the program, which is pinned by `SlotKind.key?`. -/
theorem confined_dummy {accounts : List Account}
    (hfits : Seating.Fits relayProgram dummySlots accounts) :
    Confined .callDummy accounts 0 (dummyInvocation accounts) := by
  have hroles : (dummySlots.map Slot.role).Nodup := by decide
  -- The two declared accounts are among the supplied ones; the second is the dummy program.
  have hacc := Seating.mem_zip_account relayProgram hroles hfits.enough
    (List.mem_cons_self (a := Slot.readOnly .dummyAcc))
  have hprogram := Seating.mem_zip_account relayProgram hroles hfits.enough
    (List.mem_cons_of_mem _ (List.mem_singleton.mpr rfl) : Slot.dummyProgram ∈ dummySlots)
  have hkey : Slot.dummyProgram.kind.key? = some dummyProgram := rfl
  refine
    { signed := ⟨rfl, rfl⟩
      upkeep := fun _ => ⟨rfl, rfl⟩
      writable := ?_
      named := ?_
      callee := ⟨_, List.mem_cons_of_mem _ (List.mem_singleton.mpr rfl),
        (hfits.each _ _ hprogram).key_eq hkey⟩
      infos := ?_ }
  · intro named hnamed hwritable
    rw [List.mem_singleton.mp hnamed] at hwritable
    cases hwritable
  · intro named hnamed
    rw [List.mem_singleton.mp hnamed]
    exact ⟨_, List.mem_cons_self, rfl⟩
  · intro info hinfo
    rcases List.mem_cons.mp hinfo with rfl | hlast
    · exact ⟨_, (List.of_mem_zip hacc).2, rfl⟩
    · rw [List.mem_singleton.mp hlast]
      exact ⟨_, (List.of_mem_zip hprogram).2, rfl⟩

/-- **No privilege escalation.** Every call that a call of the relay makes, whatever its accounts,
its data and the ends of its calls are, is `Confined` to what the caller gave. The one exception is
data that starts with `Program.idlSelector`: there the calls are those of `Framework.idl`, whose
code is not the relay's. -/
theorem confined_of_call {framework : Framework} {id : Pubkey} {accounts : List Account}
    {data : Bytes} {script : Script} {i : Nat} {invocation : Invocation}
    (hcall : (Trace.calls (outcome framework id accounts data script).trace)[i]? =
      some invocation) :
    (∃ request tail, program.Reads id data request tail ∧
        Confined request accounts i invocation) ∨
      ∃ rest, program.ReadsIdl id data rest ∧
        (Trace.calls (framework.idl id accounts rest script).trace)[i]? = some invocation := by
  rcases dispatches_of_call hcall with ⟨request, tail, hreads, hdispatches⟩ | hframework
  case inr => exact .inr hframework
  refine .inl ⟨request, tail, hreads, ?_⟩
  -- Where the call stands in the request does not matter any more, only whose call it is.
  rcases hdispatches.cases_lending with ⟨call, own, authority, hat, hissued⟩ | hdummy
  · exact confined_of_issued hat hissued
  · obtain ⟨rfl, rfl, hfits, rfl⟩ := hdummy
    exact confined_dummy hfits

/-- `poolDeposit`, which the relay signs for, is confined to what its caller gave. -/
theorem confined_poolDeposit :
    (Trace.calls (outcome .withoutIdl relayProgram poolAccounts
        ((Request.forward poolDeposit).data ++ [0xff]) []).trace)[0]? =
        some (poolDeposit.invocation poolAccounts (some poolAuthority)) ∧
      ∃ request tail,
        program.Reads relayProgram ((Request.forward poolDeposit).data ++ [0xff]) request tail ∧
          Confined request poolAccounts 0
            (poolDeposit.invocation poolAccounts (some poolAuthority)) := by
  have hcall : (Trace.calls (outcome .withoutIdl relayProgram poolAccounts
      ((Request.forward poolDeposit).data ++ [0xff]) []).trace)[0]? =
      some (poolDeposit.invocation poolAccounts (some poolAuthority)) := by
    rw [calls_outcome, calls_serve_poolDeposit]
    rfl
  refine ⟨hcall, ?_⟩
  rcases confined_of_call hcall with hconfined | ⟨rest, hidl, -⟩
  · exact hconfined
  · exact absurd hidl (not_readsIdl_of_reads (reads_data (.forward poolDeposit) [0xff]) rest)

end Relay

end LendingRelay
